import CacheGen.Json

/-!
# Plain scalars

What a YAML scalar without quotes stands for: nothing, a truth value, a number, or else its text.
Numbers keep their spelling.
-/

namespace CacheGen.Yaml

def isDigitOrGap (c : Char) : Bool := c.isDigit || c = '_'

def dropSign : List Char → List Char
  | '+' :: cs => cs
  | '-' :: cs => cs
  | cs => cs

/-- Digits of one base with gaps between them, at least one digit and no gap at the end. -/
def isDigitRun (isDigit : Char → Bool) (cs : List Char) : Bool :=
  cs.any isDigit && cs.all (fun c => isDigit c || c = '_') && cs.getLast? != some '_'

def isInteger (cs : List Char) : Bool :=
  match dropSign cs with
  | '0' :: 'b' :: ds => isDigitRun (fun c => c = '0' || c = '1') ds
  | '0' :: 'x' :: ds =>
    isDigitRun (fun c => c.isDigit || ('a' ≤ c && c ≤ 'f') || ('A' ≤ c && c ≤ 'F')) ds
  | '0' :: 'o' :: ds => isDigitRun (fun c => '0' ≤ c && c ≤ '7') ds
  | '_' :: _ => false
  | ds => isDigitRun Char.isDigit ds

/-- Nothing, or an exponent. -/
def isExponentPart : List Char → Bool
  | [] => true
  | c :: cs =>
    (c = 'e' || c = 'E') && !(dropSign cs).isEmpty && (dropSign cs).all Char.isDigit

def isFloat (cs : List Char) : Bool :=
  let unsigned := dropSign cs
  let named := String.ofList unsigned
  if named ∈ [".inf", ".Inf", ".INF"] then true
  else if String.ofList cs ∈ [".nan", ".NaN", ".NAN"] then true
  else if cs.getLast? = some '_' then false
  else
    match unsigned with
    | '.' :: rest =>
      -- A sign does not go with a bare fraction.
      cs = unsigned && (rest.head?.any isDigitOrGap) &&
        isExponentPart (rest.dropWhile isDigitOrGap)
    | c :: rest =>
      c.isDigit &&
        match rest.dropWhile isDigitOrGap with
        | '.' :: rest => isExponentPart (rest.dropWhile isDigitOrGap)
        | rest => isExponentPart rest
    | [] => false

/-- The value of a plain scalar. -/
def scalarValue (s : String) : Json :=
  if s ∈ ["", "~", "null", "Null", "NULL"] then .null
  else if s ∈ ["true", "True", "TRUE"] then .bool true
  else if s ∈ ["false", "False", "FALSE"] then .bool false
  else if isInteger s.toList || isFloat s.toList then .number s
  else .string s

end CacheGen.Yaml
