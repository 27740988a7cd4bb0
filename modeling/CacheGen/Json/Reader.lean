import CacheGen.Json
import CacheGen.OrderedMap

/-!
# Reading JSON

The strict grammar: no comments, no comma behind the last element, nothing but blanks around the
value. Of two members with one key the later counts, in the place of the earlier. An escaped
surrogate without its partner reads as U+FFFD.

Each reader takes the text and gives the value with the rest of the text. The depth of nesting is
bounded by the length of the text, which serves as the bound of the recursion.
-/

namespace CacheGen.Json

def isSpace (c : Char) : Bool := c = ' ' || c = '\t' || c = '\n' || c = '\r'

def skipSpace (cs : List Char) : List Char := cs.dropWhile isSpace

/-- The rest behind `word`, if the text begins with it. -/
def expect (word : String) (cs : List Char) : Option (List Char) :=
  word.toList.isPrefixOf? cs

/-! ## Numbers -/

/-- A run of digits that is not empty. -/
def digits? (cs : List Char) : Option (List Char × List Char) :=
  match cs.takeWhile Char.isDigit with
  | [] => none
  | ds => some (ds, cs.dropWhile Char.isDigit)

def readWhole : List Char → Option (List Char × List Char)
  | '0' :: cs => some (['0'], cs)
  | cs => digits? cs

def readFraction : List Char → Option (List Char × List Char)
  | '.' :: cs => (digits? cs).map fun (ds, rest) => ('.' :: ds, rest)
  | cs => some ([], cs)

def readExponent : List Char → Option (List Char × List Char)
  | c :: cs =>
    if c = 'e' ∨ c = 'E' then
      let (sign, cs) := match cs with
        | '+' :: cs => (['+'], cs)
        | '-' :: cs => (['-'], cs)
        | cs => ([], cs)
      (digits? cs).map fun (ds, rest) => (c :: sign ++ ds, rest)
    else some ([], c :: cs)
  | [] => some ([], [])

def readNumber (cs : List Char) : Option (Json × List Char) := do
  let (sign, cs) := match cs with
    | '-' :: cs => (['-'], cs)
    | cs => ([], cs)
  let (whole, cs) ← readWhole cs
  let (fraction, cs) ← readFraction cs
  let (exponent, cs) ← readExponent cs
  return (number (String.ofList (sign ++ whole ++ fraction ++ exponent)), cs)

/-! ## Strings -/

def hexValue? (c : Char) : Option Nat :=
  if c.isDigit then some (c.toNat - '0'.toNat)
  else if 'a' ≤ c ∧ c ≤ 'f' then some (c.toNat - 'a'.toNat + 10)
  else if 'A' ≤ c ∧ c ≤ 'F' then some (c.toNat - 'A'.toNat + 10)
  else none

def readUnit : List Char → Option (Nat × List Char)
  | a :: b :: c :: d :: cs => do
    let a ← hexValue? a
    let b ← hexValue? b
    let c ← hexValue? c
    let d ← hexValue? d
    return (((a * 16 + b) * 16 + c) * 16 + d, cs)
  | _ => none

def isHighSurrogate (n : Nat) : Bool := 0xD800 ≤ n && n < 0xDC00

def isLowSurrogate (n : Nat) : Bool := 0xDC00 ≤ n && n < 0xE000

/-- The character of the unit `high` with what follows it. -/
def joinUnits (high : Nat) (cs : List Char) : Char × List Char :=
  let lone := Char.ofNat 0xFFFD
  if isHighSurrogate high then
    match cs with
    | '\\' :: 'u' :: rest =>
      match readUnit rest with
      | some (low, rest) =>
        if isLowSurrogate low then
          (Char.ofNat (0x10000 + (high - 0xD800) * 0x400 + (low - 0xDC00)), rest)
        else (lone, cs)
      | none => (lone, cs)
    | _ => (lone, cs)
  else if isLowSurrogate high then (lone, cs)
  else (Char.ofNat high, cs)

/-- The character of the escape behind a backslash. -/
def readEscape : List Char → Option (Char × List Char)
  | '"' :: cs => some ('"', cs)
  | '\\' :: cs => some ('\\', cs)
  | '/' :: cs => some ('/', cs)
  | 'b' :: cs => some (Char.ofNat 0x08, cs)
  | 'f' :: cs => some (Char.ofNat 0x0C, cs)
  | 'n' :: cs => some ('\n', cs)
  | 'r' :: cs => some ('\r', cs)
  | 't' :: cs => some ('\t', cs)
  | 'u' :: cs => (readUnit cs).map fun (n, rest) => joinUnits n rest
  | _ => none

/-- The characters up to the closing quote. -/
def readChars : Nat → List Char → Option (List Char × List Char)
  | 0, _ => none
  | _, [] => none
  | _, '"' :: cs => some ([], cs)
  | n + 1, '\\' :: cs => do
    let (c, cs) ← readEscape cs
    let (s, cs) ← readChars n cs
    return (c :: s, cs)
  | n + 1, c :: cs =>
    if c.toNat < 0x20 then none
    else do
      let (s, cs) ← readChars n cs
      return (c :: s, cs)

/-- The string behind an opening quote. -/
def readString (cs : List Char) : Option (String × List Char) :=
  (readChars (cs.length + 1) cs).map fun (s, rest) => (String.ofList s, rest)

/-! ## Values -/

mutual

def readValue : Nat → List Char → Option (Json × List Char)
  | 0, _ => none
  | n + 1, cs =>
    match skipSpace cs with
    | '\x7b' :: cs =>
      match skipSpace cs with
      | '\x7d' :: cs => some (object [], cs)
      | cs => (readMembers n [] cs).map fun (ms, rest) => (object ms, rest)
    | '[' :: cs =>
      match skipSpace cs with
      | ']' :: cs => some (array [], cs)
      | cs => (readItems n cs).map fun (items, rest) => (array items, rest)
    | '"' :: cs => (readString cs).map fun (s, rest) => (string s, rest)
    | 't' :: cs => (expect "rue" cs).map fun rest => (bool true, rest)
    | 'f' :: cs => (expect "alse" cs).map fun rest => (bool false, rest)
    | 'n' :: cs => (expect "ull" cs).map fun rest => (null, rest)
    | cs => readNumber cs

/-- The items up to the closing bracket, at least one. -/
def readItems : Nat → List Char → Option (List Json × List Char)
  | 0, _ => none
  | n + 1, cs => do
    let (item, cs) ← readValue n cs
    match skipSpace cs with
    | ',' :: cs =>
      let (items, cs) ← readItems n cs
      return (item :: items, cs)
    | ']' :: cs => return ([item], cs)
    | _ => none

/-- The members behind those in `earlier` up to the closing brace, at least one. -/
def readMembers : Nat → List (String × Json) → List Char →
    Option (List (String × Json) × List Char)
  | 0, _, _ => none
  | n + 1, earlier, cs => do
    let cs ← expect "\"" (skipSpace cs)
    let (key, cs) ← readString cs
    let cs ← expect ":" (skipSpace cs)
    let (value, cs) ← readValue n cs
    let members := putEntry key value earlier
    match skipSpace cs with
    | ',' :: cs => readMembers n members cs
    | '\x7d' :: cs => return (members, cs)
    | _ => none

end

/-- The value of a whole text. -/
def parse? (text : String) : Option Json := do
  let (value, rest) ← readValue (text.length + 1) text.toList
  if (skipSpace rest).isEmpty then some value else none

end CacheGen.Json
