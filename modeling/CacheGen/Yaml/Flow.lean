import CacheGen.Json.Reader
import CacheGen.OrderedMap
import CacheGen.Yaml.Scalar

/-!
# Quoted scalars and flow collections

The parts of YAML that end at a closing mark and not at the end of a line: text in quotes, lists in
brackets and mappings in braces. They may run over several lines.

As in the JSON reader, each function gives the rest of the text, and recursion is bounded by the
length of the text.
-/

namespace CacheGen.Yaml

def isSpace (c : Char) : Bool := c = ' ' || c = '\t'

/-- Two keys that are the same make a mapping invalid. -/
def addMember (members : List (String × Json)) (key : String) (value : Json) :
    Option (List (String × Json)) :=
  if key ∈ members.map Prod.fst then none else some (putEntry key value members)

/-! ## Quotes -/

/-- Behind a line break inside quotes: the breaks that stay, and the text. One break is a blank,
more of them are one break less. -/
def foldBreaks (cs : List Char) : List Char × List Char :=
  let white := cs.takeWhile fun c => isSpace c || c = '\n'
  let breaks := white.count '\n'
  (if breaks ≤ 1 then [' '] else List.replicate (breaks - 1) '\n',
    cs.dropWhile fun c => isSpace c || c = '\n')

/-- The blanks next stand at the end of their line. -/
def endsLine (cs : List Char) : Bool := (cs.dropWhile isSpace).head? = some '\n'

/-- The text up to the closing single quote; two of them are one. -/
def readSingle : Nat → List Char → Option (List Char × List Char)
  | 0, _ => none
  | _, [] => none
  | n + 1, '\x27' :: '\x27' :: cs => (readSingle n cs).map fun (s, rest) => ('\x27' :: s, rest)
  | _, '\x27' :: cs => some ([], cs)
  | n + 1, c :: cs =>
    if endsLine (c :: cs) then
      let (kept, cs) := foldBreaks (c :: cs)
      (readSingle n cs).map fun (s, rest) => (kept ++ s, rest)
    else (readSingle n cs).map fun (s, rest) => (c :: s, rest)

/-- The number that the next `count` hexadecimal digits spell. -/
def readHex : Nat → Nat → List Char → Option (Nat × List Char)
  | 0, acc, cs => some (acc, cs)
  | n + 1, acc, c :: cs => do
    let d ← Json.hexValue? c
    readHex n (acc * 16 + d) cs
  | _ + 1, _, [] => none

/-- The escapes of one letter. -/
def escapes : List (Char × Nat) := [
  ('0', 0x00), ('a', 0x07), ('b', 0x08), ('t', 0x09), ('\t', 0x09), ('n', 0x0A), ('v', 0x0B),
  ('f', 0x0C), ('r', 0x0D), ('e', 0x1B), (' ', 0x20), ('"', 0x22), ('/', 0x2F), ('\\', 0x5C),
  ('N', 0x85), ('_', 0xA0), ('L', 0x2028), ('P', 0x2029)]

def readEscape : List Char → Option (Char × List Char)
  | 'x' :: cs => (readHex 2 0 cs).map fun (n, rest) => (Char.ofNat n, rest)
  | 'u' :: cs => (readHex 4 0 cs).map fun (n, rest) => Json.joinUnits n rest
  | 'U' :: cs => (readHex 8 0 cs).map fun (n, rest) => (Char.ofNat n, rest)
  | c :: cs => (escapes.find? (·.1 = c)).map fun e => (Char.ofNat e.2, cs)
  | [] => none

/-- The text up to the closing double quote. -/
def readDouble : Nat → List Char → Option (List Char × List Char)
  | 0, _ => none
  | _, [] => none
  | _, '"' :: cs => some ([], cs)
  | n + 1, '\\' :: '\n' :: cs => readDouble n (cs.dropWhile isSpace)
  | n + 1, '\\' :: cs => do
    let (c, cs) ← readEscape cs
    (readDouble n cs).map fun (s, rest) => (c :: s, rest)
  | n + 1, c :: cs =>
    if endsLine (c :: cs) then
      let (kept, cs) := foldBreaks (c :: cs)
      (readDouble n cs).map fun (s, rest) => (kept ++ s, rest)
    else (readDouble n cs).map fun (s, rest) => (c :: s, rest)

/-- A scalar in quotes, if a quote comes next. -/
def readQuoted : List Char → Option (String × List Char)
  | '\x27' :: cs => (readSingle (cs.length + 1) cs).map fun (s, rest) => (String.ofList s, rest)
  | '"' :: cs => (readDouble (cs.length + 1) cs).map fun (s, rest) => (String.ofList s, rest)
  | _ => none

/-! ## Collections -/

/-- Skip blanks, line breaks and comments; a comment has a blank in front. -/
def skipGap : Bool → List Char → List Char
  | _, [] => []
  | inComment, c :: cs =>
    if inComment then skipGap (c ≠ '\n') cs
    else if isSpace c || c = '\n' then
      match cs with
      | '#' :: _ => skipGap true cs
      | _ => skipGap false cs
    else c :: cs

def isFlowMark (c : Char) : Bool := c = ',' || c = '[' || c = ']' || c = '\x7b' || c = '\x7d'

/-- The plain scalar that comes next inside a collection. It ends at a mark, at a colon that ends
its word, and at a comment. -/
def readFlowPlain : List Char → List Char × List Char
  | [] => ([], [])
  | c :: cs =>
    if isFlowMark c then ([], c :: cs)
    else if c = ':' && (cs.head?.all fun d => isSpace d || d = '\n' || isFlowMark d) then
      ([], c :: cs)
    else if (isSpace c || c = '\n') && cs.head? = some '#' then ([], c :: cs)
    else
      let (s, rest) := readFlowPlain cs
      ((if c = '\n' then ' ' else c) :: s, rest)

def trimSpace (cs : List Char) : List Char :=
  ((cs.dropWhile isSpace).reverse.dropWhile isSpace).reverse

/-- Characters that no plain scalar begins with. -/
def isIndicator (c : Char) : Bool :=
  c ∈ [',', '[', ']', '\x7b', '\x7d', '#', '&', '*', '!', '|', '>', '\x27', '"', '%', '@', '\x60']

/-- A plain scalar may begin like this: no indicator, and no dash, question mark or colon alone. -/
def beginsPlain : List Char → Bool
  | [] => true
  | [c] => !isIndicator c && c ∉ ['-', '?', ':']
  | c :: d :: _ => !isIndicator c && (c ∉ ['-', '?', ':'] || !(isSpace d || d = '\n'))

mutual

/-- A value inside a collection; where none stands it is empty. -/
def readFlow : Nat → List Char → Option (Json × List Char)
  | 0, _ => none
  | n + 1, cs =>
    match cs with
    | '[' :: cs =>
      (readFlowItems n (skipGap false cs)).map fun (items, rest) => (.array items, rest)
    | '\x7b' :: cs =>
      (readFlowMembers n [] (skipGap false cs)).map fun (ms, rest) => (.object ms, rest)
    | _ =>
      match readQuoted cs with
      | some (s, rest) => some (.string s, rest)
      | none =>
        let (s, rest) := readFlowPlain cs
        if beginsPlain s then some (scalarValue (String.ofList (trimSpace s)), rest) else none

def readFlowItems : Nat → List Char → Option (List Json × List Char)
  | 0, _ => none
  | _, ']' :: cs => some ([], cs)
  | n + 1, cs => do
    let (item, rest) ← readFlow n cs
    -- An item that is empty stands for nothing.
    if rest.length = cs.length then none
    else
      match skipGap false rest with
      | ',' :: cs =>
        (readFlowItems n (skipGap false cs)).map fun (items, rest) => (item :: items, rest)
      | ']' :: cs => some ([item], cs)
      | _ => none

def readFlowMembers : Nat → List (String × Json) → List Char →
    Option (List (String × Json) × List Char)
  | 0, _, _ => none
  | _, earlier, '\x7d' :: cs => some (earlier, cs)
  | n + 1, earlier, cs => do
    let (key, rest) ← match readQuoted cs with
      | some r => some r
      | none =>
        let (s, rest) := readFlowPlain cs
        if beginsPlain s && !s.isEmpty then some (String.ofList (trimSpace s), rest) else none
    let (value, rest) ← match skipGap false rest with
      | ':' :: cs => readFlow n (skipGap false cs)
      | cs => some (.null, cs)
    let members ← addMember earlier key value
    match skipGap false rest with
    | ',' :: cs => readFlowMembers n members (skipGap false cs)
    | '\x7d' :: cs => some (members, cs)
    | _ => none

end

/-- A quoted scalar or a collection, if its opening mark comes next. -/
def readClosed (cs : List Char) : Option (Json × List Char) :=
  match cs with
  | '[' :: _ => readFlow (cs.length + 1) cs
  | '\x7b' :: _ => readFlow (cs.length + 1) cs
  | _ => (readQuoted cs).map fun (s, rest) => (.string s, rest)

/-- The text begins with the mark of a quoted scalar or a collection. -/
def opensClosed (cs : List Char) : Bool :=
  cs.head?.any fun c => c ∈ ['[', '\x7b', '"', '\x27']

end CacheGen.Yaml
