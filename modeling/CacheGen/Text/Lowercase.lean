import CacheGen.Text.CaseTable

/-!
# Lower case

Full lower-casing of text, independent of language. Two rules go beyond a table look-up:

* *dotted I*: U+0130 becomes `i` followed by a combining dot above.
* *final sigma*: Σ becomes ς at the end of a word, and σ elsewhere. It ends a word when a cased
  letter stands before it and none after it, case-ignorable characters stepped over on both sides.

The ASCII letters are decided first, so text in ASCII never consults the tables.
-/

namespace CacheGen.Text

def inRanges (ranges : List (Nat × Nat)) (n : Nat) : Bool :=
  ranges.any fun (first, last) => first ≤ n && n ≤ last

/-- Case-ignorable: apostrophe, full stop, colon, circumflex and grave accent among ASCII. -/
def isIgnorable (c : Char) : Bool :=
  if c.toNat < 0x80 then [0x27, 0x2E, 0x3A, 0x5E, 0x60].contains c.toNat
  else inRanges ignorableRanges c.toNat

def isCased (c : Char) : Bool :=
  if c.toNat < 0x80 then c.isAlpha else inRanges casedRanges c.toNat

/-- Where the mapping rows send `n`; a code point in no row stays. -/
def lowerPoint (n : Nat) : Nat :=
  match lowerRows.find? fun (first, last, step, _) =>
      first ≤ n && n ≤ last && (n - first) % step == 0 with
  | some (_, _, _, shift) => (Int.ofNat n + shift).toNat
  | none => n

/-- The lower-case form of one character taken alone. -/
def lowerChar (c : Char) : List Char :=
  if c.toNat < 0x80 then [c.toLower]
  else if c.toNat = 0x130 then ['i', Char.ofNat 0x307]
  else [Char.ofNat (lowerPoint c.toNat)]

/-- A cased letter comes next, case-ignorable characters stepped over. -/
def startsCased (cs : List Char) : Bool :=
  match cs.dropWhile isIgnorable with
  | c :: _ => isCased c
  | [] => false

/-- Lower-case `cs`, given whether a cased letter stands before it. -/
def lowerFrom (afterCased : Bool) : List Char → List Char
  | [] => []
  | c :: cs =>
    (if c = 'Σ' ∧ afterCased ∧ !startsCased cs then ['ς'] else lowerChar c) ++
      lowerFrom (if isIgnorable c then afterCased else isCased c) cs

def lowercase (s : String) : String := String.ofList (lowerFrom false s.toList)

/-- Lower-case the first character alone. -/
def lowercaseFirst (s : String) : String :=
  match s.toList with
  | [] => ""
  | c :: cs => String.ofList (lowerChar c ++ cs)

theorem lowerChar_ascii {c : Char} (h : c.toNat < 0x80) : lowerChar c = [c.toLower] := by
  simp [lowerChar, h]

end CacheGen.Text
