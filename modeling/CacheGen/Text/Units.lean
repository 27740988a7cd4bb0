/-!
# Text measured in 16-bit units

A character of the basic plane is one unit; any other is a pair of surrogates. Sizes reported to
the user and the order of import clauses are taken over these units, so U+10000 and above sort
before U+E000.
-/

namespace CacheGen.Text

/-- The units of one character. -/
def charUnits (c : Char) : List Nat :=
  if c.toNat < 0x10000 then [c.toNat]
  else [0xD800 + (c.toNat - 0x10000) / 0x400, 0xDC00 + (c.toNat - 0x10000) % 0x400]

def units (s : String) : List Nat := s.toList.flatMap charUnits

def unitLength (s : String) : Nat := (units s).length

/-- The order of units, first difference first. -/
def unitLE (a b : String) : Bool := decide (¬ units b < units a)

def sortByUnits (l : List String) : List String := l.mergeSort unitLE

theorem sortByUnits_perm (l : List String) : (sortByUnits l).Perm l :=
  List.mergeSort_perm l unitLE

end CacheGen.Text
