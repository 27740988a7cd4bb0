/-!
# Cutting text

Taking text apart at a marker: at its first or last occurrence, at every one, or at either end.
-/

namespace CacheGen.Text

/-- The pieces between the occurrences of `c`; one more than `c` occurs. -/
def pieces (c : Char) (s : String) : List String := (s.toList.splitOn c).map String.ofList

/-- `s` without `start` in front, if it stands there. -/
def dropStart? (start s : String) : Option String :=
  (start.toList.isPrefixOf? s.toList).map String.ofList

/-- `s` without `ending` at its end, if it stands there. -/
def dropEnd? (ending s : String) : Option String :=
  (ending.toList.isSuffixOf? s.toList).map String.ofList

def startsWith (s start : String) : Bool := start.toList.isPrefixOf s.toList

def endsWith (s ending : String) : Bool := ending.toList.isSuffixOf s.toList

/-- What stands before and after the first `c`. -/
def cutFirst? (c : Char) (s : String) : Option (String × String) :=
  match s.toList.dropWhile (· ≠ c) with
  | _ :: after => some (String.ofList (s.toList.takeWhile (· ≠ c)), String.ofList after)
  | [] => none

/-- What stands before and after the last `c`. -/
def cutLast? (c : Char) (s : String) : Option (String × String) :=
  match s.toList.reverse.dropWhile (· ≠ c) with
  | _ :: before =>
    some (String.ofList before.reverse,
      String.ofList (s.toList.reverse.takeWhile (· ≠ c)).reverse)
  | [] => none

/-- What stands after the last `c`, and all of `s` without one. -/
def afterLast (c : Char) (s : String) : String :=
  match cutLast? c s with
  | some (_, after) => after
  | none => s

theorem startsWith_iff {s start : String} :
    startsWith s start = true ↔ start.toList <+: s.toList := by
  simp [startsWith]

theorem endsWith_iff {s ending : String} :
    endsWith s ending = true ↔ ending.toList <:+ s.toList := by
  simp [endsWith]

end CacheGen.Text
