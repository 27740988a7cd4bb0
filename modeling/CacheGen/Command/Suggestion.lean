import CacheGen.Text.Cut
import CacheGen.Text.Units

/-!
# Suggestions for a mistyped word

Words that a user may have meant: those at the least edit distance, at most three edits away, with
more than two fifths of the letters right. An edit inserts, drops or changes a letter or swaps two
neighbours.
-/

namespace CacheGen.Suggestion

/-- The next row of the distance table: the distances of the text up to `c` from each start of `b`.
`row` is the row before, `earlier` the one before that, with `p` the letter between them. -/
def nextRow (b : List Nat) (p c : Nat) (earlier row : List Nat) : List Nat :=
  let rec go (left : Nat) (before : Option Nat) : List Nat → List Nat → List Nat → List Nat
    | y :: ys, diagonal :: above :: rest, far =>
      let plain := min (min (above + 1) (left + 1)) (diagonal + if c = y then 0 else 1)
      let (swapped, far) := match before, far with
        | some x, f :: fs => (if c = x ∧ p = y then min plain (f + 1) else plain, fs)
        | _, far => (plain, far)
      swapped :: go swapped (some y) ys (above :: rest) far
    | _, _, _ => []
  let first := row.headD 0 + 1
  first :: go first none b row earlier

/-- The edit distance of two texts, a letter of a swapped pair edited once. -/
def distance (a b : List Nat) : Nat :=
  let start := List.range (b.length + 1)
  let rec go (p : Nat) (earlier row : List Nat) : List Nat → Nat
    | [] => row.getLastD 0
    | c :: cs => go c row (nextRow b p c earlier row) cs
  -- Before the first letter there is none to swap with.
  go 0x110000 [] start a

/-- How far `word` is from `candidate`, if that is near enough to be meant. -/
def nearness (word candidate : String) : Option Nat :=
  let a := Text.units word
  let b := Text.units candidate
  let longer := max a.length b.length
  let d := if 3 < longer - min a.length b.length then longer else distance a b
  if 1 < b.length ∧ d ≤ 3 ∧ 2 * longer < 5 * (longer - d) then some d else none

/-- The nearest of `candidates`, in order. -/
def nearest (word : String) (candidates : List String) : List String :=
  let near := candidates.eraseDups.filterMap fun c => (nearness word c).map fun d => (d, c)
  let least := (near.map Prod.fst).foldl min 3
  Text.sortByUnits ((near.filter (·.1 = least)).map Prod.snd)

/-- A question to put behind a complaint about `word`. The dashes in front of options do not
count. -/
def question (word : String) (candidates : List String) : String :=
  let bare := fun s => (Text.dropStart? "--" s).getD s
  let found := match Text.dropStart? "--" word with
    | some w => (nearest w (candidates.map bare)).map ("--" ++ ·)
    | none => nearest word candidates
  match found with
  | [] => ""
  | [one] => "\n(Did you mean " ++ one ++ "?)"
  | many => "\n(Did you mean one of " ++ ", ".intercalate many ++ "?)"

end CacheGen.Suggestion
