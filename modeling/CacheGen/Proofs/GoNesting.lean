import CacheGen.Descriptor.Resolve
import CacheGen.Proofs.GoSpelling

/-!
# Go names of nested messages

A dot cuts a Go name: what stands before it becomes what it becomes on its own, and so does what
stands behind it. The dot itself vanishes before a lower-case letter and is an underscore otherwise.
So the Go name of a message is put together from those of the messages on the way to it
(`goName_intercalate`).

It does not follow from those Go names alone. Inside of `Order`, both `line` and `Line` are called
`Line` in Go, and yet the first is `OrderLine` and the second `Order_Line`.

**Theorem (`nested_goName`).** The Go name of a nested message is determined by the Go names of its
components and by which of them begin with a lower-case letter.
-/

namespace CacheGen

namespace Naming

/-! ## Cutting at a dot -/

/-- Of what comes next, only whether it is a lower-case letter is looked at. -/
theorem goNameStep_congr {before after after' : Option Char} {c : Char}
    (h : after.any isLowerLetter = after'.any isLowerLetter) :
    goNameStep before c after = goNameStep before c after' := by
  simp only [goNameStep, h]

/-- A name begins behind a dot as it does at the front. -/
theorem goNameFrom_dot (cs : List Char) : goNameFrom (some '.') cs = goNameFrom none cs := by
  cases cs with
  | nil => rfl
  | cons c cs =>
    have hstep : goNameStep (some '.') c cs.head? = goNameStep none c cs.head? := by
      simp [goNameStep, beginsWord]
    rw [goNameFrom, goNameFrom, hstep]

theorem goNameFrom_append_dot (before : Option Char) (cs ds : List Char) :
    goNameFrom before (cs ++ '.' :: ds) =
      goNameFrom before cs ++
        ((if ds.head?.any isLowerLetter then [] else ['_']) ++ goNameFrom none ds) := by
  induction cs generalizing before with
  | nil =>
    show goNameStep before '.' ds.head? ++ goNameFrom (some '.') ds = _
    rw [goNameFrom_dot]
    rfl
  | cons c cs ih =>
    -- The last character before the dot sees the dot, which is no letter, where it saw nothing.
    have hafter : (cs ++ '.' :: ds).head?.any isLowerLetter = cs.head?.any isLowerLetter := by
      cases cs <;> rfl
    rw [List.cons_append, goNameFrom, goNameFrom, ih, goNameStep_congr hafter, List.append_assoc]

/-! ## Components -/

def beginsLower (name : String) : Bool := name.toList.head?.any isLowerLetter

/-- What stands in front of the Go name of a message that is nested in another. -/
def nestingMark (small : Bool) : String := if small then "" else "_"

theorem goName_append_dot (a b : String) :
    goName (a ++ "." ++ b) = goName a ++ nestingMark (beginsLower b) ++ goName b := by
  have hcut : (a ++ "." ++ b).toList = a.toList ++ '.' :: b.toList := by simp
  have hmark : (nestingMark (beginsLower b)).toList =
      if b.toList.head?.any isLowerLetter then [] else ['_'] := by
    unfold nestingMark beginsLower
    split <;> rfl
  rw [← String.toList_inj, toList_goName, hcut, goNameFrom_append_dot, String.toList_append,
    String.toList_append, toList_goName, toList_goName, hmark, List.append_assoc]

/-- Names joined by dots begin as the first of them. -/
theorem beginsLower_intercalate (name : String) (names : List String) :
    beginsLower (".".intercalate (name :: names)) = beginsLower name := by
  cases names with
  | nil => rw [String.intercalate_singleton]
  | cons next names =>
    rw [String.intercalate_cons_cons, beginsLower, beginsLower, String.toList_append,
      String.toList_append]
    cases name.toList <;> rfl

/-- The Go name of a nesting, outermost first, from the Go names of its components, each with
whether the component begins with a lower-case letter. -/
def nestGoNames : List (String × Bool) → String
  | [] => ""
  | (outer, _) :: inner =>
    outer ++ String.join (inner.map fun (name, small) => nestingMark small ++ name)

theorem goName_intercalate (names : List String) :
    goName (".".intercalate names) =
      nestGoNames (names.map fun name => (goName name, beginsLower name)) := by
  cases names with
  | nil => rfl
  | cons outer inner =>
    induction inner generalizing outer with
    | nil => simp [nestGoNames]
    | cons next inner ih =>
      rw [String.intercalate_cons_cons, goName_append_dot, beginsLower_intercalate, ih]
      simp only [nestGoNames, List.map_cons, String.join_cons, String.append_assoc]

end Naming

/-! ## Messages -/

/-- **The Go name of a nested message.** -/
theorem nested_goName :
    (∀ a b : String, Naming.goName (a ++ "." ++ b) =
      Naming.goName a ++ (if Naming.beginsLower b then "" else "_") ++ Naming.goName b) ∧
    ∀ (f : Proto.File) (nesting : List String),
      (Go.renameRef (f.refTo nesting)).localName =
        Naming.nestGoNames
          (nesting.map fun name => (Naming.goName name, Naming.beginsLower name)) :=
  ⟨Naming.goName_append_dot, fun _ => Naming.goName_intercalate⟩

/-- Components with the same Go names may be nested in messages with different ones. -/
theorem goNames_leave_nesting_open :
    ¬ ((∀ a b : String, Naming.goName (a ++ "." ++ b) =
          Naming.goName a ++ (if Naming.beginsLower b then "" else "_") ++ Naming.goName b) ∧
        ∀ (f : Proto.File) (nesting nesting' : List String),
          nesting.map Naming.goName = nesting'.map Naming.goName →
          (Go.renameRef (f.refTo nesting)).localName =
            (Go.renameRef (f.refTo nesting')).localName) := by
  rintro ⟨-, hdetermined⟩
  have hnames : ["Order", "line"].map Naming.goName = ["Order", "Line"].map Naming.goName := by
    decide +kernel
  have hmessages := hdetermined default ["Order", "line"] ["Order", "Line"] hnames
  exact absurd hmessages (by decide +kernel)

end CacheGen
