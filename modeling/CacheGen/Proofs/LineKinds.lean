import CacheGen.Proofs.OneLine
import CacheGen.Target

/-!
# Kinds of lines

A line of a generated file declares a manager, a constructor or a wrapper when it begins in a
certain way, and otherwise nothing. What a line begins with is a fixed text in front of all names,
so that tells the kind of the line, whatever stands behind (`declares_of_opens`).

A text is taken apart into blocks of lines, and of each block it is said which declarations it has
(`Shows`). The declarations of several blocks are those of each, one after the other. That the lines
can be got back from the text needs that none of them has a line feed, so that is said of each block
as well.
-/

namespace CacheGen

open Text (OneLine)

/-! ## Kinds of lines -/

/-- What a line can declare. -/
inductive Declaration where
  | manager
  | constructor
  | wrapper
  deriving DecidableEq, Repr

namespace Target

/-- How lines begin that declare something. -/
def marks : Target → Declaration → List String
  | go, .manager => ["type "]
  | go, .constructor => ["func New"]
  | go, .wrapper => ["func (cm *"]
  | typeScript, .manager => ["export class "]
  | typeScript, .constructor => ["export function "]
  | typeScript, .wrapper => ["  Get", "  Refresh"]

def declares (t : Target) (k : Declaration) (line : String) : Bool :=
  (t.marks k).any (Text.startsWith line)

/-! ## Blocks of lines -/

/-- Lines without line feeds, among them, of each kind, the declarations `d`. -/
structure Shows (t : Target) (ls : List String) (d : Declaration → List String) : Prop where
  oneLine : ∀ l ∈ ls, OneLine l
  declared : ∀ k, ls.filter (t.declares k) = d k

variable {t : Target}

theorem Shows.congr {ls : List String} {d d' : Declaration → List String} (h : t.Shows ls d)
    (hd : ∀ k, d k = d' k) : t.Shows ls d' :=
  ⟨h.oneLine, fun k => (h.declared k).trans (hd k)⟩

theorem Shows.append {ls ls' : List String} {d d' : Declaration → List String} (h : t.Shows ls d)
    (h' : t.Shows ls' d') : t.Shows (ls ++ ls') fun k => d k ++ d' k := by
  refine ⟨?_, fun k => ?_⟩
  · intro l hl
    rcases List.mem_append.1 hl with hl | hl
    · exact h.oneLine l hl
    · exact h'.oneLine l hl
  · rw [List.filter_append, h.declared, h'.declared]

theorem Shows.flatMap {α : Type} {as : List α} {g : α → List String}
    {d : α → Declaration → List String} (h : ∀ a ∈ as, t.Shows (g a) (d a)) :
    t.Shows (as.flatMap g) fun k => as.flatMap (d · k) := by
  refine ⟨?_, fun k => ?_⟩
  · intro l hl
    obtain ⟨a, ha, hl⟩ := List.mem_flatMap.1 hl
    exact (h a ha).oneLine l hl
  · rw [List.filter_flatMap]
    exact List.flatMap_congr fun a ha => (h a ha).declared k

/-- A line that declares nothing. -/
structure IsInner (t : Target) (l : String) : Prop where
  oneLine : OneLine l
  silent : ∀ k, t.declares k l = false

instance (t : Target) (l : String) : Decidable (t.IsInner l) :=
  decidable_of_iff
    (OneLine l ∧ ∀ k ∈ [Declaration.manager, .constructor, .wrapper], t.declares k l = false)
    ⟨fun ⟨h, h'⟩ => ⟨h, fun k => h' k (by cases k <;> decide)⟩, fun ⟨h, h'⟩ => ⟨h, fun k _ => h' k⟩⟩

theorem Shows.inner {ls : List String} (h : ∀ l ∈ ls, t.IsInner l) : t.Shows ls fun _ => [] := by
  refine ⟨fun l hl => (h l hl).oneLine, fun k => ?_⟩
  rw [List.filter_eq_nil_iff]
  intro l hl
  rw [(h l hl).silent k]
  decide

theorem Shows.inner_append {ls ls' : List String} {d : Declaration → List String}
    (h : t.Shows ls' d) (hls : ∀ l ∈ ls, t.IsInner l) : t.Shows (ls ++ ls') d :=
  (Shows.inner hls).append h

theorem Shows.append_inner {ls ls' : List String} {d : Declaration → List String}
    (h : t.Shows ls d) (hls' : ∀ l ∈ ls', t.IsInner l) : t.Shows (ls ++ ls') d := by
  simpa only [List.append_nil] using h.append (Shows.inner hls')

end Target

/-! ## Beginnings of lines -/

/-- Neither of the texts begins with the other. -/
def Text.part (a b : String) : Bool := !startsWith a b && !startsWith b a

/-- What stands behind does not matter when the beginning is another. -/
theorem Text.startsWith_append_of_part {start mark : String} (h : part start mark = true)
    (rest : String) : startsWith (start ++ rest) mark = false := by
  simp only [part, Bool.and_eq_true, Bool.not_eq_true', Bool.eq_false_iff, ne_eq,
    startsWith_iff] at h
  rw [Bool.eq_false_iff, Ne, startsWith_iff, String.toList_append]
  intro hmark
  rcases List.prefix_or_prefix_of_prefix hmark (List.prefix_append _ _) with hbefore | hbehind
  · exact h.1 hbefore
  · exact h.2 hbehind

namespace Target

variable {t : Target} {start rest : String}

/-- All lines that begin with `start` are of the kind `d?`, or declare nothing if that is none. -/
def opens (t : Target) (d? : Option Declaration) (start : String) : Bool :=
  decide (OneLine start) && [Declaration.manager, .constructor, .wrapper].all fun k =>
    if d? = some k then (t.marks k).any (Text.startsWith start)
    else (t.marks k).all (Text.part start)

theorem declares_of_opens {d? : Option Declaration} (h : t.opens d? start = true) (rest : String)
    (k : Declaration) : t.declares k (start ++ rest) = decide (d? = some k) := by
  have hall := (Bool.and_eq_true_iff.1 h).2
  rw [List.all_eq_true] at hall
  have hk := hall k (by cases k <;> decide)
  by_cases hkind : d? = some k
  · rw [if_pos hkind, List.any_eq_true] at hk
    obtain ⟨mark, hmark, hstart⟩ := hk
    rw [decide_eq_true hkind, declares, List.any_eq_true]
    refine ⟨mark, hmark, ?_⟩
    rw [Text.startsWith_iff] at hstart ⊢
    rw [String.toList_append]
    exact hstart.trans (List.prefix_append _ _)
  · rw [if_neg hkind, List.all_eq_true] at hk
    rw [decide_eq_false hkind, declares, List.any_eq_false]
    intro mark hmark
    rw [Text.startsWith_append_of_part (hk mark hmark)]
    decide

theorem oneLine_of_opens {d? : Option Declaration} (h : t.opens d? start = true)
    (hrest : OneLine rest) : OneLine (start ++ rest) :=
  Text.oneLine_append.2 ⟨of_decide_eq_true (Bool.and_eq_true_iff.1 h).1, hrest⟩

theorem isInner_append (h : t.opens none start = true) (hrest : OneLine rest) :
    t.IsInner (start ++ rest) := by
  refine ⟨oneLine_of_opens h hrest, fun k => ?_⟩
  rw [declares_of_opens h, decide_eq_false]
  rintro ⟨⟩

theorem shows_declaration {k : Declaration} (h : t.opens (some k) start = true)
    (hrest : OneLine rest) {l : String} (hl : l = start ++ rest) :
    t.Shows [l] fun k' => if k = k' then [l] else [] := by
  rw [hl]
  refine ⟨List.forall_mem_singleton.2 (oneLine_of_opens h hrest), fun k' => ?_⟩
  rw [List.filter_singleton, declares_of_opens h]
  by_cases hk : k = k'
  · simp [hk]
  · simp [hk]

end Target

end CacheGen
