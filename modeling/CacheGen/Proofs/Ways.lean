import CacheGen.Proofs.Paths
import Mathlib.Data.List.DropRight

/-!
# Ways out of a directory and back

The names of a path text make a *way*: so many directories up, and from there down. A `..` takes
back the last step down and goes up only if there is none, so all of the up comes first. From a
directory whose own path is spelled without `..`, walking along the names ends where the way leads.

A text that is read from a directory leads below it again exactly when it *regains* it: the way goes
down, first of all, through every directory that it has left. An absolute text leaves all of them.

Main results: `walk_eq_follow` and `below_resolve_append_iff`.
-/

namespace CacheGen

/-! ## Ways -/

/-- So many directories up, then down by names. -/
structure Way where
  up : Nat
  down : List String
  deriving DecidableEq, Repr

namespace Way

/-- One more name on the way. -/
def step (w : Way) (name : String) : Way :=
  if name = "" ∨ name = "." then w
  else if name = ".." then
    if w.down = [] then ⟨w.up + 1, []⟩ else ⟨w.up, w.down.dropLast⟩
  else ⟨w.up, w.down ++ [name]⟩

def ofNames (names : List String) : Way := names.foldl step ⟨0, []⟩

/-- Where the way leads from the directory `start`. Above the root there is nothing. -/
def follow (w : Way) (start : List String) : List String := start.rdrop w.up ++ w.down

theorem not_mem_down_step {w : Way} (h : ".." ∉ w.down) (name : String) :
    ".." ∉ (w.step name).down := by
  unfold step
  split_ifs with hskip hup hnone
  · exact h
  · exact List.not_mem_nil
  · exact fun hmem => h (List.dropLast_subset _ hmem)
  · rw [List.mem_append, List.mem_singleton]
    exact fun hmem => hmem.elim h fun heq => hup heq.symm

theorem not_mem_follow {w : Way} {start : List String} (hstart : ".." ∉ start)
    (h : ".." ∉ w.down) : ".." ∉ w.follow start := by
  rw [follow, List.mem_append]
  exact fun hmem => hmem.elim (fun hleft => hstart (List.mem_of_mem_take hleft)) h

end Way

/-! ## Walking -/

theorem stepName_up {walked : List String} (h : ".." ∉ walked) :
    stepName false walked ".." = walked.dropLast := by
  rw [stepName, if_neg (by decide), if_pos rfl]
  cases hlast : walked.getLast? with
  | none => rw [List.getLast?_eq_none_iff.1 hlast]; rfl
  | some last =>
    have hne : last ≠ ".." := fun heq => h (heq ▸ List.mem_of_getLast? hlast)
    simp only [if_neg hne]

theorem dropLast_rdrop {α : Type} (l : List α) (n : Nat) :
    (l.rdrop n).dropLast = l.rdrop (n + 1) := by
  rw [List.rdrop, List.rdrop, List.dropLast_eq_take, List.take_take, List.length_take]
  congr 1
  omega

/-- A step of the walk is a step on the way. -/
theorem stepName_follow {w : Way} {start : List String} (hstart : ".." ∉ start)
    (h : ".." ∉ w.down) (name : String) :
    stepName false (w.follow start) name = (w.step name).follow start := by
  unfold Way.step
  split_ifs with hskip hup hnone
  · rw [stepName, if_pos hskip]
  · rw [hup, stepName_up (Way.not_mem_follow hstart h), Way.follow, Way.follow, hnone,
      List.append_nil, List.append_nil, dropLast_rdrop]
  · rw [hup, stepName_up (Way.not_mem_follow hstart h), Way.follow, Way.follow,
      List.dropLast_append_of_ne_nil hnone]
  · rw [stepName, if_neg hskip, if_neg hup, Way.follow, Way.follow, List.append_assoc]

/-- **Walking along names leads where their way leads.** -/
theorem walk_eq_follow {start : List String} (hstart : ".." ∉ start) (names : List String) :
    walk false start names = (Way.ofNames names).follow start := by
  suffices hall : ∀ w : Way, ".." ∉ w.down →
      walk false (w.follow start) names = (names.foldl Way.step w).follow start by
    have hfrom := hall ⟨0, []⟩ List.not_mem_nil
    rwa [Way.follow, List.rdrop_zero, List.append_nil] at hfrom
  induction names with
  | nil => exact fun w _ => rfl
  | cons name names ih =>
    intro w h
    have hstep := ih (w.step name) (Way.not_mem_down_step h name)
    rwa [← stepName_follow hstart h] at hstep

/-! ## Inside a directory -/

namespace Location

/-- `l` lies inside the directory `dir`, at any depth. -/
def Below (dir l : Location) : Prop := dir.names <+: l.names ∧ l ≠ dir

instance (dir l : Location) : Decidable (dir.Below l) := inferInstanceAs (Decidable (_ ∧ _))

/-- The path of the location is spelled by the names of directories. -/
def IsPlain (l : Location) : Prop := ∀ name ∈ l.names, name ≠ "" ∧ name ≠ "." ∧ name ≠ ".."

instance (l : Location) : Decidable l.IsPlain := List.decidableBAll _ _

theorem IsPlain.not_mem {l : Location} (h : l.IsPlain) : ".." ∉ l.names :=
  fun hmem => (h ".." hmem).2.2 rfl

theorem isPlain_resolve {base : Location} (h : base.IsPlain) (p : String) :
    (base.resolve p).IsPlain := by
  suffices hall : ∀ names start : List String,
      (∀ name ∈ start, name ≠ "" ∧ name ≠ "." ∧ name ≠ "..") →
      ∀ name ∈ walk false start names, name ≠ "" ∧ name ≠ "." ∧ name ≠ ".." by
    refine hall _ _ ?_
    split
    · exact fun name hname => absurd hname List.not_mem_nil
    · exact h
  intro names
  induction names with
  | nil => exact fun start hstart => hstart
  | cons name names ih =>
    intro start hstart
    have hdots : ".." ∉ start := fun hmem => (hstart ".." hmem).2.2 rfl
    refine ih (stepName false start name) fun n hn => ?_
    by_cases hup : name = ".."
    · rw [hup, stepName_up hdots] at hn
      exact hstart n (List.dropLast_subset _ hn)
    · rw [stepName] at hn
      split_ifs at hn with hskip
      · exact hstart n hn
      · rcases List.mem_append.1 hn with hn | hn
        · exact hstart n hn
        · obtain ⟨hempty, hdot⟩ := not_or.1 hskip
          exact List.mem_singleton.1 hn ▸ ⟨hempty, hdot, hup⟩

end Location

/-! ## Regaining -/

/-- The way to the folder of the text `p`. -/
def Path.way (p : String) : Way := .ofNames (folder p)

namespace Location

/-- The names of `dir` that the way to the folder of `p` leaves. -/
def left (dir : Location) (p : String) : List String :=
  if Path.isAbsolute p then dir.names else dir.names.rtake (Path.way p).up

/-- The way to the folder of `p` goes down through all that it has left of `dir`. -/
def Regains (dir : Location) (p : String) : Prop := dir.left p <+: (Path.way p).down

instance (dir : Location) (p : String) : Decidable (dir.Regains p) :=
  inferInstanceAs (Decidable (_ <+: _))

theorem names_folderOf {dir : Location} (h : dir.IsPlain) (p : String) :
    (dir.folderOf p).names =
      (Path.way p).follow (if Path.isAbsolute p then [] else dir.names) := by
  refine walk_eq_follow ?_ _
  split
  · exact List.not_mem_nil
  · exact h.not_mem

theorem prefix_folderOf_iff {dir : Location} (h : dir.IsPlain) (p : String) :
    dir.names <+: (dir.folderOf p).names ↔ dir.Regains p := by
  rw [names_folderOf h, Regains, left, Way.follow]
  by_cases habs : Path.isAbsolute p = true
  · rw [if_pos habs, if_pos habs, List.rdrop_nil, List.nil_append]
  · rw [if_neg habs, if_neg habs]
    have hsplit : dir.names.rdrop (Path.way p).up ++ dir.names.rtake (Path.way p).up = dir.names :=
      List.take_append_drop _ _
    have hcancel : dir.names.rdrop (Path.way p).up ++ dir.names.rtake (Path.way p).up <+:
        dir.names.rdrop (Path.way p).up ++ (Path.way p).down ↔
          dir.names.rtake (Path.way p).up <+: (Path.way p).down :=
      List.prefix_append_right_inj _
    rwa [hsplit] at hcancel

/-- **A text leads below a directory exactly when it regains it**, if its ending makes the last
piece a name. -/
theorem below_resolve_append_iff {dir : Location} (h : dir.IsPlain) {e : String}
    (he : '/' ∉ e.toList) (hlong : 2 < e.length) (p : String) :
    dir.Below (dir.resolve (p ++ e)) ↔ dir.Regains p := by
  rw [resolve_append he hlong, ← prefix_folderOf_iff h, Below, List.prefix_concat_iff]
  constructor
  · rintro ⟨hsame | hfolder, hne⟩
    · exact absurd (congrArg Location.mk hsame.symm) hne
    · exact hfolder
  · intro hfolder
    refine ⟨Or.inr hfolder, fun hsame => ?_⟩
    have hlength := hfolder.length_le
    have hlonger := congrArg (fun l : Location => l.names.length) hsame
    rw [List.length_append, List.length_singleton] at hlonger
    omega

end Location

namespace Path

/-- The text is relative, and the way to its folder never goes up. -/
structure Descends (p : String) : Prop where
  relative : isAbsolute p = false
  noUp : (way p).up = 0

theorem regains_of_descends {p : String} (h : Descends p) (dir : Location) : dir.Regains p := by
  rw [Location.Regains, Location.left, if_neg (by rw [h.relative]; decide), h.noUp,
    List.rtake_zero]
  exact List.nil_prefix

end Path

end CacheGen
