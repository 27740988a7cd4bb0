import CacheGen.Proofs.Joined
import CacheGen.Proofs.Ways

/-!
# The way from one location to another

Two locations share the names down to where they part. The way between them goes up from there as
often as the first has names left, and down by those that the second has left. Joined by slashes it
is a text, and read from the first location the text leads to the second.

For that the text has to be cut into the same names again, so no name of the second location may
hold a slash. Locations that texts lead to from such a location are of this kind.

Main result: `resolve_relative`.
-/

namespace CacheGen

/-! ## Up again -/

theorem walk_append (climbs : Bool) (start names names' : List String) :
    walk climbs start (names ++ names') = walk climbs (walk climbs start names) names' :=
  List.foldl_append

/-- As many steps up as there were names down lead back, whether or not a walk may climb. -/
theorem walk_up {climbs : Bool} (start : List String) {names : List String} (h : ".." ∉ names) :
    walk climbs (start ++ names) (names.map fun _ => "..") = start := by
  induction names using List.reverseRecOn with
  | nil => exact List.append_nil start
  | append_singleton names name ih =>
    rw [List.mem_append, List.mem_singleton, not_or] at h
    have hstep : stepName climbs (start ++ (names ++ [name])) ".." = start ++ names := by
      rw [stepName, if_neg (by decide), if_pos rfl, ← List.append_assoc, List.getLast?_concat]
      simp only [if_neg (Ne.symm h.2), List.dropLast_concat]
    rw [List.map_const', List.length_append, List.length_singleton, List.replicate_succ, walk,
      List.foldl_cons, hstep, ← List.map_const' (l := names)]
    exact ih h.1

/-! ## Names without slashes -/

theorem stepName_subset (climbs : Bool) (walked : List String) (name : String) :
    stepName climbs walked name ⊆ walked ++ [name] := by
  by_cases hskip : name = "" ∨ name = "."
  · rw [stepName, if_pos hskip]
    exact List.subset_append_left _ _
  · by_cases hup : name = ".."
    · rw [stepName, if_neg hskip, if_pos hup, hup]
      cases walked.getLast? with
      | none => cases climbs <;> simp
      | some last =>
        by_cases hlast : last = ".."
        · simp only [if_pos hlast]
          exact List.Subset.refl _
        · simp only [if_neg hlast]
          exact List.Subset.trans (List.dropLast_subset _) (List.subset_append_left _ _)
    · rw [stepName, if_neg hskip, if_neg hup]
      exact List.Subset.refl _

theorem walk_subset (climbs : Bool) (start names : List String) :
    walk climbs start names ⊆ start ++ names := by
  induction names generalizing start with
  | nil => exact List.subset_append_left _ _
  | cons name names ih =>
    intro n hn
    have hstep : n ∈ stepName climbs start name ++ names := ih _ hn
    rw [List.append_cons]
    exact (List.mem_append.1 hstep).elim
      (fun h => List.mem_append_left _ (stepName_subset climbs start name h))
      (List.mem_append_right _)

theorem Text.not_mem_of_mem_pieces {c : Char} {s piece : String} (h : piece ∈ pieces c s) :
    c ∉ piece.toList := by
  obtain ⟨cs, hcs, rfl⟩ := List.mem_map.1 h
  rw [String.toList_ofList]
  exact not_mem_of_mem_splitOn hcs

namespace Location

/-- The path of the location is spelled by the names of directories, and cut at its slashes it is
spelled by them again. -/
structure IsProper (l : Location) : Prop where
  plain : l.IsPlain
  noSlash : ∀ name ∈ l.names, '/' ∉ name.toList

theorem IsProper.pieces {l : Location} (h : l.IsProper) :
    ∀ name ∈ l.names, name ≠ "" ∧ '/' ∉ name.toList :=
  fun name hname => ⟨(h.plain name hname).1, h.noSlash name hname⟩

theorem IsProper.mono {l m : Location} (h : l.IsProper) (hsub : m.names ⊆ l.names) : m.IsProper :=
  ⟨fun name hname => h.plain name (hsub hname), fun name hname => h.noSlash name (hsub hname)⟩

theorem IsProper.root : root.IsProper :=
  ⟨fun _ h => (List.not_mem_nil h).elim, fun _ h => (List.not_mem_nil h).elim⟩

theorem IsProper.resolve {base : Location} (h : base.IsProper) (p : String) :
    (base.resolve p).IsProper := by
  refine ⟨isPlain_resolve h.plain p, fun name hname => ?_⟩
  rcases List.mem_append.1 (walk_subset _ _ _ hname) with hstart | hpiece
  · split at hstart
    · cases hstart
    · exact h.noSlash name hstart
  · exact Text.not_mem_of_mem_pieces hpiece

/-! ## There and back -/

/-- Two lists of names have a common start and part behind it. -/
theorem exists_common (as bs : List String) :
    ∃ common, as = common ++ (pastCommon as bs).1 ∧ bs = common ++ (pastCommon as bs).2 := by
  fun_induction pastCommon as bs with
  | case1 as b bs ih =>
    obtain ⟨common, has, hbs⟩ := ih
    exact ⟨b :: common, congrArg (b :: ·) has, congrArg (b :: ·) hbs⟩
  | case2 => exact ⟨[], rfl, rfl⟩
  | case3 => exact ⟨[], rfl, rfl⟩

/-- The names on the way from `a` to `b`. -/
def wayNames (a b : Location) : List String :=
  (pastCommon a.names b.names).1.map (fun _ => "..") ++ (pastCommon a.names b.names).2

theorem relative_eq (a b : Location) : a.relative b = "/".intercalate (a.wayNames b) := rfl

section

variable {a b : Location}

/-- The names on the way can be joined. -/
theorem pieces_wayNames (hb : b.IsProper) :
    ∀ name ∈ a.wayNames b, name ≠ "" ∧ '/' ∉ name.toList := by
  intro name hname
  obtain ⟨common, -, hbs⟩ := exists_common a.names b.names
  rcases List.mem_append.1 hname with hup | hdown
  · obtain ⟨_, -, rfl⟩ := List.mem_map.1 hup
    decide
  · exact hb.pieces name (hbs ▸ List.mem_append_right common hdown)

theorem walk_wayNames (climbs : Bool) (ha : ".." ∉ a.names) (hb : b.IsPlain) :
    walk climbs a.names (a.wayNames b) = b.names := by
  obtain ⟨common, has, hbs⟩ := exists_common a.names b.names
  rw [wayNames]
  generalize pastCommon a.names b.names = parts at has hbs ⊢
  have hup : ".." ∉ parts.1 := fun hmem => ha (has ▸ List.mem_append_right common hmem)
  have hdown : ∀ name ∈ parts.2, name ≠ "" ∧ name ≠ "." ∧ name ≠ ".." :=
    fun name hname => hb name (hbs ▸ List.mem_append_right common hname)
  have hback : walk climbs a.names (parts.1.map fun _ => "..") = common := by
    rw [has]
    exact walk_up common hup
  rw [walk_append, hback, walk_plain hdown, hbs]

/-- **From `a`, the way to `b` leads to `b`.** -/
theorem resolve_relative (ha : ".." ∉ a.names) (hb : b.IsProper) :
    Path.isAbsolute (a.relative b) = false ∧ a.resolve (a.relative b) = b := by
  have hnames := pieces_wayNames (a := a) hb
  have hrel := Path.isAbsolute_joined hnames
  have hwalk := walk_wayNames false ha hb.plain
  rw [relative_eq]
  refine ⟨hrel, congrArg mk ?_⟩
  rw [hrel, if_neg Bool.false_ne_true]
  by_cases hnil : a.wayNames b = []
  · rw [hnil] at hwalk ⊢
    exact hwalk
  · rw [Path.pieces_joined hnames hnil]
    exact hwalk

end

end Location

end CacheGen
