import CacheGen.Config.Readers
import CacheGen.Proofs.CommandRun
import CacheGen.Proofs.Ways

/-!
# What a run of the command leaves alone

A write changes what is at its own location, and makes the directories above it that were not there
(`changedAt_writeDeep`). A row of writes changes no more than each of them does, since what one made
the others keep (`ChangedAt.trans`).

**Theorem (`generate_frame`).** A run that fails before the writing, is dry, or has nothing to write
leaves the tree as it was. One that cannot write an output has changed at most the places of the
outputs up to that one, and one that succeeds those that it lists. If a run succeeds, so does the
dry one, with the same outputs.
-/

namespace CacheGen

namespace Tree

/-- `t'` is `t` but for what is at `places`, and for new directories above them. -/
def ChangedAt (places : List Location) (t t' : Tree) : Prop :=
  ∀ l, l ∉ places → t'.get? l = t.get? l ∨
    t.get? l = none ∧ t'.get? l = some .directory ∧ ∃ place ∈ places, l.Below place

namespace ChangedAt

variable {ps qs : List Location} {t s t' : Tree}

theorem refl (ps : List Location) (t : Tree) : ChangedAt ps t t := fun _ _ => .inl rfl

theorem mono (h : ChangedAt ps t t') (hsub : ps ⊆ qs) : ChangedAt qs t t' := by
  intro l hl
  rcases h l (fun hmem => hl (hsub hmem)) with hsame | ⟨hnew, hdir, place, hplace, hbelow⟩
  · exact .inl hsame
  · exact .inr ⟨hnew, hdir, place, hsub hplace, hbelow⟩

theorem trans (h : ChangedAt ps t s) (h' : ChangedAt qs s t') : ChangedAt (ps ++ qs) t t' := by
  intro l hl
  rw [List.mem_append, not_or] at hl
  rcases h l hl.1 with hsame | ⟨hnew, hdir, place, hplace, hbelow⟩
  · rcases h' l hl.2 with hsame' | ⟨hnew', hdir', place, hplace, hbelow⟩
    · exact .inl (hsame'.trans hsame)
    · exact .inr ⟨hsame ▸ hnew', hdir', place, List.mem_append_right ps hplace, hbelow⟩
  · rcases h' l hl.2 with hsame' | ⟨hnew', -⟩
    · exact .inr ⟨hnew, hsame'.trans hdir, place, List.mem_append_left qs hplace, hbelow⟩
    · -- What the first made is there for the second.
      rw [hdir] at hnew'
      cases hnew'

end ChangedAt

/-! ## One write -/

variable {t t' : Tree}

theorem get?_makeDirectory {dir : Location} (h : t.makeDirectory dir = some t') (l : Location) :
    t'.get? l = t.get? l ∨ t.get? l = none ∧ t'.get? l = some .directory ∧ l = dir := by
  unfold makeDirectory at h
  cases hdir : t.get? dir with
  | some e =>
    cases e with
    | file content =>
      rw [hdir] at h
      cases h
    | directory =>
      rw [hdir] at h
      cases h
      exact .inl rfl
  | none =>
    rw [hdir] at h
    cases h
    have hroot : dir ≠ .root := by
      rintro rfl
      rw [get?_root] at hdir
      cases hdir
    rw [get?_insert _ hroot]
    by_cases hl : l = dir
    · exact .inr ⟨hl ▸ hdir, if_pos hl, hl⟩
    · exact .inl (if_neg hl)

theorem get?_makeDirectories {dir : Location} (h : t.makeDirectories dir = some t') (l : Location) :
    t'.get? l = t.get? l ∨
      t.get? l = none ∧ t'.get? l = some .directory ∧ l ∈ dir.ancestry := by
  unfold makeDirectories at h
  generalize dir.ancestry = way at h ⊢
  -- Down the way, where each step makes at most the directory it is at.
  induction way generalizing t with
  | nil =>
    cases h
    exact .inl rfl
  | cons above way ih =>
    rw [List.foldlM_cons] at h
    obtain ⟨s, hs, hrest⟩ := Option.bind_eq_some_iff.1 h
    rcases get?_makeDirectory hs l with hsame | ⟨hnew, hdir, rfl⟩
    · rw [← hsame]
      rcases ih hrest with hkeep | ⟨hnew, hdir, hmem⟩
      · exact .inl hkeep
      · exact .inr ⟨hnew, hdir, List.mem_cons_of_mem above hmem⟩
    · rcases ih hrest with hkeep | ⟨hgone, -⟩
      · exact .inr ⟨hnew, hkeep.trans hdir, List.mem_cons_self⟩
      · rw [hdir] at hgone
        cases hgone

theorem below_of_mem_ancestry {l place : Location} (h : l ∈ place.parent.ancestry) :
    l.Below place := by
  obtain ⟨n, hn, rfl⟩ := List.mem_map.1 h
  have hlength : n < place.names.length - 1 := by
    simpa [Location.parent] using hn
  refine ⟨(List.take_prefix _ _).trans (List.dropLast_prefix _), fun heq => ?_⟩
  have hshort := congrArg (fun l : Location => l.names.length) heq
  simp only [Location.parent, List.length_take, List.length_dropLast] at hshort
  omega

theorem changedAt_writeDeep {place : Location} {content : Bytes}
    (h : t.writeDeep place content = some t') : ChangedAt [place] t t' := by
  intro l hl
  obtain ⟨s, hs, hw⟩ := Option.bind_eq_some_iff.1 h
  rw [get?_write hw, if_neg fun heq => hl (List.mem_singleton.2 heq)]
  rcases get?_makeDirectories hs l with hsame | ⟨hnew, hdir, hmem⟩
  · exact .inl hsame
  · exact .inr ⟨hnew, hdir, place, List.mem_singleton_self place, below_of_mem_ancestry hmem⟩

end Tree

/-! ## Runs -/

namespace Command

theorem changedAt_writeAll {out : Location} {t t' : Tree} {fs : List GeneratedFile}
    {written : List Location} (h : writeAll out t fs = (.ok written, t')) :
    Tree.ChangedAt written t t' := by
  induction fs generalizing t written with
  | nil =>
    cases h
    exact .refl [] _
  | cons f fs ih =>
    obtain ⟨s, rest, hw, hrest, rfl⟩ := writeAll_cons_ok h
    exact (Tree.changedAt_writeDeep hw).trans (ih hrest)

theorem StopsAt.changedAt {out : Location} {t s : Tree} {fs before : List GeneratedFile}
    {f : GeneratedFile} (h : StopsAt out t fs before f s) :
    Tree.ChangedAt (placesOf out (before ++ [f])) t s := by
  refine (changedAt_writeAll h.written).mono ?_
  rw [placesOf, placesOf, List.map_append]
  exact List.subset_append_left _ _

variable {readers : Discovery.Readers} {t : Tree} {base : Location} {set : String}
  {o : GenerateOptions}

theorem Produces.dry {protos : List Proto.File} {c : Config} {outputs : List GeneratedFile}
    (h : Produces readers t base set o protos c outputs) :
    (generate readers t base set o.dry).outcome = .ok ⟨outputs, []⟩ := by
  have hdry : Produces readers t base set o.dry protos c outputs := h
  have hends := generate_ends readers t base set o.dry
  generalize (generate readers t base set o.dry).outcome = outcome,
    (generate readers t base set o.dry).tree = tree at hends ⊢
  cases hends with
  | unread hread => cases hread.symm.trans hdry.1
  | unproduced hread hproduce =>
    cases hread.symm.trans hdry.1
    cases hproduce.symm.trans hdry.2
  | unneeded hproduces hnone =>
    cases hproduces.1.symm.trans hdry.1
    cases hproduces.2.symm.trans hdry.2
    rfl
  | stopped hproduces hwet hstop => cases hwet
  | written hproduces hwet hwrite => cases hwet

namespace Ends

variable {e : GenError} {g : Generated} {tree : Tree}

theorem tree_eq_of_early (h : Ends readers t base set o (.error e) tree) (he : IsEarly e) :
    tree = t := by
  cases h with
  | unread hread => rfl
  | unproduced hread hproduce => rfl
  | stopped hproduces hwet hstop => exact absurd he (not_isEarly_unwritten _ _)

theorem tree_eq_of_dry {outcome : Except GenError Generated}
    (h : Ends readers t base set o outcome tree) (hdry : o.dryRun = true) : tree = t := by
  cases h with
  | unread hread => rfl
  | unproduced hread hproduce => rfl
  | unneeded hproduces hnone => rfl
  | stopped hproduces hwet hstop =>
    rw [hdry] at hwet
    cases hwet
  | written hproduces hwet hwrite =>
    rw [hdry] at hwet
    cases hwet

theorem tree_eq_of_nothing (h : Ends readers t base set o (.ok g) tree) (hnone : g.files = []) :
    tree = t := by
  cases h with
  | unneeded hproduces hnone => rfl
  | written hproduces hwet hwrite =>
    cases hnone
    exact (congrArg Prod.snd hwrite).symm

theorem stopped_of_not_early (h : Ends readers t base set o (.error e) tree) (he : ¬ IsEarly e) :
    ∃ protos c outputs before f, Produces readers t base set o protos c outputs ∧
      StopsAt (o.outDir base) t outputs before f tree ∧ e = unwritten (o.outDir base) f := by
  cases h with
  | unread hread => exact absurd (errorsIn_readSet t _ _ hread) he
  | unproduced hread hproduce => exact absurd (errorsIn_produce readers t base o _ _ hproduce) he
  | stopped hproduces hwet hstop => exact ⟨_, _, _, _, _, hproduces, hstop, rfl⟩

theorem changedAt_of_ok (h : Ends readers t base set o (.ok g) tree) :
    Tree.ChangedAt g.written t tree := by
  cases h with
  | unneeded hproduces hnone => exact .refl _ t
  | written hproduces hwet hwrite => exact changedAt_writeAll hwrite

theorem dry_of_ok (h : Ends readers t base set o (.ok g) tree) :
    (generate readers t base set o.dry).outcome = .ok ⟨g.files, []⟩ := by
  cases h with
  | unneeded hproduces hnone => exact hproduces.dry
  | written hproduces hwet hwrite => exact hproduces.dry

end Ends

variable (readers t base set o) in
/-- **Nothing is touched before everything has been generated**, and then only the outputs. A dry
run tells what those are. -/
theorem generate_frame :
    let run := generate readers t base set o
    let dryRun := generate readers t base set o.dry
    ((∃ e, run.outcome = .error e ∧ e.code ≠ "WRITE_FAILED") ∨ o.dryRun = true ∨
      (∃ g, run.outcome = .ok g ∧ g.files = []) → run.tree = t) ∧
    (∀ e, run.outcome = .error e → e.code = "WRITE_FAILED" → ∃ outputs before f,
      dryRun.outcome = .ok ⟨outputs, []⟩ ∧ before ++ [f] <+: outputs ∧
      e = unwritten (o.outDir base) f ∧
      Tree.ChangedAt (placesOf (o.outDir base) (before ++ [f])) t run.tree) ∧
    ∀ g, run.outcome = .ok g →
      dryRun.outcome = .ok ⟨g.files, []⟩ ∧ Tree.ChangedAt g.written t run.tree := by
  intro run dryRun
  have hends : Ends readers t base set o run.outcome run.tree := generate_ends readers t base set o
  refine ⟨?untouched, ?stopped, ?written⟩
  case untouched =>
    rintro (⟨e, he, hcode⟩ | hdry | ⟨g, hg, hnone⟩)
    · rw [he] at hends
      exact hends.tree_eq_of_early (isEarly_iff.2 hcode)
    · exact hends.tree_eq_of_dry hdry
    · rw [hg] at hends
      exact hends.tree_eq_of_nothing hnone
  case stopped =>
    intro e he hcode
    rw [he] at hends
    have hlate : ¬ IsEarly e := fun hearly => isEarly_iff.1 hearly hcode
    obtain ⟨protos, c, outputs, before, f, hproduces, hstop, rfl⟩ :=
      hends.stopped_of_not_early hlate
    exact ⟨outputs, before, f, hproduces.dry, hstop.split, rfl, hstop.changedAt⟩
  case written =>
    intro g hg
    rw [hg] at hends
    exact ⟨hends.dry_of_ok, hends.changedAt_of_ok⟩

/-- A run that writes its first output and stops at the second. -/
theorem generate_frame_blocked :
    let run := generate .builtin blockedTree .root "caches" toTypeScript
    run.tree ≠ blockedTree ∧ ∃ outputs before f,
      (generate .builtin blockedTree .root "caches" toTypeScript.dry).outcome = .ok ⟨outputs, []⟩ ∧
      before ++ [f] <+: outputs ∧ run.outcome = .error (unwritten (toTypeScript.outDir .root) f) ∧
      Tree.ChangedAt (placesOf (toTypeScript.outDir .root) (before ++ [f])) blockedTree
        run.tree := by
  intro run
  have htree : run.tree ≠ blockedTree := by decide +kernel
  have hcode : (Outcome.error? run.outcome).map GenError.code = some "WRITE_FAILED" := by
    decide +kernel
  obtain ⟨e, he, hcode⟩ := Option.map_eq_some_iff.1 hcode
  rw [Outcome.error?_eq_some] at he
  obtain ⟨outputs, before, f, hdry, hsplit, rfl, hchanged⟩ :=
    (generate_frame .builtin blockedTree .root "caches" toTypeScript).2.1 e he hcode
  exact ⟨htree, outputs, before, f, hdry, hsplit, he, hchanged⟩

end Command

end CacheGen
