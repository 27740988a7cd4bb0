import CacheGen.Command.Generate
import CacheGen.Proofs.Utf8

/-!
# What a tree holds after writing

Making directories changes no file. Writing a file changes what is read at its own location and
nowhere else. So after a row of writes each location holds what was written there last, and what it
held before if nothing was.
-/

namespace CacheGen

namespace Tree

/-- The text of the file at `l`, if a file is there. -/
def readText? (t : Tree) (l : Location) : Option String := (t.read? l).map Utf8.decode

/-! ## One entry -/

theorem get?_root (t : Tree) : t.get? .root = some .directory := if_pos rfl

theorem get?_insert {t : Tree} {l : Location} (e : Entry) (hl : l ≠ .root) (l' : Location) :
    (Tree.mk (t.entries.insert l e)).get? l' = if l' = l then some e else t.get? l' := by
  unfold get?
  by_cases hroot : l' = .root
  · rw [if_pos hroot, if_pos hroot, if_neg (hroot ▸ hl.symm)]
  · rw [if_neg hroot, if_neg hroot, OrderedMap.get?_insert]

theorem read?_makeDirectory {t t' : Tree} {l : Location} (h : t.makeDirectory l = some t')
    (l' : Location) : t'.read? l' = t.read? l' := by
  unfold makeDirectory at h
  cases hl : t.get? l with
  | none =>
    simp only [hl, Option.some.injEq] at h
    have hroot : l ≠ .root := by
      rintro rfl
      rw [get?_root] at hl
      cases hl
    subst h
    unfold read?
    rw [get?_insert _ hroot]
    by_cases hl' : l' = l
    · rw [if_pos hl', hl', hl]
    · rw [if_neg hl']
  | some e =>
    cases e with
    | directory =>
      simp only [hl, Option.some.injEq] at h
      rw [h]
    | file content => simp [hl] at h

theorem read?_makeDirectories {t t' : Tree} {l : Location} (h : t.makeDirectories l = some t')
    (l' : Location) : t'.read? l' = t.read? l' := by
  unfold makeDirectories at h
  generalize l.ancestry = way at h
  induction way generalizing t with
  | nil =>
    cases h
    rfl
  | cons above way ih =>
    rw [List.foldlM_cons] at h
    obtain ⟨s, hs, hrest⟩ := Option.bind_eq_some_iff.1 h
    rw [ih hrest, read?_makeDirectory hs]

theorem get?_write {t t' : Tree} {l : Location} {content : Bytes}
    (h : t.write l content = some t') (l' : Location) :
    t'.get? l' = if l' = l then some (.file content) else t.get? l' := by
  unfold write at h
  split at h
  · next hfree =>
    have hroot : l ≠ .root := by
      rintro rfl
      simp [isDirectory, get?_root] at hfree
    cases h
    exact get?_insert _ hroot l'
  · cases h

theorem read?_write {t t' : Tree} {l : Location} {content : Bytes}
    (h : t.write l content = some t') (l' : Location) :
    t'.read? l' = if l' = l then some content else t.read? l' := by
  unfold read?
  rw [get?_write h]
  by_cases hl' : l' = l
  · rw [if_pos hl', if_pos hl']
  · rw [if_neg hl', if_neg hl']

theorem read?_writeDeep {t t' : Tree} {l : Location} {content : Bytes}
    (h : t.writeDeep l content = some t') (l' : Location) :
    t'.read? l' = if l' = l then some content else t.read? l' := by
  obtain ⟨s, hs, hw⟩ := Option.bind_eq_some_iff.1 h
  rw [read?_write hw, read?_makeDirectories hs]

theorem readText?_writeDeep {t t' : Tree} {l : Location} {text : String}
    (h : t.writeDeep l (Utf8.encode text) = some t') (l' : Location) :
    t'.readText? l' = if l' = l then some text else t.readText? l' := by
  unfold readText?
  rw [read?_writeDeep h]
  by_cases hl : l' = l
  · rw [if_pos hl, if_pos hl, Option.map_some, Utf8.decode_encode]
  · rw [if_neg hl, if_neg hl]

end Tree

/-! ## A row of outputs -/

namespace Command

variable {out : Location}

/-- The last of `outputs` whose place is `l`. -/
def lastAt (out : Location) (outputs : List GeneratedFile) (l : Location) : Option GeneratedFile :=
  outputs.reverse.find? fun f => out.resolve f.name = l

theorem lastAt_cons (f : GeneratedFile) (fs : List GeneratedFile) (l : Location) :
    lastAt out (f :: fs) l =
      (lastAt out fs l).or (if out.resolve f.name = l then some f else none) := by
  unfold lastAt
  rw [List.reverse_cons, List.find?_append, List.find?_singleton]
  simp only [decide_eq_true_eq]

theorem lastAt_spec (out : Location) {fs : List GeneratedFile} {f : GeneratedFile} (hf : f ∈ fs) :
    ∃ g ∈ fs, lastAt out fs (out.resolve f.name) = some g ∧
      out.resolve g.name = out.resolve f.name := by
  cases hg : lastAt out fs (out.resolve f.name) with
  | none =>
    have hnone := List.find?_eq_none.1 hg f (List.mem_reverse.2 hf)
    exact absurd (decide_eq_true rfl) hnone
  | some g =>
    have hplace := List.find?_some hg
    exact ⟨g, List.mem_reverse.1 (List.mem_of_find?_eq_some hg), rfl, of_decide_eq_true hplace⟩

/-- The first output is written, then the others on top of it. -/
theorem writeAll_cons_ok {t t' : Tree} {f : GeneratedFile} {fs : List GeneratedFile}
    {written : List Location} (h : writeAll out t (f :: fs) = (.ok written, t')) :
    ∃ s rest, t.writeDeep (out.resolve f.name) (Utf8.encode f.content) = some s ∧
      writeAll out s fs = (.ok rest, t') ∧ written = out.resolve f.name :: rest := by
  rw [writeAll] at h
  cases hw : t.writeDeep (out.resolve f.name) (Utf8.encode f.content) with
  | none => simp [hw] at h
  | some s =>
    simp only [hw, Prod.mk.injEq] at h
    obtain ⟨hok, htree⟩ := h
    cases hrest : (writeAll out s fs).1 with
    | error e =>
      rw [hrest] at hok
      cases hok
    | ok rest =>
      rw [hrest] at hok
      cases hok
      exact ⟨s, rest, rfl, Prod.ext hrest htree, rfl⟩

/-- When all outputs could be written, each location holds the last output with that place. -/
theorem writeAll_ok {t t' : Tree} {fs : List GeneratedFile} {written : List Location}
    (h : writeAll out t fs = (.ok written, t')) :
    written = fs.map (fun f => out.resolve f.name) ∧
      ∀ l, t'.readText? l = ((lastAt out fs l).map GeneratedFile.content).or (t.readText? l) := by
  induction fs generalizing t written with
  | nil =>
    cases h
    exact ⟨rfl, fun l => rfl⟩
  | cons f fs ih =>
    obtain ⟨s, rest, hw, hrest, rfl⟩ := writeAll_cons_ok h
    obtain ⟨hwritten, hread⟩ := ih hrest
    refine ⟨by rw [hwritten, List.map_cons], fun l => ?_⟩
    rw [hread, lastAt_cons, Option.map_or, Option.or_assoc, Tree.readText?_writeDeep hw]
    by_cases hl : l = out.resolve f.name
    · rw [if_pos hl, if_pos hl.symm]
      rfl
    · rw [if_neg hl, if_neg (Ne.symm hl)]
      rfl

/-- The outputs can all be read back exactly when no two differ in one place. -/
theorem writeAll_keeps_iff {t t' : Tree} {fs : List GeneratedFile} {written : List Location}
    (h : writeAll out t fs = (.ok written, t')) :
    (∀ f ∈ fs, t'.readText? (out.resolve f.name) = some f.content) ↔
      ∀ f ∈ fs, ∀ g ∈ fs, out.resolve f.name = out.resolve g.name → f.content = g.content := by
  constructor
  · intro hkept f hf g hg hplace
    have hsame := hkept f hf
    rw [hplace, hkept g hg] at hsame
    exact (Option.some.inj hsame).symm
  · intro hsame f hf
    obtain ⟨g, hg, hlast, hplace⟩ := lastAt_spec out hf
    rw [(writeAll_ok h).2, hlast, Option.map_some, Option.some_or, hsame g hg f hf hplace]

end Command

end CacheGen
