import CacheGen.Proofs.FilesKept
import CacheGen.Proofs.Ways

/-!
# Outputs inside the output directory

A run of `generate` writes each output where its name leads from the output directory. Names come
from the descriptors and are not looked at on the way: the name of a source file may climb, and so
may a `go_package`, and both may be absolute.

**Theorem (`writes_confined_iff`).** What a run has written, to its end or up to a write that failed,
is inside the output directory exactly where the stem of the output regains that directory. Stems
that only descend always do.
-/

namespace CacheGen.Command

/-! ## What is written before a run ends -/

/-- The places that `writeAll` has written when it ends, in order. -/
def placesWritten (out : Location) : Tree → List GeneratedFile → List Location
  | _, [] => []
  | t, f :: fs =>
    match t.writeDeep (out.resolve f.name) (Utf8.encode f.content) with
    | none => []
    | some t => out.resolve f.name :: placesWritten out t fs

/-- From `t` to `t'` there was writing at `places`, and nowhere else. -/
structure WroteAt (places : List Location) (t t' : Tree) : Prop where
  there : ∀ l ∈ places, (t'.read? l).isSome = true
  elsewhere : ∀ l, l ∉ places → t'.read? l = t.read? l

theorem WroteAt.nothing (t : Tree) : WroteAt [] t t :=
  ⟨fun _ h => absurd h List.not_mem_nil, fun _ _ => rfl⟩

/-- One write before the others. -/
theorem WroteAt.cons {places : List Location} {t s t' : Tree} {l : Location} {content : Bytes}
    (hw : t.writeDeep l content = some s) (h : WroteAt places s t') :
    WroteAt (l :: places) t t' := by
  constructor
  · intro l' hl'
    by_cases hlater : l' ∈ places
    · exact h.there l' hlater
    · have hfirst : l' = l := (List.mem_cons.1 hl').resolve_right hlater
      rw [h.elsewhere l' hlater, Tree.read?_writeDeep hw, if_pos hfirst]
      rfl
  · intro l' hl'
    obtain ⟨hne, hnot⟩ := not_or.1 (mt List.mem_cons.2 hl')
    rw [h.elsewhere l' hnot, Tree.read?_writeDeep hw, if_neg hne]

theorem wroteAt_writeAll (out : Location) (t : Tree) (fs : List GeneratedFile) :
    WroteAt (placesWritten out t fs) t (writeAll out t fs).2 := by
  induction fs generalizing t with
  | nil => exact .nothing t
  | cons f fs ih =>
    rw [placesWritten, writeAll]
    cases hw : t.writeDeep (out.resolve f.name) (Utf8.encode f.content) with
    | none => exact .nothing t
    | some s => exact .cons hw (ih s)

theorem placesWritten_of_ok {out : Location} {t t' : Tree} {fs : List GeneratedFile}
    {written : List Location} (h : writeAll out t fs = (.ok written, t')) :
    placesWritten out t fs = written := by
  induction fs generalizing t written with
  | nil =>
    cases h
    rfl
  | cons f fs ih =>
    obtain ⟨s, rest, hw, hrest, rfl⟩ := writeAll_cons_ok h
    simp only [placesWritten, hw, ih hrest]

theorem mem_placesWritten {out : Location} {t : Tree} {fs : List GeneratedFile} {l : Location}
    (h : l ∈ placesWritten out t fs) : ∃ f ∈ fs, l = out.resolve f.name := by
  induction fs generalizing t with
  | nil => exact absurd h List.not_mem_nil
  | cons f fs ih =>
    rw [placesWritten] at h
    cases hw : t.writeDeep (out.resolve f.name) (Utf8.encode f.content) with
    | none => simp [hw] at h
    | some s =>
      rw [hw] at h
      rcases List.mem_cons.1 h with rfl | h
      · exact ⟨f, List.mem_cons_self, rfl⟩
      · obtain ⟨f', hf', hl⟩ := ih h
        exact ⟨f', List.mem_cons_of_mem _ hf', hl⟩

/-! ## What a run writes -/

section Runs

section

variable (readers : Discovery.Readers) (t : Tree) (base : Location) (set : String)
  (o : GenerateOptions)

/-- The outputs that a run sets out to write. -/
def toWrite : List GeneratedFile :=
  match readSet t (base.resolve set) with
  | .error _ => []
  | .ok protos =>
    match produce readers t base o protos with
    | .error _ => []
    | .ok (_, outputs) => if o.dryRun then [] else outputs

/-- The places that a run has written when it ends, well or not. -/
def writes : List Location :=
  placesWritten (base.resolve (o.out.getD ".")) t (toWrite readers t base set o)

theorem generate_writeAll :
    let done := writeAll (base.resolve (o.out.getD ".")) t (toWrite readers t base set o)
    (generate readers t base set o).tree = done.2 ∧
      ∀ g, (generate readers t base set o).outcome = .ok g → done = (.ok g.written, done.2) := by
  have hends := generate_ends readers t base set o
  generalize (generate readers t base set o).outcome = outcome,
    (generate readers t base set o).tree = tree at hends ⊢
  unfold toWrite
  cases hends with
  | unread hread =>
    rw [hread]
    exact ⟨rfl, fun g h => nomatch h⟩
  | unproduced hread hproduce =>
    simp only [hread, hproduce]
    exact ⟨rfl, fun g h => nomatch h⟩
  | @unneeded protos c outputs hproduces hnone =>
    have hnothing : (if o.dryRun then [] else outputs) = [] := by
      rcases hnone with rfl | hdry
      · exact ite_self _
      · exact if_pos hdry
    simp only [hproduces.1, hproduces.2, hnothing]
    exact ⟨rfl, fun g h => by cases h; rfl⟩
  | @stopped protos c outputs before f s hproduces hwet hstop =>
    have hdone : writeAll (base.resolve (o.out.getD ".")) t outputs = _ := hstop.writeAll_eq
    simp only [hproduces.1, hproduces.2, hwet, Bool.false_eq_true, if_false]
    rw [hdone]
    exact ⟨rfl, fun g h => nomatch h⟩
  | @written protos c outputs t' hproduces hwet hwrite =>
    have hdone : writeAll (base.resolve (o.out.getD ".")) t outputs = _ := hwrite
    simp only [hproduces.1, hproduces.2, hwet, Bool.false_eq_true, if_false]
    rw [hdone]
    exact ⟨rfl, fun g h => by cases h; rfl⟩

end

variable {readers : Discovery.Readers} {t : Tree} {base : Location} {set : String}
  {o : GenerateOptions}

theorem basis_of_mem_toWrite {f : GeneratedFile} (h : f ∈ toWrite readers t base set o) :
    ∃ outputs protos c sources,
      Basis readers t base set o outputs protos c sources ∧ f ∈ outputs := by
  unfold toWrite at h
  cases hread : readSet t (base.resolve set) with
  | error e => simp [hread] at h
  | ok protos =>
    simp only [hread] at h
    cases hproduce : produce readers t base o protos with
    | error e => simp [hproduce] at h
    | ok p =>
      obtain ⟨c, outputs⟩ := p
      simp only [hproduce] at h
      obtain ⟨sources, hbasis⟩ := Produces.exists_basis ⟨hread, hproduce⟩
      by_cases hdry : o.dryRun = true
      · rw [if_pos hdry] at h
        exact absurd h List.not_mem_nil
      · rw [if_neg hdry] at h
        exact ⟨outputs, protos, c, sources, hbasis, h⟩

/-- What is written is the output of a source that contributes. -/
theorem source_of_mem_writes {l : Location} (h : l ∈ writes readers t base set o) :
    ∃ outputs protos c sources, Basis readers t base set o outputs protos c sources ∧
      ∃ s ∈ sources, c.contributes s = true ∧
        l = (base.resolve (o.out.getD ".")).resolve (c.output base s).name := by
  obtain ⟨f, hf, hl⟩ := mem_placesWritten h
  obtain ⟨outputs, protos, c, sources, hbasis, hf⟩ := basis_of_mem_toWrite hf
  rw [generateFiles_ok hbasis.generated] at hf
  obtain ⟨s, hs, rfl⟩ := List.mem_map.1 hf
  obtain ⟨hs, hcontributes⟩ := List.mem_filter.1 hs
  exact ⟨outputs, protos, c, sources, hbasis, s, hs, hcontributes, hl⟩

/-- **Where a run writes inside its output directory.** A run that succeeds lists the places that it
has written; one that fails has written some of its outputs or none. Either way it has written at
these places and nowhere else, each is that of the output for a source, and it is inside the output
directory exactly when the stem of the output regains that directory, so always when the stem only
descends. -/
theorem writes_confined_iff (hbase : base.IsPlain) :
    let out := base.resolve (o.out.getD ".")
    let run := generate readers t base set o
    (∀ g, run.outcome = .ok g → g.written = writes readers t base set o) ∧
      WroteAt (writes readers t base set o) t run.tree ∧
      ∀ l ∈ writes readers t base set o, ∃ outputs protos c sources,
        Basis readers t base set o outputs protos c sources ∧
        ∃ s ∈ sources, c.contributes s = true ∧ l = out.resolve (c.output base s).name ∧
          (out.Below l ↔ out.Regains (c.stemOf s)) ∧
          (Path.Descends (c.stemOf s) → out.Below l) := by
  intro out run
  obtain ⟨htree, hok⟩ := generate_writeAll readers t base set o
  refine ⟨fun g hg => (placesWritten_of_ok (hok g hg)).symm, ?_, fun l hl => ?_⟩
  · show WroteAt _ t (generate readers t base set o).tree
    rw [htree]
    exact wroteAt_writeAll _ t _
  · obtain ⟨outputs, protos, c, sources, hbasis, s, hs, hcontributes, rfl⟩ :=
      source_of_mem_writes hl
    have hiff : out.Below (out.resolve (c.output base s).name) ↔ out.Regains (c.stemOf s) :=
      Location.below_resolve_append_iff (Location.isPlain_resolve hbase _)
        (Target.slash_not_mem_ending _) (Target.length_ending _) _
    exact ⟨outputs, protos, c, sources, hbasis, s, hs, hcontributes, rfl, hiff,
      fun hdescends => hiff.2 (Path.regains_of_descends hdescends out)⟩

end Runs

/-! ## A package beside the output directory -/

/-- A tree with one file in a set, in the Go package at `path`. -/
def packageTree (path : String) : Tree :=
  ⟨.ofEntries [(⟨["orders"]⟩, .file (Wire.putFileSet [
    { name := "order.proto", goPackage := path, services := [⟨"OrderCache", []⟩] }]))]⟩

def goInto (dir : String) : GenerateOptions :=
  { out := some dir, target := some "go", quiet := true }

theorem writes_confined_iff_packages :
    Location.root.IsPlain ∧
      writes .builtin (packageTree "shop") .root "orders" (goInto "gen") =
        [⟨["gen", "shop", "order_cache_manager.pb.go"]⟩] ∧
      ((generate .builtin (packageTree "shop") .root "orders" (goInto "gen")).tree.read?
        ⟨["gen", "shop", "order_cache_manager.pb.go"]⟩).isSome = true := by
  have hplain : Location.root.IsPlain := by decide
  have hwrites : writes .builtin (packageTree "shop") .root "orders" (goInto "gen") =
      [⟨["gen", "shop", "order_cache_manager.pb.go"]⟩] := by
    decide +kernel
  refine ⟨hplain, hwrites, (writes_confined_iff hplain).2.1.there _ ?_⟩
  rw [hwrites]
  exact List.mem_cons_self

/-- The path of a package leads out of the output directory. -/
theorem package_path_leaves_out :
    ¬ ∀ (readers : Discovery.Readers) (t : Tree) (base : Location) (set : String)
      (o : GenerateOptions) (g : Generated), base.IsPlain →
      (generate readers t base set o).outcome = .ok g →
      ∀ l ∈ g.written, (base.resolve (o.out.getD ".")).Below l := by
  intro hall
  have hrun : (generate .builtin (packageTree "../shop") .root "orders" (goInto "gen")).Succeeds
      fun g _ => ∃ l ∈ g.written, ¬ (Location.root.resolve "gen").Below l := by
    decide +kernel
  obtain ⟨g, hok, l, hl, hout⟩ := hrun
  exact hout (hall _ _ .root "orders" _ g (by decide) hok l hl)

end CacheGen.Command
