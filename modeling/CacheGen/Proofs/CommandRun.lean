import CacheGen.Proofs.ConfigFile
import CacheGen.Proofs.GenerationErrors
import CacheGen.Proofs.Resolution
import CacheGen.Proofs.Settings
import CacheGen.Proofs.Writing

/-!
# How a run of the command ends

A run of `generate` reads the set, produces the outputs, and writes them one after the other. It
ends at the first of these that fails, and before the writing when there is nothing to write or the
run is dry. `Ends` has one constructor for each of these ends, with the result and the tree that is
left. All that holds of a run follows from the cases (`generate_ends`).

What it produces depends on one config, that of the project with the options over it (`configOf`).
Writing stops at the first output that cannot be written, with those before it in place
(`writeAll_cases`). No stage before fails as writing does (`errorsIn_produce`).
-/

namespace CacheGen.Command

open Outcome (ErrorsIn)

/-! ## Producing -/

/-- The files that are asked for of `set`. -/
def GenerateOptions.requested (o : GenerateOptions) (set : List Proto.File) : List String :=
  if o.files.isEmpty then set.map (·.name) else o.files

/-- The config that a run goes by. -/
def configOf (readers : Discovery.Readers) (t : Tree) (base : Location) (o : GenerateOptions) :
    Except GenError Config := do
  let project ← Discovery.loadRunning readers t base (o.config.getD base.path)
  let given ← o.overrides
  Config.resolve [project, given]

theorem produce_eq (readers : Discovery.Readers) (t : Tree) (base : Location) (o : GenerateOptions)
    (set : List Proto.File) :
    produce readers t base o set = do
      let c ← configOf readers t base o
      let files ← SourceFile.ofProtos set (o.requested set) c.goImportMap
      let outputs ← generateFiles base files c
      return (c, outputs) := by
  unfold produce configOf
  cases o.config <;> simp only [bind_assoc] <;> rfl

/-! ## Writing -/

/-- The places of outputs below `out`. -/
def placesOf (out : Location) (fs : List GeneratedFile) : List Location :=
  fs.map fun f => out.resolve f.name

/-- The error of a run that cannot write `f`. -/
def unwritten (out : Location) (f : GeneratedFile) : GenError :=
  .writeFailed (out.resolve f.name).path "it cannot be written there"

/-- The first of `fs` that cannot be written is `f`: those before it are, and leave `s`. -/
structure StopsAt (out : Location) (t : Tree) (fs before : List GeneratedFile) (f : GeneratedFile)
    (s : Tree) : Prop where
  split : before ++ [f] <+: fs
  written : writeAll out t before = (.ok (placesOf out before), s)
  refused : s.writeDeep (out.resolve f.name) (Utf8.encode f.content) = none

theorem writeAll_cons_of_write {out : Location} {t s : Tree} {f : GeneratedFile}
    (hw : t.writeDeep (out.resolve f.name) (Utf8.encode f.content) = some s)
    (fs : List GeneratedFile) : writeAll out t (f :: fs) =
      ((writeAll out s fs).1.map (out.resolve f.name :: ·), (writeAll out s fs).2) := by
  rw [writeAll]
  simp only [hw]

/-- Writing ends with all outputs in place, or stops at the first that cannot be written. -/
theorem writeAll_cases (out : Location) (t : Tree) (fs : List GeneratedFile) :
    (∃ t', writeAll out t fs = (.ok (placesOf out fs), t')) ∨
      ∃ before f s, StopsAt out t fs before f s := by
  induction fs generalizing t with
  | nil => exact .inl ⟨t, rfl⟩
  | cons f fs ih =>
    cases hw : t.writeDeep (out.resolve f.name) (Utf8.encode f.content) with
    | none => exact .inr ⟨[], f, t, List.prefix_append [f] fs, rfl, hw⟩
    | some s =>
      rcases ih s with ⟨t', hall⟩ | ⟨before, g, s', hstop⟩
      · refine .inl ⟨t', ?_⟩
        rw [writeAll_cons_of_write hw, hall]
        rfl
      · refine .inr ⟨f :: before, g, s', (List.prefix_cons_inj f).2 hstop.split, ?_, hstop.refused⟩
        rw [writeAll_cons_of_write hw, hstop.written]
        rfl

/-- Where it stops, it ends with the error of that output and the tree before it. -/
theorem StopsAt.writeAll_eq {out : Location} {t s : Tree} {fs before : List GeneratedFile}
    {f : GeneratedFile} (h : StopsAt out t fs before f s) :
    writeAll out t fs = (.error (unwritten out f), s) := by
  obtain ⟨⟨later, rfl⟩, hwritten, hrefused⟩ := h
  induction before generalizing t with
  | nil =>
    cases hwritten
    simp only [List.nil_append, List.singleton_append, writeAll, hrefused]
    rfl
  | cons g before ih =>
    obtain ⟨s₁, rest, hw, hrest, hplaces⟩ := writeAll_cons_ok hwritten
    cases hplaces
    rw [List.cons_append, List.cons_append, writeAll_cons_of_write hw, ih hrest]
    rfl

/-! ## Runs -/

/-- The directory that a run writes below. -/
def GenerateOptions.outDir (o : GenerateOptions) (base : Location) : Location :=
  base.resolve (o.out.getD ".")

/-- `o` without the writing. -/
def GenerateOptions.dry (o : GenerateOptions) : GenerateOptions := { o with dryRun := true }

section

variable (readers : Discovery.Readers) (t : Tree) (base : Location) (set : String)
  (o : GenerateOptions)

/-- `outputs` were produced from the set, for the config `c`. -/
def Produces (protos : List Proto.File) (c : Config) (outputs : List GeneratedFile) : Prop :=
  readSet t (base.resolve set) = .ok protos ∧ produce readers t base o protos = .ok (c, outputs)

/-- How a run ends: with a result, and with the tree that it leaves. -/
inductive Ends : Except GenError Generated → Tree → Prop
  | unread {e : GenError} (hread : readSet t (base.resolve set) = .error e) : Ends (.error e) t
  | unproduced {protos : List Proto.File} {e : GenError}
      (hread : readSet t (base.resolve set) = .ok protos)
      (hproduce : produce readers t base o protos = .error e) : Ends (.error e) t
  | unneeded {protos : List Proto.File} {c : Config} {outputs : List GeneratedFile}
      (hproduces : Produces readers t base set o protos c outputs)
      (hnone : outputs = [] ∨ o.dryRun = true) : Ends (.ok ⟨outputs, []⟩) t
  | stopped {protos : List Proto.File} {c : Config} {outputs before : List GeneratedFile}
      {f : GeneratedFile} {s : Tree} (hproduces : Produces readers t base set o protos c outputs)
      (hwet : o.dryRun = false) (hstop : StopsAt (o.outDir base) t outputs before f s) :
      Ends (.error (unwritten (o.outDir base) f)) s
  | written {protos : List Proto.File} {c : Config} {outputs : List GeneratedFile} {t' : Tree}
      (hproduces : Produces readers t base set o protos c outputs) (hwet : o.dryRun = false)
      (hwrite : writeAll (o.outDir base) t outputs = (.ok (placesOf (o.outDir base) outputs), t')) :
      Ends (.ok ⟨outputs, placesOf (o.outDir base) outputs⟩) t'

theorem generate_ends :
    Ends readers t base set o (generate readers t base set o).outcome
      (generate readers t base set o).tree := by
  unfold generate
  cases hread : readSet t (base.resolve set) with
  | error e => exact .unread hread
  | ok protos =>
    simp only
    cases hproduce : produce readers t base o protos with
    | error e => exact .unproduced hread hproduce
    | ok p =>
      obtain ⟨c, outputs⟩ := p
      simp only
      by_cases hnone : outputs.isEmpty = true
      · rw [if_pos hnone]
        exact .unneeded ⟨hread, hproduce⟩ (.inl (List.isEmpty_iff.1 hnone))
      rw [if_neg hnone]
      by_cases hdry : o.dryRun = true
      · rw [if_pos hdry]
        exact .unneeded ⟨hread, hproduce⟩ (.inr hdry)
      rw [if_neg hdry]
      rw [Bool.not_eq_true] at hdry
      rcases writeAll_cases (o.outDir base) t outputs with
        ⟨t', hall⟩ | ⟨before, f, s, hstop⟩
      · rw [← GenerateOptions.outDir, hall]
        exact .written ⟨hread, hproduce⟩ hdry hall
      · rw [← GenerateOptions.outDir, hstop.writeAll_eq]
        exact .stopped ⟨hread, hproduce⟩ hdry hstop

end

/-- The run succeeded, and `p` holds of its result and the tree it left. -/
def Run.Succeeds {α : Type} (r : Run α) (p : α → Tree → Prop) : Prop :=
  ∃ a, r.outcome = .ok a ∧ p a r.tree

instance {α : Type} (p : α → Tree → Prop) [∀ a t, Decidable (p a t)] :
    (r : Run α) → Decidable (r.Succeeds p)
  | ⟨.ok a, _, t⟩ =>
    decidable_of_iff (p a t) ⟨fun h => ⟨a, rfl, h⟩, fun ⟨_, h, h'⟩ => by cases h; exact h'⟩
  | ⟨.error _, _, _⟩ => .isFalse fun ⟨_, h, _⟩ => nomatch h

/-! ## Errors before the writing -/

/-- Another error than that of an output that cannot be written. -/
def IsEarly : GenError → Prop
  | .writeFailed .. => False
  | _ => True

theorem isEarly_iff {e : GenError} : IsEarly e ↔ e.code ≠ "WRITE_FAILED" := by
  cases e <;> simp [IsEarly, GenError.code]

theorem not_isEarly_unwritten (out : Location) (f : GeneratedFile) : ¬ IsEarly (unwritten out f) :=
  id

theorem errorsIn_readSet (t : Tree) (set : Location) : ErrorsIn IsEarly (readSet t set) := by
  unfold readSet
  cases t.get? set with
  | none => exact .error trivial
  | some entry =>
    cases entry with
    | directory => exact .error trivial
    | file content =>
      dsimp only
      cases Wire.readFileSet content with
      | none => exact .error trivial
      | some files => exact .ok files

theorem errorsIn_load (readers : Discovery.Readers) (t : Tree) (base : Location)
    (source : String) : ErrorsIn IsEarly (Discovery.loadRunning readers t base source) := by
  intro e he
  rw [isEarly_iff, Discovery.code_of_searchBy he]
  decide

theorem errorsIn_overrides (o : GenerateOptions) : ErrorsIn IsEarly o.overrides := by
  rw [o.overrides_eq]
  refine .bind ?_ fun target => .bind ?_ fun layout => .ok _
  · cases o.target with
    | none => exact .ok none
    | some name =>
      refine .bind ?_ fun t => .ok (some t)
      unfold Parameter.readTarget
      split
      · exact .ok name
      · exact .error trivial
  · cases o.paths with
    | none => exact .ok none
    | some name =>
      refine .bind ?_ fun l => .ok (some l)
      dsimp only
      unfold Parameter.readLayout
      split
      · exact .ok _
      · exact .error trivial

theorem errorsIn_resolve (layers : List Overrides) : ErrorsIn IsEarly (Config.resolve layers) := by
  rw [Config.resolve]
  split
  · exact .error trivial
  · exact .ok _

theorem errorsIn_ofProtos (protos : List Proto.File) (requested : List String)
    (imports : OrderedMap String String) :
    ErrorsIn IsEarly (SourceFile.ofProtos protos requested imports) := by
  intro e he
  by_cases hstuck : Proto.Stuck (Proto.messageNames protos) imports protos
  · rw [ofProtos_of_stuck hstuck] at he
    cases he
    trivial
  · have hdangling := error?_ofProtos hstuck requested
    rw [he] at hdangling
    obtain ⟨ref, -, rfl⟩ := Option.map_eq_some_iff.1 hdangling.symm
    trivial

theorem errorsIn_generateFiles (base : Location) (files : List SourceFile) (c : Config) :
    ErrorsIn IsEarly (generateFiles base files c) := by
  intro e he
  obtain ⟨file, cause, rfl⟩ := generateFiles_eq_error he
  trivial

/-- Nothing before the writing fails as writing does. -/
theorem errorsIn_produce (readers : Discovery.Readers) (t : Tree) (base : Location)
    (o : GenerateOptions) (protos : List Proto.File) :
    ErrorsIn IsEarly (produce readers t base o protos) := by
  rw [produce_eq, configOf]
  refine .bind (.bind (errorsIn_load readers t base _) fun project => ?_) fun c => ?_
  · exact .bind (errorsIn_overrides o) fun given => errorsIn_resolve _
  · exact .bind (errorsIn_ofProtos protos _ _) fun files =>
      .bind (errorsIn_generateFiles base files c) fun outputs => .ok (c, outputs)

/-! ## A run that stops -/

/-- A set of two files. -/
def caches : List Proto.File := [
  { name := "a.proto", services := [⟨"ACache", []⟩] },
  { name := "b.proto", services := [⟨"BCache", []⟩] }]

/-- The set, and a directory in the place of its second output. -/
def blockedTree : Tree := ⟨.ofEntries [(⟨["caches"]⟩, .file (Wire.putFileSet caches)),
  (⟨["b_cache_manager.ts"]⟩, .directory)]⟩

/-- Options for TypeScript. -/
def toTypeScript : GenerateOptions := { target := some "ts", quiet := true }

end CacheGen.Command
