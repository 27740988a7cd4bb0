import CacheGen.Proofs.GenerationErrors
import CacheGen.Proofs.Independence

/-!
# Settings of the other target

Each target has settings that are of use to it alone. Those of Go are not confined to Go output: what
the map of imports says goes into the model of every file, and a module that cannot be stripped is an
error. But in a model it reaches the Go package of the file only (`resolve_withoutGoPackage`), and
modules are stripped from the names of Go outputs only. The settings of TypeScript are read by its
renderer.

There is one way around this. A file can inherit its Go package from a map without an entry for it,
and then the request gets stuck (`generateAll_eq_fault_iff`), whatever the target is.

**What a target sees.** Generating for a file asks for the file, its services and the suffix, and for
what the target makes of it, the name and the text of the output. Two configs that agree there for
two models of a file give it the same output, or the same error (`generateRequested_congr`).

**Theorem (`other_settings_irrelevant`).** A run for Go ends in the same way whatever the settings of
TypeScript. A run for TypeScript ends in the same way under two choices of the settings of Go exactly
when it gets stuck under both or under neither.
-/

namespace CacheGen

/-! ## Configs that differ for one target -/

/-- The configs are the same but for the settings of Go. -/
def Config.DifferInGo (c c' : Config) : Prop :=
  ∃ runtime layout module imports, c' =
    { c with
      goRuntimeImport := runtime
      goLayout := layout
      goModule := module
      goImportMap := imports }

/-- The configs are the same but for the settings of TypeScript. -/
def Config.DifferInTypeScript (c c' : Config) : Prop :=
  ∃ runtime extension, c' = { c with tsRuntimeModule := runtime, importExtension := extension }

/-! ## Models without their Go package -/

/-- The model of a file as TypeScript sees it. -/
def SourceFile.withoutGoPackage (f : SourceFile) : SourceFile :=
  { f with goPackageName := "", goImportPath := "" }

section

variable {imports imports' : OrderedMap String String}

/-- Where a file does not inherit its Go package, the import map goes into the package and nowhere
else. -/
theorem Proto.File.resolve_withoutGoPackage (types : TypeIndex) (requested : List String) {f : File}
    (h : ¬ f.Inherits imports) (h' : ¬ f.Inherits imports') :
    SourceFile.withoutGoPackage <$> f.resolve types requested imports =
      SourceFile.withoutGoPackage <$> f.resolve types requested imports' := by
  unfold resolve effectiveGoPackage
  rw [if_neg h, if_neg h']
  show SourceFile.withoutGoPackage <$> (List.mapM _ _ >>= _) =
    SourceFile.withoutGoPackage <$> (List.mapM _ _ >>= _)
  rw [map_bind, map_bind]
  rfl

theorem SourceFile.ofProtos_withoutGoPackage {files : List Proto.File}
    (h : ¬ Proto.Stuck (Proto.messageNames files) imports files)
    (h' : ¬ Proto.Stuck (Proto.messageNames files) imports' files) (requested : List String) :
    List.map withoutGoPackage <$> ofProtos files requested imports =
      List.map withoutGoPackage <$> ofProtos files requested imports' := by
  have herror := error?_ofProtos h requested
  have herror' := error?_ofProtos h' requested
  cases href : Proto.dangling? files with
  | some ref =>
    rw [href] at herror herror'
    rw [Outcome.error?_eq_some.1 herror, Outcome.error?_eq_some.1 herror']
  | none =>
    rw [href] at herror herror'
    obtain ⟨hfree, -⟩ := exists_ofProtos_iff.1 (Outcome.error?_eq_none.1 herror)
    obtain ⟨hfree', -⟩ := exists_ofProtos_iff.1 (Outcome.error?_eq_none.1 herror')
    unfold ofProtos
    rw [Outcome.map_mapM, Outcome.map_mapM]
    exact Outcome.mapM_congr fun f hf =>
      f.resolve_withoutGoPackage _ _ (hfree f hf) (hfree' f hf)

end

/-! ## What a target sees -/

/-- To the target `t`, the model `f` under `c` and the model `f'` under `c'` are the same. -/
structure Target.SeesSame (t : Target) (base : Location) (c c' : Config) (f f' : SourceFile) :
    Prop where
  isRequested : f.isRequested = f'.isRequested
  name : f.name = f'.name
  candidates : t.candidates c.suffix f.services = t.candidates c'.suffix f'.services
  fileName : t.fileName f c = t.fileName f' c'
  render : ∀ plans, t.render base f plans c = t.render base f' plans c'

section

variable {base : Location} {c c' : Config} {t : Target}

theorem generateRequested_congr (ht : Target.ofName c.target = .ok t)
    (ht' : Target.ofName c'.target = .ok t) {f f' : SourceFile}
    (h : t.SeesSame base c c' f f') :
    generateRequested base c f = generateRequested base c' f' := by
  have hfile : generateFile base f c = generateFile base f' c' := by
    unfold generateFile
    rw [ht, ht']
    show ite _ _ _ = ite _ _ _
    rw [h.candidates, h.fileName, h.render]
  unfold generateRequested
  rw [h.isRequested, h.name, hfile]

theorem generateFiles_congr (ht : Target.ofName c.target = .ok t)
    (ht' : Target.ofName c'.target = .ok t) {view : SourceFile → SourceFile}
    (h : ∀ f, t.SeesSame base c c' f (view f)) (files : List SourceFile) :
    generateFiles base files c = generateFiles base (files.map view) c' := by
  unfold generateFiles
  rw [List.mapM_map]
  exact congrArg (· >>= _)
    (Outcome.mapM_congr fun f _ => generateRequested_congr ht ht' (h f))

/-- TypeScript sees no Go package, and none of the settings of Go. -/
theorem Config.DifferInGo.seesSame (h : c.DifferInGo c') (f : SourceFile) :
    Target.typeScript.SeesSame base c c' f f.withoutGoPackage := by
  obtain ⟨runtime, layout, module, imports, rfl⟩ := h
  exact ⟨rfl, rfl, rfl, rfl, fun _ => rfl⟩

/-- Go sees none of the settings of TypeScript. -/
theorem Config.DifferInTypeScript.seesSame (h : c.DifferInTypeScript c') (f : SourceFile) :
    Target.go.SeesSame base c c' f f := by
  obtain ⟨runtime, extension, rfl⟩ := h
  exact ⟨rfl, rfl, rfl, rfl, fun _ => rfl⟩

end

/-! ## Runs -/

namespace Proto

variable (base : Location) {c c' : Config} (files : List File) (requested : List String)

/-- A TypeScript run is one on models without a Go package, whatever the settings of Go. -/
theorem generateAll_withoutGoPackage (ht : Target.ofName c.target = .ok .typeScript)
    (h : c.DifferInGo c') :
    generateAll base c files requested = (do
      let sources ← List.map SourceFile.withoutGoPackage <$>
        SourceFile.ofProtos files requested c.goImportMap
      generateFiles base sources c') := by
  have ht' : Target.ofName c'.target = .ok .typeScript := by
    obtain ⟨_, _, _, _, rfl⟩ := h
    exact ht
  rw [bind_map_left]
  exact bind_congr fun sources => generateFiles_congr ht ht' (fun f => h.seesSame f) sources

variable {base files requested} in
/-- Only a request that gets stuck ends with that fault. -/
theorem generateAll_eq_fault_iff : generateAll base c files requested = .error packageFault ↔
    Stuck (messageNames files) c.goImportMap files := by
  constructor
  · intro hrun
    by_contra hstuck
    have herror := error?_ofProtos hstuck requested
    rcases Outcome.bind_eq_error.1 hrun with hresolve | ⟨sources, -, hgenerate⟩
    · rw [Outcome.error?_eq_some.2 hresolve] at herror
      obtain ⟨ref, -, href⟩ := Option.map_eq_some_iff.1 herror.symm
      cases href
    · obtain ⟨file, cause, he⟩ := generateFiles_eq_error hgenerate
      cases he
  · intro hstuck
    unfold generateAll
    rw [ofProtos_of_stuck hstuck]
    rfl

/-- Two TypeScript runs with other settings of Go end alike unless just one gets stuck. -/
theorem generateAll_typeScript_eq_iff (htarget : c.target = "ts") (h : c.DifferInGo c') :
    generateAll base c files requested = generateAll base c' files requested ↔
      (Stuck (messageNames files) c.goImportMap files ↔
        Stuck (messageNames files) c'.goImportMap files) := by
  have ht : Target.ofName c.target = .ok .typeScript := by rw [htarget]; rfl
  have ht' : Target.ofName c'.target = .ok .typeScript := by
    obtain ⟨_, _, _, _, rfl⟩ := h
    exact ht
  have hself : c'.DifferInGo c' := ⟨_, _, _, _, rfl⟩
  constructor
  · intro hsame
    have hfault : generateAll base c files requested = .error packageFault ↔ _ :=
      generateAll_eq_fault_iff
    rw [← hfault, hsame, generateAll_eq_fault_iff]
  · intro hboth
    by_cases hstuck : Stuck (messageNames files) c.goImportMap files
    · rw [generateAll_eq_fault_iff.2 hstuck, generateAll_eq_fault_iff.2 (hboth.1 hstuck)]
    · rw [generateAll_withoutGoPackage base files requested ht h,
        generateAll_withoutGoPackage base files requested ht' hself,
        SourceFile.ofProtos_withoutGoPackage hstuck (mt hboth.2 hstuck)]

/-- Two Go runs with other settings of TypeScript end alike. -/
theorem generateAll_go_eq (htarget : c.target = "go") (h : c.DifferInTypeScript c') :
    generateAll base c files requested = generateAll base c' files requested := by
  have ht : Target.ofName c.target = .ok .go := by rw [htarget]; rfl
  obtain ⟨himports, ht'⟩ :
      c'.goImportMap = c.goImportMap ∧ Target.ofName c'.target = .ok .go := by
    obtain ⟨_, _, rfl⟩ := h
    exact ⟨rfl, ht⟩
  unfold generateAll
  rw [himports]
  refine bind_congr fun sources => ?_
  rw [generateFiles_congr ht ht' h.seesSame, List.map_id']

/-- **The settings of the other target are of no account.** With TypeScript as the target, two
configs that differ in settings of Go give the same outputs or the same error, unless the files get
stuck under just one of the two; so they do whenever no file has the name of an inherited member.
With Go as the target, two configs that differ in settings of TypeScript always give the same. -/
theorem other_settings_irrelevant :
    (c.target = "ts" → c.DifferInGo c' →
        (generateAll base c files requested = generateAll base c' files requested ↔
          (Stuck (messageNames files) c.goImportMap files ↔
            Stuck (messageNames files) c'.goImportMap files)) ∧
        ((∀ f ∈ files, f.name ∉ inheritedMembers) →
          generateAll base c files requested = generateAll base c' files requested)) ∧
      (c.target = "go" → c.DifferInTypeScript c' →
        generateAll base c files requested = generateAll base c' files requested) := by
  refine ⟨fun htarget h => ?_, generateAll_go_eq base files requested⟩
  have hiff := generateAll_typeScript_eq_iff base files requested htarget h
  refine ⟨hiff, fun hnames => hiff.2 (iff_of_false ?_ ?_)⟩
  · exact not_stuck_of_names hnames
  · exact not_stuck_of_names hnames

/-- A module that cannot be stripped, and a package for a file of the request. -/
theorem other_settings_irrelevant_lookups :
    generateAll .root {} [items [], lookups] ["lookups.proto"] =
        generateAll .root
          { goModule := "example.org"
            goImportMap := .ofEntries [("lookups.proto", "example.com/shop")] }
          [items [], lookups] ["lookups.proto"] ∧
      generateAll .root { target := "go" } [items [], lookups] ["lookups.proto"] =
        generateAll .root { target := "go", tsRuntimeModule := "cache", importExtension := .ts }
          [items [], lookups] ["lookups.proto"] :=
  ⟨((other_settings_irrelevant .root _ _).1 rfl ⟨_, _, _, _, rfl⟩).2 (by decide +kernel),
    (other_settings_irrelevant .root _ _).2 rfl ⟨_, _, rfl⟩⟩

/-- An entry of the import map decides whether TypeScript is generated for the file. -/
theorem import_map_parts_typeScript :
    ¬ ∀ (base : Location) (c c' : Config) (files : List File) (requested : List String),
      c.target = "ts" → c.DifferInGo c' →
      generateAll base c files requested = generateAll base c' files requested := by
  intro hall
  have hsame := hall .root {} { goImportMap := .ofEntries [("constructor", "example.com/shop")] }
    [{ name := "constructor" }] [] rfl ⟨_, _, _, _, rfl⟩
  have hstuck : generateAll .root {} [{ name := "constructor" }] [] = .error packageFault :=
    generateAll_eq_fault_iff.2 (.here (by decide +kernel))
  rw [hstuck] at hsame
  exact absurd hsame (by decide +kernel)

end Proto

end CacheGen
