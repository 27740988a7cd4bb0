import CacheGen.Descriptor.Resolve
import CacheGen.Proofs.Lists
import CacheGen.Proofs.Outcome

/-!
# What resolving needs and gives

The files of a request are gone through in order. Resolving gets *stuck* at a file that inherits its
Go package, unless a file before that one refers to a message that is not declared (`Stuck`). A
request that does not get stuck resolves exactly when all references are to declared messages;
otherwise the first reference that dangles is the error (`error?_ofProtos`). Files that are not asked
for count as well.

A file that resolves has a header, which does not depend on any message, and its services under
their names (`ofProtos_forall₂`).
-/

namespace CacheGen

/-! ## References -/

/-- A message that a method refers to: how it is written, and the method with its service. -/
structure Reference where
  typeName : String
  user : String
  deriving DecidableEq, Repr

def Reference.error (ref : Reference) : GenError := .unknownType ref.typeName ref.user

namespace Proto

def Method.references (service : String) (m : Method) : List Reference :=
  let user := service ++ "." ++ m.name
  [⟨m.inputType, user⟩, ⟨m.outputType, user⟩]

def File.references (f : File) : List Reference :=
  f.services.flatMap fun s => s.methods.flatMap (Method.references s.name)

/-- The full names of all messages that `files` declare. -/
def messageNames (files : List File) : List String :=
  (files.flatMap File.declared).map MessageRef.fullName

/-- The first reference in `files` to a message that none of them declares. -/
def dangling? (files : List File) : Option Reference :=
  (files.flatMap File.references).find? fun ref =>
    bareTypeName ref.typeName ∉ messageNames files

/-- Some file inherits its Go package, and all references of the files before it are to messages
that go by one of `names`. -/
inductive Stuck (names : List String) (imports : OrderedMap String String) : List File → Prop
  | here {f : File} {fs : List File} (hinherits : f.Inherits imports) : Stuck names imports (f :: fs)
  | later {f : File} {fs : List File}
      (hrefs : ∀ ref ∈ f.references, bareTypeName ref.typeName ∈ names)
      (hstuck : Stuck names imports fs) : Stuck names imports (f :: fs)

section

variable {names : List String} {imports : OrderedMap String String} {fs : List File}

theorem Stuck.exists_inherits (h : Stuck names imports fs) : ∃ f ∈ fs, f.Inherits imports := by
  induction h with
  | here hinherits => exact ⟨_, List.mem_cons_self, hinherits⟩
  | later hrefs hstuck ih =>
    obtain ⟨f, hf, hinherits⟩ := ih
    exact ⟨f, List.mem_cons_of_mem _ hf, hinherits⟩

theorem not_stuck_of_names (h : ∀ f ∈ fs, f.name ∉ inheritedMembers) : ¬ Stuck names imports fs := by
  intro hstuck
  obtain ⟨f, hf, -, hname⟩ := hstuck.exists_inherits
  exact h f hf hname

theorem stuck_of_inherits (hrefs : ∀ ref ∈ fs.flatMap File.references,
    bareTypeName ref.typeName ∈ names) {f : File} (hf : f ∈ fs) (hinherits : f.Inherits imports) :
    Stuck names imports fs := by
  induction fs with
  | nil => cases hf
  | cons g fs ih =>
    rw [List.flatMap_cons, List.forall_mem_append] at hrefs
    rcases List.mem_cons.1 hf with rfl | hf
    · exact .here hinherits
    · exact .later hrefs.1 (ih hrefs.2 hf)

end

end Proto

/-! ## The first error -/

/-- The error of a reference that dangles. -/
def TypeIndex.refusal? (types : TypeIndex) (ref : Reference) : Option GenError :=
  if types.contains (bareTypeName ref.typeName) then none else some ref.error

theorem TypeIndex.error?_resolve (types : TypeIndex) (ref : Reference) :
    Outcome.error? (types.resolve ref.typeName ref.user) = types.refusal? ref := by
  unfold resolve refusal? OrderedMap.contains
  cases types.get? (bareTypeName ref.typeName) <;> rfl

theorem TypeIndex.refusal?_eq_none {types : TypeIndex} {ref : Reference} :
    types.refusal? ref = none ↔ types.contains (bareTypeName ref.typeName) = true := by
  unfold refusal?
  split_ifs with h <;> simp [h]

theorem TypeIndex.contains_ofFiles (files : List Proto.File) (name : String) :
    (ofFiles files).contains name = true ↔ name ∈ Proto.messageNames files := by
  rw [OrderedMap.contains_iff_mem_keys, ofFiles, OrderedMap.mem_keys_ofEntries, List.map_map]
  rfl

section

variable (types : TypeIndex)

theorem Proto.Method.error?_resolve (service : String) (comment : Option String) (m : Method) :
    Outcome.error? (m.resolve types service comment) =
      (m.references service).findSome? types.refusal? := by
  have hinput := types.error?_resolve ⟨m.inputType, service ++ "." ++ m.name⟩
  have houtput := types.error?_resolve ⟨m.outputType, service ++ "." ++ m.name⟩
  rw [resolve, Outcome.error?_bind fun input => (Outcome.error?_bind_pure _ _).trans houtput, hinput,
    references, List.findSome?_cons, List.findSome?_singleton]
  cases types.refusal? ⟨m.inputType, service ++ "." ++ m.name⟩ <;> rfl

theorem Proto.File.error?_resolveService (f : File) (s : Service) (index : Nat) :
    Outcome.error? (f.resolveService types s index) =
      (s.methods.flatMap (Method.references s.name)).findSome? types.refusal? := by
  rw [resolveService, Outcome.error?_bind_pure, Outcome.error?_mapM]
  simp only [Method.error?_resolve]
  rw [findSome?_zipIdx fun m : Method => (m.references s.name).findSome? types.refusal?,
    findSome?_flatMap]

/-- What is wrong with a file: its package, and else the first of its references that dangles. -/
theorem Proto.File.error?_resolve (requested : List String) (imports : OrderedMap String String)
    (f : File) : Outcome.error? (f.resolve types requested imports) =
      if f.Inherits imports then some packageFault else f.references.findSome? types.refusal? := by
  have hservices :
      Outcome.error? (f.services.zipIdx.mapM fun e => f.resolveService types e.1 e.2) =
        f.references.findSome? types.refusal? := by
    rw [Outcome.error?_mapM]
    simp only [error?_resolveService]
    rw [findSome?_zipIdx fun s : Service =>
        (s.methods.flatMap (Method.references s.name)).findSome? types.refusal?,
      references, findSome?_flatMap]
  rw [resolve, Outcome.error?_bind fun _ => (Outcome.error?_bind_pure _ _).trans hservices,
    effectiveGoPackage]
  split_ifs <;> rfl

variable {types}

theorem Proto.Stuck.error?_mapM {names : List String} {imports : OrderedMap String String}
    {fs : List File} (h : Stuck names imports fs)
    (hnames : ∀ ref : Reference, bareTypeName ref.typeName ∈ names → types.refusal? ref = none)
    (requested : List String) :
    Outcome.error? (fs.mapM (File.resolve types requested imports)) = some packageFault := by
  rw [Outcome.error?_mapM]
  induction h with
  | here hinherits => rw [List.findSome?_cons, File.error?_resolve, if_pos hinherits]
  | @later f fs hrefs hstuck ih =>
    rw [List.findSome?_cons, File.error?_resolve]
    split_ifs with hinherits
    · rfl
    · rw [List.findSome?_eq_none_iff.2 fun ref href => hnames ref (hrefs ref href)]
      exact ih

theorem Proto.error?_mapM_of_not_stuck {names : List String} {imports : OrderedMap String String}
    {fs : List File} (h : ¬ Stuck names imports fs)
    (hnames : ∀ ref : Reference, types.refusal? ref = none → bareTypeName ref.typeName ∈ names)
    (requested : List String) :
    Outcome.error? (fs.mapM (File.resolve types requested imports)) =
      (fs.flatMap File.references).findSome? types.refusal? := by
  rw [Outcome.error?_mapM]
  induction fs with
  | nil => rfl
  | cons f fs ih =>
    rw [List.findSome?_cons, File.error?_resolve, if_neg fun hinherits => h (.here hinherits),
      List.flatMap_cons, List.findSome?_append]
    cases hrefs : f.references.findSome? types.refusal? with
    | some e => rfl
    | none =>
      rw [List.findSome?_eq_none_iff] at hrefs
      exact ih fun hstuck => h (.later (fun ref href => hnames ref (hrefs ref href)) hstuck)

end

section

variable {files : List Proto.File} {imports : OrderedMap String String}

theorem TypeIndex.refusal?_ofFiles {ref : Reference} : (ofFiles files).refusal? ref = none ↔
    bareTypeName ref.typeName ∈ Proto.messageNames files :=
  refusal?_eq_none.trans (contains_ofFiles files _)

theorem ofProtos_of_stuck (h : Proto.Stuck (Proto.messageNames files) imports files)
    (requested : List String) :
    SourceFile.ofProtos files requested imports = .error packageFault :=
  Outcome.error?_eq_some.1 (h.error?_mapM (fun _ => TypeIndex.refusal?_ofFiles.2) requested)

theorem error?_ofProtos (h : ¬ Proto.Stuck (Proto.messageNames files) imports files)
    (requested : List String) :
    Outcome.error? (SourceFile.ofProtos files requested imports) =
      (Proto.dangling? files).map Reference.error := by
  rw [SourceFile.ofProtos,
    Proto.error?_mapM_of_not_stuck h (fun _ => TypeIndex.refusal?_ofFiles.1) requested]
  refine findSome?_eq_map_find? (fun ref => ?_) _
  unfold TypeIndex.refusal?
  have hcontains := TypeIndex.contains_ofFiles files (bareTypeName ref.typeName)
  by_cases hname : bareTypeName ref.typeName ∈ Proto.messageNames files
  · rw [if_pos (hcontains.2 hname), if_neg (by simpa using hname)]
  · rw [if_neg fun h => hname (hcontains.1 h), if_pos (by simpa using hname)]

theorem exists_ofProtos_iff {requested : List String} :
    (∃ sources, SourceFile.ofProtos files requested imports = .ok sources) ↔
      (∀ f ∈ files, ¬ f.Inherits imports) ∧ Proto.dangling? files = none := by
  by_cases hstuck : Proto.Stuck (Proto.messageNames files) imports files
  · obtain ⟨f, hf, hinherits⟩ := hstuck.exists_inherits
    rw [ofProtos_of_stuck hstuck]
    exact iff_of_false (fun ⟨_, h⟩ => nomatch h) fun h => h.1 f hf hinherits
  · rw [← Outcome.error?_eq_none, error?_ofProtos hstuck, Option.map_eq_none_iff]
    refine ⟨fun href => ⟨fun f hf hinherits => hstuck ?_, href⟩, And.right⟩
    refine Proto.stuck_of_inherits (fun ref hmem => ?_) hf hinherits
    simpa using List.find?_eq_none.1 href ref hmem

end

/-! ## What is resolved -/

/-- The model of `f` without its services. -/
def Proto.File.header (requested : List String) (imports : OrderedMap String String) (f : File) :
    SourceFile :=
  let goPackage := (imports.get? f.name).getD f.goPackage
  { name := f.name
    package := f.package
    isRequested := requested.contains f.name
    stem := stem f.name
    goPackageName := f.goPackageName goPackage
    goImportPath := f.goImportPath goPackage
    services := [] }

/-- `source` is a model of `f`: its header, with services of the same names. -/
def Proto.File.Models (requested : List String) (imports : OrderedMap String String) (f : File)
    (source : SourceFile) : Prop :=
  source = { f.header requested imports with services := source.services } ∧
    source.services.map CacheGen.Service.name = f.services.map Service.name

theorem Proto.File.name_of_resolveService {types : TypeIndex} {f : File} {s : Service} {index : ℕ}
    {service : CacheGen.Service} (h : f.resolveService types s index = .ok service) :
    s.name = service.name := by
  obtain ⟨methods, -, hservice⟩ := Outcome.bind_eq_ok.1 h
  rw [← Outcome.pure_eq_ok.1 hservice]

theorem Proto.File.eq_of_effectiveGoPackage {imports : OrderedMap String String} {f : File}
    {goPackage : String} (h : f.effectiveGoPackage imports = .ok goPackage) :
    (imports.get? f.name).getD f.goPackage = goPackage := by
  unfold effectiveGoPackage at h
  split_ifs at h
  exact Except.ok.inj h

/-- A file that resolves has its header, and each of its services resolved. -/
theorem Proto.File.resolve_ok {types : TypeIndex} {requested : List String}
    {imports : OrderedMap String String} {f : File} {source : SourceFile}
    (h : f.resolve types requested imports = .ok source) :
    source = { f.header requested imports with services := source.services } ∧
      (f.services.zipIdx.mapM fun e => f.resolveService types e.1 e.2) = .ok source.services := by
  obtain ⟨goPackage, hpackage, h⟩ := Outcome.bind_eq_ok.1 h
  obtain ⟨services, hservices, hsource⟩ := Outcome.bind_eq_ok.1 h
  rw [← Outcome.pure_eq_ok.1 hsource, ← eq_of_effectiveGoPackage hpackage]
  exact ⟨rfl, hservices⟩

theorem Proto.File.models_of_resolve {types : TypeIndex} {requested : List String}
    {imports : OrderedMap String String} {f : File} {source : SourceFile}
    (h : f.resolve types requested imports = .ok source) : f.Models requested imports source := by
  obtain ⟨hheader, hservices⟩ := resolve_ok h
  refine ⟨hheader, ?_⟩
  have hnames : (f.services.zipIdx.map fun e => e.1.name) =
      source.services.map CacheGen.Service.name :=
    map_eq_map_of_forall₂ ((Outcome.mapM_eq_ok.1 hservices).imp fun _ _ => name_of_resolveService)
  rw [← hnames, show (fun e : Service × ℕ => e.1.name) = Service.name ∘ Prod.fst from rfl,
    ← List.map_map, List.zipIdx_map_fst]

/-- The model of files that resolve has one source for each file, in their order. -/
theorem ofProtos_forall₂ {files : List Proto.File} {requested : List String}
    {imports : OrderedMap String String} {sources : List SourceFile}
    (h : SourceFile.ofProtos files requested imports = .ok sources) :
    List.Forall₂ (Proto.File.Models requested imports) files sources :=
  (Outcome.mapM_eq_ok.1 h).imp fun _ _ => Proto.File.models_of_resolve

end CacheGen
