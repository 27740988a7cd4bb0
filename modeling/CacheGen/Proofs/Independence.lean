import CacheGen.Generate
import CacheGen.Proofs.MapLookup
import CacheGen.Proofs.Resolution

/-!
# What the output of one file depends on

All files of a request share one index of messages, in which a later declaration replaces an earlier
one of the same name (`get?_ofEntries`). The index is all that a file sees of the others, and it is
only asked for the messages that the methods of the file refer to (`resolve_congr`). Where full names
are declared once, it tells the file and the nesting of the declaration (`DeclaresAt.get?`).

**Theorem (`contribution_independent`).** If the messages that a file refers to are declared in the
same places, the file contributes the same to two requests, whatever else they hold.
-/

namespace CacheGen

namespace Proto

/-! ## Declarations -/

/-- The message of this name is declared in `file`, inside of the messages that `nesting` lists. -/
def DeclaresAt (files : List File) (name file : String) (nesting : List String) : Prop :=
  ∃ g ∈ files, g.name = file ∧ nesting ∈ nestingsOfAll [] g.messages ∧
    (g.refTo nesting).fullName = name

theorem DeclaresAt.get? {files : List File} (hnodup : (messageNames files).Nodup)
    {name file : String} {nesting : List String} (h : DeclaresAt files name file nesting) :
    (TypeIndex.ofFiles files).get? name =
      some ⟨name, "_".intercalate nesting, ".".intercalate nesting, file⟩ := by
  obtain ⟨g, hg, rfl, hnesting, rfl⟩ := h
  have hkeys : ((files.flatMap File.declared).map fun r => (r.fullName, r)).map Prod.fst =
      messageNames files := by
    rw [List.map_map]
    rfl
  refine OrderedMap.get?_ofEntries_of_mem (hkeys ▸ hnodup) ?_
  have hdeclared : g.refTo nesting ∈ files.flatMap File.declared :=
    List.mem_flatMap.2 ⟨g, hg, List.mem_map_of_mem hnesting⟩
  exact List.mem_map_of_mem (f := fun r : MessageRef => (r.fullName, r)) hdeclared

/-! ## Resolving by two indices -/

/-- Both indices resolve `ref` to the same message, or neither does. -/
def Agree (types types' : TypeIndex) (ref : Reference) : Prop :=
  types.resolve ref.typeName ref.user = types'.resolve ref.typeName ref.user

section

variable {types types' : TypeIndex}

theorem Method.resolve_congr {service : String} {m : Method}
    (h : ∀ ref ∈ m.references service, Agree types types' ref) (comment : Option String) :
    m.resolve types service comment = m.resolve types' service comment := by
  have hinput : Agree types types' ⟨m.inputType, service ++ "." ++ m.name⟩ := by
    apply h
    simp [references]
  have houtput : Agree types types' ⟨m.outputType, service ++ "." ++ m.name⟩ := by
    apply h
    simp [references]
  unfold Agree at hinput houtput
  unfold resolve
  simp only [hinput, houtput]

theorem File.resolveService_congr {f : File} {s : Service}
    (h : ∀ m ∈ s.methods, ∀ ref ∈ m.references s.name, Agree types types' ref) (index : Nat) :
    f.resolveService types s index = f.resolveService types' s index := by
  unfold resolveService
  refine congrArg (· >>= _) (Outcome.mapM_congr ?_)
  rintro ⟨m, i⟩ hm
  exact Method.resolve_congr (h m (List.fst_mem_of_mem_zipIdx hm)) _

/-- Two indices that agree on what a file refers to resolve it in the same way. -/
theorem File.resolve_congr {f : File} (h : ∀ ref ∈ f.references, Agree types types' ref)
    {requested requested' : List String} (hf : f.name ∈ requested) (hf' : f.name ∈ requested')
    (imports : OrderedMap String String) :
    f.resolve types requested imports = f.resolve types' requested' imports := by
  unfold resolve
  rw [List.contains_iff_mem.2 hf, List.contains_iff_mem.2 hf']
  refine bind_congr fun goPackage => congrArg (· >>= _) (Outcome.mapM_congr ?_)
  rintro ⟨s, i⟩ hs
  apply resolveService_congr
  intro m hm ref href
  apply h
  exact List.mem_flatMap.2 ⟨s, List.fst_mem_of_mem_zipIdx hs, List.mem_flatMap.2 ⟨m, hm, href⟩⟩

end

/-! ## Contributions -/

variable (base : Location) (c : Config)

/-- Generate from the files of a request. -/
def generateAll (files : List File) (requested : List String) :
    Except GenError (List GeneratedFile) := do
  let sources ← SourceFile.ofProtos files requested c.goImportMap
  generateFiles base sources c

/-- What `f`, as one of `files`, adds to the outputs. -/
def contribution (files : List File) (requested : List String) (f : File) :
    Except GenError (Option GeneratedFile) := do
  let source ← f.resolve (.ofFiles files) requested c.goImportMap
  generateRequested base c source

/-- The files contribute `parts`, one each and in their order, and those are the outputs. -/
structure Composes (files : List File) (requested : List String)
    (parts : List (Option GeneratedFile)) (outputs : List GeneratedFile) : Prop where
  contributed :
    List.Forall₂ (fun f part => contribution base c files requested f = .ok part) files parts
  joined : outputs = parts.filterMap id

variable {base c}

theorem composes_of_generateAll {files : List File} {requested : List String}
    {outputs : List GeneratedFile} (h : generateAll base c files requested = .ok outputs) :
    ∃ parts, Composes base c files requested parts outputs := by
  obtain ⟨sources, hsources, hgenerate⟩ := Outcome.bind_eq_ok.1 h
  obtain ⟨parts, hparts, hout⟩ := Outcome.bind_eq_ok.1 hgenerate
  exact ⟨parts, Outcome.mapM_eq_ok.1 (Outcome.mapM_bind hsources hparts),
    (Outcome.pure_eq_ok.1 hout).symm⟩

theorem Composes.exists_part {files : List File} {requested : List String}
    {parts : List (Option GeneratedFile)} {outputs : List GeneratedFile}
    (h : Composes base c files requested parts outputs) {f : File} (hf : f ∈ files) :
    ∃ part, (f, part) ∈ files.zip parts ∧ contribution base c files requested f = .ok part := by
  have hlength : files.length ≤ parts.length := Nat.le_of_eq h.contributed.length_eq
  rw [← List.map_fst_zip hlength] at hf
  obtain ⟨⟨_, part⟩, hmem, rfl⟩ := List.mem_map.1 hf
  exact ⟨part, hmem, List.forall₂_zip h.contributed hmem⟩

/-- **The output of one file does not depend on the rest of the request.** Let two requests succeed
in which each message is declared once, and let a file be asked for in both, with the messages that
it refers to declared in the same places. The outputs of both are what their files contribute, in their
order, and the file contributes the same to both. -/
theorem contribution_independent {files files' : List File} {requested requested' : List String}
    {outputs outputs' : List GeneratedFile}
    (hrun : generateAll base c files requested = .ok outputs)
    (hrun' : generateAll base c files' requested' = .ok outputs')
    (hnodup : (messageNames files).Nodup) (hnodup' : (messageNames files').Nodup) {f : File}
    (hf : f ∈ files) (hf' : f ∈ files') (hasked : f.name ∈ requested)
    (hasked' : f.name ∈ requested')
    (hrefs : ∀ ref ∈ f.references, ∃ file nesting,
      DeclaresAt files (bareTypeName ref.typeName) file nesting ∧
      DeclaresAt files' (bareTypeName ref.typeName) file nesting) :
    ∃ parts parts', Composes base c files requested parts outputs ∧
      Composes base c files' requested' parts' outputs' ∧
      ∃ part, (f, part) ∈ files.zip parts ∧ (f, part) ∈ files'.zip parts' := by
  have hagree : ∀ ref ∈ f.references, Agree (.ofFiles files) (.ofFiles files') ref := by
    intro ref href
    obtain ⟨file, nesting, hdeclared, hdeclared'⟩ := hrefs ref href
    unfold Agree TypeIndex.resolve
    rw [hdeclared.get? hnodup, hdeclared'.get? hnodup']
  have hsame : contribution base c files requested f = contribution base c files' requested' f := by
    unfold contribution
    rw [File.resolve_congr hagree hasked hasked']
  obtain ⟨parts, hcomposes⟩ := composes_of_generateAll hrun
  obtain ⟨parts', hcomposes'⟩ := composes_of_generateAll hrun'
  obtain ⟨part, hmem, hpart⟩ := hcomposes.exists_part hf
  obtain ⟨part', hmem', hpart'⟩ := hcomposes'.exists_part hf'
  cases hpart.symm.trans (hsame.trans hpart')
  exact ⟨parts, parts', hcomposes, hcomposes', part, hmem, hmem'⟩

/-! ## One file in two requests -/

/-- A file that refers to a message of another. -/
def lookups : File where
  name := "lookups.proto"
  package := "shop"
  services := [⟨"ItemCache",
    [{ name := "Find", inputType := ".shop.Item.Key", outputType := ".shop.Item" }]⟩]

/-- The file with that message, and perhaps more behind it. -/
def items (later : List Message) : File where
  name := "items.proto"
  package := "shop"
  messages := ⟨"Item", [⟨"Key", []⟩]⟩ :: later

/-- A file that has nothing to do with the others. -/
def users : File where
  name := "users.proto"
  package := "people"
  messages := [⟨"Item", [⟨"Key", []⟩]⟩]
  services := [⟨"UserCache", []⟩]

theorem items_declares {files : List File} (later : List Message) (h : items later ∈ files)
    {nesting : List String} (hnesting : nesting ∈ [["Item"], ["Item", "Key"]]) :
    DeclaresAt files ("shop." ++ ".".intercalate nesting) "items.proto" nesting := by
  refine ⟨items later, h, rfl, ?_, rfl⟩
  have hall : nestingsOfAll [] (items later).messages =
      [["Item"], ["Item", "Key"]] ++ nestingsOfAll [] later := by
    simp [items, nestingsOfAll, Message.nestings]
  rw [hall]
  exact List.mem_append_left _ hnesting

theorem contribution_independent_lookups : ∃ outputs outputs' parts parts',
    Composes .root {} [items [], lookups] ["lookups.proto"] parts outputs ∧
      Composes .root {} [users, lookups, items [⟨"Price", []⟩]] ["users.proto", "lookups.proto"]
        parts' outputs' ∧
      ∃ part, (lookups, part) ∈ [items [], lookups].zip parts ∧
        (lookups, part) ∈ [users, lookups, items [⟨"Price", []⟩]].zip parts' := by
  have hrun : Outcome.error? (generateAll .root {} [items [], lookups]
      ["lookups.proto"]) = none := by
    decide +kernel
  have hrun' : Outcome.error? (generateAll .root {} [users, lookups, items [⟨"Price", []⟩]]
      ["users.proto", "lookups.proto"]) = none := by
    decide +kernel
  have hnames : ∀ ref ∈ lookups.references, ∃ nesting ∈ [["Item"], ["Item", "Key"]],
      bareTypeName ref.typeName = "shop." ++ ".".intercalate nesting := by
    decide +kernel
  obtain ⟨outputs, houtputs⟩ := Outcome.error?_eq_none.1 hrun
  obtain ⟨outputs', houtputs'⟩ := Outcome.error?_eq_none.1 hrun'
  refine ⟨outputs, outputs', contribution_independent houtputs houtputs' (by decide +kernel)
    (by decide +kernel) (by simp) (by simp) (by decide) (by decide) ?_⟩
  intro ref href
  obtain ⟨nesting, hnesting, hname⟩ := hnames ref href
  refine ⟨"items.proto", nesting, ?_, ?_⟩
  · rw [hname]
    exact items_declares [] (by simp) hnesting
  · rw [hname]
    exact items_declares [⟨"Price", []⟩] (by simp) hnesting

end Proto

end CacheGen
