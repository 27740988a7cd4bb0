import CacheGen.Proofs.ImportUse
import CacheGen.Proofs.Independence
import CacheGen.Proofs.MessageModules

/-!
# Names that messages are exported under

A message is exported under its nesting joined by underscores, and an underscore may stand in a name
as well. Two messages of one file, then, may be exported under one name. A module that uses both
imports one symbol twice, under two local names.

All references of a module come from the index of the request, so they are consistent, and each tells
the file and the nesting of a declaration. What two imported messages share is read off these.

**Theorem (`same_symbol_iff`).** Two messages are imported from one module exactly when their files
share one, and under one name exactly when their nestings are joined to one text. Messages of one
file whose nestings hold no underscore are imported under two names.
-/

namespace CacheGen

namespace Proto

/-! ## Nestings -/

mutual

theorem Message.ne_nil_of_mem_nestings {outer nesting : List String} :
    (m : Message) → nesting ∈ m.nestings outer → nesting ≠ []
  | ⟨name, nested⟩, h => by
    rw [Message.nestings] at h
    rcases List.mem_cons.1 h with rfl | h
    · exact List.append_ne_nil_of_right_ne_nil _ (List.cons_ne_nil _ _)
    · exact ne_nil_of_mem_nestingsOfAll nested h

theorem ne_nil_of_mem_nestingsOfAll {outer nesting : List String} :
    (ms : List Message) → nesting ∈ nestingsOfAll outer ms → nesting ≠ []
  | [], h => by
    rw [nestingsOfAll] at h
    cases h
  | m :: ms, h => by
    rw [nestingsOfAll] at h
    rcases List.mem_append.1 h with h | h
    · exact Message.ne_nil_of_mem_nestings m h
    · exact ne_nil_of_mem_nestingsOfAll ms h

end

/-- Names without underscores are got back from what they are joined to. -/
theorem eq_of_joined_eq {nesting nesting' : List String} (hne : nesting ≠ []) (hne' : nesting' ≠ [])
    (h : ∀ name ∈ nesting ++ nesting', '_' ∉ name.toList)
    (hjoined : "_".intercalate nesting = "_".intercalate nesting') : nesting = nesting' := by
  have hback : Text.pieces '_' ("_".intercalate nesting) = nesting :=
    Text.pieces_intercalate hne fun name hname => h name (List.mem_append_left _ hname)
  have hback' : Text.pieces '_' ("_".intercalate nesting') = nesting' :=
    Text.pieces_intercalate hne' fun name hname => h name (List.mem_append_right _ hname)
  rw [← hback, hjoined, hback']

end Proto

/-! ## What references resolve to -/

namespace TypeIndex

/-- Asked for its full name, the index tells `r`. -/
def Tells (types : TypeIndex) (r : MessageRef) : Prop := types.get? r.fullName = some r

theorem mem_declared_of_get? {files : List Proto.File} {name : String} {r : MessageRef}
    (h : (ofFiles files).get? name = some r) :
    r ∈ files.flatMap Proto.File.declared ∧ r.fullName = name := by
  rw [ofFiles, OrderedMap.get?_ofEntries, Option.map_eq_some_iff] at h
  obtain ⟨e, he, rfl⟩ := h
  obtain ⟨r, hr, rfl⟩ := List.mem_map.1 (List.mem_reverse.1 (List.mem_of_find?_eq_some he))
  exact ⟨hr, by simpa using List.find?_some he⟩

theorem Tells.exists_nesting {files : List Proto.File} {r : MessageRef} (h : (ofFiles files).Tells r) :
    ∃ g ∈ files, ∃ nesting ∈ Proto.nestingsOfAll [] g.messages, g.refTo nesting = r := by
  obtain ⟨g, hg, hr⟩ := List.mem_flatMap.1 (mem_declared_of_get? h).1
  obtain ⟨nesting, hnesting, hr⟩ := List.mem_map.1 hr
  exact ⟨g, hg, nesting, hnesting, hr⟩

theorem consistent_of_tells {types : TypeIndex} {rs : List MessageRef}
    (h : ∀ r ∈ rs, types.Tells r) : Consistent rs := by
  intro r hr r' hr' hname
  have htells := h r hr
  rw [Tells, hname, h r' hr'] at htells
  exact (Option.some.inj htells).symm

theorem tells_of_resolve {files : List Proto.File} {typeName user : String} {r : MessageRef}
    (h : (ofFiles files).resolve typeName user = .ok r) : (ofFiles files).Tells r := by
  unfold resolve at h
  split at h
  · next hget =>
    cases h
    rw [Tells, (mem_declared_of_get? hget).2, hget]
  · cases h

end TypeIndex

section

variable {files : List Proto.File}

theorem Proto.Method.tells_of_resolve {service : String} {comment : Option String} {m : Method}
    {method : CacheGen.Method}
    (h : m.resolve (.ofFiles files) service comment = .ok method) :
    ∀ r ∈ method.refs, (TypeIndex.ofFiles files).Tells r := by
  obtain ⟨input, hinput, h⟩ := Outcome.bind_eq_ok.1 h
  obtain ⟨output, houtput, h⟩ := Outcome.bind_eq_ok.1 h
  rw [← Outcome.pure_eq_ok.1 h]
  intro r hr
  rcases List.mem_pair.1 hr with rfl | rfl
  · exact TypeIndex.tells_of_resolve hinput
  · exact TypeIndex.tells_of_resolve houtput

theorem Proto.File.tells_of_resolveService {f : File} {s : Service} {index : ℕ}
    {service : CacheGen.Service}
    (h : f.resolveService (.ofFiles files) s index = .ok service) :
    ∀ r ∈ service.refs, (TypeIndex.ofFiles files).Tells r := by
  obtain ⟨methods, hmethods, h⟩ := Outcome.bind_eq_ok.1 h
  rw [← Outcome.pure_eq_ok.1 h]
  intro r hr
  obtain ⟨method, hmethod, hr⟩ := List.mem_flatMap.1 hr
  obtain ⟨⟨m, i⟩, -, hresolve⟩ := Outcome.exists_of_mem_mapM hmethods hmethod
  exact Method.tells_of_resolve hresolve r hr

/-- Every reference of a source is the one that the index has for its full name. -/
theorem SourceFile.tells_of_ofProtos {requested : List String} {imports : OrderedMap String String}
    {sources : List SourceFile} (h : SourceFile.ofProtos files requested imports = .ok sources)
    {f : SourceFile} (hf : f ∈ sources) :
    ∀ r ∈ f.services.flatMap Service.refs, (TypeIndex.ofFiles files).Tells r := by
  obtain ⟨g, -, hg⟩ := Outcome.exists_of_mem_mapM h hf
  obtain ⟨-, hservices⟩ := Proto.File.resolve_ok hg
  intro r hr
  obtain ⟨service, hservice, hr⟩ := List.mem_flatMap.1 hr
  obtain ⟨⟨s, i⟩, -, hresolve⟩ := Outcome.exists_of_mem_mapM hservices hservice
  exact Proto.File.tells_of_resolveService hresolve r hr

end

/-! ## Imported symbols -/

namespace TypeScript

theorem candidates_subset (suffix : String) (services : List Service) :
    Target.typeScript.candidates suffix services ⊆ services := by
  have hsame : services.map Target.typeScript.renameService = services := List.map_id services
  rw [Target.candidates, hsame]
  exact List.filter_subset_self _

/-- The references of the module generated for `f`. -/
def refsOf (f : SourceFile) (c : Config) : List MessageRef :=
  (Target.typeScript.candidates c.suffix f.services).flatMap Service.refs

/-- The messages that the module generated for `f` imports. -/
def messagesOf (base : Location) (f : SourceFile) (c : Config) : MessageBindings :=
  let services := Target.typeScript.candidates c.suffix f.services
  (names base f (services.map ManagerPlan.ofService) c).messages

theorem tells_of_mem_refsOf {files : List Proto.File} {requested : List String}
    {sources : List SourceFile} {f : SourceFile} {c : Config}
    (hok : SourceFile.ofProtos files requested c.goImportMap = .ok sources) (hf : f ∈ sources) :
    ∀ r ∈ refsOf f c, (TypeIndex.ofFiles files).Tells r := by
  intro r hr
  obtain ⟨s, hs, hr⟩ := List.mem_flatMap.1 hr
  exact SourceFile.tells_of_ofProtos hok hf r
    (List.mem_flatMap.2 ⟨s, candidates_subset _ _ hs, hr⟩)

/-- Behind an imported symbol is a reference. Its file tells the module. -/
theorem exists_ref_of_entry {moduleOf : String → String} {rs os os' : List MessageRef}
    {b : MessageBindings} {exported : MessageRef → String} {m : OrderedMap String Binding}
    (hrec : MessageBindings.Recorded moduleOf rs os' b)
    (hm : MessageBindings.BindsExactly exported os m) (hsub : os ⊆ rs) {e : String × Binding}
    (he : e ∈ m.entries) :
    ∃ r ∈ rs, r.fullName = e.1 ∧ e.2.exported = exported r ∧
      b.moduleName e.1 = moduleOf r.file := by
  obtain ⟨r, hr, hk, hexported⟩ := hm.exists_ref he
  exact ⟨r, hsub hr, hk, hexported, hk ▸ hrec.moduleName_eq (hsub hr)⟩

/-- **When two messages are imported as one symbol.** For two types or two schemas that a module
imports there are the declarations of their messages. They come from one module exactly when the
files share one, under one name exactly when the nestings are joined to one text; and for different
messages of one file the latter takes an underscore in a name. -/
theorem same_symbol_iff {base : Location} {c : Config} {files : List Proto.File}
    {requested : List String} {sources : List SourceFile} {f : SourceFile} (hbase : base.IsProper)
    (hends : ∀ g ∈ files, Text.endsWith g.name ".proto" = true)
    (hnames : (files.map Proto.File.name).Nodup)
    (hok : SourceFile.ofProtos files requested c.goImportMap = .ok sources) (hf : f ∈ sources) :
    let b := messagesOf base f c
    ∀ m ∈ [b.types, b.schemas], ∀ e ∈ m.entries, ∀ e' ∈ m.entries,
      ∃ file nesting file' nesting',
        Proto.DeclaresAt files e.1 file nesting ∧ Proto.DeclaresAt files e'.1 file' nesting' ∧
        (b.moduleName e.1 = b.moduleName e'.1 ↔ ShareModule base file file') ∧
        (e.2.exported = e'.2.exported ↔ "_".intercalate nesting = "_".intercalate nesting') ∧
        (e.1 ≠ e'.1 → file = file' → e.2.exported = e'.2.exported →
          ∃ name ∈ nesting ++ nesting', '_' ∈ name.toList) := by
  intro b m hm e he e' he'
  have htells := tells_of_mem_refsOf hok hf
  have hrec : MessageBindings.Recorded
      (fun file => messageModule base (fileName f) file c.importExtension) (refsOf f c) _ b :=
    recorded_ofServices base f _ c (TypeIndex.consistent_of_tells htells)
  -- A type is named after its message, and so is a schema up to the ending.
  obtain ⟨exported, os, hbinds, hsub, hlocal⟩ : ∃ exported os,
      MessageBindings.BindsExactly exported os m ∧ os ⊆ refsOf f c ∧
      ∀ r r', exported r = exported r' ↔ r.localName = r'.localName := by
    rcases List.mem_pair.1 hm with rfl | rfl
    · exact ⟨_, _, hrec.types, List.Subset.refl _, fun _ _ => Iff.rfl⟩
    · exact ⟨_, _, hrec.schemas, outputs_subset_refs _, fun _ _ => String.append_left_inj _⟩
  obtain ⟨r, hr, hk, hexported, hmodule⟩ := exists_ref_of_entry hrec hbinds hsub he
  obtain ⟨r', hr', hk', hexported', hmodule'⟩ := exists_ref_of_entry hrec hbinds hsub he'
  obtain ⟨g, hg, nesting, hnesting, rfl⟩ := (htells r hr).exists_nesting
  obtain ⟨g', hg', nesting', hnesting', rfl⟩ := (htells r' hr').exists_nesting
  refine ⟨g.name, nesting, g'.name, nesting', ⟨g, hg, rfl, hnesting, hk⟩,
    ⟨g', hg', rfl, hnesting', hk'⟩, ?_, ?_, ?_⟩
  · rw [hmodule, hmodule']
    exact messageModule_eq_iff hbase _ (hends g hg) (hends g' hg')
  · rw [hexported, hexported', hlocal]
    rfl
  · intro hne hfile hsame
    rw [hexported, hexported', hlocal] at hsame
    obtain rfl := List.inj_on_of_nodup_map hnames hg hg' hfile
    by_contra hnone
    push Not at hnone
    refine hne ?_
    rw [← hk, ← hk', Proto.eq_of_joined_eq (Proto.ne_nil_of_mem_nestingsOfAll _ hnesting)
      (Proto.ne_nil_of_mem_nestingsOfAll _ hnesting') hnone hsame]

/-- A message that has the name of a nested one, joined by an underscore. -/
def orderLines : Proto.File where
  name := "shop.proto"
  package := "shop"
  messages := [⟨"Order_Line", []⟩, ⟨"Order", [⟨"Line", []⟩]⟩]
  services := [⟨"LineCache",
    [{ name := "Find", inputType := ".shop.Order_Line", outputType := ".shop.Order.Line" }]⟩]

/-- The source that `orderLines` resolves to. -/
def lineSource : SourceFile where
  name := "shop.proto"
  package := "shop"
  isRequested := true
  stem := "shop"
  goPackageName := "shop"
  goImportPath := "."
  services := [⟨"LineCache", [find], none⟩]
where
  find : Method :=
    ⟨"Find", "LineCache", orderLines.refTo ["Order_Line"], orderLines.refTo ["Order", "Line"], none,
      false, false⟩

theorem ofProtos_orderLines :
    SourceFile.ofProtos [orderLines] ["shop.proto"] ∅ = .ok [lineSource] := by
  rfl

/-- Two types are imported for `lineSource`, one under an alias. -/
theorem types_lineSource : (messagesOf .root lineSource {}).types.entries =
    [("shop.Order_Line", ⟨"Order_Line", "Order_Line"⟩),
      ("shop.Order.Line", ⟨"Order_Line", "Order_Line$1"⟩)] := by
  rfl

theorem same_symbol_iff_lines :
    let b := messagesOf .root lineSource {}
    ∃ e ∈ b.types.entries, ∃ e' ∈ b.types.entries, e.1 ≠ e'.1 ∧
      ∃ file nesting file' nesting',
        Proto.DeclaresAt [orderLines] e.1 file nesting ∧
        Proto.DeclaresAt [orderLines] e'.1 file' nesting' ∧
        ShareModule .root file file' ∧ "_".intercalate nesting = "_".intercalate nesting' := by
  intro b
  have hends : ∀ g ∈ [orderLines], Text.endsWith g.name ".proto" = true := by decide
  have hall := same_symbol_iff Location.IsProper.root hends (by decide) ofProtos_orderLines
    List.mem_cons_self b.types List.mem_cons_self
  rw [types_lineSource] at hall ⊢
  have htwo := hall _ List.mem_cons_self _ (List.mem_cons_of_mem _ List.mem_cons_self)
  refine ⟨_, List.mem_cons_self, _, List.mem_cons_of_mem _ List.mem_cons_self, by decide, ?_⟩
  obtain ⟨file, nesting, file', nesting', hd, hd', hmodule, hexported, -⟩ := htwo
  exact ⟨file, nesting, file', nesting', hd, hd', hmodule.1 (by decide +kernel), hexported.1 rfl⟩

/-- A message and a nested one are imported as one symbol. -/
theorem joined_names_collide :
    ¬ ∀ (base : Location) (c : Config) (files : List Proto.File) (requested : List String)
      (sources : List SourceFile) (f : SourceFile), base.IsProper →
      (∀ g ∈ files, Text.endsWith g.name ".proto" = true) → (files.map Proto.File.name).Nodup →
      (Proto.messageNames files).Nodup →
      SourceFile.ofProtos files requested c.goImportMap = .ok sources → f ∈ sources →
      let b := messagesOf base f c
      ∀ e ∈ b.types.entries, ∀ e' ∈ b.types.entries, e.1 ≠ e'.1 →
        b.moduleName e.1 = b.moduleName e'.1 → e.2.exported ≠ e'.2.exported := by
  intro hall
  have hlines := hall .root {} [orderLines] ["shop.proto"] [lineSource] lineSource .root
    (by decide) (by decide) (by decide) ofProtos_orderLines List.mem_cons_self
  dsimp only at hlines
  rw [types_lineSource] at hlines
  exact hlines _ List.mem_cons_self _ (List.mem_cons_of_mem _ List.mem_cons_self) (by decide)
    (by decide +kernel) rfl

end TypeScript

end CacheGen
