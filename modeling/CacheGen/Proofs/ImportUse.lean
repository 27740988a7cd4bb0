import CacheGen.Proofs.Declarations

/-!
# Imports and uses agree

What a module uses are the holes of its declarations; what it imports are the symbols of its import
statements. For plans made from services whose references are consistent, each hole is filled with
the local name of one symbol, the right one, and each message symbol fills a hole.

**Look-ups do not fail.** Names of types, schemas and modules are looked up with a default for
messages that are not bound. Every message that is looked up is bound, so no default is ever used.

Main result: `imports_agree_with_uses`.
-/

namespace CacheGen.TypeScript

/-! ## Sources of statements -/

/-- The sources of the statements for types, or of those for values. -/
def sourcesOf (typeOnly : Bool) (is : List Import) : List String :=
  (is.filter (·.typeOnly = typeOnly)).map (·.source)

theorem sourcesOf_flatMap {α : Type} (typeOnly : Bool) (l : List α) (f : α → List Import) :
    sourcesOf typeOnly (l.flatMap f) = l.flatMap fun a => sourcesOf typeOnly (f a) := by
  rw [sourcesOf, List.filter_flatMap, List.map_flatMap]
  rfl

theorem sourcesOf_types (b : MessageBindings) :
    sourcesOf true (messageImports b) = messageSources b := by
  rw [messageImports, sourcesOf_flatMap]
  refine (List.flatMap_congr fun source _ => ?_).trans (List.flatMap_singleton' _)
  dsimp only
  split <;> rfl

theorem sourcesOf_values_sublist (b : MessageBindings) :
    (sourcesOf false (messageImports b)).Sublist (messageSources b) := by
  rw [messageImports, sourcesOf_flatMap]
  induction messageSources b with
  | nil => exact List.Sublist.refl []
  | cons source sources ih =>
    rw [List.flatMap_cons]
    dsimp only
    split
    · exact ih.cons source
    · exact ih.cons_cons source

/-! ## Symbols by local name -/

/-- Of the symbols of a module only one has the local name of a given one. -/
theorem filter_localName {base : Location} {f : SourceFile} {plans : List ManagerPlan} {c : Config}
    {s : Imported} (hs : s ∈ importedSymbols (imports (names base f plans c) c.tsRuntimeModule)) :
    (importedSymbols (imports (names base f plans c) c.tsRuntimeModule)).filter
      (·.binding.bound = s.binding.bound) = [s] := by
  have hnodup : (localNames (imports (names base f plans c) c.tsRuntimeModule)).Nodup :=
    (localNames_imports_perm _ _).nodup_iff.2 (ModuleNames.boundNames_ofPlans _ plans).1
  exact filter_key_eq_singleton hnodup hs

theorem mem_symbols_of_message {n : ModuleNames} {runtimeModule : String} {s : Imported}
    (hs : s ∈ importedSymbols (messageImports n.messages)) :
    s ∈ importedSymbols (imports n runtimeModule) := by
  rw [imports, importedSymbols, List.flatMap_append]
  exact List.mem_append_right _ hs

theorem mem_symbols_messageImports {b : MessageBindings} {s : Imported} :
    s ∈ importedSymbols (messageImports b) ↔
      (∃ e ∈ b.schemas.entries, schemaSymbol b e = s) ∨
        ∃ e ∈ b.types.entries, typeSymbol b e = s := by
  rw [(symbols_messageImports_perm b).mem_iff, List.mem_append, List.mem_map, List.mem_map]

/-! ## Recorded messages are imported -/

section Recorded

open MessageBindings

variable {moduleOf : String → String} {rs os : List MessageRef} {b : MessageBindings}
  {r : MessageRef}

theorem type_symbol_mem (h : Recorded moduleOf rs os b) (hc : Consistent rs) (hr : r ∈ rs) :
    ⟨true, ⟨r.localName, b.typeName r⟩, moduleOf r.file⟩ ∈ importedSymbols (messageImports b) := by
  refine mem_symbols_messageImports.2 (Or.inr ⟨_, h.type_entry hc hr, ?_⟩)
  rw [typeSymbol, h.moduleName_eq hr]

theorem schema_symbol_mem (h : Recorded moduleOf rs os b) (hc : Consistent rs) (hsub : os ⊆ rs)
    (hr : r ∈ os) :
    ⟨false, ⟨r.localName ++ "Schema", b.schemaName r⟩, moduleOf r.file⟩ ∈
      importedSymbols (messageImports b) := by
  refine mem_symbols_messageImports.2 (Or.inl ⟨_, h.schema_entry hc hsub hr, ?_⟩)
  rw [schemaSymbol, h.moduleName_eq (hsub hr)]

/-- From every source that messages come from, a type comes. -/
theorem bindingsFrom_types_ne_nil (h : Recorded moduleOf rs os b) (hsub : os ⊆ rs)
    {source : String} (hs : source ∈ messageSources b) :
    sortBindings (bindingsFrom b source b.types) ≠ [] := by
  obtain ⟨k, hk, rfl⟩ := mem_messageSources.1 hs
  have htype : k ∈ b.types.keys :=
    (List.mem_append.1 hk).elim id fun hk => h.keys_schemas_subset hsub hk
  obtain ⟨e, he, rfl⟩ := List.mem_map.1 htype
  have hmem : e.2 ∈ bindingsFrom b (b.moduleName e.1) b.types :=
    List.mem_map_of_mem (List.mem_filter.2 ⟨he, by simp⟩)
  exact List.ne_nil_of_mem ((sortBindings_perm _).mem_iff.2 hmem)

theorem messageImports_bindings_ne_nil (h : Recorded moduleOf rs os b) (hsub : os ⊆ rs) :
    ∀ i ∈ messageImports b, i.bindings ≠ [] := by
  intro i hi
  obtain ⟨source, hs, hi⟩ := List.mem_flatMap.1 hi
  rcases List.mem_append.1 hi with hi | hi
  · split at hi
    · cases hi
    · next hne =>
      rw [List.mem_singleton.1 hi]
      simpa using hne
  · rw [List.mem_singleton.1 hi]
    exact bindingsFrom_types_ne_nil h hsub hs

end Recorded

theorem runtimeImports_bindings_ne_nil (n : ModuleNames) (runtimeModule : String) :
    ∀ i ∈ runtimeImports n runtimeModule, i.bindings ≠ [] := by
  cases h : n.hasHandles <;> simp [runtimeImports, h]

theorem source_mem_messageSources {b : MessageBindings} {i : Import} (hi : i ∈ messageImports b) :
    i.source ∈ messageSources b := by
  obtain ⟨source, hs, hi⟩ := List.mem_flatMap.1 hi
  suffices h : i.source = source by rwa [h]
  rcases List.mem_append.1 hi with hi | hi
  · split at hi
    · cases hi
    · rw [List.mem_singleton.1 hi]
  · rw [List.mem_singleton.1 hi]

/-! ## Agreement -/

/-- The names that the lines `ls` use and the statements `is` of a module agree. Messages are bound
by `b` and come from the modules that `moduleOf` tells for their files. -/
structure Agree (moduleOf : String → String) (b : MessageBindings) (is : List Import)
    (ls : List Pattern) : Prop where
  /-- A used type is imported, and nothing else is under its local name. -/
  type_imported : ∀ r, .type r ∈ holes ls →
    (importedSymbols is).filter (·.binding.bound = b.typeName r) =
      [⟨true, ⟨r.localName, b.typeName r⟩, moduleOf r.file⟩]
  /-- A used schema is imported from the same module, and nothing else is under its local name. -/
  schema_imported : ∀ r, .schema r ∈ holes ls →
    (importedSymbols is).filter (·.binding.bound = b.schemaName r) =
      [⟨false, ⟨r.localName ++ "Schema", b.schemaName r⟩, moduleOf r.file⟩]
  /-- An imported message is used, as a type or as a schema. -/
  used : ∀ s ∈ importedSymbols (messageImports b), ∃ r, b.moduleName r.fullName = s.source ∧
    if s.typeOnly then .type r ∈ holes ls ∧ b.typeName r = s.binding.bound
    else .schema r ∈ holes ls ∧ b.schemaName r = s.binding.bound
  not_empty : ∀ i ∈ is, i.bindings ≠ []
  one_type_statement : ∀ i ∈ messageImports b,
    (sourcesOf true (messageImports b)).count i.source = 1
  one_value_statement : ∀ i ∈ messageImports b,
    (sourcesOf false (messageImports b)).count i.source ≤ 1
  /-- No look-up of a name falls back to a default. -/
  type_found : ∀ r, .type r ∈ holes ls → b.types.contains r.fullName = true
  schema_found : ∀ r, .schema r ∈ holes ls → b.schemas.contains r.fullName = true
  module_found : ∀ k ∈ b.types.keys ++ b.schemas.keys, b.modules.contains k = true

section Services

variable (base : Location) (f : SourceFile) (services : List Service) (c : Config)

theorem recorded_ofServices (hc : Consistent (services.flatMap Service.refs)) :
    MessageBindings.Recorded (fun file => messageModule base (fileName f) file c.importExtension)
      (services.flatMap Service.refs) (services.flatMap Service.outputs)
      (names base f (services.map ManagerPlan.ofService) c).messages := by
  have h := MessageBindings.recorded_ofPlans
    (fun file => messageModule base (fileName f) file c.importExtension)
    (services.map ManagerPlan.ofService)
  rw [refs_ofServices, outputs_ofServices] at h
  exact h hc

theorem outputs_subset_refs : services.flatMap Service.outputs ⊆ services.flatMap Service.refs := by
  intro r hr
  obtain ⟨s, hs, hr⟩ := List.mem_flatMap.1 hr
  exact List.mem_flatMap.2 ⟨s, hs, s.outputs_subset_refs hr⟩

/-- **Imports and uses agree** in the module generated from `services`. Its text is the head, then
the import statements and the declarations with their holes filled in. -/
theorem imports_agree_with_uses (hc : Consistent (services.flatMap Service.refs)) :
    let plans := services.map ManagerPlan.ofService
    let n := names base f plans c
    let is := imports n c.tsRuntimeModule
    lines base f plans c =
        headLines f ++ is.map Import.line ++ [""] ++
          (declarations n.runtime services).map (Pattern.print n.messages) ∧
      Agree (fun file => messageModule base (fileName f) file c.importExtension) n.messages is
        (declarations n.runtime services) := by
  intro plans n is
  have hsub := outputs_subset_refs services
  have hrec := recorded_ofServices base f services c hc
  refine ⟨by rw [print_declarations]; rfl, ?_⟩
  exact {
    type_imported := fun r hr =>
      filter_localName (mem_symbols_of_message (type_symbol_mem hrec hc (type_mem_holes.1 hr)))
    schema_imported := fun r hr =>
      filter_localName
        (mem_symbols_of_message (schema_symbol_mem hrec hc hsub (schema_mem_holes.1 hr)))
    used := fun s hs => by
      rcases mem_symbols_messageImports.1 hs with ⟨e, he, rfl⟩ | ⟨e, he, rfl⟩
      · obtain ⟨r, hr, hk, hname⟩ := hrec.exists_schema he
        exact ⟨r, by rw [hk]; rfl, schema_mem_holes.2 hr, hname⟩
      · obtain ⟨r, hr, hk, hname⟩ := hrec.exists_type he
        exact ⟨r, by rw [hk]; rfl, type_mem_holes.2 hr, hname⟩
    not_empty := fun i hi => by
      rcases List.mem_append.1 hi with hi | hi
      · exact runtimeImports_bindings_ne_nil n c.tsRuntimeModule i hi
      · exact messageImports_bindings_ne_nil hrec hsub i hi
    one_type_statement := fun i hi => by
      rw [sourcesOf_types]
      exact List.count_eq_one_of_mem (nodup_messageSources _) (source_mem_messageSources hi)
    one_value_statement := fun i _ =>
      List.nodup_iff_count_le_one.1 ((sourcesOf_values_sublist _).nodup (nodup_messageSources _)) _
    type_found := fun r hr => hrec.types.bound r (type_mem_holes.1 hr)
    schema_found := fun r hr => hrec.schemas.bound r (schema_mem_holes.1 hr)
    module_found := fun k hk => by
      have htype : k ∈ n.messages.types.keys :=
        (List.mem_append.1 hk).elim id fun hk => hrec.keys_schemas_subset hsub hk
      obtain ⟨e, he, rfl⟩ := List.mem_map.1 htype
      obtain ⟨r, hr, hk, -⟩ := hrec.exists_type he
      rw [← hk, OrderedMap.contains, hrec.modules r hr, Option.isSome_some] }

end Services

/-- A service whose two methods return messages of one name from two files. -/
def priceCache : Service where
  name := "PriceCache"
  methods := [method "GetPrice" "common", method "GetCost" "billing"]
  leadingComment := none
where
  request : MessageRef := ⟨"shop.v1.PriceReq", "PriceReq", "PriceReq", "shop/v1/price.proto"⟩
  money (package : String) : MessageRef :=
    ⟨package ++ ".v1.Money", "Money", "Money", package ++ "/v1/money.proto"⟩
  method (name package : String) : Method :=
    ⟨name, "PriceCache", request, money package, none, false, false⟩

def priceFile : SourceFile :=
  ⟨"shop/v1/price.proto", "shop.v1", true, "shop/v1/price", "shopv1", "shop/v1", [priceCache]⟩

theorem imports_agree_with_uses_prices :
    Consistent ([priceCache].flatMap Service.refs) ∧
      let n := names .root priceFile [ManagerPlan.ofService priceCache] {}
      Agree (fun file => messageModule .root (fileName priceFile) file .js) n.messages
        (imports n "cache-manager-runtime") (declarations n.runtime [priceCache]) :=
  ⟨by decide, (imports_agree_with_uses .root priceFile [priceCache] {} (by decide)).2⟩

end CacheGen.TypeScript
