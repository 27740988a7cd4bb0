import CacheGen.Proofs.Bindings
import CacheGen.Proofs.Lists
import CacheGen.Target.TypeScript

/-!
# The imports of a module

The bindings of a module lie in three groups: message types, schemas and runtime symbols. The import
statements regroup them by source. Nothing is lost or doubled on the way, so what is true of the
bindings is true of the statements.

Main result: `imported_names_clash_free`.
-/

namespace CacheGen

namespace TypeScript

/-! ## Imported symbols -/

/-- One symbol of an import statement. -/
structure Imported where
  typeOnly : Bool
  binding : Binding
  source : String
  deriving DecidableEq, Repr

def Import.symbols (i : Import) : List Imported :=
  i.bindings.map fun b => ⟨i.typeOnly, b, i.source⟩

/-- The symbols that `is` import, in the order of the text. -/
def importedSymbols (is : List Import) : List Imported := is.flatMap Import.symbols

/-- The symbol that an entry of the map of types stands for. -/
def typeSymbol (b : MessageBindings) (e : String × Binding) : Imported :=
  ⟨true, e.2, b.moduleName e.1⟩

/-- The symbol that an entry of the map of schemas stands for. -/
def schemaSymbol (b : MessageBindings) (e : String × Binding) : Imported :=
  ⟨false, e.2, b.moduleName e.1⟩

theorem sortBindings_perm (bs : List Binding) : (sortBindings bs).Perm bs :=
  List.mergeSort_perm bs _

/-! ## Messages by source -/

theorem nodup_messageSources (b : MessageBindings) : (messageSources b).Nodup :=
  (Text.sortByUnits_perm _).nodup_iff.2 (nodup_eraseDups _)

theorem mem_messageSources {b : MessageBindings} {source : String} :
    source ∈ messageSources b ↔ ∃ k ∈ b.types.keys ++ b.schemas.keys, b.moduleName k = source := by
  rw [messageSources, (Text.sortByUnits_perm _).mem_iff, List.mem_eraseDups, List.mem_map]

theorem moduleName_mem_messageSources {b : MessageBindings} {e : String × Binding}
    (he : e ∈ b.types.entries ++ b.schemas.entries) : b.moduleName e.1 ∈ messageSources b := by
  refine mem_messageSources.2 ⟨e.1, ?_, rfl⟩
  rw [OrderedMap.keys, OrderedMap.keys, ← List.map_append]
  exact List.mem_map_of_mem he

theorem symbols_messageImports (b : MessageBindings) :
    importedSymbols (messageImports b) =
      (messageSources b).flatMap fun source =>
        (sortBindings (bindingsFrom b source b.schemas)).map (⟨false, ·, source⟩) ++
          (sortBindings (bindingsFrom b source b.types)).map (⟨true, ·, source⟩) := by
  rw [importedSymbols, messageImports, List.flatMap_assoc]
  refine List.flatMap_congr fun source _ => ?_
  cases hs : sortBindings (bindingsFrom b source b.schemas) with
  | nil => simp [Import.symbols]
  | cons s ss => simp [Import.symbols]

/-- The bindings from one source, as symbols: the entries whose module it is. -/
theorem symbols_bindingsFrom (b : MessageBindings) (typeOnly : Bool) (source : String)
    (es : OrderedMap String Binding) :
    ((sortBindings (bindingsFrom b source es)).map fun x => (⟨typeOnly, x, source⟩ : Imported)).Perm
      ((es.entries.filter fun e => b.moduleName e.1 = source).map
        fun e => ⟨typeOnly, e.2, b.moduleName e.1⟩) := by
  refine ((sortBindings_perm _).map _).trans (List.Perm.of_eq ?_)
  rw [bindingsFrom, List.map_map]
  refine List.map_congr_left fun e he => ?_
  rw [of_decide_eq_true (List.mem_filter.1 he).2]
  rfl

/-- **Regrouping by source keeps the bindings.** -/
theorem symbols_messageImports_perm (b : MessageBindings) :
    (importedSymbols (messageImports b)).Perm
      (b.schemas.entries.map (schemaSymbol b) ++ b.types.entries.map (typeSymbol b)) := by
  rw [symbols_messageImports]
  refine (List.flatMap_append_perm _ _ _).symm.trans (List.Perm.append ?_ ?_)
  · refine (List.Perm.flatMap_left _ fun source _ => symbols_bindingsFrom b false source _).trans ?_
    rw [← List.map_flatMap]
    exact (perm_flatMap_filter (fun e => b.moduleName e.1) (nodup_messageSources b) _
      fun e he => moduleName_mem_messageSources (List.mem_append_right _ he)).map _
  · refine (List.Perm.flatMap_left _ fun source _ => symbols_bindingsFrom b true source _).trans ?_
    rw [← List.map_flatMap]
    exact (perm_flatMap_filter (fun e => b.moduleName e.1) (nodup_messageSources b) _
      fun e he => moduleName_mem_messageSources (List.mem_append_left _ he)).map _

/-! ## Local names -/

/-- The names that `is` bind, in the order of the text. -/
def localNames (is : List Import) : List String := (importedSymbols is).map (·.binding.bound)

theorem localNames_append (is js : List Import) :
    localNames (is ++ js) = localNames is ++ localNames js := by
  simp [localNames, importedSymbols]

theorem localNames_runtimeImports (n : ModuleNames) (runtimeModule : String) :
    localNames (runtimeImports n runtimeModule) = n.runtimeNames := by
  cases h : n.hasHandles <;>
    simp [localNames, importedSymbols, Import.symbols, runtimeImports, ModuleNames.runtimeNames, h]

theorem localNames_messageImports_perm (b : MessageBindings) :
    (localNames (messageImports b)).Perm b.boundNames := by
  refine ((symbols_messageImports_perm b).map _).trans ?_
  rw [List.map_append, List.map_map, List.map_map, MessageBindings.boundNames, List.map_append]
  exact List.perm_append_comm

/-- The import statements bind the names of the module, each once. -/
theorem localNames_imports_perm (n : ModuleNames) (runtimeModule : String) :
    (localNames (imports n runtimeModule)).Perm n.boundNames := by
  rw [imports, localNames_append, localNames_runtimeImports, ModuleNames.boundNames]
  exact List.perm_append_comm.trans ((localNames_messageImports_perm n.messages).append_right _)

/-- **Imported names do not clash.** The import statements of a module bind the names of its message
types, schemas and runtime symbols, each once. These names are pairwise distinct, and no manager and
no constructor that the module declares has one of them. -/
theorem imported_names_clash_free (base : Location) (f : SourceFile) (plans : List ManagerPlan)
    (c : Config) :
    let n := names base f plans c
    let bound := localNames (imports n c.tsRuntimeModule)
    bound.Perm (n.messages.types.entries.map (·.2.bound) ++
        n.messages.schemas.entries.map (·.2.bound) ++ n.runtimeNames) ∧
      bound.Nodup ∧ ∀ p ∈ plans, p.managerName ∉ bound ∧ p.constructorName ∉ bound := by
  intro n bound
  have hperm : bound.Perm n.boundNames := localNames_imports_perm n c.tsRuntimeModule
  obtain ⟨hnodup, hapart⟩ := ModuleNames.boundNames_ofPlans
    (fun file => messageModule base (fileName f) file c.importExtension) plans
  refine ⟨?_, hperm.nodup_iff.2 hnodup, fun p hp => ?_⟩
  · rw [← List.map_append]
    exact hperm
  · have hdeclared : ∀ name ∈ [p.managerName, p.constructorName], name ∉ bound := by
      intro name hname hbound
      exact hapart name (hperm.mem_iff.1 hbound) (List.mem_flatMap.2 ⟨p, hp, hname⟩)
    exact ⟨hdeclared _ (by simp), hdeclared _ (by simp)⟩

end TypeScript

end CacheGen
