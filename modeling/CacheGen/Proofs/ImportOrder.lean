import CacheGen.Proofs.AppendedPlans
import CacheGen.Proofs.ImportUse
import CacheGen.Proofs.MapLookup
import CacheGen.Proofs.UnitOrder
import Mathlib.Data.List.Dedup

/-!
# Imports and the order of declarations

The names of a module are bound in the order of first use, so in general they depend on the order of
services and methods. They do not where all names that are wanted are distinct.

**No alias.** Then every claim is answered with the name that is wanted (`Settled`, kept by each
use). So a message is bound to its own name whenever it comes first, and what the maps of the module
answer is known from the set of its messages (`BindsExactly.get?_iff`).

**Sorting.** Sources and clauses are sorted, and distinct ones have one order. So the import
statements are known from the bindings as sets (`messageImports_congr`).

**Theorem (`imports_order_free`).** Plans that declare the same names and use the same messages have
the same import statements, if the names wanted in the module are distinct.
-/

namespace CacheGen

/-! ## Claims of free names -/

/-- A name that is free is handed out as it is. -/
theorem Scope.claim_of_free {s : Scope} {wanted : String} (h : wanted ∉ s.taken) :
    s.claim wanted = (wanted, s.reserve wanted) := by
  obtain ⟨n, -, hname, -, hbefore⟩ := s.firstFree_spec wanted
  have hfirst : s.firstFree wanted = wanted := by
    cases n with
    | zero => exact hname
    | succ n => exact absurd (hbefore 0 n.succ_pos) h
  rw [claim, hfirst]

/-- The runtime symbols under the names they are exported as. -/
def RuntimeNames.exported : RuntimeNames :=
  ⟨"create", "newCacheManager", "CacheManager", "CacheOption", "Context"⟩

theorem RuntimeNames.claim_of_free {s : Scope}
    (h : ∀ name ∈ ModuleNames.runtimeSymbols, name ∉ s.taken) (hasHandles : Bool) :
    claim hasHandles s = exported := by
  simp only [ModuleNames.runtimeSymbols, List.forall_mem_cons, List.not_mem_nil, false_imp_iff,
    implies_true, and_true] at h
  obtain ⟨hcreate, hnew, hmanager, hoption, hcontext⟩ := h
  cases hasHandles with
  | false => simp [claim, Scope.claim_of_free, hoption, exported]
  | true =>
    simp [claim, Scope.claim_of_free, hcreate, hnew, hmanager, hoption, hcontext, exported]

/-! ## Wanted names -/

/-- What the declarations and the messages of a module want to be called is distinct, and distinct
from the runtime symbols. -/
structure Distinct (declared : List String) (used created : List MessageRef) : Prop where
  types : ∀ r ∈ used, ∀ r' ∈ used, r.localName = r'.localName → r = r'
  schemas : ∀ o ∈ created, ∀ o' ∈ created,
    o.localName ++ "Schema" = o'.localName ++ "Schema" → o = o'
  apart : ∀ r ∈ used, ∀ o ∈ created, r.localName ≠ o.localName ++ "Schema"
  typesDeclared : ∀ r ∈ used, r.localName ∉ declared
  schemasDeclared : ∀ o ∈ created, o.localName ++ "Schema" ∉ declared
  runtime : ∀ name ∈ ModuleNames.runtimeSymbols, name ∉ declared ∧
    (∀ r ∈ used, r.localName ≠ name) ∧ ∀ o ∈ created, o.localName ++ "Schema" ≠ name

/-- Every symbol is bound to the name it is exported under. -/
def OwnNames (m : OrderedMap String Binding) : Prop :=
  ∀ k v, m.get? k = some v → v.bound = v.exported

namespace MessageBindings

variable {moduleOf : String → String} {declared : List String}
  {rs os used created : List MessageRef} {b : MessageBindings} {r : MessageRef}

/-- The messages of `rs` and the schemas of `os` are bound, each to its own name. -/
structure Settled (moduleOf : String → String) (declared : List String) (rs os : List MessageRef)
    (b : MessageBindings) : Prop where
  recorded : Recorded moduleOf rs os b
  clashFree : ClashFree declared b
  types : OwnNames b.types
  schemas : OwnNames b.schemas

namespace Settled

/-- A bound name is that of a message or of its schema. -/
theorem exists_of_boundName (h : Settled moduleOf declared rs os b) {name : String}
    (hname : name ∈ b.boundNames) :
    (∃ r ∈ rs, r.localName = name) ∨ ∃ o ∈ os, o.localName ++ "Schema" = name := by
  obtain ⟨e, he, rfl⟩ := List.mem_map.1 hname
  rcases List.mem_append.1 he with he | he
  · obtain ⟨r, hr, -, hexported⟩ := h.recorded.types.exists_ref he
    exact .inl ⟨r, hr, by rw [h.types _ _ (OrderedMap.mem_entries_iff.1 he), hexported]⟩
  · obtain ⟨o, ho, -, hexported⟩ := h.recorded.schemas.exists_ref he
    exact .inr ⟨o, ho, by rw [h.schemas _ _ (OrderedMap.mem_entries_iff.1 he), hexported]⟩

theorem typeName_eq (h : Settled moduleOf declared rs os b) (hc : Consistent rs) (hr : r ∈ rs) :
    b.typeName r = r.localName :=
  h.types _ _ (OrderedMap.mem_entries_iff.1 (h.recorded.type_entry hc hr))

section

variable (hwanted : Distinct declared used created) (hc : Consistent used)

include hwanted hc

theorem useType (h : Settled moduleOf declared rs os b) (hrs : rs ++ [r] ⊆ used)
    (hos : os ⊆ created) : Settled moduleOf declared (rs ++ [r]) os (b.useType moduleOf r) := by
  have hr : r ∈ used := hrs (by simp)
  refine ⟨h.recorded.useType (hc.mono hrs), h.clashFree.useType r, ?types, ?schemas⟩
  case types =>
    cases hbound : b.types.contains r.fullName with
    | true =>
      rw [useType_of_bound hbound]
      exact h.types
    | false =>
      have hfree : r.localName ∉ b.scope.taken := by
        rw [h.clashFree.taken, not_or]
        refine ⟨fun hname => ?_, hwanted.typesDeclared r hr⟩
        rcases h.exists_of_boundName hname with ⟨r', hr', heq⟩ | ⟨o, ho, heq⟩
        · obtain rfl := hwanted.types r' (hrs (List.mem_append_left _ hr')) r hr heq
          rw [h.recorded.types.bound r' hr'] at hbound
          cases hbound
        · exact hwanted.apart r hr o (hos ho) heq.symm
      rw [useType_of_new hbound, Scope.claim_of_free hfree]
      exact OrderedMap.forall_get?_insert h.types rfl
  case schemas =>
    rw [schemas_useType]
    exact h.schemas

theorem useSchema (h : Settled moduleOf declared rs os b) (hrs : rs ⊆ used) (hr : r ∈ rs)
    (hos : os ++ [r] ⊆ created) : Settled moduleOf declared rs (os ++ [r]) (b.useSchema r) := by
  have ho : r ∈ created := hos (by simp)
  refine ⟨h.recorded.useSchema r, h.clashFree.useSchema r, ?types, ?schemas⟩
  case types =>
    rw [types_useSchema]
    exact h.types
  case schemas =>
    cases hbound : b.schemas.contains r.fullName with
    | true =>
      rw [useSchema_of_bound hbound]
      exact h.schemas
    | false =>
      have hfree : r.localName ++ "Schema" ∉ b.scope.taken := by
        rw [h.clashFree.taken, not_or]
        refine ⟨fun hname => ?_, hwanted.schemasDeclared r ho⟩
        rcases h.exists_of_boundName hname with ⟨r', hr', heq⟩ | ⟨o, ho', heq⟩
        · exact hwanted.apart r' (hrs hr') r ho heq
        · obtain rfl := hwanted.schemas o (hos (List.mem_append_left _ ho')) r ho heq
          rw [h.recorded.schemas.bound o ho'] at hbound
          cases hbound
      rw [useSchema_of_new hbound, h.typeName_eq (hc.mono hrs) hr, Scope.claim_of_free hfree]
      exact OrderedMap.forall_get?_insert h.schemas rfl

theorem useHandle (h : Settled moduleOf declared rs os b) {hd : Handle}
    (hrs : rs ++ hd.method.refs ⊆ used) (hos : os ++ [hd.method.output] ⊆ created) :
    Settled moduleOf declared (rs ++ hd.method.refs) (os ++ [hd.method.output])
      (MessageBindings.useHandle moduleOf b hd) := by
  have hsplit : rs ++ hd.method.refs = rs ++ [hd.method.input] ++ [hd.method.output] :=
    List.append_cons rs hd.method.input [hd.method.output]
  rw [hsplit] at hrs ⊢
  have hbefore : os ⊆ created := fun o ho => hos (List.mem_append_left _ ho)
  have hinput := h.useType hwanted hc (fun r hr => hrs (List.mem_append_left _ hr)) hbefore
  exact (hinput.useType hwanted hc hrs hbefore).useSchema hwanted hc hrs (by simp) hos

theorem useHandles (h : Settled moduleOf declared rs os b) {hs : List Handle}
    (hrs : rs ++ hs.flatMap (·.method.refs) ⊆ used)
    (hos : os ++ hs.map (·.method.output) ⊆ created) :
    Settled moduleOf declared (rs ++ hs.flatMap (·.method.refs)) (os ++ hs.map (·.method.output))
      (hs.foldl (MessageBindings.useHandle moduleOf) b) := by
  induction hs generalizing b rs os with
  | nil => simpa using h
  | cons hd hs ih =>
    rw [List.flatMap_cons, ← List.append_assoc] at hrs ⊢
    rw [List.map_cons, List.append_cons] at hos ⊢
    exact ih (h.useHandle hwanted hc (fun r hr => hrs (List.mem_append_left _ hr))
      fun o ho => hos (List.mem_append_left _ ho)) hrs hos

end

end Settled

theorem settled_ofPlans (moduleOf : String → String) {plans : List ManagerPlan}
    (hwanted : Distinct (declaredNames plans) (usedMessages plans) (createdMessages plans))
    (hc : Consistent (usedMessages plans)) :
    Settled moduleOf (declaredNames plans) (usedMessages plans) (createdMessages plans)
      (ofPlans moduleOf plans) := by
  have hstart : Settled moduleOf (declaredNames plans) [] [] ⟨Scope.ofPlans plans, ∅, ∅, ∅⟩ := by
    refine ⟨Recorded.empty _,
      ⟨List.nodup_nil, fun _ h => (List.not_mem_nil h).elim, fun name => ?_⟩,
      fun _ _ h => (nomatch h), fun _ _ h => (nomatch h)⟩
    rw [Scope.mem_taken_ofPlans]
    exact (or_iff_right List.not_mem_nil).symm
  exact hstart.useHandles hwanted hc (List.Subset.refl _) (List.Subset.refl _)

/-! ## Bindings as sets -/

namespace BindsExactly

variable {exported : MessageRef → String} {all rs' : List MessageRef}
  {m m' : OrderedMap String Binding}

/-- With own names, what a map answers is known from the messages that are bound. -/
theorem get?_iff (h : BindsExactly exported rs m) (hown : OwnNames m) (hc : Consistent all)
    (hsub : rs ⊆ all) {k : String} {v : Binding} :
    m.get? k = some v ↔ ∃ r ∈ rs, r.fullName = k ∧ v = ⟨exported r, exported r⟩ := by
  constructor
  · intro hv
    obtain ⟨r, hr, hk, hexported⟩ := h.only k v hv
    obtain ⟨name, bound⟩ := v
    obtain rfl : name = exported r := hexported
    obtain rfl : bound = exported r := hown k _ hv
    exact ⟨r, hr, hk, rfl⟩
  · rintro ⟨r, hr, rfl, rfl⟩
    obtain ⟨name, hname⟩ := h.get? hc hsub hr
    have hbound : name = exported r := hown _ _ hname
    rw [hname, hbound]

theorem perm_entries (h : BindsExactly exported rs m) (h' : BindsExactly exported rs' m')
    (hown : OwnNames m) (hown' : OwnNames m') (hc : Consistent all) (hsub : rs ⊆ all)
    (hsame : ∀ r, r ∈ rs ↔ r ∈ rs') : m.entries.Perm m'.entries := by
  have hsub' : rs' ⊆ all := fun r hr => hsub ((hsame r).2 hr)
  rw [List.perm_ext_iff_of_nodup m.nodup.of_map m'.nodup.of_map]
  rintro ⟨k, v⟩
  rw [OrderedMap.mem_entries_iff, OrderedMap.mem_entries_iff, h.get?_iff hown hc hsub,
    h'.get?_iff hown' hc hsub']
  exact exists_congr fun r => and_congr_left fun _ => hsame r

end BindsExactly

end MessageBindings

/-! ## Import statements -/

namespace TypeScript

theorem clause_of_own {x : Binding} (h : x.bound = x.exported) : x.clause = x.bound :=
  if_pos h.symm

theorem sortBindings_congr {xs ys : List Binding} (hown : ∀ x ∈ xs, x.bound = x.exported)
    (h : xs.Perm ys) : sortBindings xs = sortBindings ys := by
  refine Text.mergeSort_units_congr Binding.clause (fun x hx y hy hclause => ?_) h
  have hx' := hown x hx
  have hy' := hown y (h.mem_iff.2 hy)
  rw [clause_of_own hx', clause_of_own hy'] at hclause
  cases x
  cases y
  simp_all

variable {b b' : MessageBindings}

theorem messageSources_congr (htypes : b.types.entries.Perm b'.types.entries)
    (hschemas : b.schemas.entries.Perm b'.schemas.entries)
    (hmodule : ∀ k ∈ b.types.keys ++ b.schemas.keys, b.moduleName k = b'.moduleName k) :
    messageSources b = messageSources b' := by
  have hkeys : (b.types.keys ++ b.schemas.keys).Perm (b'.types.keys ++ b'.schemas.keys) :=
    (htypes.map Prod.fst).append (hschemas.map Prod.fst)
  refine Text.sortByUnits_congr ?_
  rw [List.perm_ext_iff_of_nodup (nodup_eraseDups _) (nodup_eraseDups _),
    List.map_congr_left hmodule]
  intro source
  rw [List.mem_eraseDups, List.mem_eraseDups, (hkeys.map b'.moduleName).mem_iff]

theorem sortBindings_bindingsFrom_congr {m m' : OrderedMap String Binding}
    (h : m.entries.Perm m'.entries) (hown : OwnNames m)
    (hmodule : ∀ k ∈ m.keys, b.moduleName k = b'.moduleName k) (source : String) :
    sortBindings (bindingsFrom b source m) = sortBindings (bindingsFrom b' source m') := by
  refine sortBindings_congr (fun x hx => ?_) ?_
  · obtain ⟨e, he, rfl⟩ := List.mem_map.1 hx
    exact hown _ _ (OrderedMap.mem_entries_iff.1 (List.mem_filter.1 he).1)
  · have hfilter : (m.entries.filter fun e => b.moduleName e.1 = source) =
        m.entries.filter fun e => b'.moduleName e.1 = source :=
      List.filter_congr fun e he => by rw [hmodule e.1 (List.mem_map_of_mem he)]
    rw [bindingsFrom, bindingsFrom, hfilter]
    exact (h.filter _).map _

/-- The import statements are known from the bindings as sets. -/
theorem messageImports_congr (htypes : b.types.entries.Perm b'.types.entries)
    (hschemas : b.schemas.entries.Perm b'.schemas.entries) (hownTypes : OwnNames b.types)
    (hownSchemas : OwnNames b.schemas)
    (hmodule : ∀ k ∈ b.types.keys ++ b.schemas.keys, b.moduleName k = b'.moduleName k) :
    messageImports b = messageImports b' := by
  rw [messageImports, messageImports, messageSources_congr htypes hschemas hmodule]
  refine List.flatMap_congr fun source _ => ?_
  rw [sortBindings_bindingsFrom_congr htypes hownTypes
      (fun k hk => hmodule k (List.mem_append_left _ hk)) source,
    sortBindings_bindingsFrom_congr hschemas hownSchemas
      (fun k hk => hmodule k (List.mem_append_right _ hk)) source]

end TypeScript

/-! ## Plans with the same needs -/

/-- The messages that the handles of `plans` take. -/
def takenMessages (plans : List ManagerPlan) : List MessageRef :=
  (plans.flatMap (·.handles)).map (·.method.input)

/-- The plans declare the same managers and constructors, and their handles take and return the same
messages, in whatever order and however often. -/
structure SameNeeds (plans plans' : List ManagerPlan) : Prop where
  declared : ∀ name, name ∈ declaredNames plans ↔ name ∈ declaredNames plans'
  taken : ∀ r, r ∈ takenMessages plans ↔ r ∈ takenMessages plans'
  created : ∀ r, r ∈ createdMessages plans ↔ r ∈ createdMessages plans'

/-- The names wanted in the module for `plans`: those of managers and constructors, of messages and
of the schemas of what is returned, each once, and the runtime symbols. -/
def wantedNames (plans : List ManagerPlan) : List String :=
  (declaredNames plans).dedup ++ (usedMessages plans).dedup.map (·.localName) ++
    (createdMessages plans).dedup.map (·.localName ++ "Schema") ++ ModuleNames.runtimeSymbols

theorem mem_usedMessages {plans : List ManagerPlan} {r : MessageRef} :
    r ∈ usedMessages plans ↔ r ∈ takenMessages plans ∨ r ∈ createdMessages plans := by
  simp only [usedMessages, takenMessages, createdMessages, Method.refs, List.mem_flatMap (b := r),
    List.mem_map, List.mem_pair, ← exists_or, ← and_or_left, eq_comm (a := r)]

theorem createdMessages_subset (plans : List ManagerPlan) :
    createdMessages plans ⊆ usedMessages plans :=
  fun _ hr => mem_usedMessages.2 (.inr hr)

/-- A manager has a handle exactly when some message is returned. -/
theorem hasHandles_eq (plans : List ManagerPlan) :
    (plans.any fun p => !p.handles.isEmpty) = !(createdMessages plans).isEmpty := by
  rw [Bool.eq_iff_iff, createdMessages]
  simp

theorem distinct_of_nodup {plans : List ManagerPlan} (h : (wantedNames plans).Nodup) :
    Distinct (declaredNames plans) (usedMessages plans) (createdMessages plans) := by
  obtain ⟨hmessages, -, hruntime⟩ := List.nodup_append.1 h
  obtain ⟨hleft, hschemas, hapart⟩ := List.nodup_append.1 hmessages
  obtain ⟨-, htypes, hdeclared⟩ := List.nodup_append.1 hleft
  have hmemDeclared : ∀ name ∈ declaredNames plans, name ∈ (declaredNames plans).dedup :=
    fun name => List.mem_dedup.2
  have hmemType : ∀ r ∈ usedMessages plans,
      r.localName ∈ (usedMessages plans).dedup.map (·.localName) :=
    fun r hr => List.mem_map_of_mem (List.mem_dedup.2 hr)
  have hmemSchema : ∀ o ∈ createdMessages plans, o.localName ++ "Schema" ∈
      (createdMessages plans).dedup.map (·.localName ++ "Schema") :=
    fun o ho => List.mem_map_of_mem (f := (·.localName ++ "Schema")) (List.mem_dedup.2 ho)
  exact {
    types := fun r hr r' hr' =>
      List.inj_on_of_nodup_map htypes (List.mem_dedup.2 hr) (List.mem_dedup.2 hr')
    schemas := fun o ho o' ho' =>
      List.inj_on_of_nodup_map hschemas (List.mem_dedup.2 ho) (List.mem_dedup.2 ho')
    apart := fun r hr o ho =>
      hapart _ (List.mem_append_right _ (hmemType r hr)) _ (hmemSchema o ho)
    typesDeclared := fun r hr hname => hdeclared _ (hmemDeclared _ hname) _ (hmemType r hr) rfl
    schemasDeclared := fun o ho hname =>
      hapart _ (List.mem_append_left _ (hmemDeclared _ hname)) _ (hmemSchema o ho) rfl
    runtime := fun name hname => by
      refine ⟨fun hdecl => ?_, fun r hr => ?_, fun o ho => ?_⟩
      · exact hruntime name (List.mem_append_left _ (List.mem_append_left _
          (hmemDeclared name hdecl))) name hname rfl
      · exact hruntime _ (List.mem_append_left _ (List.mem_append_right _ (hmemType r hr)))
          name hname
      · exact hruntime _ (List.mem_append_right _ (hmemSchema o ho)) name hname }

namespace SameNeeds

variable {plans plans' : List ManagerPlan}

theorem mem_usedMessages (h : SameNeeds plans plans') (r : MessageRef) :
    r ∈ usedMessages plans ↔ r ∈ usedMessages plans' := by
  rw [CacheGen.mem_usedMessages, CacheGen.mem_usedMessages, h.taken, h.created]

theorem hasHandles_eq (h : SameNeeds plans plans') :
    (plans.any fun p => !p.handles.isEmpty) = plans'.any fun p => !p.handles.isEmpty := by
  have hempty : (createdMessages plans).isEmpty = (createdMessages plans').isEmpty := by
    rw [Bool.eq_iff_iff]
    simp only [List.isEmpty_iff, List.eq_nil_iff_forall_not_mem, h.created]
  rw [CacheGen.hasHandles_eq, CacheGen.hasHandles_eq, hempty]

theorem distinct (h : SameNeeds plans plans')
    (hwanted : Distinct (declaredNames plans) (usedMessages plans) (createdMessages plans)) :
    Distinct (declaredNames plans') (usedMessages plans') (createdMessages plans') := by
  obtain ⟨htypes, hschemas, hapart, htypesDeclared, hschemasDeclared, hruntime⟩ := hwanted
  simp only [h.mem_usedMessages, h.created] at htypes hschemas hapart
  simp only [h.declared, h.mem_usedMessages, h.created]
    at htypesDeclared hschemasDeclared hruntime
  exact ⟨htypes, hschemas, hapart, htypesDeclared, hschemasDeclared, hruntime⟩

theorem consistent (h : SameNeeds plans plans') (hc : Consistent (usedMessages plans)) :
    Consistent (usedMessages plans') :=
  hc.mono fun r => (h.mem_usedMessages r).2

end SameNeeds

namespace TypeScript

/-- The runtime symbols of a module keep their names. -/
theorem runtime_ofPlans (moduleOf : String → String) {plans : List ManagerPlan}
    (hwanted : Distinct (declaredNames plans) (usedMessages plans) (createdMessages plans))
    (hc : Consistent (usedMessages plans)) :
    (ModuleNames.ofPlans moduleOf plans).runtime = RuntimeNames.exported := by
  have hsettled := MessageBindings.settled_ofPlans moduleOf hwanted hc
  refine RuntimeNames.claim_of_free (fun name hname htaken => ?_) _
  obtain ⟨hdeclared, htypes, hschemas⟩ := hwanted.runtime name hname
  rcases (hsettled.clashFree.taken name).1 htaken with hbound | hreserved
  · rcases hsettled.exists_of_boundName hbound with ⟨r, hr, heq⟩ | ⟨o, ho, heq⟩
    · exact htypes r hr heq
    · exact hschemas o ho heq
  · exact hdeclared hreserved

variable {plans plans' : List ManagerPlan}

theorem messageImports_ofPlans_congr (moduleOf : String → String) (h : SameNeeds plans plans')
    (hwanted : Distinct (declaredNames plans) (usedMessages plans) (createdMessages plans))
    (hc : Consistent (usedMessages plans)) :
    messageImports (MessageBindings.ofPlans moduleOf plans) =
      messageImports (MessageBindings.ofPlans moduleOf plans') := by
  have hs := MessageBindings.settled_ofPlans moduleOf hwanted hc
  have hs' := MessageBindings.settled_ofPlans moduleOf (h.distinct hwanted) (h.consistent hc)
  have hmodule : ∀ k ∈ (MessageBindings.ofPlans moduleOf plans).types.keys,
      (MessageBindings.ofPlans moduleOf plans).moduleName k =
        (MessageBindings.ofPlans moduleOf plans').moduleName k := by
    intro k hk
    obtain ⟨r, hr, rfl⟩ := (MessageBindings.mem_keys_types_ofPlans moduleOf plans).1 hk
    rw [hs.recorded.moduleName_eq hr, hs'.recorded.moduleName_eq ((h.mem_usedMessages r).1 hr)]
  refine messageImports_congr ?_ ?_ hs.types hs.schemas fun k hk => hmodule k ?_
  · exact hs.recorded.types.perm_entries hs'.recorded.types hs.types hs'.types hc
      (List.Subset.refl _) h.mem_usedMessages
  · exact hs.recorded.schemas.perm_entries hs'.recorded.schemas hs.schemas hs'.schemas hc
      (createdMessages_subset plans) h.created
  · exact (List.mem_append.1 hk).elim id fun hk =>
      hs.recorded.keys_schemas_subset (createdMessages_subset plans) hk

theorem bound_eq_exported_of_runtime {n : ModuleNames} (h : n.runtime = RuntimeNames.exported)
    (runtimeModule : String) : ∀ s ∈ importedSymbols (runtimeImports n runtimeModule),
      s.binding.bound = s.binding.exported := by
  rw [runtimeImports, h]
  split <;> simp [importedSymbols, Import.symbols, RuntimeNames.exported]

/-- A symbol of a module is imported under its own name. -/
theorem bound_eq_exported (base : Location) (f : SourceFile) (c : Config)
    (hwanted : Distinct (declaredNames plans) (usedMessages plans) (createdMessages plans))
    (hc : Consistent (usedMessages plans)) :
    ∀ s ∈ importedSymbols (imports (names base f plans c) c.tsRuntimeModule),
      s.binding.bound = s.binding.exported := by
  have hs := MessageBindings.settled_ofPlans
    (fun file => messageModule base (fileName f) file c.importExtension) hwanted hc
  intro s hmem
  rw [imports, importedSymbols, List.flatMap_append] at hmem
  rcases List.mem_append.1 hmem with hruntime | hmessage
  · exact bound_eq_exported_of_runtime (runtime_ofPlans _ hwanted hc) _ s hruntime
  · rcases mem_symbols_messageImports.1 hmessage with ⟨e, he, rfl⟩ | ⟨e, he, rfl⟩
    · exact hs.schemas _ _ (OrderedMap.mem_entries_iff.1 he)
    · exact hs.types _ _ (OrderedMap.mem_entries_iff.1 he)

/-- **Imports without regard to order.** Plans with the same needs have the same import statements,
and none with an alias, if the names wanted in the module are distinct and each full name stands for
one message. -/
theorem imports_order_free (base : Location) (f : SourceFile) (c : Config)
    (h : SameNeeds plans plans') (hc : Consistent (usedMessages plans))
    (hwanted : (wantedNames plans).Nodup) :
    let is := imports (names base f plans c) c.tsRuntimeModule
    let is' := imports (names base f plans' c) c.tsRuntimeModule
    is.map Import.line = is'.map Import.line ∧
      ∀ s ∈ importedSymbols is, s.binding.bound = s.binding.exported := by
  intro is is'
  have hdistinct := distinct_of_nodup hwanted
  have hruntime : runtimeImports (names base f plans c) c.tsRuntimeModule =
      runtimeImports (names base f plans' c) c.tsRuntimeModule := by
    have hnames : (names base f plans c).runtime = (names base f plans' c).runtime :=
      (runtime_ofPlans _ hdistinct hc).trans
        (runtime_ofPlans _ (h.distinct hdistinct) (h.consistent hc)).symm
    have hhandles : (names base f plans c).hasHandles = (names base f plans' c).hasHandles :=
      h.hasHandles_eq
    rw [runtimeImports, runtimeImports, hnames, hhandles]
  have hsame : is = is' :=
    congr_arg₂ (· ++ ·) hruntime (messageImports_ofPlans_congr _ h hdistinct hc)
  exact ⟨congrArg _ hsame, bound_eq_exported base f c hdistinct hc⟩

/-- A method of a shop, where well-known messages are used too. -/
def shopMethod (name input output : String) : Method :=
  ⟨name, "Shop", shopMessage input, shopMessage output, none, false, false⟩
where
  shopMessage (name : String) : MessageRef :=
    if name = "Empty" then ⟨"google.protobuf.Empty", name, name, "google/protobuf/empty.proto"⟩
    else ⟨"shop.v1." ++ name, name, name, "shop/v1/shop.proto"⟩

/-- In one order the cache for prices comes first and has two methods. In the other it comes last,
has one of them twice, and the cache for stock has the other one. -/
theorem imports_order_free_shop :
    let price := shopMethod "GetPrice" "PriceReq" "Price"
    let offer := shopMethod "GetOffer" "Price" "Offer"
    let stock := shopMethod "GetStock" "Empty" "Stock"
    let plans := [⟨"PriceCache", [price, offer], none⟩, ⟨"StockCache", [stock], none⟩].map
      ManagerPlan.ofService
    let plans' := [⟨"StockCache", [offer, stock], none⟩, ⟨"PriceCache", [price, price], none⟩].map
      ManagerPlan.ofService
    SameNeeds plans plans' ∧ Consistent (usedMessages plans) ∧ (wantedNames plans).Nodup ∧
      (imports (names .root priceFile plans {}) "cache-manager-runtime").map Import.line =
        (imports (names .root priceFile plans' {}) "cache-manager-runtime").map Import.line := by
  intro price offer stock plans plans'
  have hmem {α : Type} {as bs : List α} (h : (∀ a ∈ as, a ∈ bs) ∧ ∀ b ∈ bs, b ∈ as) (a : α) :
      a ∈ as ↔ a ∈ bs := ⟨h.1 a, h.2 a⟩
  have hneeds : SameNeeds plans plans' :=
    ⟨hmem (by decide), hmem (by decide), hmem (by decide)⟩
  have hc : Consistent (usedMessages plans) := by decide
  have hwanted : (wantedNames plans).Nodup := by decide
  exact ⟨hneeds, hc, hwanted, (imports_order_free .root priceFile {} hneeds hc hwanted).1⟩

end TypeScript

end CacheGen
