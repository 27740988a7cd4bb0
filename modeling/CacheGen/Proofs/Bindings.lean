import CacheGen.Proofs.Scope
import CacheGen.Target.Bindings
import Mathlib.Data.List.Perm.Basic

/-!
# The names that a module binds

`MessageBindings.ofPlans` claims names handle by handle. Two invariants of that run are kept apart,
since only the second needs the references to be consistent.

**Clash-free.** The names bound so far are pairwise distinct and none of them is reserved. The scope
knows exactly the bound and the reserved names, so what it hands out next is new to both.

**Recorded.** A message that was used is bound, under its own exported name, and its module is
noted. Nothing else is bound. Two references with one full name must be equal for that, because the
second one meets the binding of the first.
-/

namespace CacheGen

/-! ## References -/

/-- The references of a method, in the order they are used. -/
def Method.refs (m : Method) : List MessageRef := [m.input, m.output]

/-- One full name, one reference. -/
def Consistent (rs : List MessageRef) : Prop :=
  ∀ r ∈ rs, ∀ r' ∈ rs, r.fullName = r'.fullName → r = r'

instance (rs : List MessageRef) : Decidable (Consistent rs) :=
  inferInstanceAs (Decidable (∀ r ∈ rs, ∀ r' ∈ rs, r.fullName = r'.fullName → r = r'))

theorem Consistent.mono {rs rs' : List MessageRef} (h : Consistent rs') (hsub : rs ⊆ rs') :
    Consistent rs :=
  fun r hr r' hr' => h r (hsub hr) r' (hsub hr')

namespace MessageBindings

variable {reserved : List String} {b : MessageBindings} {moduleOf : String → String}

/-! ## One use -/

theorem useType_of_bound {r : MessageRef} (h : b.types.contains r.fullName = true) :
    b.useType moduleOf r = { b with modules := b.modules.insert r.fullName (moduleOf r.file) } := by
  simp [useType, h]

theorem useType_of_new {r : MessageRef} (h : b.types.contains r.fullName = false) :
    b.useType moduleOf r =
      { scope := (b.scope.claim r.localName).2
        types := b.types.insert r.fullName ⟨r.localName, (b.scope.claim r.localName).1⟩
        schemas := b.schemas
        modules := b.modules.insert r.fullName (moduleOf r.file) } := by
  simp [useType, h]

theorem useSchema_of_bound {r : MessageRef} (h : b.schemas.contains r.fullName = true) :
    b.useSchema r = b := by
  simp [useSchema, h]

theorem useSchema_of_new {r : MessageRef} (h : b.schemas.contains r.fullName = false) :
    b.useSchema r =
      { scope := (b.scope.claim (b.typeName r ++ "Schema")).2
        types := b.types
        schemas := b.schemas.insert r.fullName
          ⟨r.localName ++ "Schema", (b.scope.claim (b.typeName r ++ "Schema")).1⟩
        modules := b.modules } := by
  simp [useSchema, h]

/-! ## Bound names do not clash -/

/-- The names that types and schemas are bound to. -/
def boundNames (b : MessageBindings) : List String :=
  (b.types.entries ++ b.schemas.entries).map (·.2.bound)

/-- The bound names are distinct, none is reserved, and the scope knows all of both. -/
structure ClashFree (reserved : List String) (b : MessageBindings) : Prop where
  nodup : b.boundNames.Nodup
  apart : ∀ name ∈ b.boundNames, name ∉ reserved
  taken : ∀ name, name ∈ b.scope.taken ↔ name ∈ b.boundNames ∨ name ∈ reserved

/-- One more name, handed out by the scope. -/
theorem ClashFree.bind {b' : MessageBindings} {wanted : String} (h : ClashFree reserved b)
    (hscope : b'.scope = (b.scope.claim wanted).2)
    (hnames : b'.boundNames.Perm ((b.scope.claim wanted).1 :: b.boundNames)) :
    ClashFree reserved b' := by
  have hnew : (b.scope.claim wanted).1 ∉ b.boundNames ∧ (b.scope.claim wanted).1 ∉ reserved := by
    rw [← not_or, ← h.taken]
    exact b.scope.claim_not_mem wanted
  refine ⟨hnames.nodup_iff.2 (List.nodup_cons.2 ⟨hnew.1, h.nodup⟩), fun name hname => ?_,
    fun name => ?_⟩
  · rcases List.mem_cons.1 (hnames.mem_iff.1 hname) with rfl | hname
    · exact hnew.2
    · exact h.apart name hname
  · rw [hscope, Scope.taken_claim, List.mem_cons, h.taken, hnames.mem_iff, List.mem_cons, or_assoc]

theorem ClashFree.useType (h : ClashFree reserved b) (r : MessageRef) :
    ClashFree reserved (b.useType moduleOf r) := by
  cases hr : b.types.contains r.fullName with
  | true =>
    rw [useType_of_bound hr]
    exact ⟨h.nodup, h.apart, h.taken⟩
  | false =>
    rw [useType_of_new hr]
    refine h.bind rfl ?_
    simp only [boundNames, OrderedMap.entries_insert_of_new hr, List.append_assoc,
      List.singleton_append]
    exact List.perm_middle.map fun e : String × Binding => e.2.bound

theorem ClashFree.useSchema (h : ClashFree reserved b) (r : MessageRef) :
    ClashFree reserved (b.useSchema r) := by
  cases hr : b.schemas.contains r.fullName with
  | true => rwa [useSchema_of_bound hr]
  | false =>
    rw [useSchema_of_new hr]
    refine h.bind rfl ?_
    simp only [boundNames, OrderedMap.entries_insert_of_new hr, ← List.append_assoc]
    exact (List.perm_append_singleton _ _).map fun e : String × Binding => e.2.bound

theorem ClashFree.useHandle (h : ClashFree reserved b) (hd : Handle) :
    ClashFree reserved (useHandle moduleOf b hd) :=
  ((h.useType _).useType _).useSchema _

theorem ClashFree.useHandles (h : ClashFree reserved b) (hs : List Handle) :
    ClashFree reserved (hs.foldl (MessageBindings.useHandle moduleOf) b) := by
  induction hs generalizing b with
  | nil => exact h
  | cons hd hs ih => exact ih (h.useHandle hd)

/-! ## Used messages are recorded -/

/-- `m` binds exactly the messages of `rs`, each under the name it is `exported` as. -/
structure BindsExactly (exported : MessageRef → String) (rs : List MessageRef)
    (m : OrderedMap String Binding) : Prop where
  bound : ∀ r ∈ rs, m.contains r.fullName = true
  only : ∀ k v, m.get? k = some v → ∃ r ∈ rs, r.fullName = k ∧ v.exported = exported r

namespace BindsExactly

variable {exported : MessageRef → String} {rs : List MessageRef} {m : OrderedMap String Binding}

theorem empty : BindsExactly exported [] ∅ :=
  ⟨fun _ h => (List.not_mem_nil h).elim, fun _ _ h => by cases h⟩

/-- One more use of a message that is bound. -/
theorem keep (h : BindsExactly exported rs m) {r : MessageRef}
    (hr : m.contains r.fullName = true) : BindsExactly exported (rs ++ [r]) m := by
  refine ⟨fun r' hr' => ?_, fun k v hv => ?_⟩
  · rcases List.mem_append.1 hr' with hr' | hr'
    · exact h.bound r' hr'
    · rwa [List.mem_singleton.1 hr']
  · obtain ⟨r', hr', hk⟩ := h.only k v hv
    exact ⟨r', List.mem_append_left _ hr', hk⟩

theorem insert (h : BindsExactly exported rs m) (r : MessageRef) (name : String) :
    BindsExactly exported (rs ++ [r]) (m.insert r.fullName ⟨exported r, name⟩) := by
  refine ⟨fun r' hr' => ?_, fun k v hv => ?_⟩
  · rw [OrderedMap.contains, OrderedMap.get?_insert]
    split
    · rfl
    · next hne =>
      rcases List.mem_append.1 hr' with hr' | hr'
      · exact h.bound r' hr'
      · exact (hne (by rw [List.mem_singleton.1 hr'])).elim
  · rw [OrderedMap.get?_insert] at hv
    split at hv
    · next hk =>
      obtain rfl := Option.some.inj hv
      exact ⟨r, by simp, hk.symm, rfl⟩
    · obtain ⟨r', hr', hk⟩ := h.only k v hv
      exact ⟨r', List.mem_append_left _ hr', hk⟩

/-- Behind an entry is a reference. -/
theorem exists_ref (h : BindsExactly exported rs m) {e : String × Binding} (he : e ∈ m.entries) :
    ∃ r ∈ rs, r.fullName = e.1 ∧ e.2.exported = exported r :=
  h.only e.1 e.2 (OrderedMap.mem_entries_iff.1 he)

/-- With one reference per full name, the binding of a message is under its own exported name. -/
theorem get? (h : BindsExactly exported rs m) {all : List MessageRef} (hall : Consistent all)
    (hsub : rs ⊆ all) {r : MessageRef} (hr : r ∈ rs) :
    ∃ name, m.get? r.fullName = some ⟨exported r, name⟩ := by
  obtain ⟨v, hv⟩ := Option.isSome_iff_exists.1 (h.bound r hr)
  obtain ⟨r', hr', hk, hexported⟩ := h.only _ v hv
  obtain rfl := hall r' (hsub hr') r (hsub hr) hk
  exact ⟨v.bound, by rw [hv, ← hexported]⟩

end BindsExactly

/-- The types of `rs` and the schemas of `os` are bound, and the modules of `rs` are noted. -/
structure Recorded (moduleOf : String → String) (rs os : List MessageRef) (b : MessageBindings) :
    Prop where
  types : BindsExactly (·.localName) rs b.types
  schemas : BindsExactly (·.localName ++ "Schema") os b.schemas
  modules : ∀ r ∈ rs, b.modules.get? r.fullName = some (moduleOf r.file)

namespace Recorded

variable {rs os : List MessageRef}

theorem empty (s : Scope) : Recorded moduleOf [] [] ⟨s, ∅, ∅, ∅⟩ :=
  ⟨.empty, .empty, fun _ h => (List.not_mem_nil h).elim⟩

/-- A reference met before under the same full name is `r` itself, so its module does not change. -/
theorem modules_insert (h : Recorded moduleOf rs os b) {r : MessageRef}
    (hc : Consistent (rs ++ [r])) : ∀ r' ∈ rs ++ [r],
      (b.modules.insert r.fullName (moduleOf r.file)).get? r'.fullName =
        some (moduleOf r'.file) := by
  intro r' hr'
  rw [OrderedMap.get?_insert]
  split
  · next heq => rw [hc r' hr' r (by simp) heq]
  · next hne =>
    rcases List.mem_append.1 hr' with hr' | hr'
    · exact h.modules r' hr'
    · exact (hne (by rw [List.mem_singleton.1 hr'])).elim

theorem useType (h : Recorded moduleOf rs os b) {r : MessageRef} (hc : Consistent (rs ++ [r])) :
    Recorded moduleOf (rs ++ [r]) os (b.useType moduleOf r) := by
  cases hr : b.types.contains r.fullName with
  | true =>
    rw [useType_of_bound hr]
    exact ⟨h.types.keep hr, h.schemas, h.modules_insert hc⟩
  | false =>
    rw [useType_of_new hr]
    exact ⟨h.types.insert r _, h.schemas, h.modules_insert hc⟩

theorem useSchema (h : Recorded moduleOf rs os b) (r : MessageRef) :
    Recorded moduleOf rs (os ++ [r]) (b.useSchema r) := by
  cases hr : b.schemas.contains r.fullName with
  | true =>
    rw [useSchema_of_bound hr]
    exact ⟨h.types, h.schemas.keep hr, h.modules⟩
  | false =>
    rw [useSchema_of_new hr]
    exact ⟨h.types, h.schemas.insert r _, h.modules⟩

theorem useHandle (h : Recorded moduleOf rs os b) (hd : Handle)
    (hc : Consistent (rs ++ hd.method.refs)) :
    Recorded moduleOf (rs ++ hd.method.refs) (os ++ [hd.method.output])
      (MessageBindings.useHandle moduleOf b hd) := by
  have hsplit : rs ++ hd.method.refs = rs ++ [hd.method.input] ++ [hd.method.output] :=
    List.append_cons rs hd.method.input [hd.method.output]
  rw [hsplit] at hc ⊢
  exact ((h.useType (hc.mono (List.subset_append_left _ _))).useType hc).useSchema _

theorem useHandles (h : Recorded moduleOf rs os b) (hs : List Handle)
    (hc : Consistent (rs ++ hs.flatMap (·.method.refs))) :
    Recorded moduleOf (rs ++ hs.flatMap (·.method.refs)) (os ++ hs.map (·.method.output))
      (hs.foldl (MessageBindings.useHandle moduleOf) b) := by
  induction hs generalizing b rs os with
  | nil => simpa using h
  | cons hd hs ih =>
    rw [List.flatMap_cons, ← List.append_assoc] at hc ⊢
    rw [List.map_cons, List.append_cons, List.foldl_cons]
    exact ih (h.useHandle hd (hc.mono (List.subset_append_left _ _))) hc

/-! ## Looking up what is recorded -/

variable {r : MessageRef}

theorem type_entry (h : Recorded moduleOf rs os b) (hc : Consistent rs) (hr : r ∈ rs) :
    (r.fullName, ⟨r.localName, b.typeName r⟩) ∈ b.types.entries := by
  obtain ⟨name, hname⟩ := h.types.get? hc (List.Subset.refl rs) hr
  have htype : b.typeName r = name := by rw [typeName, hname]
  rwa [htype, OrderedMap.mem_entries_iff]

theorem schema_entry (h : Recorded moduleOf rs os b) (hc : Consistent rs) (hsub : os ⊆ rs)
    (hr : r ∈ os) :
    (r.fullName, ⟨r.localName ++ "Schema", b.schemaName r⟩) ∈ b.schemas.entries := by
  obtain ⟨name, hname⟩ := h.schemas.get? hc hsub hr
  have hschema : b.schemaName r = name := by rw [schemaName, hname]
  rwa [hschema, OrderedMap.mem_entries_iff]

theorem moduleName_eq (h : Recorded moduleOf rs os b) (hr : r ∈ rs) :
    b.moduleName r.fullName = moduleOf r.file := by
  rw [moduleName, h.modules r hr, Option.getD_some]

theorem exists_type (h : Recorded moduleOf rs os b) {e : String × Binding}
    (he : e ∈ b.types.entries) : ∃ r ∈ rs, r.fullName = e.1 ∧ b.typeName r = e.2.bound := by
  obtain ⟨r, hr, hk, -⟩ := h.types.exists_ref he
  exact ⟨r, hr, hk, by rw [typeName, hk, OrderedMap.mem_entries_iff.1 he]⟩

theorem exists_schema (h : Recorded moduleOf rs os b) {e : String × Binding}
    (he : e ∈ b.schemas.entries) : ∃ r ∈ os, r.fullName = e.1 ∧ b.schemaName r = e.2.bound := by
  obtain ⟨r, hr, hk, -⟩ := h.schemas.exists_ref he
  exact ⟨r, hr, hk, by rw [schemaName, hk, OrderedMap.mem_entries_iff.1 he]⟩

/-- A created message is used as a type too. -/
theorem keys_schemas_subset (h : Recorded moduleOf rs os b) (hsub : os ⊆ rs) :
    b.schemas.keys ⊆ b.types.keys := by
  intro k hk
  obtain ⟨e, he, rfl⟩ := List.mem_map.1 hk
  obtain ⟨r, hr, hkey, -⟩ := h.exists_schema he
  rw [← hkey]
  exact OrderedMap.contains_iff_mem_keys.1 (h.types.bound r (hsub hr))

end Recorded

end MessageBindings

/-! ## Reserved names -/

/-- The names that the declarations of `plans` have. -/
def declaredNames (plans : List ManagerPlan) : List String :=
  plans.flatMap fun p => [p.managerName, p.constructorName]

theorem Scope.mem_taken_reserveAll (plans : List ManagerPlan) (s : Scope) (name : String) :
    name ∈ (plans.foldl (fun s p => (s.reserve p.managerName).reserve p.constructorName) s).taken ↔
      name ∈ s.taken ∨ name ∈ declaredNames plans := by
  induction plans generalizing s with
  | nil => simp [declaredNames]
  | cons p plans ih =>
    rw [List.foldl_cons, ih]
    simp only [Scope.taken_reserve, declaredNames, List.flatMap_cons, List.mem_append,
      List.mem_cons, List.not_mem_nil, or_false]
    tauto

theorem Scope.mem_taken_ofPlans (plans : List ManagerPlan) (name : String) :
    name ∈ (Scope.ofPlans plans).taken ↔ name ∈ declaredNames plans := by
  rw [Scope.ofPlans, Scope.mem_taken_reserveAll]
  simp

/-- **Message names do not clash**, with each other or with a declaration. -/
theorem MessageBindings.clashFree_ofPlans (moduleOf : String → String)
    (plans : List ManagerPlan) :
    ClashFree (declaredNames plans) (MessageBindings.ofPlans moduleOf plans) := by
  have hstart : ClashFree (declaredNames plans) ⟨Scope.ofPlans plans, ∅, ∅, ∅⟩ :=
    { nodup := List.nodup_nil
      apart := fun _ h => (List.not_mem_nil h).elim
      taken := fun name => by
        rw [Scope.mem_taken_ofPlans]
        exact (or_iff_right List.not_mem_nil).symm }
  exact hstart.useHandles _

/-- **Used messages are recorded**, and no others are. -/
theorem MessageBindings.recorded_ofPlans (moduleOf : String → String) (plans : List ManagerPlan)
    (hc : Consistent ((plans.flatMap (·.handles)).flatMap (·.method.refs))) :
    Recorded moduleOf ((plans.flatMap (·.handles)).flatMap (·.method.refs))
      ((plans.flatMap (·.handles)).map (·.method.output))
      (MessageBindings.ofPlans moduleOf plans) :=
  (Recorded.empty (Scope.ofPlans plans)).useHandles _ hc

/-! ## Runtime names -/

namespace ModuleNames

/-- The runtime symbols that a module imports, by the names they are bound to. -/
def runtimeNames (n : ModuleNames) : List String :=
  if n.hasHandles then
    [n.runtime.create, n.runtime.newCacheManager, n.runtime.cacheManager, n.runtime.cacheOption,
      n.runtime.context]
  else [n.runtime.cacheOption]

/-- All names that a module imports. -/
def boundNames (n : ModuleNames) : List String := n.messages.boundNames ++ n.runtimeNames

/-- The runtime symbols, as they are exported. -/
def runtimeSymbols : List String :=
  ["create", "newCacheManager", "CacheManager", "CacheOption", "Context"]

/-- The runtime symbols are claimed in one go behind the messages. -/
theorem runtimeNames_ofPlans (moduleOf : String → String) (plans : List ManagerPlan) :
    ∃ wanted, wanted ⊆ runtimeSymbols ∧ (ofPlans moduleOf plans).runtimeNames =
      (MessageBindings.ofPlans moduleOf plans).scope.claimAll wanted := by
  cases hany : plans.any fun p => !p.handles.isEmpty with
  | true =>
    refine ⟨runtimeSymbols, List.Subset.refl _, ?_⟩
    simp only [runtimeNames, ofPlans, hany, RuntimeNames.claim, if_true]
    rfl
  | false =>
    refine ⟨["CacheOption"], by decide, ?_⟩
    simp only [runtimeNames, ofPlans, hany, RuntimeNames.claim, Bool.false_eq_true, if_false]
    rfl

/-- **Imported names do not clash**, with each other or with a declaration. -/
theorem boundNames_ofPlans (moduleOf : String → String) (plans : List ManagerPlan) :
    (ofPlans moduleOf plans).boundNames.Nodup ∧
      ∀ name ∈ (ofPlans moduleOf plans).boundNames, name ∉ declaredNames plans := by
  have hmsg := MessageBindings.clashFree_ofPlans moduleOf plans
  obtain ⟨wanted, -, hrun⟩ := runtimeNames_ofPlans moduleOf plans
  have hnew : ∀ name ∈ (ofPlans moduleOf plans).runtimeNames,
      name ∉ (MessageBindings.ofPlans moduleOf plans).boundNames ∧ name ∉ declaredNames plans := by
    intro name hname
    rw [← not_or, ← hmsg.taken]
    exact Scope.claimAll_not_mem _ wanted name (hrun ▸ hname)
  refine ⟨List.nodup_append'.2 ⟨hmsg.nodup, hrun ▸ Scope.nodup_claimAll _ _, ?_⟩, ?_⟩
  · exact fun name hmsgs hruns => (hnew name hruns).1 hmsgs
  · intro name hname
    rcases List.mem_append.1 hname with hname | hname
    · exact hmsg.apart name hname
    · exact (hnew name hname).2

end ModuleNames

end CacheGen
