import CacheGen.Proofs.Bindings
import CacheGen.Target.TypeScript

/-!
# Names when plans are appended

A module for more plans reserves more names before any message is claimed, and uses more messages
behind those it used before. Whether the earlier messages keep their names is a matter of two runs
over the same handles that start from different scopes.

**Claims.** Where more names are taken, a claim is answered as before, unless the answer is among
the further names (`Scope.firstFree_of_subset`). So two runs stay in step as long as no name that
the first one binds is among them (`Widened`, kept by each use).

**Appended handles** bind messages that were not bound, and change nothing else (`Extends`).

**Theorem (`appended_plans_keep_names`).** The messages of some plans keep their names when plans
are appended exactly when no appended manager or constructor has one of these names.
-/

namespace CacheGen

/-! ## Claims in a larger scope -/

/-- In a larger scope the first free candidate is the same, if it is free there. -/
theorem Scope.firstFree_of_subset {s s' : Scope} {wanted : String} (hsub : s.taken ⊆ s'.taken)
    (hfree : s.firstFree wanted ∉ s'.taken) : s'.firstFree wanted = s.firstFree wanted := by
  obtain ⟨n, -, hname, -, hbefore⟩ := s.firstFree_spec wanted
  obtain ⟨n', -, hname', hfree', hbefore'⟩ := s'.firstFree_spec wanted
  rw [hname] at hfree ⊢
  have hle : n' ≤ n := not_lt.1 fun hlt => hfree (hbefore' n hlt)
  have hge : n ≤ n' := not_lt.1 fun hlt => hfree' (hsub (hbefore n' hlt))
  rw [hname', Nat.le_antisymm hle hge]

/-! ## More bindings -/

/-- A new key hides no old one. -/
theorem OrderedMap.get?_insert_of_new {κ ν : Type} [DecidableEq κ] {m : OrderedMap κ ν} {k k' : κ}
    {v v' : ν} (hnew : m.contains k = false) (h : m.get? k' = some v') :
    (m.insert k v).get? k' = some v' := by
  rw [get?_insert, if_neg]
  · exact h
  · rintro rfl
    rw [contains, h] at hnew
    cases hnew

namespace MessageBindings

variable {b b' b'' : MessageBindings} {moduleOf : String → String}

/-- What `b` binds, `b'` binds to the same names. -/
structure Extends (b b' : MessageBindings) : Prop where
  types : ∀ k v, b.types.get? k = some v → b'.types.get? k = some v
  schemas : ∀ k v, b.schemas.get? k = some v → b'.schemas.get? k = some v

namespace Extends

theorem refl (b : MessageBindings) : Extends b b := ⟨fun _ _ => id, fun _ _ => id⟩

theorem trans (h : Extends b b') (h' : Extends b' b'') : Extends b b'' :=
  ⟨fun k v hv => h'.types k v (h.types k v hv), fun k v hv => h'.schemas k v (h.schemas k v hv)⟩

theorem boundNames_subset (h : Extends b b') : b.boundNames ⊆ b'.boundNames := by
  intro name hname
  obtain ⟨⟨k, v⟩, he, rfl⟩ := List.mem_map.1 hname
  refine List.mem_map.2 ⟨(k, v), ?_, rfl⟩
  rcases List.mem_append.1 he with he | he
  · exact List.mem_append_left _
      (OrderedMap.mem_entries_iff.2 (h.types k v (OrderedMap.mem_entries_iff.1 he)))
  · exact List.mem_append_right _
      (OrderedMap.mem_entries_iff.2 (h.schemas k v (OrderedMap.mem_entries_iff.1 he)))

end Extends

theorem extends_useType (moduleOf : String → String) (b : MessageBindings) (r : MessageRef) :
    Extends b (b.useType moduleOf r) := by
  cases hr : b.types.contains r.fullName with
  | true =>
    rw [useType_of_bound hr]
    exact ⟨fun _ _ => id, fun _ _ => id⟩
  | false =>
    rw [useType_of_new hr]
    exact ⟨fun _ _ => OrderedMap.get?_insert_of_new hr, fun _ _ => id⟩

theorem extends_useSchema (b : MessageBindings) (r : MessageRef) :
    Extends b (b.useSchema r) := by
  cases hr : b.schemas.contains r.fullName with
  | true =>
    rw [useSchema_of_bound hr]
    exact Extends.refl b
  | false =>
    rw [useSchema_of_new hr]
    exact ⟨fun _ _ => id, fun _ _ => OrderedMap.get?_insert_of_new hr⟩

theorem extends_useHandles (moduleOf : String → String) (b : MessageBindings) (hs : List Handle) :
    Extends b (hs.foldl (useHandle moduleOf) b) := by
  induction hs generalizing b with
  | nil => exact Extends.refl b
  | cons hd hs ih =>
    have htypes := (extends_useType moduleOf b hd.method.input).trans
      (extends_useType moduleOf _ hd.method.output)
    have hfirst : Extends b (useHandle moduleOf b hd) :=
      htypes.trans (extends_useSchema _ hd.method.output)
    exact hfirst.trans (ih _)

/-! ## Two scopes -/

/-- `b'` binds what `b` binds, in a scope in which the names of `more` are taken as well. -/
structure Widened (more : List String) (b b' : MessageBindings) : Prop where
  types : b'.types = b.types
  schemas : b'.schemas = b.schemas
  taken : ∀ name, name ∈ b'.scope.taken ↔ name ∈ b.scope.taken ∨ name ∈ more

namespace Widened

variable {more : List String}

theorem typeName (h : Widened more b b') (r : MessageRef) : b'.typeName r = b.typeName r := by
  rw [MessageBindings.typeName, h.types, MessageBindings.typeName]

/-- A claim is answered alike, and the scopes differ as before. -/
theorem claim (h : Widened more b b') {wanted : String}
    (hfree : (b.scope.claim wanted).1 ∉ more) :
    (b'.scope.claim wanted).1 = (b.scope.claim wanted).1 ∧
      ∀ name, name ∈ (b'.scope.claim wanted).2.taken ↔
        name ∈ (b.scope.claim wanted).2.taken ∨ name ∈ more := by
  have hsub : b.scope.taken ⊆ b'.scope.taken := fun name hname => (h.taken name).2 (.inl hname)
  have hclaim : (b'.scope.claim wanted).1 = (b.scope.claim wanted).1 := by
    refine Scope.firstFree_of_subset hsub fun hmem => ?_
    exact ((h.taken _).1 hmem).elim (b.scope.claim_not_mem wanted) hfree
  refine ⟨hclaim, fun name => ?_⟩
  rw [Scope.taken_claim, Scope.taken_claim, List.mem_cons, List.mem_cons, hclaim, h.taken, or_assoc]

theorem useType (h : Widened more b b') {r : MessageRef}
    (hfree : ∀ name ∈ (b.useType moduleOf r).boundNames, name ∉ more) :
    Widened more (b.useType moduleOf r) (b'.useType moduleOf r) := by
  have hsame := congrArg (OrderedMap.contains · r.fullName) h.types
  cases hr : b.types.contains r.fullName with
  | true =>
    rw [useType_of_bound hr, useType_of_bound (hsame.trans hr)]
    exact ⟨h.types, h.schemas, h.taken⟩
  | false =>
    rw [useType_of_new hr] at hfree ⊢
    rw [useType_of_new (hsame.trans hr)]
    have hbound : (b.scope.claim r.localName).1 ∉ more := hfree _ <| by
      simp [boundNames, OrderedMap.entries_insert_of_new hr]
    obtain ⟨hclaim, htaken⟩ := h.claim hbound
    refine ⟨?_, h.schemas, htaken⟩
    dsimp only
    rw [hclaim, h.types]

theorem useSchema (h : Widened more b b') {r : MessageRef}
    (hfree : ∀ name ∈ (b.useSchema r).boundNames, name ∉ more) :
    Widened more (b.useSchema r) (b'.useSchema r) := by
  have hsame := congrArg (OrderedMap.contains · r.fullName) h.schemas
  cases hr : b.schemas.contains r.fullName with
  | true =>
    rw [useSchema_of_bound hr, useSchema_of_bound (hsame.trans hr)]
    exact h
  | false =>
    rw [useSchema_of_new hr] at hfree ⊢
    rw [useSchema_of_new (hsame.trans hr), h.typeName]
    have hbound : (b.scope.claim (b.typeName r ++ "Schema")).1 ∉ more := hfree _ <| by
      simp [boundNames, OrderedMap.entries_insert_of_new hr]
    obtain ⟨hclaim, htaken⟩ := h.claim hbound
    refine ⟨h.types, ?_, htaken⟩
    dsimp only
    rw [hclaim, h.schemas]

/-- Two runs stay in step. What the first has bound on the way it still binds at the end. -/
theorem useHandles (h : Widened more b b') {hs : List Handle}
    (hfree : ∀ name ∈ (hs.foldl (useHandle moduleOf) b).boundNames, name ∉ more) :
    Widened more (hs.foldl (useHandle moduleOf) b) (hs.foldl (useHandle moduleOf) b') := by
  induction hs generalizing b b' with
  | nil => exact h
  | cons hd hs ih =>
    have hlater := extends_useHandles moduleOf (useHandle moduleOf b hd) hs
    have hschema := extends_useSchema
      ((b.useType moduleOf hd.method.input).useType moduleOf hd.method.output) hd.method.output
    have houtput := extends_useType moduleOf (b.useType moduleOf hd.method.input) hd.method.output
    refine ih (((h.useType ?_).useType ?_).useSchema ?_) hfree
    · exact fun name hname =>
        hfree name (((houtput.trans hschema).trans hlater).boundNames_subset hname)
    · exact fun name hname => hfree name ((hschema.trans hlater).boundNames_subset hname)
    · exact fun name hname => hfree name (hlater.boundNames_subset hname)

end Widened

/-! ## Bound messages -/

theorem mem_keys_useType {r : MessageRef} {k : String} :
    k ∈ (b.useType moduleOf r).types.keys ↔ k ∈ b.types.keys ∨ r.fullName = k := by
  cases hr : b.types.contains r.fullName with
  | true =>
    rw [useType_of_bound hr]
    exact (or_iff_left_of_imp fun hk => hk ▸ OrderedMap.contains_iff_mem_keys.1 hr).symm
  | false =>
    rw [useType_of_new hr]
    simp [OrderedMap.keys, OrderedMap.entries_insert_of_new hr, eq_comm]

theorem mem_keys_useSchema {r : MessageRef} {k : String} :
    k ∈ (b.useSchema r).schemas.keys ↔ k ∈ b.schemas.keys ∨ r.fullName = k := by
  cases hr : b.schemas.contains r.fullName with
  | true =>
    rw [useSchema_of_bound hr]
    exact (or_iff_left_of_imp fun hk => hk ▸ OrderedMap.contains_iff_mem_keys.1 hr).symm
  | false =>
    rw [useSchema_of_new hr]
    simp [OrderedMap.keys, OrderedMap.entries_insert_of_new hr, eq_comm]

@[simp] theorem schemas_useType (b : MessageBindings) (r : MessageRef) :
    (b.useType moduleOf r).schemas = b.schemas := by
  unfold useType
  split <;> rfl

@[simp] theorem types_useSchema (b : MessageBindings) (r : MessageRef) :
    (b.useSchema r).types = b.types := by
  unfold useSchema
  split <;> rfl

/-- A run binds the types of the messages that its handles take or return. -/
theorem mem_keys_types_useHandles {hs : List Handle} {k : String} :
    k ∈ (hs.foldl (useHandle moduleOf) b).types.keys ↔
      k ∈ b.types.keys ∨ ∃ r ∈ hs.flatMap (·.method.refs), r.fullName = k := by
  induction hs generalizing b with
  | nil => simp
  | cons hd hs ih =>
    rw [List.foldl_cons, ih, useHandle, types_useSchema, mem_keys_useType, mem_keys_useType,
      List.flatMap_cons]
    simp [Method.refs, or_and_right, exists_or, or_assoc]

/-- It binds the schemas of those that they return. -/
theorem mem_keys_schemas_useHandles {hs : List Handle} {k : String} :
    k ∈ (hs.foldl (useHandle moduleOf) b).schemas.keys ↔
      k ∈ b.schemas.keys ∨ ∃ r ∈ hs.map (·.method.output), r.fullName = k := by
  induction hs generalizing b with
  | nil => simp
  | cons hd hs ih =>
    rw [List.foldl_cons, ih, useHandle, mem_keys_useSchema, schemas_useType, schemas_useType,
      List.map_cons]
    simp [or_assoc]

end MessageBindings

/-! ## Appended plans -/

/-- The messages that the handles of `plans` take or return, in the order of their use. -/
def usedMessages (plans : List ManagerPlan) : List MessageRef :=
  (plans.flatMap (·.handles)).flatMap (·.method.refs)

/-- The messages that they return. -/
def createdMessages (plans : List ManagerPlan) : List MessageRef :=
  (plans.flatMap (·.handles)).map (·.method.output)

/-- The message called `fullName` is among `later` and not among `earlier`. -/
def FirstUsed (earlier later : List MessageRef) (fullName : String) : Prop :=
  (∃ r ∈ later, r.fullName = fullName) ∧ ∀ r ∈ earlier, r.fullName ≠ fullName

theorem exists_or_firstUsed {earlier later : List MessageRef} {k : String}
    (h : ∃ r ∈ earlier ++ later, r.fullName = k) :
    (∃ r ∈ earlier, r.fullName = k) ∨ FirstUsed earlier later k := by
  by_cases hearlier : ∃ r ∈ earlier, r.fullName = k
  · exact .inl hearlier
  · obtain ⟨r, hr, hname⟩ := h
    have hlater : r ∈ later :=
      (List.mem_append.1 hr).resolve_left fun hr => hearlier ⟨r, hr, hname⟩
    exact .inr ⟨⟨r, hlater, hname⟩, fun r' hr' hname' => hearlier ⟨r', hr', hname'⟩⟩

theorem usedMessages_append (plans more : List ManagerPlan) :
    usedMessages (plans ++ more) = usedMessages plans ++ usedMessages more := by
  simp [usedMessages]

theorem createdMessages_append (plans more : List ManagerPlan) :
    createdMessages (plans ++ more) = createdMessages plans ++ createdMessages more := by
  simp [createdMessages]

theorem declaredNames_append (plans more : List ManagerPlan) :
    declaredNames (plans ++ more) = declaredNames plans ++ declaredNames more :=
  List.flatMap_append

namespace MessageBindings

variable (moduleOf : String → String) (plans more : List ManagerPlan)

theorem mem_keys_types_ofPlans {k : String} :
    k ∈ (ofPlans moduleOf plans).types.keys ↔ ∃ r ∈ usedMessages plans, r.fullName = k :=
  mem_keys_types_useHandles.trans (or_iff_right List.not_mem_nil)

theorem mem_keys_schemas_ofPlans {k : String} :
    k ∈ (ofPlans moduleOf plans).schemas.keys ↔ ∃ r ∈ createdMessages plans, r.fullName = k :=
  mem_keys_schemas_useHandles.trans (or_iff_right List.not_mem_nil)

/-- No appended declaration takes away a name. -/
theorem extends_ofPlans
    (h : ∀ name ∈ (ofPlans moduleOf plans).boundNames, name ∉ declaredNames more) :
    Extends (ofPlans moduleOf plans) (ofPlans moduleOf (plans ++ more)) := by
  have hstart : Widened (declaredNames more) ⟨Scope.ofPlans plans, ∅, ∅, ∅⟩
      ⟨Scope.ofPlans (plans ++ more), ∅, ∅, ∅⟩ := by
    refine ⟨rfl, rfl, fun name => ?_⟩
    rw [Scope.mem_taken_ofPlans, Scope.mem_taken_ofPlans, declaredNames_append, List.mem_append]
  have hplans := hstart.useHandles h
  have hmore := extends_useHandles moduleOf
    ((plans.flatMap (·.handles)).foldl (useHandle moduleOf)
      ⟨Scope.ofPlans (plans ++ more), ∅, ∅, ∅⟩) (more.flatMap (·.handles))
  rw [← List.foldl_append, ← List.flatMap_append] at hmore
  refine ⟨fun k v hv => hmore.types k v ?_, fun k v hv => hmore.schemas k v ?_⟩
  · rw [hplans.types]
    exact hv
  · rw [hplans.schemas]
    exact hv

/-- A name that an appended declaration has is not that of a message any more. -/
theorem not_mem_declaredNames_of_extends
    (h : Extends (ofPlans moduleOf plans) (ofPlans moduleOf (plans ++ more))) :
    ∀ name ∈ (ofPlans moduleOf plans).boundNames, name ∉ declaredNames more := by
  intro name hbound hmore
  refine (clashFree_ofPlans moduleOf (plans ++ more)).apart name (h.boundNames_subset hbound) ?_
  rw [declaredNames_append]
  exact List.mem_append_right _ hmore

end MessageBindings

namespace TypeScript

/-- **Names when plans are appended.** When plans are appended to others, every message type and
every schema that was bound is bound to the same name, exactly when none of these names is that of
an appended manager or constructor. All other messages of the module are first used by what is
appended. -/
theorem appended_plans_keep_names (base : Location) (f : SourceFile) (c : Config)
    (plans more : List ManagerPlan) :
    let b := (names base f plans c).messages
    let b' := (names base f (plans ++ more) c).messages
    ((∀ name ∈ b.boundNames, name ∉ declaredNames more) ↔ b.Extends b') ∧
      (∀ k ∈ b'.types.keys, k ∈ b.types.keys ∨
        FirstUsed (usedMessages plans) (usedMessages more) k) ∧
      ∀ k ∈ b'.schemas.keys, k ∈ b.schemas.keys ∨
        FirstUsed (createdMessages plans) (createdMessages more) k := by
  intro b b'
  refine ⟨⟨MessageBindings.extends_ofPlans _ plans more,
    MessageBindings.not_mem_declaredNames_of_extends _ plans more⟩, fun k hk => ?_, fun k hk => ?_⟩
  · have hused := (MessageBindings.mem_keys_types_ofPlans _ (plans ++ more)).1 hk
    rw [usedMessages_append] at hused
    exact (exists_or_firstUsed hused).imp_left (MessageBindings.mem_keys_types_ofPlans _ plans).2
  · have hcreated := (MessageBindings.mem_keys_schemas_ofPlans _ (plans ++ more)).1 hk
    rw [createdMessages_append] at hcreated
    exact (exists_or_firstUsed hcreated).imp_left
      (MessageBindings.mem_keys_schemas_ofPlans _ plans).2

end TypeScript

end CacheGen
