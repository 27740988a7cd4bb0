import CacheGen.Proofs.Globals
import CacheGen.Proofs.Joined
import CacheGen.Proofs.ManagerCode
import CacheGen.Proofs.ManagerText
import CacheGen.Proofs.MapLookup
import CacheGen.Proofs.OneLine

/-!
# Names in a constructor

The function that constructs a manager binds the parameters that fill the caches, `options`, the
variables of the handles and `err`. The names of the parameters and those of the variables are made
from the same methods, each in its own way, and nothing tells the two ways apart: in a service
`UpdateCache`, the parameter of `CacheManager_Foo` and the variable of `FooFn` are both
`updateCacheManager_FooFn`. Such a service *crosses* its names.

In TypeScript the function also sees what the module imports. A variable may be called as the schema
of a message, since a schema without an alias is the name of a message with `Schema` behind it
(`Unaliased`, kept by each use of a message).

**Theorem (`constructor_names_nodup_iff`).** In either target the names of a constructor are pairwise
distinct exactly when those of the methods are and the service does not cross its names. In
TypeScript none of them hides what the function uses from outside, except that the variable of a
method whose name ends with `Schema` may hide a schema.
-/

namespace CacheGen

/-! ## Parameters and variables -/

namespace Naming

theorem handleField_eq (service method : String) : handleField service method =
    privateName (managerName service) ++ String.singleton '_' ++ method := rfl

theorem privateName_append {a : String} (h : a ≠ "") (b : String) :
    privateName (a ++ b) = privateName a ++ b := by
  obtain ⟨c, cs, ha⟩ := List.exists_cons_of_ne_nil (String.toList_eq_nil_iff.not.2 h)
  have hab : (a ++ b).toList = c :: (cs ++ b.toList) := by
    rw [String.toList_append, ha, List.cons_append]
  rw [privateName, privateName, Text.lowercaseFirst, Text.lowercaseFirst, ha, hab,
    ← String.toList_inj]
  simp

/-- **When a parameter is called as a variable.** -/
theorem updateParam_eq_handleField_iff {service m m' : String} :
    updateParam m = handleField service m' ↔ ∃ rest stem,
      privateName service = "update" ++ rest ∧ m = rest ++ "Manager_" ++ stem ∧
        m' = stem ++ "Fn" := by
  by_cases hne : service = ""
  · subst hne
    refine iff_of_false (fun h => ?_) fun ⟨rest, _, h, _⟩ => ?_
    · have hfirst := congrArg (fun s : String => s.toList.head?) h
      simp [updateParam, handleField_eq, managerName, privateName, Text.lowercaseFirst] at hfirst
    · have hfirst := congrArg (fun s : String => s.toList.head?) h
      simp [privateName, Text.lowercaseFirst] at hfirst
  · have hprivate : privateName (managerName service) = privateName service ++ "Manager" := by
      rw [managerName_of_ne hne, privateName_append hne]
    rw [handleField_eq, hprivate, updateParam]
    constructor
    · intro h
      obtain ⟨stem, hstem, rfl⟩ := Text.exists_stem_of_ending (by decide) h
      have hletter : "update" ++ m =
          privateName service ++ String.singleton 'M' ++ ("anager_" ++ stem) := by
        rw [hstem, ← String.toList_inj]
        simp
      obtain ⟨rest, hservice, rfl⟩ := Text.exists_rest_of_start (by decide) hletter
      refine ⟨rest, stem, hservice, ?_, rfl⟩
      rw [← String.toList_inj]
      simp
    · rintro ⟨rest, stem, hservice, rfl, rfl⟩
      rw [hservice, ← String.toList_inj]
      simp

/-- **When a variable is called as a schema.** -/
theorem handleField_eq_schema_iff {service m message : String} :
    handleField service m = message ++ "Schema" ↔
      ∃ stem, m = stem ++ "Schema" ∧ message = handleField service stem := by
  rw [handleField_eq]
  constructor
  · intro h
    obtain ⟨stem, hmessage, hm⟩ := Text.exists_stem_of_ending (by decide) h.symm
    exact ⟨stem, hm, hmessage⟩
  · rintro ⟨stem, rfl, rfl⟩
    exact String.append_assoc.symm

theorem updateParam_ne {name : String} (h : name.toList.head? ≠ some 'u') (m : String) :
    updateParam m ≠ name := by
  rintro rfl
  exact h (by simp [updateParam])

theorem getLast?_updateParam (m : String) : (updateParam m).toList.getLast? = some 'n' := by
  rw [updateParam, String.toList_append, List.getLast?_append]
  rfl

theorem handleField_ne {name : String} (h : '_' ∉ name.toList) (service m : String) :
    handleField service m ≠ name := by
  rintro rfl
  exact h (by simp [handleField_eq])

/-- A variable is longer than the name of the manager. -/
theorem handleField_ne_managerName {service : String} (h : IsIdentifier service) (m : String) :
    handleField service m ≠ managerName service := by
  obtain ⟨c, cs, hservice, -⟩ := h.exists_cons
  intro heq
  have hlength := congrArg (fun s : String => s.toList.length) heq
  rw [managerName_of_ne h.ne_empty, handleField_eq] at hlength
  simp only [String.toList_append, toList_privateName h hservice, hservice, List.length_append,
    List.length_cons] at hlength
  simp at hlength
  omega

/-- There is no dollar sign in a name that is made of identifiers. -/
theorem dollar_not_mem_handleField {service m : String} (h : IsIdentifier service)
    (hm : IsIdentifier m) : '$' ∉ (handleField service m).toList := by
  rw [handleField_eq, String.toList_append, String.toList_append, List.mem_append,
    List.mem_append]
  rintro ((hdollar | hdollar) | hdollar)
  · exact absurd (isIdentifierChar_of_mem_privateName h _ hdollar) (by decide)
  · exact absurd hdollar (by decide)
  · exact absurd (hm.chars _ hdollar) (by decide)

theorem dollar_not_mem_updateParam {m : String} (hm : IsIdentifier m) :
    '$' ∉ (updateParam m).toList := by
  rw [updateParam, String.toList_append, String.toList_append, List.mem_append, List.mem_append]
  rintro ((hdollar | hdollar) | hdollar)
  · exact absurd hdollar (by decide)
  · exact absurd (hm.chars _ hdollar) (by decide)
  · exact absurd hdollar (by decide)

end Naming

/-! ## The scope of a constructor -/

/-- The names that the constructor binds: its parameters, its variables and an error. -/
def ManagerCode.constructorScope {φ : Type} (k : ManagerCode φ) : List String :=
  k.params.map Slot.name ++ ["options"] ++ k.constructions.map Construction.holder ++ ["err"]

namespace Service

variable (s : Service)

/-- There are two methods such that the parameter of one is called as the variable of the other. -/
def Crosses : Prop :=
  ∃ rest stem, Naming.privateName s.name = "update" ++ rest ∧
    rest ++ "Manager_" ++ stem ∈ s.methods.map Method.name ∧
    stem ++ "Fn" ∈ s.methods.map Method.name

theorem crosses_iff : s.Crosses ↔ ∃ m ∈ s.methods, ∃ m' ∈ s.methods,
    Naming.updateParam m.name = Naming.handleField s.name m'.name := by
  simp only [Crosses, Naming.updateParam_eq_handleField_iff, List.mem_map]
  constructor
  · rintro ⟨rest, stem, hservice, ⟨m, hm, hname⟩, m', hm', hname'⟩
    exact ⟨m, hm, m', hm', rest, stem, hservice, hname, hname'⟩
  · rintro ⟨m, hm, m', hm', rest, stem, hservice, hname, hname'⟩
    exact ⟨rest, stem, hservice, ⟨m, hm, hname⟩, m', hm', hname'⟩

instance : Decidable s.Crosses := decidable_of_iff _ s.crosses_iff.symm

end Service

section

variable (sp : Spelling) {φ : Type} (fill : List Handle → φ) (s : Service)

theorem constructorScope_ofService :
    (ManagerCode.ofPlan sp fill (.ofService s)).constructorScope =
      (s.methods.map fun m => Naming.updateParam m.name) ++ ["options"] ++
        (s.methods.map fun m => Naming.handleField s.name m.name) ++ ["err"] := by
  rw [ManagerCode.constructorScope, ManagerCode.map_name_params,
    ManagerCode.map_holder_constructions, ManagerPlan.ofService, List.map_map, List.map_map]
  rfl

theorem mem_constructorScope_iff {name : String} :
    name ∈ (ManagerCode.ofPlan sp fill (.ofService s)).constructorScope ↔
      (∃ m ∈ s.methods, name = Naming.updateParam m.name) ∨ name = "options" ∨
        (∃ m ∈ s.methods, name = Naming.handleField s.name m.name) ∨ name = "err" := by
  rw [constructorScope_ofService]
  simp only [List.mem_append, List.mem_map, List.mem_singleton, or_assoc, eq_comm (b := name)]

/-- **When the names are distinct.** -/
theorem nodup_constructorScope_iff :
    (ManagerCode.ofPlan sp fill (.ofService s)).constructorScope.Nodup ↔
      (s.methods.map Method.name).Nodup ∧ ¬ s.Crosses := by
  have hparams : (s.methods.map fun m => Naming.updateParam m.name).Nodup ↔
      (s.methods.map Method.name).Nodup :=
    nodup_map_comp_iff Naming.updateParam_injective Method.name s.methods
  have hfields : (s.methods.map fun m => Naming.handleField s.name m.name).Nodup ↔
      (s.methods.map Method.name).Nodup :=
    nodup_map_comp_iff (Naming.handleField_injective s.name) Method.name s.methods
  have happart : (∀ p ∈ s.methods.map fun m => Naming.updateParam m.name,
      ∀ v ∈ s.methods.map fun m => Naming.handleField s.name m.name, p ≠ v) ↔ ¬ s.Crosses := by
    rw [s.crosses_iff]
    simp only [List.forall_mem_map, not_exists, not_and, ne_eq]
  have hfixed : ∀ fixed ∈ ["options", "err"],
      fixed ∉ (s.methods.map fun m => Naming.updateParam m.name) ++
        s.methods.map fun m => Naming.handleField s.name m.name := by
    intro fixed hmem
    have hall : ∀ f ∈ ["options", "err"], f.toList.head? ≠ some 'u' ∧ '_' ∉ f.toList := by decide
    obtain ⟨hletter, hmark⟩ := hall fixed hmem
    rw [List.mem_append, List.mem_map, List.mem_map]
    rintro (⟨m, -, hm⟩ | ⟨m, -, hm⟩)
    · exact Naming.updateParam_ne hletter m.name hm
    · exact Naming.handleField_ne hmark s.name m.name hm
  rw [constructorScope_ofService]
  generalize (s.methods.map fun m => Naming.updateParam m.name) = params,
    (s.methods.map fun m => Naming.handleField s.name m.name) = fields
    at hparams hfields happart hfixed ⊢
  have hperm : (params ++ ["options"] ++ fields ++ ["err"]).Perm
      ("err" :: "options" :: (params ++ fields)) := by
    rw [List.append_assoc params]
    exact (List.perm_append_singleton "err" _).trans (List.perm_middle.cons "err")
  have herr : "err" ∉ "options" :: (params ++ fields) := by
    rw [List.mem_cons, not_or]
    exact ⟨by decide, hfixed "err" (by decide)⟩
  rw [hperm.nodup_iff, List.nodup_cons, List.nodup_cons, and_iff_right herr,
    and_iff_right (hfixed "options" (by decide)), List.nodup_append, hparams, hfields, happart,
    ← and_assoc, and_self_iff]

end

/-! ## Names without an alias -/

namespace MessageBindings

/-- Without an alias, a type is bound to the name of the message and a schema to that with `Schema`
behind it. -/
structure Unaliased (rs : List MessageRef) (b : MessageBindings) : Prop where
  types : ∀ k v, b.types.get? k = some v → '$' ∉ v.bound.toList →
    ∃ r ∈ rs, r.fullName = k ∧ v.bound = r.localName
  schemas : ∀ k v, b.schemas.get? k = some v → '$' ∉ v.bound.toList →
    ∃ r ∈ rs, r.fullName = k ∧ v.bound = r.localName ++ "Schema"

namespace Unaliased

variable {rs : List MessageRef} {b : MessageBindings} {moduleOf : String → String} {r : MessageRef}

theorem mono {rs' : List MessageRef} (h : Unaliased rs b) (hsub : rs ⊆ rs') : Unaliased rs' b := by
  refine ⟨fun k v hv hname => ?_, fun k v hv hname => ?_⟩
  · obtain ⟨r, hr, hbound⟩ := h.types k v hv hname
    exact ⟨r, hsub hr, hbound⟩
  · obtain ⟨r, hr, hbound⟩ := h.schemas k v hv hname
    exact ⟨r, hsub hr, hbound⟩

theorem typeName (h : Unaliased rs b) (hr : r ∈ rs) (hname : '$' ∉ (b.typeName r).toList) :
    ∃ r' ∈ rs, r'.fullName = r.fullName ∧ b.typeName r = r'.localName := by
  unfold MessageBindings.typeName at hname ⊢
  split at hname
  · next v hv => exact h.types r.fullName v hv hname
  · exact ⟨r, hr, rfl, rfl⟩

/-- What is wanted for a schema is the name of a message, if it has no alias. -/
theorem schemaWanted (h : Unaliased rs b) (hr : r ∈ rs) {name : String} (hname : '$' ∉ name.toList)
    (hwanted : b.typeName r ++ "Schema" = name) :
    ∃ r' ∈ rs, r'.fullName = r.fullName ∧ name = r'.localName ++ "Schema" := by
  subst hwanted
  rw [String.toList_append, List.mem_append, not_or] at hname
  obtain ⟨r', hr', hk, htype⟩ := h.typeName hr hname.1
  exact ⟨r', hr', hk, by rw [htype]⟩

theorem schemaName (h : Unaliased rs b) (hr : r ∈ rs) (hname : '$' ∉ (b.schemaName r).toList) :
    ∃ r' ∈ rs, r'.fullName = r.fullName ∧ b.schemaName r = r'.localName ++ "Schema" := by
  unfold MessageBindings.schemaName at hname ⊢
  split at hname
  · next v hv => exact h.schemas r.fullName v hv hname
  · exact h.schemaWanted hr hname rfl

theorem useType (h : Unaliased rs b) (r : MessageRef) :
    Unaliased (rs ++ [r]) (b.useType moduleOf r) := by
  have hmono := h.mono (List.subset_append_left rs [r])
  cases hr : b.types.contains r.fullName with
  | true =>
    rw [useType_of_bound hr]
    exact ⟨hmono.types, hmono.schemas⟩
  | false =>
    rw [useType_of_new hr]
    refine ⟨OrderedMap.forall_get?_insert hmono.types fun hname => ?_, hmono.schemas⟩
    exact ⟨r, by simp, rfl, (Scope.eq_of_claim hname rfl).symm⟩

theorem useSchema (h : Unaliased rs b) (hr : r ∈ rs) : Unaliased rs (b.useSchema r) := by
  cases hbound : b.schemas.contains r.fullName with
  | true => rwa [useSchema_of_bound hbound]
  | false =>
    rw [useSchema_of_new hbound]
    refine ⟨h.types, OrderedMap.forall_get?_insert h.schemas fun hname => ?_⟩
    exact h.schemaWanted hr hname (Scope.eq_of_claim hname rfl)

theorem useHandle (h : Unaliased rs b) (hd : Handle) :
    Unaliased (rs ++ hd.method.refs) (MessageBindings.useHandle moduleOf b hd) := by
  have hsplit : rs ++ hd.method.refs = rs ++ [hd.method.input] ++ [hd.method.output] :=
    List.append_cons rs hd.method.input [hd.method.output]
  rw [hsplit]
  exact ((h.useType _).useType _).useSchema (by simp)

theorem useHandles (h : Unaliased rs b) (hs : List Handle) :
    Unaliased (rs ++ hs.flatMap (·.method.refs))
      (hs.foldl (MessageBindings.useHandle moduleOf) b) := by
  induction hs generalizing b rs with
  | nil => simpa using h
  | cons hd hs ih =>
    rw [List.flatMap_cons, ← List.append_assoc, List.foldl_cons]
    exact ih (h.useHandle hd)

end Unaliased

theorem unaliased_ofServices (moduleOf : String → String) (services : List Service) :
    Unaliased (services.flatMap Service.refs)
      (MessageBindings.ofPlans moduleOf (services.map ManagerPlan.ofService)) := by
  have hstart : Unaliased [] ⟨Scope.ofPlans (services.map ManagerPlan.ofService), ∅, ∅, ∅⟩ :=
    ⟨fun _ _ h => (nomatch h), fun _ _ h => (nomatch h)⟩
  rw [← refs_ofServices]
  exact hstart.useHandles _

end MessageBindings

/-- So are the runtime symbols. -/
theorem RuntimeNames.eq_of_claim {hasHandles : Bool} {s : Scope} {name : String}
    (hname : '$' ∉ name.toList) :
    ((RuntimeNames.claim hasHandles s).create = name → name = "create") ∧
      ((RuntimeNames.claim hasHandles s).newCacheManager = name → name = "newCacheManager") := by
  cases hasHandles with
  | false => exact ⟨Eq.symm, Eq.symm⟩
  | true =>
    exact ⟨fun h => (Scope.eq_of_claim hname h).symm, fun h => (Scope.eq_of_claim hname h).symm⟩

/-! ## What a constructor hides -/

section

variable {sp : Spelling} {φ : Type} {fill : List Handle → φ} {s : Service} {name : String}
  (hname : name ∈ (ManagerCode.ofPlan sp fill (.ofService s)).constructorScope)

include hname

theorem ne_of_mem_constructorScope {value : String}
    (hvalue : value ∈ ["create", "newCacheManager"]) : name ≠ value := by
  have hall : ∀ v ∈ ["create", "newCacheManager"], v.toList.head? ≠ some 'u' ∧
      '_' ∉ v.toList ∧ v ∉ ["options", "err"] := by
    decide
  obtain ⟨hletter, hmark, hfixed⟩ := hall value hvalue
  rcases (mem_constructorScope_iff sp fill s).1 hname with ⟨m, hm, rfl⟩ | rfl | ⟨m, hm, rfl⟩ | rfl
  · exact Naming.updateParam_ne hletter m.name
  · exact fun heq => hfixed (heq ▸ List.mem_cons_self)
  · exact Naming.handleField_ne hmark s.name m.name
  · exact fun heq => hfixed (heq ▸ List.mem_cons_of_mem _ List.mem_cons_self)

/-- Of the names in a constructor, only a variable may be called as a schema. -/
theorem exists_stem_of_mem_constructorScope {message : String} (h : name = message ++ "Schema") :
    ∃ stem, ∃ m ∈ s.methods, m.name = stem ++ "Schema" ∧
      name = Naming.handleField s.name m.name ∧ message = Naming.handleField s.name stem := by
  have hlast : name.toList.getLast? = some 'a' := by
    rw [h]
    simp
  rcases (mem_constructorScope_iff sp fill s).1 hname with ⟨m, hm, rfl⟩ | rfl | ⟨m, hm, rfl⟩ | rfl
  · rw [Naming.getLast?_updateParam] at hlast
    exact absurd hlast (by decide)
  · exact absurd hlast (by decide)
  · obtain ⟨stem, hstem, hmessage⟩ := Naming.handleField_eq_schema_iff.1 h
    exact ⟨stem, m, hm, hstem, rfl, hmessage⟩
  · exact absurd hlast (by decide)

variable (hservice : Naming.IsIdentifier s.name)

include hservice

theorem ne_managerName_of_mem_constructorScope : name ≠ Naming.managerName s.name := by
  have hmanager : 'M' ∈ (Naming.managerName s.name).toList ∧
      (Naming.managerName s.name).toList.getLast? = some 'r' := by
    rw [Naming.managerName_of_ne hservice.ne_empty, String.toList_append, List.getLast?_append]
    exact ⟨List.mem_append_right _ (by decide), rfl⟩
  rcases (mem_constructorScope_iff sp fill s).1 hname with ⟨m, hm, rfl⟩ | rfl | ⟨m, hm, rfl⟩ | rfl
  · intro heq
    rw [← heq, Naming.getLast?_updateParam] at hmanager
    exact absurd hmanager.2 (by decide)
  · intro heq
    rw [← heq] at hmanager
    exact absurd hmanager.1 (by decide)
  · exact Naming.handleField_ne_managerName hservice m.name
  · intro heq
    rw [← heq] at hmanager
    exact absurd hmanager.1 (by decide)

variable (hmethods : ∀ m ∈ s.methods, Naming.IsIdentifier m.name)

include hmethods

theorem dollar_not_mem_of_mem_constructorScope : '$' ∉ name.toList := by
  rcases (mem_constructorScope_iff sp fill s).1 hname with ⟨m, hm, rfl⟩ | rfl | ⟨m, hm, rfl⟩ | rfl
  · exact Naming.dollar_not_mem_updateParam (hmethods m hm)
  · decide
  · exact Naming.dollar_not_mem_handleField hservice (hmethods m hm)
  · decide

end

/-- **Names in constructors.** The code of the manager of a service stands in the file of either
target. The names that its constructor binds are pairwise distinct if and only if those of the
methods are, as the target spells them, and the service does not cross its names. In TypeScript, for
a service and methods called by identifiers, none of them is the local name of `create`, of
`newCacheManager` or of the manager; and one of them is that of the schema of a message that the
service returns only if it is the variable of a method called `<stem>Schema`, and the message is
called as the variable of a method `<stem>` would be. -/
theorem constructor_names_nodup_iff (s : Service) :
    (∀ (f : SourceFile) (plans : List ManagerPlan) (c : Config),
      let renamed := Go.renameService s
      let p := ManagerPlan.ofService renamed
      let k := Go.code p
      p ∈ plans →
        Go.print k <:+: Go.lines f plans c ∧
        (k.constructorScope.Nodup ↔
          (renamed.methods.map Method.name).Nodup ∧ ¬ renamed.Crosses)) ∧
    ∀ (base : Location) (f : SourceFile) (services : List Service) (c : Config), s ∈ services →
      let plans := services.map ManagerPlan.ofService
      let n := TypeScript.names base f plans c
      let k := TypeScript.code n (ManagerPlan.ofService s)
      TypeScript.print n.runtime k <:+: TypeScript.lines base f plans c ∧
      (k.constructorScope.Nodup ↔ (s.methods.map Method.name).Nodup ∧ ¬ s.Crosses) ∧
      (Naming.IsIdentifier s.name → (∀ m ∈ s.methods, Naming.IsIdentifier m.name) →
        ∀ name ∈ k.constructorScope,
          name ∉ [n.runtime.create, n.runtime.newCacheManager, k.managerName] ∧
          ∀ o ∈ s.outputs, name = n.messages.schemaName o →
            ∃ stem, (∃ m ∈ s.methods, m.name = stem ++ "Schema" ∧
                name = Naming.handleField s.name m.name) ∧
              ∃ r ∈ services.flatMap Service.refs, r.fullName = o.fullName ∧
                r.localName = Naming.handleField s.name stem) := by
  refine ⟨?go, ?typeScript⟩
  case go =>
    intro f plans c renamed p k hp
    constructor
    · rw [Go.print_code]
      exact Go.managerLines_infix_lines f c hp
    · exact nodup_constructorScope_iff Go.spelling _ renamed
  case typeScript =>
    intro base f services c hs plans n k
    refine ⟨?_, nodup_constructorScope_iff _ _ s, fun hservice hmethods name hmem => ?_⟩
    · rw [TypeScript.print_code]
      exact TypeScript.managerLines_infix_lines base f c (List.mem_map_of_mem hs)
    have hdollar := dollar_not_mem_of_mem_constructorScope hmem hservice hmethods
    constructor
    · obtain ⟨hcreate, hnew⟩ := RuntimeNames.eq_of_claim hdollar
      rw [List.mem_cons, List.mem_cons, List.mem_singleton]
      rintro (heq | heq | heq)
      · exact ne_of_mem_constructorScope hmem (by decide) (hcreate heq.symm)
      · exact ne_of_mem_constructorScope hmem (by decide) (hnew heq.symm)
      · exact ne_managerName_of_mem_constructorScope hmem hservice heq
    · intro o ho hschema
      have hunaliased := MessageBindings.unaliased_ofServices
        (fun file => messageModule base (TypeScript.fileName f) file c.importExtension) services
      have hused : o ∈ services.flatMap Service.refs :=
        List.mem_flatMap.2 ⟨s, hs, s.outputs_subset_refs ho⟩
      rw [hschema] at hdollar
      obtain ⟨r, hr, hfull, hbound⟩ := hunaliased.schemaName hused hdollar
      obtain ⟨stem, m, hm, hstem, hvariable, hmessage⟩ :=
        exists_stem_of_mem_constructorScope hmem (hschema.trans hbound)
      exact ⟨stem, ⟨m, hm, hstem, hvariable⟩, r, hr, hfull, hmessage⟩

/-- A service of this name with methods of these names, each of which returns `message`. -/
def serviceOf (name message : String) (methods : List String) : Service where
  name := name
  methods := methods.map fun method =>
    ⟨method, name, ref "Key", ref message, none, false, false⟩
  leadingComment := none
where
  ref (name : String) : MessageRef := ⟨"shop." ++ name, name, name, "shop.proto"⟩

theorem constructor_names_nodup_iff_updates :
    let s := serviceOf "UpdateCache" "Order" ["FindFn", "Manager_Find"]
    let n := TypeScript.names .root default [ManagerPlan.ofService s] {}
    (Go.code (.ofService (Go.renameService s))).constructorScope.Nodup ∧
      (TypeScript.code n (.ofService s)).constructorScope.Nodup ∧
      "updateCacheManager_FindFn" ∉ [n.runtime.create, n.runtime.newCacheManager,
        Naming.managerName s.name] := by
  intro s n
  obtain ⟨hgo, hts⟩ := constructor_names_nodup_iff s
  have hservice : Naming.IsIdentifier s.name := by decide
  have hmethods : ∀ m ∈ s.methods, Naming.IsIdentifier m.name := by decide
  have hvariable : "updateCacheManager_FindFn" ∈
      (TypeScript.code n (.ofService s)).constructorScope := by
    decide +kernel
  have hone := hgo default [.ofService (Go.renameService s)] {} List.mem_cons_self
  have htwo := hts .root default [s] {} List.mem_cons_self
  exact ⟨hone.2.2 (by decide +kernel), htwo.2.1.2 (by decide +kernel),
    (htwo.2.2 hservice hmethods _ hvariable).1⟩

/-- Methods with names of their own are not enough. In either target a parameter may be called as a
variable; in Go two methods may be spelled alike without that; and in TypeScript a variable may be
called as a schema. -/
theorem constructor_names_clash :
    (¬ ∀ s : Service, Naming.IsIdentifier s.name →
      (∀ m ∈ s.methods, Naming.IsIdentifier m.name) → (s.methods.map Method.name).Nodup →
      (Go.code (.ofService (Go.renameService s))).constructorScope.Nodup) ∧
    (¬ ∀ s : Service, Naming.IsIdentifier s.name →
      (∀ m ∈ s.methods, Naming.IsIdentifier m.name) → (s.methods.map Method.name).Nodup →
      ¬ (Go.renameService s).Crosses →
      (Go.code (.ofService (Go.renameService s))).constructorScope.Nodup) ∧
    (¬ ∀ s : Service, Naming.IsIdentifier s.name →
      (∀ m ∈ s.methods, Naming.IsIdentifier m.name) → (s.methods.map Method.name).Nodup →
      ∀ n, (TypeScript.code n (.ofService s)).constructorScope.Nodup) ∧
    ¬ ∀ s : Service, Naming.IsIdentifier s.name →
      (∀ m ∈ s.methods, Naming.IsIdentifier m.name) → (s.methods.map Method.name).Nodup →
      let n := TypeScript.names .root default [ManagerPlan.ofService s] {}
      ∀ name ∈ (TypeScript.code n (.ofService s)).constructorScope, ∀ o ∈ s.outputs,
        name ≠ n.messages.schemaName o := by
  refine ⟨fun hall => ?_, fun hall => ?_, fun hall => ?_, fun hall => ?_⟩
  · have hclash := hall (serviceOf "UpdateCache" "Order" ["FooFn", "CacheManager_Foo"]) (by decide)
      (by decide) (by decide)
    exact absurd hclash (by decide +kernel)
  · have hclash := hall (serviceOf "OrderCache" "Order" ["get_order", "GetOrder"]) (by decide)
      (by decide) (by decide) (by decide +kernel)
    exact absurd hclash (by decide +kernel)
  · have hclash := hall (serviceOf "UpdateCache" "Order" ["FooFn", "CacheManager_Foo"]) (by decide)
      (by decide) (by decide) (TypeScript.names .root default [] {})
    exact absurd hclash (by decide +kernel)
  · have hhides := hall (serviceOf "OrderCache" "orderCacheManager_Foo" ["FooSchema"]) (by decide)
      (by decide) (by decide) "orderCacheManager_FooSchema" (by decide +kernel)
      (serviceOf.ref "orderCacheManager_Foo") (by decide)
    exact hhides (by decide +kernel)

end CacheGen
