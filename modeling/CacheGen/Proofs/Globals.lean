import CacheGen.Proofs.DerivedNames
import CacheGen.Proofs.ImportUse

/-!
# Names that are taken for granted

Generated TypeScript uses three names that it neither declares nor imports: a constructor function
throws an `Error` and puts the cause into words by `String`, and a wrapper returns a `Promise`. The
scope of a module does not know of them.

**Foreign names.** The names in a scope are declared names, names of messages and of their schemas,
runtime symbols, and aliases, which have a dollar sign. A name that could only be that of a message
is taken exactly when it is declared or a message is imported that has it (`Tells`, kept by each use of
a message). The names taken for granted are such names.

**Theorem (`global_captured_iff`).** One of them is bound in the module of some services exactly when
a method takes or returns a message of that name. There the code means the message.
-/

namespace CacheGen

/-! ## Foreign names -/

/-- The name is not an alias, not that of a schema and not that of a runtime symbol. -/
structure IsForeign (name : String) : Prop where
  noAlias : '$' ∉ name.toList
  noSchema : Text.endsWith name "Schema" = false
  noRuntime : name ∉ ModuleNames.runtimeSymbols

instance (name : String) : Decidable (IsForeign name) :=
  decidable_of_iff ('$' ∉ name.toList ∧ Text.endsWith name "Schema" = false ∧
      name ∉ ModuleNames.runtimeSymbols)
    ⟨fun ⟨h, h', h''⟩ => ⟨h, h', h''⟩, fun ⟨h, h', h''⟩ => ⟨h, h', h''⟩⟩

section

variable {name : String}

/-! ## Claims -/

namespace Scope

/-- A name without a dollar sign is handed out to those who want it. -/
theorem eq_of_claim {s : Scope} {wanted : String} (hname : '$' ∉ name.toList)
    (h : (s.claim wanted).1 = name) : wanted = name := by
  obtain ⟨n, -, hclaim, -, -⟩ := firstFree_spec s wanted
  have hcandidate : candidate wanted n = name := hclaim.symm.trans h
  cases n with
  | zero => exact hcandidate
  | succ n =>
    refine absurd ?_ hname
    rw [← hcandidate]
    simp [candidate]

/-- It is taken from then on, by them or by who was first. -/
theorem mem_taken_claim {s : Scope} {wanted : String} (hname : '$' ∉ name.toList) :
    name ∈ (s.claim wanted).2.taken ↔ name ∈ s.taken ∨ wanted = name := by
  rw [taken_claim, List.mem_cons]
  constructor
  · rintro (h | h)
    · exact Or.inr (eq_of_claim hname h.symm)
    · exact Or.inl h
  · rintro (h | rfl)
    · exact Or.inr h
    · obtain ⟨n, -, hclaim, -, hbefore⟩ := firstFree_spec s wanted
      cases n with
      | zero => exact Or.inl hclaim.symm
      | succ n => exact Or.inr (hbefore 0 n.succ_pos)

theorem mem_of_mem_claimAll {wanted : List String} (hname : '$' ∉ name.toList) {s : Scope}
    (h : name ∈ s.claimAll wanted) : name ∈ wanted := by
  induction wanted generalizing s with
  | nil => exact absurd h List.not_mem_nil
  | cons w ws ih =>
    rcases List.mem_cons.1 h with h | h
    · exact List.mem_cons.2 (Or.inl (eq_of_claim hname h.symm).symm)
    · exact List.mem_cons_of_mem w (ih h)

end Scope

/-! ## Uses of messages -/

namespace MessageBindings

variable {reserved : List String} {b : MessageBindings} {moduleOf : String → String}

/-- The message types that are bound, by the names they are exported under. -/
def exportedTypes (b : MessageBindings) : List String := b.types.entries.map (·.2.exported)

/-- That `name` is taken tells that it is reserved or that a message has it. -/
def Tells (name : String) (reserved : List String) (b : MessageBindings) : Prop :=
  name ∈ b.scope.taken ↔ name ∈ reserved ∨ name ∈ b.exportedTypes

theorem Tells.useType (hname : IsForeign name) (h : Tells name reserved b) (r : MessageRef) :
    Tells name reserved (b.useType moduleOf r) := by
  cases hr : b.types.contains r.fullName with
  | true =>
    rw [useType_of_bound hr]
    exact h
  | false =>
    rw [useType_of_new hr]
    simp only [Tells, exportedTypes, Scope.mem_taken_claim hname.noAlias,
      OrderedMap.entries_insert_of_new hr, List.map_append, List.mem_append, List.map_singleton,
      List.mem_singleton, ← or_assoc, @eq_comm _ name]
    exact or_congr_left h

/-- The name of a schema ends in a way that the name does not. -/
theorem Tells.useSchema (hname : IsForeign name) (h : Tells name reserved b) (r : MessageRef) :
    Tells name reserved (b.useSchema r) := by
  cases hr : b.schemas.contains r.fullName with
  | true =>
    rw [useSchema_of_bound hr]
    exact h
  | false =>
    rw [useSchema_of_new hr]
    have hschema : b.typeName r ++ "Schema" ≠ name := by
      rintro rfl
      have hend : Text.endsWith (b.typeName r ++ "Schema") "Schema" = true :=
        Text.endsWith_iff.2 (by simp)
      rw [hname.noSchema] at hend
      cases hend
    exact (Scope.mem_taken_claim hname.noAlias).trans ((or_iff_left hschema).trans h)

theorem Tells.useHandles (hname : IsForeign name) (h : Tells name reserved b) (hs : List Handle) :
    Tells name reserved (hs.foldl (useHandle moduleOf) b) := by
  induction hs generalizing b with
  | nil => exact h
  | cons hd hs ih =>
    exact ih (((h.useType hname hd.method.input).useType hname hd.method.output).useSchema hname _)

theorem tells_ofPlans (hname : IsForeign name) (moduleOf : String → String)
    (plans : List ManagerPlan) :
    Tells name (declaredNames plans) (MessageBindings.ofPlans moduleOf plans) := by
  have hstart : Tells name (declaredNames plans) ⟨Scope.ofPlans plans, ∅, ∅, ∅⟩ :=
    (Scope.mem_taken_ofPlans plans name).trans (or_iff_left List.not_mem_nil).symm
  exact hstart.useHandles hname _

end MessageBindings

/-! ## The scope of a module -/

namespace TypeScript

/-- The names that are bound in the module for `plans`: those imported and those declared. -/
def moduleScope (base : Location) (f : SourceFile) (plans : List ManagerPlan) (c : Config) :
    List String :=
  localNames (imports (names base f plans c) c.tsRuntimeModule) ++ declaredNames plans

/-- A foreign name is bound where it is declared or imported as that of a message. -/
theorem mem_moduleScope_iff (hname : IsForeign name) (base : Location) (f : SourceFile)
    (plans : List ManagerPlan) (c : Config) :
    name ∈ moduleScope base f plans c ↔
      name ∈ declaredNames plans ∨ name ∈ (names base f plans c).messages.exportedTypes := by
  obtain ⟨wanted, hwanted, hruntime⟩ := ModuleNames.runtimeNames_ofPlans
    (fun file => messageModule base (fileName f) file c.importExtension) plans
  have hnone : name ∉ (names base f plans c).runtimeNames := fun h =>
    hname.noRuntime (hwanted (Scope.mem_of_mem_claimAll hname.noAlias (hruntime ▸ h)))
  have hclash := MessageBindings.clashFree_ofPlans
    (fun file => messageModule base (fileName f) file c.importExtension) plans
  rw [moduleScope, List.mem_append, (localNames_imports_perm _ _).mem_iff, ModuleNames.boundNames,
    List.mem_append, or_iff_left hnone]
  exact (hclash.taken name).symm.trans (MessageBindings.tells_ofPlans hname _ plans)

end TypeScript

end

/-! ## Globals -/

namespace TypeScript

/-- The names that generated code uses and does not bind. -/
def globals : List String := ["Error", "String", "Promise"]

theorem isForeign_of_mem_globals {name : String} (h : name ∈ globals) : IsForeign name := by
  have hall : ∀ g ∈ globals, IsForeign g := by decide
  exact hall name h

/-- Managers end with `Manager` and constructors begin with `New`. -/
theorem not_mem_declaredNames {name : String} (h : name ∈ globals) (services : List Service) :
    name ∉ declaredNames (services.map ManagerPlan.ofService) := by
  have hall : ∀ g ∈ globals, g ≠ "" ∧ Text.endsWith g "Manager" = false ∧
      Text.startsWith g "New" = false := by
    decide
  obtain ⟨hempty, hend, hstart⟩ := hall name h
  intro hmem
  obtain ⟨p, hp, hname⟩ := List.mem_flatMap.1 hmem
  obtain ⟨s, -, rfl⟩ := List.mem_map.1 hp
  rcases List.mem_pair.1 hname with hname | hname
  · change name = Naming.managerName s.name at hname
    by_cases hs : s.name = ""
    · rw [Naming.managerName, if_pos hs] at hname
      exact hempty hname
    · rw [Naming.managerName_of_ne hs] at hname
      rw [hname, Bool.eq_false_iff] at hend
      exact hend (Text.endsWith_iff.2 (by simp))
  · change name = Naming.constructorName _ at hname
    rw [hname, Naming.constructorName, Bool.eq_false_iff] at hstart
    exact hstart (Text.startsWith_iff.2 (by simp))

/-- **When a message captures a global.** A name that generated code takes for granted is bound in
its module exactly when it is declared there or a message is imported that has it. In a module made
from services that is when a method takes or returns a message of that name. -/
theorem global_captured_iff {name : String} (h : name ∈ globals) (base : Location) (f : SourceFile)
    (c : Config) :
    (∀ plans, name ∈ moduleScope base f plans c ↔
        name ∈ declaredNames plans ∨ name ∈ (names base f plans c).messages.exportedTypes) ∧
      ∀ services : List Service, Consistent (services.flatMap Service.refs) →
        (name ∈ moduleScope base f (services.map ManagerPlan.ofService) c ↔
          ∃ r ∈ services.flatMap Service.refs, r.localName = name) := by
  have hscope := mem_moduleScope_iff (isForeign_of_mem_globals h) base f
  refine ⟨fun plans => hscope plans c, fun services hc => ?_⟩
  have hrec := (recorded_ofServices base f services c hc).types
  rw [hscope, or_iff_right (not_mem_declaredNames h services), MessageBindings.exportedTypes,
    List.mem_map]
  constructor
  · rintro ⟨e, he, rfl⟩
    obtain ⟨r, hr, -, hexported⟩ := hrec.exists_ref he
    exact ⟨r, hr, hexported.symm⟩
  · rintro ⟨r, hr, rfl⟩
    obtain ⟨bound, hbound⟩ := hrec.get? hc (List.Subset.refl _) hr
    exact ⟨_, OrderedMap.mem_entries_iff.2 hbound, rfl⟩

/-- A service that returns a message of this name. -/
def lookupCache (message : String) : Service where
  name := "LookupCache"
  methods := [⟨"Find", "LookupCache", ref "Query", ref message, none, false, false⟩]
  leadingComment := none
where
  ref (name : String) : MessageRef := ⟨"shop." ++ name, name, name, "shop.proto"⟩

theorem global_captured_iff_lookups :
    (∀ name ∈ ["Error", "Promise"], name ∈ globals) ∧
      Consistent ([lookupCache "Error"].flatMap Service.refs) ∧
      "Error" ∈ moduleScope .root priceFile [ManagerPlan.ofService (lookupCache "Error")] {} ∧
      "Promise" ∉ moduleScope .root priceFile [ManagerPlan.ofService (lookupCache "Error")] {} := by
  have hglobals : ∀ name ∈ ["Error", "Promise"], name ∈ globals := by decide
  have hc : Consistent ([lookupCache "Error"].flatMap Service.refs) := by decide
  have herror := (global_captured_iff (hglobals "Error" (by decide)) .root priceFile {}).2 _ hc
  have hpromise := (global_captured_iff (hglobals "Promise" (by decide)) .root priceFile {}).2 _ hc
  exact ⟨hglobals, hc, herror.2 (by decide), fun h => absurd (hpromise.1 h) (by decide)⟩

/-- A message called `Error` is imported under its name, and the code that throws means it. -/
theorem message_captures_error :
    ¬ ∀ (base : Location) (f : SourceFile) (plans : List ManagerPlan) (c : Config),
      ∀ name ∈ globals, name ∉ moduleScope base f plans c := by
  intro hall
  have hbound : "Error" ∈
      (names .root priceFile [ManagerPlan.ofService (lookupCache "Error")] {}).boundNames := by
    decide +kernel
  have himported := (localNames_imports_perm _ ({} : Config).tsRuntimeModule).mem_iff.2 hbound
  exact hall _ _ _ _ "Error" (by decide) (List.mem_append_left _ himported)

end TypeScript

end CacheGen
