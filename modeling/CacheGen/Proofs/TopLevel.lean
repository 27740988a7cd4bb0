import CacheGen.Generate
import CacheGen.Proofs.Bindings
import CacheGen.Proofs.DerivedNames
import CacheGen.Proofs.ManagerText

/-!
# Names that a file declares

A generated file declares two names for each candidate, a manager and its constructor. Managers
differ when their services do, and so do constructors. A manager and a constructor are the same when
the one candidate is called `New` and then what the other is called; nothing is done about that,
since declared names are never changed.

Main result: `declaredNames_nodup_iff`.
-/

namespace CacheGen

/-! ## Declarations in the text -/

/-- The lines that declare the manager and its constructor. -/
def Target.declarationLines : Target → ManagerPlan → List String
  | go, p => ["type " ++ p.managerName ++ " struct \x7b", "func " ++ p.constructorName ++ "("]
  | typeScript, p =>
    ["export class " ++ p.managerName ++ " \x7b", "export function " ++ p.constructorName ++ "("]

theorem Target.declarationLines_subset_lines (t : Target) (base : Location) (f : SourceFile)
    {plans : List ManagerPlan} (c : Config) {p : ManagerPlan} (hp : p ∈ plans) :
    t.declarationLines p ⊆ t.lines base f plans c := by
  cases t with
  | go =>
    have hmanager : Target.go.declarationLines p ⊆ Go.managerLines p := by
      simp [Target.declarationLines, Go.managerLines, Go.typeLines, Go.constructorLines]
    exact List.Subset.trans hmanager (Go.managerLines_infix_lines f c hp).subset
  | typeScript =>
    have hmanager : Target.typeScript.declarationLines p ⊆
        TypeScript.managerLines (TypeScript.names base f plans c) p := by
      simp [Target.declarationLines, TypeScript.managerLines, TypeScript.classLines,
        TypeScript.constructorLines]
    exact List.Subset.trans hmanager (TypeScript.managerLines_infix_lines base f c hp).subset

/-! ## Managers and constructors -/

theorem nodup_declaredNames_iff {services : List Service} (hne : ∀ s ∈ services, s.name ≠ "") :
    (declaredNames (services.map ManagerPlan.ofService)).Nodup ↔
      (services.map Service.name).Nodup ∧
        ∀ s ∈ services, ∀ s' ∈ services, s.name ≠ "New" ++ s'.name := by
  have hmanagers : (services.map fun s => (ManagerPlan.ofService s).managerName).Nodup ↔
      (services.map Service.name).Nodup :=
    nodup_map_comp_iff Naming.managerName_injective Service.name services
  have hconstructors : (services.map fun s => (ManagerPlan.ofService s).constructorName).Nodup ↔
      (services.map Service.name).Nodup :=
    nodup_map_comp_iff (Naming.constructorName_injective.comp Naming.managerName_injective)
      Service.name services
  have happart : (∀ s ∈ services, ∀ s' ∈ services,
      (ManagerPlan.ofService s).managerName ≠ (ManagerPlan.ofService s').constructorName) ↔
        ∀ s ∈ services, ∀ s' ∈ services, s.name ≠ "New" ++ s'.name :=
    forall₄_congr fun s hs s' hs' =>
      not_congr (Naming.managerName_eq_constructorName_iff (hne s hs) (hne s' hs'))
  rw [declaredNames, List.flatMap_map, nodup_flatMap_pair, hmanagers, hconstructors, happart,
    ← and_assoc, and_self_iff]

/-! ## Candidates -/

theorem Target.name_ne_of_mem_candidates {t : Target} {suffix : String} (hsuffix : suffix ≠ "")
    {services : List Service} {s : Service} (hs : s ∈ t.candidates suffix services) :
    s.name ≠ "" := by
  have hend := (List.mem_filter.1 hs).2
  intro hname
  rw [Service.isCandidate, hname, Text.endsWith_iff] at hend
  exact hsuffix (String.toList_inj.1 (List.suffix_nil.1 hend))

/-- **When declared names differ.** The file generated for the candidates of `f` declares their
managers and constructors. The names of all of these are pairwise distinct exactly when the names
of the candidates are, and no candidate is called `New` and then what another is called. -/
theorem declaredNames_nodup_iff (t : Target) (base : Location) (f : SourceFile) (c : Config)
    (hsuffix : c.suffix ≠ "") :
    let services := t.candidates c.suffix f.services
    let plans := services.map ManagerPlan.ofService
    (∀ p ∈ plans, t.declarationLines p ⊆ t.lines base f plans c) ∧
      ((declaredNames plans).Nodup ↔
        (services.map Service.name).Nodup ∧
          ∀ s ∈ services, ∀ s' ∈ services, s.name ≠ "New" ++ s'.name) := by
  intro services plans
  refine ⟨fun p hp => t.declarationLines_subset_lines base f c hp, ?_⟩
  exact nodup_declaredNames_iff fun s hs => Target.name_ne_of_mem_candidates hsuffix hs

/-- A file with services of these names. -/
def fileWith (services : List String) : SourceFile :=
  { (default : SourceFile) with services := services.map fun name => ⟨name, [], none⟩ }

theorem declaredNames_nodup_iff_renewing :
    (default : Config).suffix ≠ "" ∧
      (declaredNames ((Target.go.candidates "Cache"
        (fileWith ["order_cache", "RenewOrderCache"]).services).map ManagerPlan.ofService)).Nodup := by
  have hsuffix : (default : Config).suffix ≠ "" := by decide
  refine ⟨hsuffix, ?_⟩
  have h := declaredNames_nodup_iff .go .root (fileWith ["order_cache", "RenewOrderCache"]) default
    hsuffix
  exact h.2.2 (by decide +kernel)

/-- The manager of `NewOrderCache` has the name of a constructor. -/
theorem new_service_clashes :
    ¬ ∀ (t : Target) (f : SourceFile) (c : Config), c.suffix ≠ "" →
      ((t.candidates c.suffix f.services).map Service.name).Nodup →
      (declaredNames ((t.candidates c.suffix f.services).map ManagerPlan.ofService)).Nodup := by
  intro hall
  have hnames : ((Target.typeScript.candidates "Cache"
      (fileWith ["OrderCache", "NewOrderCache"]).services).map Service.name).Nodup := by
    decide +kernel
  have hclash : ¬ (declaredNames ((Target.typeScript.candidates "Cache"
      (fileWith ["OrderCache", "NewOrderCache"]).services).map ManagerPlan.ofService)).Nodup := by
    decide +kernel
  exact hclash (hall .typeScript _ {} (by decide) hnames)

end CacheGen
