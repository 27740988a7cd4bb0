import CacheGen.Config.Parameter
import CacheGen.Proofs.MapLookup

/-!
# Layers of settings

Of two layers of overrides the upper one counts, setting by setting, and the maps of imports merge
file by file (`Overrides.overlay`). A config under both layers is the same as under their overlay
(`override_overlay`).

A pair of a parameter sets what it sets whatever is set before. So reading on from some overrides
gives their overlay with what is read on its own (`foldlM_applyPair_overlay`).

**Theorem (`parse_joined`).** Two parameters with a comma between them are read as the overlay of the
first by the second. To the config it is the same whether they come as one layer or as two.
-/

namespace CacheGen

/-! ## Two layers as one -/

namespace Overrides

/-- `below` with the settings that `above` gives. -/
def overlay (below above : Overrides) : Overrides where
  target := above.target.or below.target
  suffix := above.suffix.or below.suffix
  goRuntimeImport := above.goRuntimeImport.or below.goRuntimeImport
  tsRuntimeModule := above.tsRuntimeModule.or below.tsRuntimeModule
  importExtension := above.importExtension.or below.importExtension
  goLayout := above.goLayout.or below.goLayout
  goModule := above.goModule.or below.goModule
  goImportMap := Option.merge OrderedMap.overlay below.goImportMap above.goImportMap

/-- The `go_package` that is given to a file. -/
def goPackage? (o : Overrides) (file : String) : Option String := o.goImportMap.bind (·.get? file)

theorem goPackage?_overlay (below above : Overrides) (file : String) :
    (below.overlay above).goPackage? file = (above.goPackage? file).or (below.goPackage? file) := by
  unfold goPackage? overlay
  cases below.goImportMap with
  | none => cases above.goImportMap <;> simp
  | some m =>
    cases above.goImportMap with
    | none => rfl
    | some m' => exact m.get?_overlay m' file

theorem overlay_nothing (o : Overrides) : o.overlay {} = o := by
  cases o with
  | mk _ _ _ _ _ _ _ imports => cases imports <;> rfl

/-- One more entry goes into the merged map as it goes into the upper one. -/
theorem merge_insert (below above : Option (OrderedMap String String)) (file value : String) :
    some (((Option.merge OrderedMap.overlay below above).getD ∅).insert file value) =
      Option.merge OrderedMap.overlay below (some ((above.getD ∅).insert file value)) := by
  cases below with
  | none => cases above <;> rfl
  | some m =>
    cases above with
    | none => rfl
    | some m' => exact congrArg some (m.overlay_insert m' file value).symm

end Overrides

namespace Config

theorem override_overlay (c : Config) (below above : Overrides) :
    c.override (below.overlay above) = (c.override below).override above := by
  have himports : c.goImportMap.overlay
        ((Option.merge OrderedMap.overlay below.goImportMap above.goImportMap).getD ∅) =
      (c.goImportMap.overlay (below.goImportMap.getD ∅)).overlay (above.goImportMap.getD ∅) := by
    cases below.goImportMap with
    | none => cases above.goImportMap <;> rfl
    | some m =>
      cases above.goImportMap with
      | none => rfl
      | some m' => exact (c.goImportMap.overlay_assoc m m').symm
  unfold override Overrides.overlay
  simp only [Option.getD_or, himports]

theorem resolve_overlay (layers : List Overrides) (below above : Overrides) :
    resolve (layers ++ [below.overlay above]) = resolve (layers ++ [below, above]) := by
  have hsame : (layers ++ [below.overlay above]).foldl override {} =
      (layers ++ [below, above]).foldl override {} := by
    rw [List.foldl_append, List.foldl_append]
    exact override_overlay _ below above
  unfold resolve
  rw [hsame]

end Config

/-! ## Pairs behind others -/

namespace Parameter

theorem applyKey_overlay (below o : Overrides) (pair key value : String) :
    applyKey (below.overlay o) pair key value = below.overlay <$> applyKey o pair key value := by
  unfold applyKey
  split
  · cases readTarget value <;> rfl
  · rfl
  · rfl
  · rfl
  · cases readExtension pair value <;> rfl
  · cases readLayout pair value <;> rfl
  · rfl
  · rfl

/-- What a pair sets does not depend on the overrides below. -/
theorem applyPair_overlay (below o : Overrides) (pair : String) :
    applyPair (below.overlay o) pair = below.overlay <$> applyPair o pair := by
  unfold applyPair
  generalize keyValue pair = p
  obtain ⟨key, value⟩ := p
  dsimp only
  by_cases hvalue : value = ""
  · rw [if_pos hvalue, if_pos hvalue]
    rfl
  · rw [if_neg hvalue, if_neg hvalue]
    cases mappedFile? key with
    | none => exact applyKey_overlay below o pair key value
    | some file =>
      have himports := Overrides.merge_insert below.goImportMap o.goImportMap file value
      exact congrArg (fun m => Except.ok { below.overlay o with goImportMap := m }) himports

theorem foldlM_applyPair_overlay (pairs : List String) (below o : Overrides) :
    pairs.foldlM applyPair (below.overlay o) = below.overlay <$> pairs.foldlM applyPair o := by
  induction pairs generalizing o with
  | nil => rfl
  | cons pair pairs ih =>
    rw [List.foldlM_cons, List.foldlM_cons, applyPair_overlay, bind_map_left, map_bind]
    exact bind_congr ih

/-! ## Joined parameters -/

theorem pairs_joined (p q : String) : pairs (p ++ "," ++ q) = pairs p ++ pairs q := by
  have hlist : (p ++ "," ++ q).toList = p.toList ++ ',' :: q.toList := by simp
  rw [pairs, Text.pieces, hlist, List.splitOn_append_cons_self, List.map_append, List.map_append,
    List.filter_append]
  rfl

/-- **Joined parameters are layers.** A parameter made of two with a comma between them is refused
for what the first is refused for, or else for what the second is. Otherwise it gives what the second
gives and below that what the first gives, with the maps of imports merged file by file. On top of
any layers it makes the same config as the first and the second one above the other, or the same
error. -/
theorem parse_joined (p q : String) :
    (parse (p ++ "," ++ q) = do
        let below ← parse p
        let above ← parse q
        return below.overlay above) ∧
      (∀ (below above : Overrides) (file : String), (below.overlay above).goPackage? file =
        (above.goPackage? file).or (below.goPackage? file)) ∧
      ∀ layers : List Overrides,
        (do
          let given ← parse (p ++ "," ++ q)
          Config.resolve (layers ++ [given])) = (do
          let below ← parse p
          let above ← parse q
          Config.resolve (layers ++ [below, above])) := by
  have hparse : parse (p ++ "," ++ q) = (do
      let below ← parse p
      let above ← parse q
      return below.overlay above) := by
    unfold parse
    rw [pairs_joined, List.foldlM_append]
    refine bind_congr fun below => ?_
    have hstart := foldlM_applyPair_overlay (pairs q) below {}
    rwa [below.overlay_nothing, map_eq_pure_bind] at hstart
  refine ⟨hparse, Overrides.goPackage?_overlay, fun layers => ?_⟩
  rw [hparse, bind_assoc]
  refine bind_congr fun below => ?_
  rw [bind_assoc]
  refine bind_congr fun above => ?_
  rw [pure_bind, Config.resolve_overlay]

end Parameter

end CacheGen
