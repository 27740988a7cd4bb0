import CacheGen.Proofs.Lists
import CacheGen.Target

/-!
# Managers in the text of a file

In either target the text of a file is a head and then, for one plan after the other, the lines of
its manager. So the lines of each manager stand in the text, one behind the other.
-/

namespace CacheGen

theorem Go.managerLines_infix_lines (f : SourceFile) {plans : List ManagerPlan} (c : Config)
    {p : ManagerPlan} (hp : p ∈ plans) : managerLines p <:+: lines f plans c :=
  (infix_flatMap hp _).trans (List.suffix_append _ _).isInfix

theorem TypeScript.managerLines_infix_lines (base : Location) (f : SourceFile)
    {plans : List ManagerPlan} (c : Config) {p : ManagerPlan} (hp : p ∈ plans) :
    managerLines (names base f plans c) p <:+: lines base f plans c :=
  (infix_flatMap hp _).trans (List.suffix_append _ _).isInfix

end CacheGen
