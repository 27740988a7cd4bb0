import CacheGen.Proofs.ParameterKeys
import CacheGen.Target

/-!
# What a parameter is refused for

Whether a pair is accepted does not depend on the pairs before it. So a parameter is refused for its
first bad pair (`parse_eq_error_iff`). A target that it gives is one that there is
(`known_of_parse`).
-/

namespace CacheGen.Parameter

/-- What is wrong with a pair. -/
def refusal? (pair : String) : Option GenError := Outcome.error? (applyPair {} pair)

theorem error?_applyKey (o : Overrides) (pair key value : String) :
    Outcome.error? (applyKey o pair key value) = Outcome.error? (applyKey {} pair key value) := by
  unfold applyKey
  split
  all_goals first
    | rfl
    | rw [Outcome.error?_map, Outcome.error?_map]

theorem error?_applyPair (o : Overrides) (pair : String) :
    Outcome.error? (applyPair o pair) = refusal? pair := by
  unfold refusal? applyPair
  generalize keyValue pair = p
  obtain ⟨key, value⟩ := p
  dsimp only
  by_cases hvalue : value = ""
  · rw [if_pos hvalue, if_pos hvalue]
  · rw [if_neg hvalue, if_neg hvalue]
    cases mappedFile? key with
    | some file => rfl
    | none => exact error?_applyKey o pair key value

theorem parse_eq_error_iff {parameter : String} {e : GenError} :
    parse parameter = .error e ↔ (pairs parameter).findSome? refusal? = some e := by
  rw [← Outcome.error?_eq_some, parse, Outcome.error?_foldlM error?_applyPair]

theorem exists_parse_iff {parameter : String} :
    (∃ given, parse parameter = .ok given) ↔ (pairs parameter).findSome? refusal? = none := by
  rw [← Outcome.error?_eq_none, parse, Outcome.error?_foldlM error?_applyPair]

/-! ## The target -/

theorem isSome_ofName?_iff {name : String} :
    (Target.ofName? name).isSome = true ↔ name = "go" ∨ name = "ts" := by
  constructor
  · intro h
    unfold Target.ofName? at h
    split at h
    · exact .inl rfl
    · exact .inr rfl
    · cases h
  · rintro (rfl | rfl) <;> rfl

/-- No target is given, or one that there is. -/
def KnownTarget (o : Overrides) : Prop := ∀ name ∈ o.target, (Target.ofName? name).isSome = true

theorem Sets.known {o o' : Overrides} {key value : String} (ho : KnownTarget o)
    (h : Sets o key value o') : KnownTarget o' := by
  cases h with
  | target htarget =>
    rintro name ⟨rfl⟩
    exact isSome_ofName?_iff.2 htarget
  | _ => exact ho

theorem known_of_parse {parameter : String} {given : Overrides}
    (h : parse parameter = .ok given) : KnownTarget given :=
  Outcome.foldlM_keeps (fun ho hpair => (sets_of_applyPair hpair).2.known ho)
    (fun _ hname => by cases hname) h

end CacheGen.Parameter
