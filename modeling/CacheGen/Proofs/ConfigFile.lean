import CacheGen.Config.Discovery
import CacheGen.Proofs.Parameters

/-!
# What a directory is searched for

A search for the config file finds nothing to override, or a place that cannot be read, or the value
that decides, which is then checked. Whatever it gives, a target among it is one that there is
(`known_of_searchBy`).
-/

namespace CacheGen

open Parameter (KnownTarget)

/-! ## Values -/

theorem Schema.known_of_targetRule {v : Json} {name : String} (h : targetRule v = .ok name) :
    (Target.ofName? name).isSome = true := by
  cases v with
  | string s =>
    by_cases hs : s = "go" ∨ s = "ts"
    · rw [targetRule, oneOf, if_pos hs] at h
      cases h
      exact Parameter.isSome_ofName?_iff.2 hs
    · rw [targetRule, oneOf, if_neg hs] at h
      cases h
  | _ => cases h

theorem Schema.eq_settings {raw : Json} {path : String} {o : Overrides}
    (h : validate raw path = .ok o) : o = settings raw := by
  unfold validate at h
  split at h
  · cases h; rfl
  · cases h

theorem Schema.known_of_validate {raw : Json} {path : String} {o : Overrides}
    (h : validate raw path = .ok o) : KnownTarget o := by
  obtain rfl := eq_settings h
  intro name hname
  cases raw with
  | object members =>
    obtain ⟨v, -, hv⟩ := Option.bind_eq_some_iff.1 (Option.mem_def.1 hname)
    cases hrule : targetRule v with
    | error e => rw [hrule] at hv; cases hv
    | ok name' =>
      rw [hrule] at hv
      cases hv
      exact known_of_targetRule hrule
  | _ => cases hname

/-! ## Searching -/

namespace Discovery

theorem searchBy_cases {κ : Type} (look : Location → κ → Except String (Option Json))
    (dir : Location) (source : String) (places : List (String × κ)) :
    searchBy look dir source places = .ok {} ∨
      (∃ text, searchBy look dir source places = .error (.unreadableConfig source text)) ∨
      ∃ v path, searchBy look dir source places = Schema.validate v path := by
  induction places with
  | nil => exact .inl rfl
  | cons place later ih =>
    rw [searchBy]
    cases look (dir.resolve place.1) place.2 with
    | error e => exact .inr (.inl ⟨e, rfl⟩)
    | ok value =>
      cases value with
      | none => exact ih
      | some v => exact .inr (.inr ⟨v, _, rfl⟩)

section

variable {κ : Type} {look : Location → κ → Except String (Option Json)} {dir : Location}
  {source : String} {places : List (String × κ)}

/-- What holds of no overrides and of all that is accepted, holds of what is found. -/
theorem searchBy_keeps {P : Overrides → Prop} (hnothing : P {})
    (haccepted : ∀ raw path o, Schema.validate raw path = .ok o → P o) {o : Overrides}
    (h : searchBy look dir source places = .ok o) : P o := by
  rcases searchBy_cases look dir source places with hnone | ⟨text, hbad⟩ | ⟨v, path, hv⟩
  · rw [hnone] at h
    cases h
    exact hnothing
  · rw [hbad] at h
    cases h
  · exact haccepted v path o (hv ▸ h)

theorem known_of_searchBy {o : Overrides} (h : searchBy look dir source places = .ok o) :
    KnownTarget o := by
  apply searchBy_keeps _ _ h
  · exact fun _ hname => nomatch hname
  · exact fun _ _ _ => Schema.known_of_validate

theorem code_of_searchBy {e : GenError} (h : searchBy look dir source places = .error e) :
    e.code = "INVALID_CONFIG" := by
  rcases searchBy_cases look dir source places with hnone | ⟨text, hbad⟩ | ⟨v, path, hv⟩
  · rw [hnone] at h
    cases h
  · rw [hbad] at h
    cases h
    rfl
  · rw [hv, Schema.validate] at h
    split at h
    · cases h
    · cases h
      rfl

end

end Discovery

/-! ## Configs -/

theorem Config.known_override {c : Config} {o : Overrides} (ho : KnownTarget o)
    (hc : (Target.ofName? c.target).isSome = true) :
    (Target.ofName? (c.override o).target).isSome = true := by
  show (Target.ofName? (o.target.getD c.target)).isSome = true
  cases htarget : o.target with
  | none => exact hc
  | some name => exact ho name htarget

theorem Config.known_foldl {layers : List Overrides} (hlayers : ∀ o ∈ layers, KnownTarget o)
    {c : Config} (hc : (Target.ofName? c.target).isSome = true) :
    (Target.ofName? (layers.foldl override c).target).isSome = true := by
  induction layers generalizing c with
  | nil => exact hc
  | cons o layers ih =>
    obtain ⟨ho, hrest⟩ := List.forall_mem_cons.1 hlayers
    exact ih hrest (known_override ho hc)

theorem Config.resolve_eq_ok_iff {layers : List Overrides} {c : Config} :
    resolve layers = .ok c ↔ layers.foldl override {} = c ∧ c.hasConflict = false := by
  unfold resolve
  dsimp only
  generalize layers.foldl override {} = c'
  by_cases hconflict : c'.hasConflict = true
  · rw [if_pos hconflict]
    refine iff_of_false (fun h => by cases h) ?_
    rintro ⟨rfl, hnone⟩
    rw [hnone] at hconflict
    cases hconflict
  · rw [if_neg hconflict, Except.ok.injEq]
    refine ⟨?_, And.left⟩
    rintro rfl
    exact ⟨rfl, Bool.eq_false_iff.2 hconflict⟩

/-- Layers that give no other targets than there are make a config with one that there is. -/
theorem Config.known_of_resolve {layers : List Overrides} (hlayers : ∀ o ∈ layers, KnownTarget o)
    {c : Config} (h : resolve layers = .ok c) : (Target.ofName? c.target).isSome = true := by
  obtain ⟨rfl, -⟩ := resolve_eq_ok_iff.1 h
  exact known_foldl hlayers rfl

end CacheGen
