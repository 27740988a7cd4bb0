import CacheGen.Proofs.Numerals
import CacheGen.Target.Scope
import Mathlib.Data.Finset.Card
import Mathlib.Data.List.Nodup

/-!
# Claimed names are fresh

`Scope.firstFree` looks at no more candidates than there are taken names, plus one. That is enough:
the candidates of a name are pairwise distinct, so they cannot all be taken. Hence a claimed name
was free before, and it is the first candidate that was.
-/

namespace CacheGen.Scope

/-! ## Candidates -/

theorem candidate_succ_ne (wanted : String) (n : Nat) : candidate wanted (n + 1) ≠ wanted := by
  intro h
  have hlen := congrArg String.length h
  simp only [candidate, String.length_append, show "$".length = 1 from rfl] at hlen
  omega

theorem candidate_injective (wanted : String) : Function.Injective (candidate wanted) := by
  intro m n h
  match m, n with
  | 0, 0 => rfl
  | 0, n + 1 => exact (candidate_succ_ne wanted n h.symm).elim
  | m + 1, 0 => exact (candidate_succ_ne wanted m h).elim
  | m + 1, n + 1 => exact Text.repr_injective ((String.append_right_inj (wanted ++ "$")).1 h)

/-- One of `taken.length + 1` candidates is free. -/
theorem exists_free (s : Scope) (wanted : String) :
    ∃ n < s.taken.length + 1, candidate wanted n ∉ s.taken := by
  by_contra hnone
  push Not at hnone
  have hsub : (List.range (s.taken.length + 1)).map (candidate wanted) ⊆ s.taken := by
    intro name hname
    obtain ⟨n, hn, rfl⟩ := List.mem_map.1 hname
    exact hnone n (List.mem_range.1 hn)
  have hnodup : ((List.range (s.taken.length + 1)).map (candidate wanted)).Nodup :=
    List.nodup_range.map (candidate_injective wanted)
  have hle := (hnodup.subperm hsub).length_le
  rw [List.length_map, List.length_range] at hle
  omega

/-! ## The first free candidate -/

/-- **The search finds the first free candidate**, within as many steps as names are taken. -/
theorem firstFree_spec (s : Scope) (wanted : String) :
    ∃ n ≤ s.taken.length, s.firstFree wanted = candidate wanted n ∧
      candidate wanted n ∉ s.taken ∧ ∀ m < n, candidate wanted m ∈ s.taken := by
  obtain ⟨k, hk, hfree⟩ := exists_free s wanted
  cases hfind : (List.range (s.taken.length + 1)).find? fun n => candidate wanted n ∉ s.taken with
  | none =>
    have := List.find?_eq_none.1 hfind k (List.mem_range.2 hk)
    simp [hfree] at this
  | some n =>
    have hn : n < s.taken.length + 1 := List.mem_range.1 (List.mem_of_find?_eq_some hfind)
    refine ⟨n, by omega, ?_, by simpa using List.find?_some hfind, fun m hm => ?_⟩
    · show candidate wanted (Option.getD (List.find? _ _) 0) = _
      rw [hfind, Option.getD_some]
    · by_contra hfreem
      have := (List.find?_range_eq_some.1 hfind).2.2 m hm
      simp [hfreem] at this

theorem firstFree_not_mem (s : Scope) (wanted : String) : s.firstFree wanted ∉ s.taken := by
  obtain ⟨n, -, hname, hfree, -⟩ := firstFree_spec s wanted
  rwa [hname]

/-! ## Claiming -/

@[simp] theorem taken_reserve (s : Scope) (name : String) :
    (s.reserve name).taken = name :: s.taken := rfl

@[simp] theorem taken_claim (s : Scope) (wanted : String) :
    (s.claim wanted).2.taken = (s.claim wanted).1 :: s.taken := rfl

theorem claim_not_mem (s : Scope) (wanted : String) : (s.claim wanted).1 ∉ s.taken :=
  firstFree_not_mem s wanted

/-- The names handed out when `wanted` are claimed one after the other. -/
def claimAll (s : Scope) : List String → List String
  | [] => []
  | w :: ws => (s.claim w).1 :: (s.claim w).2.claimAll ws

theorem claimAll_not_mem (s : Scope) (wanted : List String) :
    ∀ name ∈ s.claimAll wanted, name ∉ s.taken := by
  induction wanted generalizing s with
  | nil => exact fun _ h => (List.not_mem_nil h).elim
  | cons w ws ih =>
    intro name hname
    rcases List.mem_cons.1 hname with rfl | hname
    · exact s.claim_not_mem w
    · exact fun htaken => ih _ name hname (List.mem_cons_of_mem _ htaken)

theorem nodup_claimAll (s : Scope) (wanted : List String) : (s.claimAll wanted).Nodup := by
  induction wanted generalizing s with
  | nil => exact List.nodup_nil
  | cons w ws ih =>
    refine List.nodup_cons.2 ⟨fun hname => ?_, ih _⟩
    exact claimAll_not_mem _ ws _ hname List.mem_cons_self

end CacheGen.Scope
