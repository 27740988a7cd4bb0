import CacheGen.Proofs.Scope
import Mathlib.Order.Bounds.Basic

/-!
# The search for an alias

A claim is answered by a loop. It tests the wanted name, then the aliases in their order, and ends
at the first candidate that is free. No bound is part of the loop (`Search`). It ends because each
test before the last one meets a taken name that no other test meets, so there are at most as many
of these as there are taken names, however often a name was reserved.

**Theorem (`claim_takes_first_free`).** The loop ends with what is claimed, after at most one test
more than names are taken. That is the wanted name if it is free, and otherwise the alias with the
least number that is free. It was free before and is taken afterwards, and nothing else changes.
-/

namespace CacheGen.Scope

/-- The loop at the candidate with number `n`: it ends with `name`, after so many `tests`. -/
inductive Search (taken : Finset String) (wanted : String) : Nat → String → Nat → Prop
  | free {n : Nat} (hfree : candidate wanted n ∉ taken) :
      Search taken wanted n (candidate wanted n) 1
  | next {n tests : Nat} {name : String} (htaken : candidate wanted n ∈ taken)
      (hlater : Search taken wanted (n + 1) name tests) :
      Search taken wanted n name (tests + 1)

section

variable {taken : Finset String} {wanted : String} {n : Nat}

/-- Behind `k` taken candidates the loop ends at one that is free. -/
theorem Search.of_taken {k : Nat} (htaken : ∀ m < k, candidate wanted (n + m) ∈ taken)
    (hfree : candidate wanted (n + k) ∉ taken) :
    Search taken wanted n (candidate wanted (n + k)) (k + 1) := by
  induction k generalizing n with
  | zero => exact .free hfree
  | succ k ih =>
    have hshift : ∀ m, n + (m + 1) = n + 1 + m := fun m => by omega
    rw [hshift] at hfree ⊢
    refine .next (htaken 0 k.succ_pos) (ih (fun m hm => ?_) hfree)
    rw [← hshift]
    exact htaken (m + 1) (Nat.succ_lt_succ hm)

/-- The first `n` candidates are all different, so they are no more than what is taken. -/
theorem le_card_of_taken (htaken : ∀ m < n, candidate wanted m ∈ taken) : n ≤ taken.card := by
  have hsub : (Finset.range n).image (candidate wanted) ⊆ taken :=
    Finset.image_subset_iff.2 fun m hm => htaken m (Finset.mem_range.1 hm)
  calc n = ((Finset.range n).image (candidate wanted)).card := by
        rw [Finset.card_image_of_injective _ (candidate_injective wanted), Finset.card_range]
    _ ≤ taken.card := Finset.card_le_card hsub

end

/-- **A claim takes the first free candidate**, and finds it by a search that ends. -/
theorem claim_takes_first_free (s : Scope) (wanted : String) :
    let taken := s.taken.toFinset
    let name := (s.claim wanted).1
    (∃ tests ≤ taken.card + 1, Search taken wanted 0 name tests) ∧
      (wanted ∉ taken → name = wanted) ∧
      (wanted ∈ taken → ∃ n, name = wanted ++ "$" ++ toString n ∧
        IsLeast {n : Nat | 1 ≤ n ∧ wanted ++ "$" ++ toString n ∉ taken} n) ∧
      name ∉ taken ∧
      (s.claim wanted).2.taken.toFinset = insert name taken := by
  intro taken name
  obtain ⟨k, -, hfirst, hfree, hbefore⟩ := firstFree_spec s wanted
  have hname : name = candidate wanted k := hfirst
  simp only [← List.mem_toFinset] at hfree hbefore
  refine ⟨?ends, ?free, ?aliased, ?new, ?after⟩
  case ends =>
    refine ⟨k + 1, Nat.succ_le_succ (le_card_of_taken hbefore), ?_⟩
    have hend : Search taken wanted 0 (candidate wanted (0 + k)) (k + 1) := by
      refine .of_taken (fun m hm => ?_) ?_
      · rw [Nat.zero_add]
        exact hbefore m hm
      · rwa [Nat.zero_add]
    rwa [Nat.zero_add, ← hname] at hend
  case free =>
    intro hwanted
    obtain rfl : k = 0 := by
      by_contra hk
      exact hwanted (hbefore 0 (Nat.pos_of_ne_zero hk))
    exact hname
  case aliased =>
    intro hwanted
    cases k with
    | zero => exact absurd hwanted hfree
    | succ k =>
      refine ⟨k + 1, hname, ⟨Nat.succ_pos k, hfree⟩, fun m ⟨hm, hm'⟩ => ?_⟩
      -- A smaller number is that of a candidate before, and those are all taken.
      obtain ⟨m, rfl⟩ := Nat.exists_eq_add_of_le' hm
      by_contra hlt
      exact hm' (hbefore (m + 1) (not_le.1 hlt))
  case new => exact hname ▸ hfree
  case after =>
    show (name :: s.taken).toFinset = insert name taken
    exact List.toFinset_cons

/-- Names of which one was reserved twice, and one is an alias out of turn. -/
def orderScope : Scope := ⟨["Order", "Order$1", "Order$3", "Order"]⟩

theorem claim_takes_first_free_order :
    "Order" ∈ orderScope.taken.toFinset ∧ orderScope.taken.toFinset.card = 3 ∧
      (orderScope.claim "Order").1 = "Order$2" ∧
      (∃ tests ≤ 4, Search orderScope.taken.toFinset "Order" 0 "Order$2" tests) ∧
      IsLeast {n : Nat | 1 ≤ n ∧ "Order" ++ "$" ++ toString n ∉ orderScope.taken.toFinset} 2 := by
  have hwanted : "Order" ∈ orderScope.taken.toFinset := by decide
  have hcard : orderScope.taken.toFinset.card = 3 := by decide
  have hclaim : (orderScope.claim "Order").1 = "Order$2" := by decide +kernel
  obtain ⟨hends, -, haliased, -⟩ := claim_takes_first_free orderScope "Order"
  rw [hcard, hclaim] at hends
  obtain ⟨n, hname, hleast⟩ := haliased hwanted
  have hnumber : "Order" ++ "$" ++ Nat.repr 2 = "Order" ++ "$" ++ Nat.repr n :=
    hclaim.symm.trans hname
  obtain rfl : 2 = n := Text.repr_injective ((String.append_right_inj _).1 hnumber)
  exact ⟨hwanted, hcard, hclaim, hends, hleast⟩

end CacheGen.Scope
