import Mathlib.Logic.Function.Basic

/-!
# Decimal numerals

A natural number is written in digits, and an integer in digits with perhaps a sign in front. What
is written tells the number.
-/

namespace CacheGen.Text

theorem isDigit_of_mem_repr {n : Nat} {c : Char} (h : c ∈ n.repr.toList) : c.isDigit = true := by
  rw [Nat.toList_repr] at h
  exact Nat.isDigit_of_mem_toDigits (by decide) (by decide) h

theorem repr_injective : Function.Injective Nat.repr := by
  intro m n h
  have hdigits := congrArg (fun s : String => Nat.ofDigitChars 10 s.toList 0) h
  simpa only [Nat.toList_repr, Nat.ofDigitChars_ten_toDigits] using hdigits

theorem mem_intRepr {n : Int} {c : Char} (h : c ∈ n.repr.toList) : c = '-' ∨ c.isDigit = true := by
  cases n with
  | ofNat k => exact Or.inr (isDigit_of_mem_repr h)
  | negSucc k =>
    change c ∈ ("-" ++ (k + 1).repr).toList at h
    rw [String.toList_append] at h
    rcases List.mem_append.1 h with hsign | hdigit
    · exact Or.inl (List.mem_singleton.1 hsign)
    · exact Or.inr (isDigit_of_mem_repr hdigit)

theorem intRepr_ne_empty (n : Int) : n.repr ≠ "" := by
  cases n with
  | ofNat k => exact Nat.repr_ne_empty
  | negSucc k =>
    intro h
    have hlength := congrArg String.length h
    rw [show (Int.negSucc k).repr = "-" ++ (k + 1).repr from rfl, String.length_append] at hlength
    exact absurd hlength (by simp)

theorem intRepr_injective : Function.Injective Int.repr := by
  -- A sign is no digit.
  have hsigned : ∀ k l : Nat, k.repr ≠ "-" ++ (l + 1).repr := by
    intro k l h
    have hsign : '-' ∈ k.repr.toList := by
      rw [h, String.toList_append]
      exact List.mem_append_left _ List.mem_cons_self
    exact absurd (isDigit_of_mem_repr hsign) (by decide)
  intro a b h
  match a, b with
  | .ofNat k, .ofNat l => exact congrArg Int.ofNat (repr_injective h)
  | .ofNat k, .negSucc l => exact absurd h (hsigned k l)
  | .negSucc k, .ofNat l => exact absurd h.symm (hsigned l k)
  | .negSucc k, .negSucc l =>
    have hnext : k + 1 = l + 1 := repr_injective ((String.append_right_inj "-").1 h)
    exact congrArg Int.negSucc (Nat.succ.inj hnext)

end CacheGen.Text
