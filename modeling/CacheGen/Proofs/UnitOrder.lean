import CacheGen.Text.Units
import Mathlib.Data.List.Basic
import Mathlib.Data.List.Sort

/-!
# The order of texts by their units

Different texts have different units, since a unit tells whether it is the first of two. So the
order by units is a linear order, and sorting by it has one result for all arrangements of a list
(`sortByUnits_congr`).
-/

namespace CacheGen.Text

/-! ## Units tell the text -/

/-- No character is a surrogate. -/
theorem toNat_not_surrogate (c : Char) :
    c.toNat < 0xD800 ∨ 0xDFFF < c.toNat ∧ c.toNat < 0x110000 := c.valid

theorem charUnits_append_inj {c d : Char} {us vs : List Nat}
    (h : charUnits c ++ us = charUnits d ++ vs) : c = d ∧ us = vs := by
  have hc := toNat_not_surrogate c
  have hd := toNat_not_surrogate d
  unfold charUnits at h
  split_ifs at h with hcBasic hdBasic hdBasic
  · obtain ⟨hunit, hrest⟩ := List.cons.inj h
    exact ⟨Char.toNat_inj.1 hunit, hrest⟩
  · -- The unit of a character alone is not the first of two.
    have hunit := (List.cons.inj h).1
    omega
  · have hunit := (List.cons.inj h).1
    omega
  · obtain ⟨hfirst, hrest⟩ := List.cons.inj h
    obtain ⟨hsecond, hrest⟩ := List.cons.inj hrest
    exact ⟨Char.toNat_inj.1 (by omega), hrest⟩

theorem charUnits_ne_nil (c : Char) : charUnits c ≠ [] := by
  unfold charUnits
  split_ifs <;> exact List.cons_ne_nil _ _

theorem flatMap_charUnits_injective : Function.Injective (List.flatMap charUnits) := by
  intro cs
  induction cs with
  | nil =>
    intro ds h
    cases ds with
    | nil => rfl
    | cons d ds => exact absurd (List.append_eq_nil_iff.1 h.symm).1 (charUnits_ne_nil d)
  | cons c cs ih =>
    intro ds h
    cases ds with
    | nil => exact absurd (List.append_eq_nil_iff.1 h).1 (charUnits_ne_nil c)
    | cons d ds =>
      obtain ⟨rfl, hrest⟩ := charUnits_append_inj h
      rw [ih hrest]

theorem units_injective : Function.Injective units :=
  fun _ _ h => String.toList_injective (flatMap_charUnits_injective h)

/-! ## Sorting -/

theorem unitLE_iff {a b : String} : unitLE a b = true ↔ ¬ units b < units a := decide_eq_true_iff

theorem unitLE_trans (a b c : String) (hab : unitLE a b = true) (hbc : unitLE b c = true) :
    unitLE a c = true := by
  rw [unitLE_iff, List.not_lt] at *
  exact List.le_trans hab hbc

theorem unitLE_total (a b : String) : (unitLE a b || unitLE b a) = true := by
  rw [Bool.or_eq_true, unitLE_iff, unitLE_iff, List.not_lt, List.not_lt]
  exact List.le_total (units a) (units b)

theorem unitLE_antisymm {a b : String} (hab : unitLE a b = true) (hba : unitLE b a = true) :
    a = b := by
  rw [unitLE_iff, List.not_lt] at hab hba
  exact units_injective (List.le_antisymm hab hba)

/-- Sorting by a key that no two elements share forgets the arrangement. -/
theorem mergeSort_units_congr {α : Type} (key : α → String) {as bs : List α}
    (hkey : ∀ a ∈ as, ∀ b ∈ bs, key a = key b → a = b) (h : as.Perm bs) :
    (as.mergeSort fun a b => unitLE (key a) (key b)) =
      bs.mergeSort fun a b => unitLE (key a) (key b) := by
  have hsorted : ∀ l : List α, List.Pairwise (fun a b => unitLE (key a) (key b) = true)
      (l.mergeSort fun a b => unitLE (key a) (key b)) :=
    List.pairwise_mergeSort (fun a b c => unitLE_trans (key a) (key b) (key c))
      fun a b => unitLE_total (key a) (key b)
  have hperm := ((List.mergeSort_perm as fun a b => unitLE (key a) (key b)).trans h).trans
    (List.mergeSort_perm bs fun a b => unitLE (key a) (key b)).symm
  refine hperm.eq_of_pairwise (fun a b ha hb hab hba => ?_) (hsorted as) (hsorted bs)
  exact hkey a (List.mem_mergeSort.1 ha) b (List.mem_mergeSort.1 hb) (unitLE_antisymm hab hba)

theorem sortByUnits_congr {l l' : List String} (h : l.Perm l') : sortByUnits l = sortByUnits l' :=
  mergeSort_units_congr id (fun _ _ _ _ => id) h

end CacheGen.Text
