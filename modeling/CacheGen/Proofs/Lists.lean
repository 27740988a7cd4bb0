import Mathlib.Data.List.Forall2
import Mathlib.Data.List.Nodup
import Mathlib.Data.List.Perm.Basic

/-!
# Keys and searches in lists

Grouping a list by a key keeps its elements, and where keys are distinct, a key finds one element.
A search for the first result goes through nested lists in the order of their elements.
-/

namespace CacheGen

theorem nodup_eraseDups {α : Type} [DecidableEq α] (l : List α) : l.eraseDups.Nodup := by
  induction hn : l.length using Nat.strongRecOn generalizing l with
  | ind n ih =>
    cases l with
    | nil => exact List.nodup_nil
    | cons a as =>
      have hlt : (as.filter fun b => !b == a).length < n := by
        have := List.length_filter_le (fun b => !b == a) as
        rw [List.length_cons] at hn
        omega
      rw [List.eraseDups_cons]
      refine List.nodup_cons.2 ⟨fun ha => ?_, ih _ hlt _ rfl⟩
      simpa using List.mem_eraseDups.1 ha

/-- The groups of the elements of `l` by their keys hold each element once. -/
theorem perm_flatMap_filter {α κ : Type} [DecidableEq κ] (key : α → κ) {keys : List κ}
    (hkeys : keys.Nodup) (l : List α) (hl : ∀ a ∈ l, key a ∈ keys) :
    (keys.flatMap fun k => l.filter fun a => key a = k).Perm l := by
  induction keys generalizing l with
  | nil =>
    have hnil : l = [] := List.eq_nil_iff_forall_not_mem.2 fun a ha => List.not_mem_nil (hl a ha)
    rw [hnil]
    exact List.Perm.nil
  | cons k keys ih =>
    obtain ⟨hk, hkeys⟩ := List.nodup_cons.1 hkeys
    rw [List.flatMap_cons]
    refine List.Perm.trans (List.Perm.append_left _ ?_)
      (List.filter_append_perm (fun a => decide (key a = k)) l)
    -- Leaving out the elements of the first group changes no other group.
    have hrest : (keys.flatMap fun k' => l.filter fun a => key a = k') =
        keys.flatMap fun k' =>
          (l.filter fun a => !decide (key a = k)).filter fun a => key a = k' := by
      refine List.flatMap_congr fun k' hk' => ?_
      rw [List.filter_filter]
      refine List.filter_congr fun a _ => ?_
      have hne : k' ≠ k := fun h => hk (h ▸ hk')
      by_cases ha : key a = k'
      · simp [ha, hne]
      · simp [ha]
    rw [hrest]
    refine ih hkeys _ fun a ha => ?_
    obtain ⟨ha, hak⟩ := List.mem_filter.1 ha
    exact (List.mem_cons.1 (hl a ha)).resolve_left (by simpa using hak)

theorem filter_key_eq_singleton {α κ : Type} [DecidableEq κ] {key : α → κ} {l : List α}
    (h : (l.map key).Nodup) {a : α} (ha : a ∈ l) : l.filter (fun x => key x = key a) = [a] := by
  induction l with
  | nil => cases ha
  | cons x xs ih =>
    rw [List.map_cons, List.nodup_cons] at h
    rcases List.mem_cons.1 ha with rfl | ha
    · have hrest : xs.filter (fun y => key y = key a) = [] := by
        refine List.filter_eq_nil_iff.2 fun y hy hkey => h.1 ?_
        exact of_decide_eq_true hkey ▸ List.mem_map_of_mem hy
      rw [List.filter_cons_of_pos (by simp), hrest]
    · have hne : key x ≠ key a := fun hkey => h.1 (hkey ▸ List.mem_map_of_mem ha)
      rw [List.filter_cons_of_neg (by simpa using hne), ih h.2 ha]

theorem nodup_map_comp_iff {α β γ : Type} {f : β → γ} (hf : Function.Injective f) (g : α → β)
    (l : List α) : (l.map fun a => f (g a)).Nodup ↔ (l.map g).Nodup := by
  rw [← List.nodup_map_iff hf, List.map_map]
  rfl

/-- Two values for each element, all of them distinct. -/
theorem nodup_flatMap_pair {α β : Type} (l : List α) (f g : α → β) :
    (l.flatMap fun a => [f a, g a]).Nodup ↔
      (l.map f).Nodup ∧ (l.map g).Nodup ∧ ∀ a ∈ l, ∀ b ∈ l, f a ≠ g b := by
  have hperm : (l.flatMap fun a => [f a, g a]).Perm (l.map f ++ l.map g) := by
    rw [List.map_eq_flatMap, List.map_eq_flatMap]
    exact (List.flatMap_append_perm l (fun a => [f a]) (fun a => [g a])).symm
  rw [hperm.nodup_iff, List.nodup_append]
  simp only [List.forall_mem_map]

theorem infix_flatMap {α β : Type} {l : List α} {a : α} (ha : a ∈ l) (g : α → List β) :
    g a <:+: l.flatMap g := by
  obtain ⟨as, bs, rfl⟩ := List.append_of_mem ha
  exact ⟨as.flatMap g, bs.flatMap g, by simp⟩

/-! ## Searches -/

section

variable {α β γ : Type}

theorem findSome?_flatMap (f : β → Option γ) (g : α → List β) (l : List α) :
    (l.flatMap g).findSome? f = l.findSome? fun a => (g a).findSome? f := by
  rw [← List.head?_filterMap, List.filterMap_flatMap, List.head?_flatMap]
  simp only [List.head?_filterMap]

/-- Numbering the elements is of no account for what is found. -/
theorem findSome?_zipIdx (g : α → Option β) (l : List α) :
    (l.zipIdx.findSome? fun e => g e.1) = l.findSome? g := by
  have h : (l.zipIdx.map Prod.fst).findSome? g = l.zipIdx.findSome? (g ∘ Prod.fst) :=
    List.findSome?_map
  rw [List.zipIdx_map_fst] at h
  exact h.symm

/-- A search that finds `f a` at each `a` where `p` holds finds it at the first. -/
theorem findSome?_eq_map_find? {g : α → Option β} {p : α → Bool} {f : α → β}
    (hg : ∀ a, g a = if p a then some (f a) else none) (l : List α) :
    l.findSome? g = (l.find? p).map f := by
  induction l with
  | nil => rfl
  | cons a l ih =>
    rw [List.findSome?_cons, List.find?_cons, hg]
    cases p a with
    | true => rfl
    | false => exact ih

theorem findSome?_eq_of_forall₂ {f : α → Option γ} {g : β → Option γ} {as : List α} {bs : List β}
    (h : List.Forall₂ (fun a b => f a = g b) as bs) : as.findSome? f = bs.findSome? g := by
  induction h with
  | nil => rfl
  | cons hhead _ ih => rw [List.findSome?_cons, List.findSome?_cons, hhead, ih]

theorem map_eq_map_of_forall₂ {f : α → γ} {g : β → γ} {as : List α} {bs : List β}
    (h : List.Forall₂ (fun a b => f a = g b) as bs) : as.map f = bs.map g := by
  rwa [← List.forall₂_eq_eq_eq, List.forall₂_map_left_iff, List.forall₂_map_right_iff]

theorem flatMap_eq_flatMap_of_forall₂ {f : α → List γ} {g : β → List γ} {as : List α}
    {bs : List β} (h : List.Forall₂ (fun a b => f a = g b) as bs) :
    as.flatMap f = bs.flatMap g := by
  rw [List.flatMap_def, List.flatMap_def, map_eq_map_of_forall₂ h]

/-- A pass that takes back what was done to each element. -/
theorem mapM_map_eq_some {f : α → β} {g : β → Option α} {l : List α}
    (h : ∀ a ∈ l, g (f a) = some a) : (l.map f).mapM g = some l := by
  induction l with
  | nil => rfl
  | cons a l ih =>
    obtain ⟨ha, hl⟩ := List.forall_mem_cons.1 h
    rw [List.map_cons, List.mapM_cons, ha, ih hl]
    rfl

/-- What holds of the numbered elements, whatever their numbers are, holds of the elements. -/
theorem forall₂_of_zipIdx {R : α → β → Prop} {as : List α} {bs : List β}
    (h : List.Forall₂ (fun e b => R e.1 b) as.zipIdx bs) : List.Forall₂ R as bs := by
  rw [← List.zipIdx_map_fst 0 as]
  exact List.forall₂_map_left_iff.2 h

end

end CacheGen
