import CacheGen.OrderedMap
import Mathlib.Data.List.Nodup

/-!
# What an ordered map answers

A map is known from its keys, in their order, and from what it answers under each of them
(`ext_get?`). Entries written one after the other answer with the last one under a key
(`get?_insertAll`).

Laying one map over another is such a writing. An answer comes from the upper map if it has one, and
from the lower map otherwise (`get?_overlay`). Writing into the upper map is writing into the whole
(`overlay_insert`), so it does not matter in which order three maps are laid over one another
(`overlay_assoc`).
-/

namespace CacheGen.OrderedMap

variable {κ ν : Type} [DecidableEq κ]

/-! ## Entries -/

theorem entries_eq_filterMap (m : OrderedMap κ ν) :
    m.entries = m.keys.filterMap fun k => (m.get? k).map (k, ·) := by
  have hentry : ∀ e ∈ m.entries, (m.get? e.1).map (e.1, ·) = some e := fun e he => by
    rw [mem_entries_iff.1 he]
    rfl
  rw [keys, List.filterMap_map]
  exact (List.filterMap_some.symm).trans (List.filterMap_congr fun e he => (hentry e he).symm)

theorem ext_get? {a b : OrderedMap κ ν} (hkeys : a.keys = b.keys)
    (hget : ∀ k, a.get? k = b.get? k) : a = b := by
  apply ext
  rw [entries_eq_filterMap, entries_eq_filterMap, hkeys]
  exact List.filterMap_congr fun k _ => by rw [hget]

/-- What holds of all answers holds after an entry of which it holds. -/
theorem forall_get?_insert {p : κ → ν → Prop} {m : OrderedMap κ ν}
    (h : ∀ k v, m.get? k = some v → p k v) {k : κ} {v : ν} (hv : p k v) :
    ∀ k' v', (m.insert k v).get? k' = some v' → p k' v' := by
  intro k' v' hget
  rw [get?_insert] at hget
  split at hget
  · next hk =>
    obtain rfl := Option.some.inj hget
    exact hk ▸ hv
  · exact h k' v' hget

/-! ## Entries written in order -/

theorem get?_insertAll (m : OrderedMap κ ν) (es : List (κ × ν)) (k : κ) :
    (m.insertAll es).get? k = ((es.reverse.find? (·.1 = k)).map Prod.snd).or (m.get? k) := by
  induction es generalizing m with
  | nil => rfl
  | cons e es ih =>
    show ((m.insert e.1 e.2).insertAll es).get? k = _
    -- The later entries are asked first, then this one, then the map.
    rw [ih, List.reverse_cons, List.find?_append, Option.map_or, Option.or_assoc, get?_insert]
    by_cases he : e.1 = k
    · simp [he]
    · simp [he, Ne.symm he]

/-- The last entry under a key is the one that is found. -/
theorem get?_ofEntries (es : List (κ × ν)) (k : κ) :
    (ofEntries es).get? k = (es.reverse.find? (·.1 = k)).map Prod.snd := by
  rw [ofEntries, get?_insertAll, get?_empty, Option.or_none]

theorem mem_of_get?_ofEntries {es : List (κ × ν)} {k : κ} {v : ν}
    (h : (ofEntries es).get? k = some v) : (k, v) ∈ es := by
  rw [get?_ofEntries, Option.map_eq_some_iff] at h
  obtain ⟨⟨k', v'⟩, hfound, rfl⟩ := h
  have hkey : k' = k := by simpa using List.find?_some hfound
  exact hkey ▸ List.mem_reverse.1 (List.mem_of_find?_eq_some hfound)

/-- With each key once, that is any entry under it. -/
theorem get?_ofEntries_of_mem {es : List (κ × ν)} (hnodup : (es.map Prod.fst).Nodup) {k : κ} {v : ν}
    (h : (k, v) ∈ es) : (ofEntries es).get? k = some v := by
  rw [get?_ofEntries]
  cases hfound : es.reverse.find? (·.1 = k) with
  | none =>
    have hnone := List.find?_eq_none.1 hfound (k, v) (List.mem_reverse.2 h)
    exact absurd (decide_eq_true rfl) hnone
  | some e =>
    have hmem : e ∈ es := List.mem_reverse.1 (List.mem_of_find?_eq_some hfound)
    have hkey : e.1 = k := by simpa using List.find?_some hfound
    rw [List.inj_on_of_nodup_map hnodup hmem h hkey]
    rfl

/-- Keys that are new go to the end, each when it comes first. -/
theorem keys_insertAll (m : OrderedMap κ ν) (es : List (κ × ν)) :
    (m.insertAll es).keys =
      (es.map Prod.fst).foldl (fun ks k => if k ∈ ks then ks else ks ++ [k]) m.keys := by
  induction es generalizing m with
  | nil => rfl
  | cons e es ih =>
    show ((m.insert e.1 e.2).insertAll es).keys = _
    rw [ih, keys_insert, List.map_cons, List.foldl_cons]

/-! ## Overlays -/

/-- Each key stands once, so it does not matter from which end it is looked for. -/
theorem find?_entries (m : OrderedMap κ ν) (k : κ) :
    (m.entries.reverse.find? (·.1 = k)).map Prod.snd = m.get? k := by
  cases hfound : m.entries.reverse.find? (·.1 = k) with
  | none =>
    refine (Option.eq_none_iff_forall_ne_some.2 fun v hv => ?_).symm
    have hmem := List.mem_reverse.2 (mem_entries_iff.2 hv)
    exact List.find?_eq_none.1 hfound _ hmem (decide_eq_true rfl)
  | some e =>
    have hmem : e ∈ m.entries := List.mem_reverse.1 (List.mem_of_find?_eq_some hfound)
    have hkey : e.1 = k := by simpa using List.find?_some hfound
    rw [← hkey, mem_entries_iff.1 hmem]
    rfl

theorem get?_overlay (m above : OrderedMap κ ν) (k : κ) :
    (m.overlay above).get? k = (above.get? k).or (m.get? k) := by
  rw [overlay, get?_insertAll, find?_entries]

theorem overlay_insert (m above : OrderedMap κ ν) (k : κ) (v : ν) :
    m.overlay (above.insert k v) = (m.overlay above).insert k v := by
  refine ext_get? ?_ fun k' => ?_
  · have hkey : k ∈ above.keys → k ∈ (m.overlay above).keys := fun h =>
      mem_keys_insertAll.2 (Or.inr h)
    rw [keys_insert, overlay, overlay, keys_insertAll, keys_insertAll]
    show (above.insert k v).keys.foldl _ _ = _
    rw [keys_insert]
    split
    · next h =>
      have h' := hkey h
      rw [overlay, keys_insertAll] at h'
      rw [if_pos h']
      rfl
    · rw [List.foldl_append]
      rfl
  · rw [get?_overlay, get?_insert, get?_insert, get?_overlay]
    split <;> rfl

theorem overlay_assoc (a b c : OrderedMap κ ν) :
    (a.overlay b).overlay c = a.overlay (b.overlay c) := by
  suffices h : ∀ (es : List (κ × ν)) (b : OrderedMap κ ν),
      (a.overlay b).insertAll es = a.overlay (b.insertAll es) from h c.entries b
  intro es
  induction es with
  | nil => exact fun b => rfl
  | cons e es ih =>
    intro b
    show ((a.overlay b).insert e.1 e.2).insertAll es = a.overlay ((b.insert e.1 e.2).insertAll es)
    rw [← overlay_insert, ih]

end CacheGen.OrderedMap
