/-!
# Maps that keep the order of their keys

A finite map as the list of its entries, each key once. A new key goes to the end; writing to a
key that is present changes its value where it stands.
-/

namespace CacheGen

variable {κ ν : Type} [DecidableEq κ]

/-! ## Entry lists -/

def putEntry (k : κ) (v : ν) : List (κ × ν) → List (κ × ν)
  | [] => [(k, v)]
  | e :: es => if e.1 = k then (k, v) :: es else e :: putEntry k v es

def getEntry (k : κ) : List (κ × ν) → Option ν
  | [] => none
  | e :: es => if e.1 = k then some e.2 else getEntry k es

theorem map_fst_putEntry (k : κ) (v : ν) (es : List (κ × ν)) :
    (putEntry k v es).map Prod.fst =
      if k ∈ es.map Prod.fst then es.map Prod.fst else es.map Prod.fst ++ [k] := by
  induction es with
  | nil => simp [putEntry]
  | cons e es ih =>
    by_cases h : e.1 = k
    · simp [putEntry, h]
    · simp only [putEntry, if_neg h, List.map_cons, ih, List.mem_cons, Ne.symm h, false_or]
      split <;> rfl

theorem nodup_putEntry (k : κ) (v : ν) {es : List (κ × ν)} (h : (es.map Prod.fst).Nodup) :
    ((putEntry k v es).map Prod.fst).Nodup := by
  rw [map_fst_putEntry]
  split
  · exact h
  · next hk =>
    refine List.nodup_append.2 ⟨h, by simp, ?_⟩
    intro a ha b hb hab
    obtain rfl := List.mem_singleton.1 hb
    exact hk (hab ▸ ha)

theorem getEntry_putEntry (k k' : κ) (v : ν) (es : List (κ × ν)) :
    getEntry k' (putEntry k v es) = if k' = k then some v else getEntry k' es := by
  induction es with
  | nil => simp [putEntry, getEntry, eq_comm]
  | cons e es ih =>
    by_cases hk : e.1 = k
    · by_cases h : k' = k
      · simp [putEntry, getEntry, hk, h]
      · simp [putEntry, getEntry, hk, h, Ne.symm h]
    · by_cases h : e.1 = k'
      · simp [putEntry, getEntry, h, h ▸ hk]
      · simp [putEntry, getEntry, hk, h, ih]

theorem putEntry_of_not_mem {k : κ} (v : ν) {es : List (κ × ν)} (h : k ∉ es.map Prod.fst) :
    putEntry k v es = es ++ [(k, v)] := by
  induction es with
  | nil => rfl
  | cons e es ih =>
    rw [List.map_cons, List.mem_cons, not_or] at h
    rw [putEntry, if_neg (Ne.symm h.1), ih h.2, List.cons_append]

theorem mem_iff_getEntry {k : κ} {v : ν} {es : List (κ × ν)} (h : (es.map Prod.fst).Nodup) :
    (k, v) ∈ es ↔ getEntry k es = some v := by
  induction es with
  | nil => simp [getEntry]
  | cons e es ih =>
    rw [List.map_cons, List.nodup_cons] at h
    rw [List.mem_cons, getEntry]
    split
    · next hk =>
      subst hk
      have hout : (e.1, v) ∉ es := fun hmem => h.1 (List.mem_map.2 ⟨_, hmem, rfl⟩)
      rw [or_iff_left hout, Option.some.injEq]
      exact ⟨fun he => congrArg Prod.snd he.symm, fun he => he ▸ rfl⟩
    · next hk =>
      rw [← ih h.2, or_iff_right fun he => hk (congrArg Prod.fst he).symm]

/-! ## The map -/

structure OrderedMap (κ ν : Type) where
  entries : List (κ × ν)
  nodup : (entries.map Prod.fst).Nodup

namespace OrderedMap

instance [DecidableEq ν] : DecidableEq (OrderedMap κ ν) := fun a b =>
  if h : a.entries = b.entries then
    .isTrue (by cases a; cases b; cases h; rfl)
  else .isFalse fun hab => h (hab ▸ rfl)

def empty : OrderedMap κ ν := ⟨[], List.nodup_nil⟩

instance : EmptyCollection (OrderedMap κ ν) := ⟨empty⟩

instance : Inhabited (OrderedMap κ ν) := ⟨empty⟩

def keys (m : OrderedMap κ ν) : List κ := m.entries.map Prod.fst

def get? (m : OrderedMap κ ν) (k : κ) : Option ν := getEntry k m.entries

def contains (m : OrderedMap κ ν) (k : κ) : Bool := (m.get? k).isSome

def insert (m : OrderedMap κ ν) (k : κ) (v : ν) : OrderedMap κ ν :=
  ⟨putEntry k v m.entries, nodup_putEntry k v m.nodup⟩

/-- Write `es` one after the other, so that of two entries with one key the later wins. -/
def insertAll (m : OrderedMap κ ν) (es : List (κ × ν)) : OrderedMap κ ν :=
  es.foldl (fun m e => m.insert e.1 e.2) m

def ofEntries (es : List (κ × ν)) : OrderedMap κ ν := empty.insertAll es

/-- The entries of `m` overlaid by those of `above`. -/
def overlay (m above : OrderedMap κ ν) : OrderedMap κ ν := m.insertAll above.entries

/-! ## Look-up -/

omit [DecidableEq κ] in
@[ext] theorem ext {a b : OrderedMap κ ν} (h : a.entries = b.entries) : a = b := by
  cases a; cases b; cases h; rfl

@[simp] theorem get?_empty (k : κ) : (empty : OrderedMap κ ν).get? k = none := rfl

theorem get?_insert (m : OrderedMap κ ν) (k k' : κ) (v : ν) :
    (m.insert k v).get? k' = if k' = k then some v else m.get? k' :=
  getEntry_putEntry k k' v m.entries

theorem keys_insert (m : OrderedMap κ ν) (k : κ) (v : ν) :
    (m.insert k v).keys = if k ∈ m.keys then m.keys else m.keys ++ [k] :=
  map_fst_putEntry k v m.entries

theorem mem_entries_iff {m : OrderedMap κ ν} {k : κ} {v : ν} :
    (k, v) ∈ m.entries ↔ m.get? k = some v :=
  mem_iff_getEntry m.nodup

theorem contains_iff_mem_keys {m : OrderedMap κ ν} {k : κ} :
    m.contains k = true ↔ k ∈ m.keys := by
  simp only [contains, Option.isSome_iff_exists, keys, List.mem_map, ← mem_entries_iff]
  constructor
  · rintro ⟨v, hv⟩
    exact ⟨(k, v), hv, rfl⟩
  · rintro ⟨⟨_, v⟩, hv, rfl⟩
    exact ⟨v, hv⟩

/-- A new key goes to the end. -/
theorem entries_insert_of_new {m : OrderedMap κ ν} {k : κ} (h : m.contains k = false) (v : ν) :
    (m.insert k v).entries = m.entries ++ [(k, v)] :=
  putEntry_of_not_mem v fun hk => by simp [contains_iff_mem_keys.2 hk] at h

theorem insertAll_append (m : OrderedMap κ ν) (a b : List (κ × ν)) :
    m.insertAll (a ++ b) = (m.insertAll a).insertAll b := by
  simp [insertAll]

theorem mem_keys_insertAll {m : OrderedMap κ ν} {es : List (κ × ν)} {k : κ} :
    k ∈ (m.insertAll es).keys ↔ k ∈ m.keys ∨ k ∈ es.map Prod.fst := by
  induction es generalizing m with
  | nil => simp [insertAll]
  | cons e es ih =>
    have hinsert : k ∈ (m.insert e.1 e.2).keys ↔ k ∈ m.keys ∨ k = e.1 := by
      rw [keys_insert]
      split
      · next hkey => exact ⟨.inl, fun h => h.elim id fun he => he ▸ hkey⟩
      · rw [List.mem_append, List.mem_singleton]
    show k ∈ ((m.insert e.1 e.2).insertAll es).keys ↔ _
    rw [ih, hinsert, List.map_cons, List.mem_cons, or_assoc]

theorem mem_keys_ofEntries {es : List (κ × ν)} {k : κ} :
    k ∈ (ofEntries es).keys ↔ k ∈ es.map Prod.fst := by
  rw [ofEntries, mem_keys_insertAll]
  exact or_iff_right List.not_mem_nil

end OrderedMap

end CacheGen
