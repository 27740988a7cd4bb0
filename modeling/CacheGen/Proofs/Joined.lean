import CacheGen.Text.Blank
import CacheGen.Text.Cut
import Mathlib.Data.List.DropRight

/-!
# Cutting what was joined

Texts without a mark, joined by the mark, are what cutting at the mark gives back; and whatever is
cut, no piece has the mark in it and joining the pieces gives it back. What stands in front of the
first mark is got back as well. A text without the mark that is found at one end, before the mark or
behind it, is found there on its own.
Trimming leaves a text as it is exactly when it neither begins nor ends with a blank, and blanks that
are put around a text make no difference to it.
-/

namespace CacheGen.Text

/-! ## Pieces -/

theorem pieces_intercalate {c : Char} {ls : List String} (hls : ls ≠ [])
    (h : ∀ l ∈ ls, c ∉ l.toList) : pieces c ((String.singleton c).intercalate ls) = ls := by
  have hlists : ([c].intercalate (ls.map String.toList)).splitOn c = ls.map String.toList :=
    List.splitOn_intercalate c (List.forall_mem_map.2 h) (by simpa using hls)
  rw [pieces, String.toList_intercalate, String.toList_singleton, hlists, List.map_map]
  exact (List.map_congr_left fun l _ => String.ofList_toList).trans (List.map_id ls)

theorem pieces_append_mark (c : Char) (a b : String) :
    pieces c (a ++ String.singleton c ++ b) = pieces c a ++ pieces c b := by
  have hlist : (a ++ String.singleton c ++ b).toList = a.toList ++ c :: b.toList := by simp
  rw [pieces, hlist, List.splitOn_append_cons_self, List.map_append]
  rfl

theorem pieces_of_not_mem {c : Char} {s : String} (h : c ∉ s.toList) : pieces c s = [s] := by
  have hone := pieces_intercalate (List.cons_ne_nil s []) (List.forall_mem_singleton.2 h)
  rwa [String.intercalate_singleton] at hone

/-- Joined texts are cut where each of them is cut. -/
theorem pieces_intercalate_eq_flatMap (c : Char) {ls : List String} (hls : ls ≠ []) :
    pieces c ((String.singleton c).intercalate ls) = ls.flatMap (pieces c) := by
  induction ls with
  | nil => exact absurd rfl hls
  | cons l ls ih =>
    cases ls with
    | nil => simp
    | cons m ms =>
      rw [String.intercalate_cons_cons, pieces_append_mark, ih (List.cons_ne_nil m ms)]
      rfl

/-- Joining undoes cutting. -/
theorem intercalate_pieces (c : Char) (s : String) :
    (String.singleton c).intercalate (pieces c s) = s := by
  have hlists : (pieces c s).map String.toList = s.toList.splitOn c := by
    rw [pieces, List.map_map]
    exact (List.map_congr_left fun _ _ => String.toList_ofList).trans (List.map_id _)
  rw [← String.toList_inj, String.toList_intercalate, String.toList_singleton, hlists,
    List.intercalate_splitOn]

/-- A piece has no mark in it. -/
theorem not_mem_of_mem_splitOn {c : Char} {cs piece : List Char} (h : piece ∈ cs.splitOn c) :
    c ∉ piece := by
  induction cs generalizing piece with
  | nil =>
    rw [List.splitOn_nil, List.mem_singleton] at h
    rw [h]
    exact List.not_mem_nil
  | cons d cs ih =>
    rw [List.splitOn_cons_eq_if_modifyHead] at h
    by_cases hd : (d == c) = true
    · rw [if_pos hd] at h
      rcases List.mem_cons.1 h with rfl | hlater
      · exact List.not_mem_nil
      · exact ih hlater
    · rw [if_neg hd] at h
      obtain ⟨first, later, hrest⟩ := List.exists_cons_of_ne_nil (List.splitOn_ne_nil c cs)
      rw [hrest, List.modifyHead_cons] at h
      rcases List.mem_cons.1 h with rfl | hlater
      · rw [List.mem_cons, not_or]
        exact ⟨fun hc => hd (by simp [hc]), ih (hrest ▸ List.mem_cons_self)⟩
      · exact ih (hrest ▸ List.mem_cons_of_mem first hlater)

theorem cutFirst?_append {c : Char} {before : String} (h : c ∉ before.toList) (after : String) :
    cutFirst? c (before ++ String.singleton c ++ after) = some (before, after) := by
  have hmark : ∀ x ∈ before.toList, decide (x ≠ c) = true := fun x hx => by
    simpa using fun hc : x = c => h (hc ▸ hx)
  have hcut : (before ++ String.singleton c ++ after).toList =
      before.toList ++ c :: after.toList := by
    simp
  rw [cutFirst?, hcut, List.dropWhile_append_of_pos hmark, List.takeWhile_append_of_pos hmark]
  simp

/-! ## Texts around a mark -/

section

variable {c : Char} {l m x : String}

/-- An ending without the mark is that of what stands behind the mark. -/
theorem exists_stem_of_ending {ending : String} (hc : c ∉ ending.toList)
    (h : m ++ ending = l ++ String.singleton c ++ x) :
    ∃ stem, m = l ++ String.singleton c ++ stem ∧ x = stem ++ ending := by
  have hlists : m.toList ++ ending.toList = l.toList ++ c :: x.toList := by
    rw [← String.toList_append, h]
    simp
  rcases List.append_eq_append_iff.1 hlists with ⟨more, -, hending⟩ | ⟨more, hm, hmore⟩
  · refine absurd ?_ hc
    rw [hending]
    simp
  · cases more with
    | nil =>
      refine absurd ?_ hc
      rw [← List.nil_append ending.toList, ← hmore]
      exact List.mem_cons_self
    | cons d stem =>
      rw [List.cons_append] at hmore
      obtain ⟨rfl, hx⟩ := List.cons.inj hmore
      refine ⟨String.ofList stem, ?_, ?_⟩
      · rw [← String.toList_inj, hm]
        simp
      · rw [← String.toList_inj, hx, String.toList_append, String.toList_ofList]

/-- A start without the mark is that of what stands before the mark. -/
theorem exists_rest_of_start {start : String} (hc : c ∉ start.toList)
    (h : start ++ m = l ++ String.singleton c ++ x) :
    ∃ rest, l = start ++ rest ∧ m = rest ++ String.singleton c ++ x := by
  have hlists : start.toList ++ m.toList = l.toList ++ c :: x.toList := by
    rw [← String.toList_append, h]
    simp
  rcases List.append_eq_append_iff.1 hlists with ⟨rest, hl, hm⟩ | ⟨more, hstart, hmore⟩
  · refine ⟨String.ofList rest, ?_, ?_⟩
    · rw [← String.toList_inj, hl, String.toList_append, String.toList_ofList]
    · rw [← String.toList_inj, hm]
      simp
  · cases more with
    | nil =>
      refine ⟨"", ?_, ?_⟩
      · rw [String.append_empty, ← String.toList_inj, hstart, List.append_nil]
      · rw [← String.toList_inj, ← List.nil_append m.toList, ← hmore]
        simp
    | cons d more =>
      obtain ⟨rfl, -⟩ := List.cons.inj hmore
      refine absurd ?_ hc
      rw [hstart]
      simp

end

/-! ## Trimming -/

theorem trimChars_eq_self_iff {cs : List Char} :
    trimChars cs = cs ↔ (∀ c ∈ cs.head?, isBlank c = false) ∧
      ∀ c ∈ cs.getLast?, isBlank c = false := by
  have hfront : cs.dropWhile isBlank = cs ↔ ∀ c ∈ cs.head?, isBlank c = false := by
    cases cs with
    | nil => simp
    | cons c cs => simp [List.dropWhile_eq_self_iff]
  have hback : cs.rdropWhile isBlank = cs ↔ ∀ c ∈ cs.getLast?, isBlank c = false := by
    rw [List.rdropWhile_eq_self_iff]
    cases cs with
    | nil => simp
    | cons c cs => simp [List.getLast?_eq_some_getLast]
  rw [← hfront, ← hback]
  show (cs.dropWhile isBlank).rdropWhile isBlank = cs ↔ _
  constructor
  · intro h
    -- Both passes only drop, so neither has dropped anything.
    have hfirst : cs.dropWhile isBlank = cs := by
      have hlength := (List.rdropWhile_prefix isBlank (cs.dropWhile isBlank)).length_le
      rw [h] at hlength
      exact (List.dropWhile_suffix isBlank).eq_of_length_le hlength
    rw [hfirst] at h
    exact ⟨hfirst, h⟩
  · rintro ⟨hfirst, hsecond⟩
    rw [hfirst, hsecond]

theorem trim_eq_self_iff {s : String} :
    trim s = s ↔ (∀ c ∈ s.toList.head?, isBlank c = false) ∧
      ∀ c ∈ s.toList.getLast?, isBlank c = false := by
  rw [← trimChars_eq_self_iff, ← String.toList_inj, toList_trim]

theorem trimChars_padded {front back : List Char} (hfront : ∀ c ∈ front, isBlank c = true)
    (hback : ∀ c ∈ back, isBlank c = true) (cs : List Char) :
    trimChars (front ++ cs ++ back) = trimChars cs := by
  have hnone : back.dropWhile isBlank = [] := List.dropWhile_eq_nil_iff.2 hback
  rw [trimChars, trimChars, List.append_assoc, List.dropWhile_append_of_pos hfront,
    List.dropWhile_append]
  by_cases hblank : cs.dropWhile isBlank = []
  · simp [hblank, hnone]
  · have hreverse : ∀ c ∈ back.reverse, isBlank c = true := by simpa using hback
    rw [if_neg (by simpa using hblank), List.reverse_append,
      List.dropWhile_append_of_pos hreverse]

theorem trim_padded {front back : String} (hfront : allBlank front = true)
    (hback : allBlank back = true) (s : String) : trim (front ++ s ++ back) = trim s := by
  rw [trim, String.toList_append, String.toList_append,
    trimChars_padded (List.all_eq_true.1 hfront) (List.all_eq_true.1 hback), trim]

theorem trim_of_allBlank {s : String} (h : allBlank s = true) : trim s = "" := by
  have hpadded := trim_padded h (rfl : allBlank "" = true) ""
  rwa [String.append_empty, String.append_empty] at hpadded

theorem not_mem_of_allBlank {s : String} (h : allBlank s = true) {c : Char}
    (hc : isBlank c = false) : c ∉ s.toList := by
  intro hmem
  rw [List.all_eq_true.1 h c hmem] at hc
  cases hc

end CacheGen.Text
