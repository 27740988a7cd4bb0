import CacheGen.Path
import CacheGen.Proofs.Joined

/-!
# Where a path leads

A text cut at its slashes is a *folder*, the pieces before the last, and a last piece. An ending
without a slash changes the last piece alone. If the ending is longer than `..`, the last piece
becomes a name whatever it was before, so the text leads to that name below its folder.

Two texts *meet* when their folders lead to the same location and their last pieces are the same.
With such an ending these texts lead to one place, and no others do. Plain texts, which spell the
names on the way down, meet only when they are the same.
-/

namespace CacheGen

/-! ## Cutting -/

theorem Text.dropStart?_eq_some {start s rest : String} :
    Text.dropStart? start s = some rest ↔ s = start ++ rest := by
  unfold Text.dropStart?
  rw [Option.map_eq_some_iff, ← String.toList_inj, String.toList_append]
  constructor
  · rintro ⟨l, hl, rfl⟩
    rw [← List.isPrefixOf?_eq_some_iff_append_eq.1 hl, String.toList_ofList]
  · intro h
    exact ⟨rest.toList, List.isPrefixOf?_eq_some_iff_append_eq.2 h.symm, String.ofList_toList⟩

theorem Text.dropEnd?_eq_some {ending s rest : String} :
    Text.dropEnd? ending s = some rest ↔ s = rest ++ ending := by
  unfold Text.dropEnd?
  rw [Option.map_eq_some_iff, ← String.toList_inj, String.toList_append]
  constructor
  · rintro ⟨l, hl, rfl⟩
    rw [← List.isSuffixOf?_eq_some_iff_append_eq.1 hl, String.toList_ofList]
  · intro h
    exact ⟨rest.toList, List.isSuffixOf?_eq_some_iff_append_eq.2 h.symm, String.ofList_toList⟩

theorem Text.isSome_dropStart? (start s : String) :
    (Text.dropStart? start s).isSome = Text.startsWith s start := by
  rw [Text.dropStart?, Option.isSome_map, List.isSome_isPrefixOf?_eq_isPrefixOf, Text.startsWith]

/-- What is stripped ends with a slash, so it does not reach into an ending. -/
theorem dropStart?_append {m s e rest : String} (he : '/' ∉ e.toList)
    (h : Text.dropStart? (m ++ "/") (s ++ e) = some rest) :
    ∃ s', Text.dropStart? (m ++ "/") s = some s' ∧ rest = s' ++ e := by
  obtain ⟨s', hs, hrest⟩ := Text.exists_stem_of_ending he (Text.dropStart?_eq_some.1 h)
  exact ⟨s', Text.dropStart?_eq_some.2 hs, hrest⟩

theorem splitOn_append_of_not_mem {α : Type} [DecidableEq α] {x : α} {e : List α} (he : x ∉ e)
    (l : List α) :
    (l ++ e).splitOn x = (l.splitOn x).dropLast ++ [(l.splitOn x).getLastD [] ++ e] := by
  induction l with
  | nil => rw [List.nil_append, List.splitOn_eq_singleton he, List.splitOn_nil]; rfl
  | cons y l ih =>
    obtain ⟨first, rest, hl⟩ := List.exists_cons_of_ne_nil (List.splitOn_ne_nil x l)
    rw [List.cons_append, List.splitOn_cons_eq_if_modifyHead, List.splitOn_cons_eq_if_modifyHead,
      ih, hl]
    by_cases hy : (y == x) = true
    · rw [if_pos hy, if_pos hy]
      rfl
    · rw [if_neg hy, if_neg hy]
      cases rest <;> rfl

namespace Path

/-- The pieces of `p` before the last. -/
def folder (p : String) : List String := (Text.pieces '/' p).dropLast

def lastPiece (p : String) : String := (Text.pieces '/' p).getLastD ""

theorem pieces_append {e : String} (he : '/' ∉ e.toList) (p : String) :
    Text.pieces '/' (p ++ e) = folder p ++ [lastPiece p ++ e] := by
  have hlast : lastPiece p = String.ofList ((p.toList.splitOn '/').getLastD []) := by
    unfold lastPiece Text.pieces
    rw [List.getLastD_eq_getLast?, List.getLastD_eq_getLast?, List.getLast?_map]
    cases (p.toList.splitOn '/').getLast? <;> rfl
  unfold folder
  rw [hlast, Text.pieces, String.toList_append, splitOn_append_of_not_mem he, List.map_append,
    Text.pieces, List.map_dropLast, List.map_singleton, String.ofList_append, String.ofList_toList]

theorem pieces_eq (p : String) : Text.pieces '/' p = folder p ++ [lastPiece p] := by
  have hslash : '/' ∉ "".toList := by decide
  have h := pieces_append hslash p
  rwa [String.append_empty, String.append_empty] at h

theorem folder_append {e : String} (he : '/' ∉ e.toList) (p : String) :
    folder (p ++ e) = folder p := by
  unfold folder
  rw [pieces_append he, List.dropLast_concat]
  rfl

theorem pieces_injective {a b : String} (h : Text.pieces '/' a = Text.pieces '/' b) : a = b := by
  have hback : ∀ p : String, (String.singleton '/').intercalate (Text.pieces '/' p) = p :=
    Text.intercalate_pieces '/'
  rw [← hback a, h, hback]

theorem isAbsolute_append {e : String} (he : '/' ∉ e.toList) (p : String) :
    isAbsolute (p ++ e) = isAbsolute p := by
  unfold isAbsolute
  rw [String.toList_append]
  cases hp : p.toList with
  | cons c cs => rfl
  | nil =>
    cases h : e.toList with
    | nil => rfl
    | cons c cs =>
      have hc : c ≠ '/' := fun hc => he (by rw [h, hc]; exact List.mem_cons_self)
      simp [hc]

end Path

/-! ## Meeting -/

namespace Location

/-- The location of the folder of the text `p`. -/
def folderOf (out : Location) (p : String) : Location :=
  ⟨walk false (if Path.isAbsolute p then [] else out.names) (Path.folder p)⟩

/-- The texts `a` and `b` lead to one place when both are given one long ending. -/
structure Meet (out : Location) (a b : String) : Prop where
  folder : out.folderOf a = out.folderOf b
  lastPiece : Path.lastPiece a = Path.lastPiece b

instance (out : Location) (a b : String) : Decidable (Meet out a b) :=
  decidable_of_iff (out.folderOf a = out.folderOf b ∧ Path.lastPiece a = Path.lastPiece b)
    ⟨fun ⟨h, h'⟩ => ⟨h, h'⟩, fun ⟨h, h'⟩ => ⟨h, h'⟩⟩

theorem resolve_append {e : String} (he : '/' ∉ e.toList) (hlong : 2 < e.length)
    (out : Location) (p : String) :
    out.resolve (p ++ e) = ⟨(out.folderOf p).names ++ [Path.lastPiece p ++ e]⟩ := by
  have hlength : 2 < (Path.lastPiece p ++ e).length := by
    rw [String.length_append]
    omega
  have hplain : ∀ short : String, short.length ≤ 2 → Path.lastPiece p ++ e ≠ short := by
    rintro _ hshort rfl
    omega
  unfold resolve folderOf walk
  rw [Path.isAbsolute_append he, Path.pieces_append he, List.foldl_append, List.foldl_cons,
    List.foldl_nil]
  rw [stepName, if_neg, if_neg (hplain ".." (by decide))]
  rintro (h | h)
  · exact hplain "" (by decide) h
  · exact hplain "." (by decide) h

theorem resolve_eq_iff_meet {e : String} (he : '/' ∉ e.toList) (hlong : 2 < e.length)
    (out : Location) (a b : String) :
    out.resolve (a ++ e) = out.resolve (b ++ e) ↔ out.Meet a b := by
  rw [resolve_append he hlong, resolve_append he hlong, Location.mk.injEq]
  constructor
  · intro h
    obtain ⟨hfolder, hlast⟩ := List.append_inj' h rfl
    refine ⟨congrArg Location.mk hfolder, ?_⟩
    exact String.append_left_inj e |>.1 (List.singleton_inj.1 hlast)
  · rintro ⟨hfolder, hlast⟩
    rw [hfolder, hlast]

example : Location.root.Meet "shop/order" "./shop//order" := by decide

end Location

/-! ## Plain paths -/

namespace Path

theorem isAbsolute_of_folder {p : String} (h : "" ∉ folder p) : isAbsolute p = false := by
  unfold isAbsolute
  cases hp : p.toList with
  | nil => rfl
  | cons c cs =>
    by_cases hc : c = '/'
    · have hempty : "" ∈ folder p := by
        obtain ⟨first, rest, hrest⟩ := List.exists_cons_of_ne_nil (List.splitOn_ne_nil '/' cs)
        unfold folder Text.pieces
        rw [hp, hc, List.splitOn_cons_eq_if_modifyHead, if_pos (beq_self_eq_true _), hrest]
        exact List.mem_cons_self
      exact absurd hempty h
    · simp [hc]

section

variable {names : List String} (h : ∀ name ∈ names, name ≠ "" ∧ '/' ∉ name.toList)

include h

/-- Joined names are cut into the same names again. -/
theorem pieces_joined (hne : names ≠ []) : Text.pieces '/' ("/".intercalate names) = names :=
  Text.pieces_intercalate hne fun name hname => (h name hname).2

theorem joined_ne_empty (hne : names ≠ []) : "/".intercalate names ≠ "" := by
  intro hempty
  have hpieces := pieces_joined h hne
  rw [hempty] at hpieces
  have hmem : "" ∈ names := hpieces ▸ List.mem_cons_self
  exact (h "" hmem).1 rfl

theorem isAbsolute_joined : isAbsolute ("/".intercalate names) = false := by
  by_cases hne : names = []
  · rw [hne]
    rfl
  · refine isAbsolute_of_folder fun hempty => ?_
    rw [folder, pieces_joined h hne] at hempty
    exact (h "" (List.dropLast_subset _ hempty)).1 rfl

end

/-- The folder of `p` is spelled by the names on the way down to it. -/
def IsPlain (p : String) : Prop := ∀ name ∈ folder p, name ≠ "" ∧ name ≠ "." ∧ name ≠ ".."

theorem isAbsolute_eq_false {p : String} (h : IsPlain p) : isAbsolute p = false :=
  isAbsolute_of_folder fun hempty => (h "" hempty).1 rfl

end Path

theorem walk_plain {climbs : Bool} {names : List String}
    (h : ∀ name ∈ names, name ≠ "" ∧ name ≠ "." ∧ name ≠ "..") (start : List String) :
    walk climbs start names = start ++ names := by
  induction names generalizing start with
  | nil => rw [List.append_nil]; rfl
  | cons name names ih =>
    obtain ⟨hempty, hdot, hdots⟩ := h name List.mem_cons_self
    have hstep : stepName climbs start name = start ++ [name] := by
      rw [stepName, if_neg (not_or.2 ⟨hempty, hdot⟩), if_neg hdots]
    rw [walk, List.foldl_cons, hstep]
    exact (ih (fun n hn => h n (List.mem_cons_of_mem _ hn)) _).trans (List.append_assoc _ _ _)

theorem Location.folderOf_of_plain (out : Location) {p : String} (h : Path.IsPlain p) :
    out.folderOf p = ⟨out.names ++ Path.folder p⟩ := by
  unfold folderOf
  rw [Path.isAbsolute_eq_false h, walk_plain h]
  rfl

/-- Plain stems meet only when they are the same. -/
theorem Location.meet_iff_of_plain {out : Location} {a b : String} (ha : Path.IsPlain a)
    (hb : Path.IsPlain b) : out.Meet a b ↔ a = b := by
  constructor
  · rintro ⟨hsame, hlast⟩
    rw [folderOf_of_plain out ha, folderOf_of_plain out hb, Location.mk.injEq] at hsame
    apply Path.pieces_injective
    rw [Path.pieces_eq, Path.pieces_eq, List.append_cancel_left hsame, hlast]
  · rintro rfl
    exact ⟨rfl, rfl⟩

end CacheGen
