import CacheGen.Proofs.DerivedNames
import CacheGen.Proofs.Joined

/-!
# Names of Go packages

The name of a Go package is one of four texts, made an identifier (`File.goPackageName_eq`). Any text
with a character in it becomes an identifier, and the empty text stays empty
(`isIdentifier_goIdentifier_iff`). So a package has a name unless the text is empty, and that it is
exactly where the `go_package` ends right behind its last semicolon or, having none, behind its last
slash (`File.isIdentifier_goPackageName_iff`). No other text stands in then: `a;` names no package,
whatever the protobuf package and the file are called.
-/

namespace CacheGen

/-! ## The last mark -/

namespace Text

theorem exists_last_mark {c : Char} {s : String} (h : c ∈ s.toList) :
    ∃ before after, s = before ++ String.singleton c ++ after ∧ c ∉ after.toList := by
  obtain ⟨after, before, hs, hafter⟩ := List.eq_append_cons_of_mem (List.mem_reverse.2 h)
  refine ⟨String.ofList before.reverse, String.ofList after.reverse, ?_, ?_⟩
  · rw [← String.toList_inj, ← List.reverse_reverse s.toList, hs]
    simp
  · simpa using hafter

section

variable {c : Char} {after : String} (h : c ∉ after.toList)

include h

theorem cutLast?_append (before : String) :
    cutLast? c (before ++ String.singleton c ++ after) = some (before, after) := by
  have hmark : ∀ x ∈ after.toList.reverse, decide (x ≠ c) = true := by
    intro x hx
    simpa using fun hc : x = c => h (hc ▸ List.mem_reverse.1 hx)
  have hback : (before ++ String.singleton c ++ after).toList.reverse =
      after.toList.reverse ++ c :: before.toList.reverse := by
    simp
  rw [cutLast?, hback, List.dropWhile_append_of_pos hmark, List.takeWhile_append_of_pos hmark]
  simp

/-- A text ends with the mark when nothing stands behind the last one. -/
theorem endsWith_mark_iff (before : String) :
    endsWith (before ++ String.singleton c ++ after) (String.singleton c) = true ↔ after = "" := by
  rw [endsWith_iff]
  constructor
  · rintro ⟨start, hstart⟩
    have hlast := congrArg List.getLast? hstart
    by_contra hne
    have hne' : after.toList ≠ [] := by simpa using hne
    rw [String.toList_singleton, List.getLast?_append_of_ne_nil _ (List.cons_ne_nil _ _),
      String.toList_append, List.getLast?_append_of_ne_nil _ hne'] at hlast
    exact h (List.mem_of_getLast? hlast.symm)
  · rintro rfl
    simp

end

theorem cutLast?_of_not_mem {c : Char} {s : String} (h : c ∉ s.toList) : cutLast? c s = none := by
  have hdrop : s.toList.reverse.dropWhile (· ≠ c) = [] := by
    rw [List.dropWhile_eq_nil_iff]
    intro x hx
    simpa using fun hc : x = c => h (hc ▸ List.mem_reverse.1 hx)
  rw [cutLast?, hdrop]

theorem not_endsWith_of_not_mem {c : Char} {s : String} (h : c ∉ s.toList) :
    endsWith s (String.singleton c) = false := by
  rw [Bool.eq_false_iff, ne_eq, endsWith_iff]
  intro hsuffix
  exact h (hsuffix.subset (by simp))

theorem afterLast_eq_empty_iff {c : Char} {s : String} :
    afterLast c s = "" ↔ s = "" ∨ endsWith s (String.singleton c) = true := by
  by_cases h : c ∈ s.toList
  · obtain ⟨before, after, rfl, hafter⟩ := exists_last_mark h
    have hne : before ++ String.singleton c ++ after ≠ "" := by
      rintro hempty
      rw [hempty] at h
      simp at h
    rw [afterLast, cutLast?_append hafter, endsWith_mark_iff hafter, or_iff_right hne]
  · rw [afterLast, cutLast?_of_not_mem h, not_endsWith_of_not_mem h]
    simp

/-- Putting another mark in place of `c` leaves something of any text. -/
theorem joined_pieces_ne_empty {c : Char} {s mark : String} (hs : s ≠ "") (hmark : mark ≠ "") :
    mark.intercalate (pieces c s) ≠ "" := by
  have hback : [c].intercalate (s.toList.splitOn c) = s.toList := List.intercalate_splitOn c
  unfold pieces
  cases hpieces : s.toList.splitOn c with
  | nil => exact absurd hpieces (List.splitOn_ne_nil c _)
  | cons first rest =>
    rw [hpieces] at hback
    cases rest with
    | nil =>
      rw [List.intercalate_singleton] at hback
      simpa [hback] using hs
    | cons second rest =>
      rw [List.map_cons, List.map_cons, String.intercalate_cons_cons]
      simp [hmark]

end Text

/-! ## Identifiers -/

namespace Proto

theorem isIdentifierChar_of_mem_identifierChars {cs : List Char} :
    ∀ c ∈ identifierChars cs, isIdentifierChar c = true := by
  intro c hc
  obtain ⟨d, -, hd⟩ := List.mem_flatMap.1 hc
  split at hd
  · next h =>
    rw [List.mem_singleton.1 hd]
    exact h
  · rw [List.eq_of_mem_replicate hd]
    rfl

/-- Each character is one unit at least, so none is lost. -/
theorem identifierChars_ne_nil {cs : List Char} (h : cs ≠ []) : identifierChars cs ≠ [] := by
  obtain ⟨c, rest, rfl⟩ := List.exists_cons_of_ne_nil h
  intro hnil
  have hfirst := List.flatMap_eq_nil_iff.1 hnil c List.mem_cons_self
  split at hfirst
  · cases hfirst
  · unfold Text.charUnits at hfirst
    split at hfirst <;> simp at hfirst

theorem isIdentifier_goIdentifier_iff {name : String} :
    Naming.IsIdentifier (goIdentifier name) ↔ name ≠ "" := by
  constructor
  · rintro h rfl
    exact h.ne_empty rfl
  · intro h
    have hne : name.toList ≠ [] := by simpa using h
    obtain ⟨c, cs, hchars⟩ := List.exists_cons_of_ne_nil (identifierChars_ne_nil hne)
    have hall : ∀ d ∈ c :: cs, isIdentifierChar d = true := by
      rw [← hchars]
      exact isIdentifierChar_of_mem_identifierChars
    rw [goIdentifier, hchars]
    show Naming.IsIdentifier (String.ofList (if c.isDigit = true then '_' :: c :: cs else c :: cs))
    by_cases hdigit : c.isDigit = true
    · rw [if_pos hdigit]
      refine ⟨?_, by simp⟩
      intro d hd
      rw [String.toList_ofList, List.mem_cons] at hd
      rcases hd with rfl | hd
      · rfl
      · exact hall d hd
    · rw [if_neg hdigit]
      exact ⟨by simpa using hall, by simpa using hdigit⟩

/-! ## The text behind a name -/

/-- The text that the name of a Go package is made of. -/
def File.packageSource (f : File) (goPackage : String) : String :=
  if goPackage ≠ "" then
    match Text.cutLast? ';' goPackage with
    | some (_, name) => name
    | none => Text.afterLast '/' goPackage
  else if f.package ≠ "" then "_".intercalate (Text.pieces '.' f.package)
  else Text.afterLast '/' (stem f.name)

/-- A `go_package` with nothing where it names the package: behind its last semicolon or, if it has
none, behind its last slash. -/
def LacksName (goPackage : String) : Prop :=
  Text.endsWith goPackage ";" = true ∨
    ';' ∉ goPackage.toList ∧ Text.endsWith goPackage "/" = true

instance (goPackage : String) : Decidable (LacksName goPackage) := instDecidableOr

section

variable (f : File) (goPackage : String)

theorem File.goPackageName_eq :
    f.goPackageName goPackage = goIdentifier (f.packageSource goPackage) := by
  unfold goPackageName packageSource
  split
  · cases Text.cutLast? ';' goPackage <;> rfl
  · split <;> rfl

theorem File.packageSource_eq_empty_iff (hbase : Text.afterLast '/' (stem f.name) ≠ "") :
    f.packageSource goPackage = "" ↔ LacksName goPackage := by
  unfold packageSource LacksName
  by_cases hgiven : goPackage = ""
  · subst hgiven
    have hpackage : f.package ≠ "" → "_".intercalate (Text.pieces '.' f.package) ≠ "" :=
      fun h => Text.joined_pieces_ne_empty h (by decide)
    by_cases h : f.package = ""
    · simpa [h, Text.endsWith] using hbase
    · simpa [h, Text.endsWith] using hpackage h
  · rw [if_pos hgiven]
    by_cases hmark : ';' ∈ goPackage.toList
    · obtain ⟨before, after, hparts, hafter⟩ := Text.exists_last_mark hmark
      rw [or_iff_left fun h => h.1 hmark, hparts, Text.cutLast?_append hafter]
      exact (Text.endsWith_mark_iff hafter before).symm
    · have hopen : ¬ Text.endsWith goPackage ";" = true :=
        Bool.eq_false_iff.1 (Text.not_endsWith_of_not_mem hmark)
      rw [Text.cutLast?_of_not_mem hmark, and_iff_right hmark, or_iff_right hopen]
      exact Text.afterLast_eq_empty_iff.trans (or_iff_right hgiven)

end

/-- **Names of Go packages.** For a file with a base name, and whatever its `go_package` is, the name
of its Go package is an identifier exactly when the `go_package` has something where it names the
package. Where it has nothing the name is empty. -/
theorem File.isIdentifier_goPackageName_iff (f : File) (goPackage : String)
    (hbase : Text.afterLast '/' (stem f.name) ≠ "") :
    (Naming.IsIdentifier (f.goPackageName goPackage) ↔ ¬ LacksName goPackage) ∧
      (LacksName goPackage → f.goPackageName goPackage = "") := by
  have hsource := f.packageSource_eq_empty_iff goPackage hbase
  rw [f.goPackageName_eq goPackage]
  refine ⟨isIdentifier_goIdentifier_iff.trans (not_congr hsource), fun hlacks => ?_⟩
  rw [hsource.2 hlacks]
  rfl

/-- A file of a protobuf package. -/
def orderFile : File where
  name := "shop/v1/order.proto"
  package := "shop.v1"

theorem File.isIdentifier_goPackageName_iff_orderFile :
    Text.afterLast '/' (stem orderFile.name) ≠ "" ∧
      ¬ LacksName "example.com/;2-fast" ∧
      orderFile.goPackageName "example.com/;2-fast" = "_2_fast" ∧
      Naming.IsIdentifier (orderFile.goPackageName "example.com/;2-fast") := by
  have hbase : Text.afterLast '/' (stem orderFile.name) ≠ "" := by decide
  have hnamed : ¬ LacksName "example.com/;2-fast" := by decide
  refine ⟨hbase, hnamed, by decide, ?_⟩
  exact (File.isIdentifier_goPackageName_iff orderFile _ hbase).1.2 hnamed

/-- Behind the semicolon nothing stands, and neither the path nor the protobuf package does for it. -/
theorem semicolon_leaves_package_nameless :
    Text.afterLast '/' (stem orderFile.name) ≠ "" ∧
      orderFile.goPackageName "a;" = "" ∧
      ¬ Naming.IsIdentifier (orderFile.goPackageName "a;") := by
  decide

end Proto

end CacheGen
