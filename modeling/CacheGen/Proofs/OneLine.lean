import CacheGen.Descriptor.Comment
import CacheGen.Proofs.GoSteps
import CacheGen.Proofs.Joined
import CacheGen.Proofs.QuotedText
import CacheGen.Proofs.Scope

/-!
# Texts without a line feed

A text that is put into a line must not have a line feed in it. Some texts never have one: bodies of
a comment, since the comment is cut at line feeds, and quoted texts, since those are escaped. Names
have none because they are identifiers, and what is derived from identifiers has none either.
-/

namespace CacheGen

/-! ## Texts -/

namespace Text

/-- A text that stays in its line. -/
def OneLine (s : String) : Prop := '\n' ∉ s.toList

instance (s : String) : Decidable (OneLine s) := inferInstanceAs (Decidable ('\n' ∉ s.toList))

@[simp] theorem oneLine_append {a b : String} : OneLine (a ++ b) ↔ OneLine a ∧ OneLine b := by
  simp [OneLine]

@[simp] theorem oneLine_ofList {cs : List Char} : OneLine (String.ofList cs) ↔ '\n' ∉ cs := by
  simp [OneLine]

theorem oneLine_intercalate {separator : String} (hseparator : OneLine separator)
    {ls : List String} (h : ∀ l ∈ ls, OneLine l) : OneLine (separator.intercalate ls) := by
  induction ls with
  | nil => simp [OneLine]
  | cons l ls ih =>
    obtain ⟨hl, hls⟩ := List.forall_mem_cons.1 h
    cases ls with
    | nil => simpa using hl
    | cons m ms =>
      rw [String.intercalate_cons_cons, oneLine_append, oneLine_append]
      exact ⟨⟨hl, hseparator⟩, ih hls⟩

theorem oneLine_toString (n : Nat) : OneLine (toString n) := by
  intro hfeed
  have hdigit : '\n' ∈ n.repr.toList := hfeed
  exact absurd (isDigit_of_mem_repr hdigit) (by decide)

theorem oneLine_quote (s : String) : OneLine (quote s) := by
  have hescape : '\n' ∉ escape s.toList := by
    rw [escape, List.mem_flatMap]
    rintro ⟨c, -, hc⟩
    exact (written_escapeChar c).newline_not_mem hc
  rw [OneLine, toList_quote]
  simp [hescape]

end Text

open Text (OneLine)

/-! ## Comments -/

theorem Comment.oneLine_bodies {raw body : String} (h : body ∈ bodies raw) : OneLine body := by
  obtain ⟨line, hline, rfl⟩ := List.mem_map.1 h
  exact Text.oneLine_ofList.2 (Text.not_mem_of_mem_splitOn hline)

/-! ## Identifiers -/

namespace Naming

theorem IsIdentifier.oneLine {name : String} (h : IsIdentifier name) : OneLine name :=
  fun hfeed => absurd (h.chars _ hfeed) (by decide)

theorem isIdentifierChar_toLower {c : Char} (h : Proto.isIdentifierChar c = true) :
    Proto.isIdentifierChar c.toLower = true :=
  of_ascii (fun c => Proto.isIdentifierChar c = true → Proto.isIdentifierChar c.toLower = true)
    (by decide +kernel) (toNat_lt_of_isIdentifierChar h) h

/-- What stands in front of the methods in fields is an identifier in its characters. -/
theorem isIdentifierChar_of_mem_privateName {service : String} (h : IsIdentifier service) :
    ∀ c ∈ (privateName (managerName service)).toList, Proto.isIdentifierChar c = true := by
  obtain ⟨c, cs, hservice, hc⟩ := h.exists_cons
  have hmanager : "Manager".toList.all Proto.isIdentifierChar = true := by decide
  rw [toList_privateName h hservice, List.forall_mem_cons]
  refine ⟨isIdentifierChar_toLower hc, fun d hd => ?_⟩
  rcases List.mem_append.1 hd with hd | hd
  · exact h.chars d (hservice ▸ List.mem_cons_of_mem c hd)
  · exact List.all_eq_true.1 hmanager d hd

theorem oneLine_handleField {service method : String} (h : IsIdentifier service)
    (hmethod : OneLine method) : OneLine (handleField service method) := by
  have hprivate : OneLine (privateName (managerName service)) := fun hfeed =>
    absurd (isIdentifierChar_of_mem_privateName h _ hfeed) (by decide)
  rw [handleField, compositeName, Text.oneLine_append, Text.oneLine_append]
  exact ⟨⟨hprivate, by decide⟩, hmethod⟩

/-! ## Go names -/

theorem oneLine_goName {name : String} (h : OneLine name) : OneLine (goName name) := by
  have hall : ∀ d ∈ (goName name).toList, d ≠ '\n' := by
    refine forall_goName (by decide) (by decide) (fun c hc => ?_) (fun c hc _ => ?_)
    · rintro hfeed
      have hupper := (toUpper_spec hc).1
      rw [hfeed] at hupper
      cases hupper
    · rintro rfl
      exact h hc
  exact fun hfeed => hall _ hfeed rfl

end Naming

end CacheGen
