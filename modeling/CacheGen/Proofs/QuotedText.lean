import CacheGen.Json.Reader
import CacheGen.Text.Quoted
import Mathlib.Algebra.Ring.Parity
import Mathlib.Data.List.DropRight
import Mathlib.Tactic.SplitIfs

/-!
# Reading quoted texts

A quoted text stands in source code of several languages. Each of them has rules of its own for what
may stand between the quotes (`LiteralRules`), and reads the literal character by character up to
the first quote that no backslash takes in.

**Characters.** A character is written in one of four ways (`Written`). Rules that read each of
these ways as the character (`LiteralRules.Undo`) read a quoted text as the text, and leave over
what stands behind it (`LiteralRules.read_quote`).

**Quotes.** Whether a quote is escaped depends on the run of backslashes in front of it. In a quoted
text each character leaves an even run behind it, so the one backslash of an escaped quote makes the
run odd (`quotesEscaped_escape`).
-/

namespace CacheGen

/-! ## Digits -/

namespace Json

theorem hexValue?_digitChar {n : Nat} (h : n < 16) : hexValue? (Nat.digitChar n) = some n := by
  have hall : ∀ n < 16, hexValue? (Nat.digitChar n) = some n := by decide
  exact hall n h

/-- The digits of a control are read as its number. -/
theorem readUnit_digits {n : Nat} (h : n < 0x100) (rest : List Char) :
    readUnit ('0' :: '0' :: Nat.digitChar (n / 16) :: Nat.digitChar (n % 16) :: rest) =
      some (n, rest) := by
  have hzero : hexValue? '0' = some 0 := rfl
  have hnumber : n / 16 * 16 + n % 16 = n := by omega
  simp [readUnit, hzero, hexValue?_digitChar (show n / 16 < 16 by omega),
    hexValue?_digitChar (Nat.mod_lt n (show 0 < 16 by omega)), hnumber]

end Json

namespace Text

/-! ## Characters -/

/-- The controls that are written by a letter. -/
def letters : List (Char × Char) :=
  [('\n', 'n'), ('\r', 'r'), ('\t', 't'), (Char.ofNat 0x08, 'b'), (Char.ofNat 0x0C, 'f')]

/-- The ways in which a character is written between the quotes. -/
inductive Written : Char → List Char → Prop
  | plain {c : Char} (hquote : c ≠ '"') (hmark : c ≠ '\\') (hplain : 0x20 ≤ c.toNat) :
      Written c [c]
  | marked {c : Char} (h : c = '"' ∨ c = '\\') : Written c ['\\', c]
  | lettered {c letter : Char} (h : (c, letter) ∈ letters) : Written c ['\\', letter]
  | numbered {c : Char} (h : c.toNat < 0x20) :
      Written c ['\\', 'u', '0', '0', Nat.digitChar (c.toNat / 16), Nat.digitChar (c.toNat % 16)]

theorem written_escapeChar (c : Char) : Written c (escapeChar c) := by
  have hcontrol : ∀ {n : Nat}, c.toNat = n → c = Char.ofNat n := by
    rintro n rfl
    exact (Char.ofNat_toNat c).symm
  unfold escapeChar
  split_ifs with hmark hfeed hreturn htab hback hform hnumber
  · exact .marked hmark
  · exact .lettered (by simp [hfeed, letters])
  · exact .lettered (by simp [hreturn, letters])
  · exact .lettered (by simp [htab, letters])
  · exact .lettered (by simp [hcontrol hback, letters])
  · exact .lettered (by simp [hcontrol hform, letters])
  · exact .numbered hnumber
  · rw [not_or] at hmark
    exact .plain hmark.1 hmark.2 (not_lt.1 hnumber)

theorem Written.ne_nil {c : Char} {text : List Char} (h : Written c text) : text ≠ [] := by
  cases h <;> exact List.cons_ne_nil _ _

theorem Written.newline_not_mem {c : Char} {text : List Char} (h : Written c text) :
    '\n' ∉ text := by
  cases h with
  | plain _ _ hplain =>
    rw [List.mem_singleton]
    rintro rfl
    exact absurd hplain (by decide)
  | marked h => rcases h with rfl | rfl <;> decide
  | lettered h =>
    have hletters : ∀ e ∈ letters, '\n' ∉ ['\\', e.2] := by decide
    exact hletters _ h
  | numbered h =>
    have hdigits : ∀ d < 16, '\n' ≠ Nat.digitChar d := by decide
    simp [hdigits (c.toNat / 16) (by omega), hdigits (c.toNat % 16) (by omega)]

theorem length_le_escape (cs : List Char) : cs.length ≤ (escape cs).length := by
  induction cs with
  | nil => exact Nat.le_refl 0
  | cons c cs ih =>
    have hone : 0 < (escapeChar c).length := List.length_pos_iff.2 (written_escapeChar c).ne_nil
    rw [escape, List.flatMap_cons, List.length_append, List.length_cons]
    rw [escape] at ih
    omega

/-! ## Quotes -/

/-- How many backslashes stand at the end. -/
def backslashesAtEnd (cs : List Char) : Nat := (cs.rtakeWhile (· = '\\')).length

/-- In front of each quote is a backslash that is not itself escaped. -/
def QuotesEscaped (cs : List Char) : Prop :=
  ∀ before after, cs = before ++ '"' :: after → Odd (backslashesAtEnd before)

theorem backslashesAtEnd_concat (cs : List Char) (c : Char) :
    backslashesAtEnd (cs ++ [c]) = if c = '\\' then backslashesAtEnd cs + 1 else 0 := by
  unfold backslashesAtEnd
  rw [List.rtakeWhile_concat]
  split_ifs <;> simp_all

theorem backslashesAtEnd_append {before text : List Char} {c : Char}
    (hlast : text.getLast? = some c) (hc : c ≠ '\\') : backslashesAtEnd (before ++ text) = 0 := by
  obtain ⟨front, rfl⟩ := List.getLast?_eq_some_iff.1 hlast
  rw [← List.append_assoc, backslashesAtEnd_concat, if_neg hc]

theorem digitChar_ne {n : Nat} (h : n < 16) : Nat.digitChar n ≠ '\\' ∧ Nat.digitChar n ≠ '"' := by
  have hall : ∀ n < 16, Nat.digitChar n ≠ '\\' ∧ Nat.digitChar n ≠ '"' := by decide
  exact hall n h

theorem letter_ne {c letter : Char} (h : (c, letter) ∈ letters) : letter ≠ '\\' ∧ letter ≠ '"' := by
  have hall : ∀ e ∈ letters, e.2 ≠ '\\' ∧ e.2 ≠ '"' := by decide
  exact hall _ h

/-- A character leaves an even run of backslashes behind it. -/
theorem Written.even_backslashesAtEnd {c : Char} {text before : List Char} (h : Written c text)
    (hbefore : Even (backslashesAtEnd before)) : Even (backslashesAtEnd (before ++ text)) := by
  cases h with
  | plain _ hmark => rw [backslashesAtEnd_append rfl hmark]; exact Even.zero
  | marked h =>
    rcases h with rfl | rfl
    · rw [backslashesAtEnd_append rfl (by decide)]; exact Even.zero
    · rw [List.append_cons, backslashesAtEnd_concat, backslashesAtEnd_concat, if_pos rfl,
        if_pos rfl]
      exact hbefore.add_one.add_one
  | lettered h => rw [backslashesAtEnd_append rfl (letter_ne h).1]; exact Even.zero
  | numbered h =>
    rw [backslashesAtEnd_append rfl (digitChar_ne (Nat.mod_lt _ (by decide))).1]; exact Even.zero

/-- A quote is written behind one backslash. -/
theorem Written.eq_of_quote {c : Char} {text before after : List Char} (h : Written c text)
    (hquote : text = before ++ '"' :: after) : before = ['\\'] := by
  have hmem : '"' ∈ text := hquote ▸ List.mem_append_right before List.mem_cons_self
  cases h with
  | plain hne => exact absurd (List.mem_singleton.1 hmem).symm hne
  | marked =>
    cases before with
    | nil => exact absurd (List.cons.inj hquote).1 (by decide)
    | cons d ds =>
      obtain ⟨rfl, hrest⟩ := List.cons.inj hquote
      cases ds with
      | nil => rfl
      | cons => simp at hrest
  | lettered h => simp [(letter_ne h).2.symm] at hmem
  | numbered h =>
    have hdigit : ∀ n < 16, '"' ≠ Nat.digitChar n := fun n hn => (digitChar_ne hn).2.symm
    simp [hdigit (c.toNat / 16) (by omega), hdigit (c.toNat % 16) (by omega)] at hmem

theorem even_backslashesAtEnd_escape (cs : List Char) : Even (backslashesAtEnd (escape cs)) := by
  induction cs using List.reverseRecOn with
  | nil => exact Even.zero
  | append_singleton cs c ih =>
    rw [escape_append, escape, escape, List.flatMap_singleton]
    exact (written_escapeChar c).even_backslashesAtEnd ih

theorem quotesEscaped_escape (cs : List Char) : QuotesEscaped (escape cs) := by
  induction cs using List.reverseRecOn with
  | nil =>
    intro before after h
    simp [escape] at h
  | append_singleton cs c ih =>
    intro before after h
    have hlast : escape [c] = escapeChar c := List.flatMap_singleton _ _
    rw [escape_append, hlast, List.append_eq_append_iff] at h
    rcases h with ⟨front, rfl, htext⟩ | ⟨back, hcs, htext⟩
    · -- The quote is the last character, behind the backslash that it is written with.
      rw [(written_escapeChar c).eq_of_quote htext, backslashesAtEnd_concat, if_pos rfl]
      exact (even_backslashesAtEnd_escape cs).add_one
    · cases back with
      | nil =>
        have htext : escapeChar c = [] ++ '"' :: after := htext.symm
        simpa using (written_escapeChar c).eq_of_quote htext
      | cons d back =>
        obtain ⟨rfl, -⟩ := List.cons.inj htext
        exact ih before back hcs

/-! ## Literals -/

/-- What may stand between the quotes of a literal, with the values that it stands for. -/
structure LiteralRules (υ : Type) where
  /-- The values of a character that stands for itself, if it may. -/
  plain : Char → Option (List υ)
  /-- The values of the escape behind a backslash, with the text behind it. -/
  readEscape : List Char → Option (List υ × List Char)

namespace LiteralRules

variable {υ : Type} (L : LiteralRules υ)

/-- The values up to the closing quote, with the text behind it. -/
def readInside : Nat → List Char → Option (List υ × List Char)
  | 0, _ => none
  | _, [] => none
  | _, '"' :: cs => some ([], cs)
  | n + 1, '\\' :: cs => do
    let (first, cs) ← L.readEscape cs
    let (values, rest) ← readInside n cs
    return (first ++ values, rest)
  | n + 1, c :: cs => do
    let first ← L.plain c
    let (values, rest) ← readInside n cs
    return (first ++ values, rest)

/-- The values of the literal that stands in front, with the text behind it. -/
def read : List Char → Option (List υ × List Char)
  | '"' :: cs => L.readInside (cs.length + 1) cs
  | _ => none

/-- `L` reads each character, as it is written, as its `value`. -/
structure Undo (value : Char → List υ) : Prop where
  plain : ∀ c, 0x20 ≤ c.toNat → L.plain c = some (value c)
  marked : ∀ c rest, c = '"' ∨ c = '\\' → L.readEscape (c :: rest) = some (value c, rest)
  lettered : ∀ e ∈ letters, ∀ rest, L.readEscape (e.2 :: rest) = some (value e.1, rest)
  numbered : ∀ c rest, c.toNat < 0x20 → L.readEscape
    ('u' :: '0' :: '0' :: Nat.digitChar (c.toNat / 16) :: Nat.digitChar (c.toNat % 16) :: rest) =
      some (value c, rest)

variable {L} {value : Char → List υ}

theorem readInside_close (n : Nat) (rest : List Char) :
    L.readInside (n + 1) ('"' :: rest) = some ([], rest) := by
  rw [readInside]
  simp

theorem Undo.readInside_escapeChar (h : L.Undo value) (n : Nat) (c : Char) (cs : List Char) :
    L.readInside (n + 1) (escapeChar c ++ cs) =
      (L.readInside n cs).map fun (values, rest) => (value c ++ values, rest) := by
  have hescaped : ∀ text, L.readEscape (text ++ cs) = some (value c, cs) →
      L.readInside (n + 1) ('\\' :: (text ++ cs)) =
        (L.readInside n cs).map fun (values, rest) => (value c ++ values, rest) := by
    intro text htext
    rw [readInside, htext]
    show L.readInside n cs >>= _ = _
    cases L.readInside n cs <;> rfl
  have hwritten := written_escapeChar c
  generalize escapeChar c = text at hwritten
  cases hwritten with
  | plain hquote hmark hplain =>
    rw [List.singleton_append, readInside, h.plain c hplain]
    · show L.readInside n cs >>= _ = _
      cases L.readInside n cs <;> rfl
    · exact hquote
    · exact hmark
  | marked hc => exact hescaped [c] (h.marked c cs hc)
  | lettered hletter => exact hescaped [_] (h.lettered _ hletter cs)
  | numbered hc => exact hescaped _ (h.numbered c cs hc)

theorem Undo.readInside_escape (h : L.Undo value) {n : Nat} {cs : List Char} (hn : cs.length < n)
    (rest : List Char) :
    L.readInside n (escape cs ++ '"' :: rest) = some (cs.flatMap value, rest) := by
  induction cs generalizing n with
  | nil =>
    cases n with
    | zero => cases hn
    | succ n => exact readInside_close n rest
  | cons c cs ih =>
    cases n with
    | zero => cases hn
    | succ n =>
      rw [escape, List.flatMap_cons, List.append_assoc, h.readInside_escapeChar, ← escape,
        ih (Nat.lt_of_succ_lt_succ hn)]
      rfl

/-- **A quoted text is read back**, whatever stands behind it. -/
theorem Undo.read_quote (h : L.Undo value) (s : String) (rest : List Char) :
    L.read ((quote s).toList ++ rest) = some (s.toList.flatMap value, rest) := by
  rw [toList_quote, List.append_assoc, List.cons_append]
  refine h.readInside_escape ?_ rest
  have hlength := length_le_escape s.toList
  simp only [List.length_append]
  omega

end LiteralRules

end Text

end CacheGen
