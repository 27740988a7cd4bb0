import CacheGen.Naming.GoName
import CacheGen.Proofs.DerivedNames

/-!
# What the characters of a name become

Between its neighbours, a character of a name becomes nothing, an underscore, an `X`, its capital or
itself (`Becomes`). Nothing else is in a Go name, so what holds of these holds of every character of
it (`forall_goName`).
-/

namespace CacheGen.Naming

/-! ## Letters -/

/-- A character in ASCII is one of the first 128. -/
theorem of_ascii (p : Char → Prop) (h : ∀ n < 0x80, p (Char.ofNat n)) {c : Char}
    (hc : c.toNat < 0x80) : p c :=
  Char.ofNat_toNat c ▸ h c.toNat hc

theorem toNat_lt_of_isLowerLetter {c : Char} (h : isLowerLetter c = true) : c.toNat < 0x80 := by
  have hz : c ≤ 'z' := by
    simpa using (Bool.and_eq_true_iff.1 h).2
  exact Nat.lt_of_le_of_lt hz (by decide)

theorem beginsWord_some_iff {p : Char} :
    beginsWord (some p) = true ↔ p = '.' ∨ p = '_' ∨ p.isDigit = true := by
  show (decide (p = '.') || decide (p = '_') || p.isDigit) = true ↔ _
  simp [or_assoc]

theorem beginsWord_eq_false_iff {p : Char} :
    beginsWord (some p) = false ↔ p ≠ '.' ∧ p ≠ '_' ∧ p.isDigit = false := by
  rw [Bool.eq_false_iff, ne_eq, beginsWord_some_iff, not_or, not_or, Bool.not_eq_true]

theorem beginsWord_of_mark {c : Char} (h : c = '.' ∨ c = '_') : beginsWord (some c) = true :=
  beginsWord_some_iff.2 (h.imp_right .inl)

/-- A lower-case letter and its capital. -/
theorem toUpper_spec {c : Char} (h : isLowerLetter c = true) :
    c.toUpper.isUpper = true ∧ c.toUpper.toLower = c ∧ beginsWord (some c) = false :=
  of_ascii (fun c => isLowerLetter c = true →
      c.toUpper.isUpper = true ∧ c.toUpper.toLower = c ∧ beginsWord (some c) = false)
    (by decide +kernel) (toNat_lt_of_isLowerLetter h) h

theorem toLower_of_isLowerLetter {c : Char} (h : isLowerLetter c = true) : c.toLower = c :=
  of_ascii (fun c => isLowerLetter c = true → c.toLower = c) (by decide +kernel)
    (toNat_lt_of_isLowerLetter h) h

theorem isIdentifierChar_of_isUpper {c : Char} (h : c.isUpper = true) :
    Proto.isIdentifierChar c = true := by
  show (((c.isUpper || c.isLower) || c.isDigit) || decide (c = '_')) = true
  rw [h]
  rfl

/-- A capital and its lower-case letter. -/
theorem toLower_spec {c : Char} (h : c.isUpper = true) :
    isLowerLetter c.toLower = true ∧ c.toLower.toUpper = c ∧ isLowerLetter c = false ∧
      beginsWord (some c) = false :=
  of_ascii (fun c => c.isUpper = true → isLowerLetter c.toLower = true ∧
      c.toLower.toUpper = c ∧ isLowerLetter c = false ∧ beginsWord (some c) = false)
    (by decide +kernel) (toNat_lt_of_isIdentifierChar (isIdentifierChar_of_isUpper h)) h

/-! ## What a character becomes -/

/-- What `c` becomes between its neighbours, case by case. -/
inductive Becomes (before : Option Char) (c : Char) (after : Option Char) : List Char → Prop
  | nothing : c = '.' ∨ c = '_' → after.any isLowerLetter = true → Becomes before c after []
  | mark : c = '.' ∨ c = '_' → after.any isLowerLetter = false → Becomes before c after ['_']
  | start : c = '_' → before = none ∨ before = some '.' → Becomes before c after ['X']
  | capital : isLowerLetter c = true → beginsWord before = true →
      Becomes before c after [c.toUpper]
  | itself : c ≠ '.' → c ≠ '_' → (isLowerLetter c = true → beginsWord before = false) →
      Becomes before c after [c]

theorem becomes_goNameStep (before : Option Char) (c : Char) (after : Option Char) :
    Becomes before c after (goNameStep before c after) := by
  unfold goNameStep
  split_ifs with hdot hafter hmark hstart hafter hword
  · exact .nothing (.inl hdot) hafter
  · exact .mark (.inl hdot) (Bool.eq_false_iff.2 hafter)
  · exact .start hmark hstart
  · exact .nothing (.inr hmark) hafter
  · exact .mark (.inr hmark) (Bool.eq_false_iff.2 hafter)
  · obtain ⟨hlower, hbegins⟩ := Bool.and_eq_true_iff.1 hword
    exact .capital hlower hbegins
  · refine .itself hdot hmark fun hlower => Bool.eq_false_iff.2 fun hbegins => hword ?_
    rw [hlower, hbegins]
    rfl

/-- A character behind which no word begins becomes itself or, where a word begins, its capital. -/
theorem goNameStep_inside {c : Char} (h : beginsWord (some c) = false)
    (before after : Option Char) : goNameStep before c after =
      [if isLowerLetter c = true ∧ beginsWord before = true then c.toUpper else c] := by
  obtain ⟨hdot, hmark, -⟩ := beginsWord_eq_false_iff.1 h
  have hstep := becomes_goNameStep before c after
  generalize goNameStep before c after = out at hstep ⊢
  cases hstep with
  | nothing hc _ | mark hc _ => exact absurd hc (not_or.2 ⟨hdot, hmark⟩)
  | start hc _ => exact absurd hc hmark
  | capital hlower hbegins => rw [if_pos ⟨hlower, hbegins⟩]
  | itself _ _ hword =>
    rw [if_neg]
    rintro ⟨hlower, hbegins⟩
    rw [hword hlower] at hbegins
    cases hbegins

/-! ## Go names -/

/-- What a Go name is made of: the characters of the name, capitals, underscores, and `X`. -/
theorem forall_goName {p : Char → Prop} (hmark : p '_') (hstart : p 'X')
    (hupper : ∀ c, isLowerLetter c = true → p c.toUpper) {name : String}
    (h : ∀ c ∈ name.toList, c ≠ '.' → p c) : ∀ d ∈ (goName name).toList, p d := by
  rw [toList_goName]
  -- The character before only decides which of these a character becomes.
  generalize name.toList = cs, (none : Option Char) = before at h ⊢
  induction cs generalizing before with
  | nil => exact fun d hd => absurd hd List.not_mem_nil
  | cons c cs ih =>
    obtain ⟨hc, hcs⟩ := List.forall_mem_cons.1 h
    rw [goNameFrom, List.forall_mem_append]
    refine ⟨?_, ih _ hcs⟩
    have hstep := becomes_goNameStep before c cs.head?
    generalize goNameStep before c cs.head? = out at hstep ⊢
    cases hstep with
    | nothing _ _ => exact fun d hd => absurd hd List.not_mem_nil
    | mark _ _ => exact List.forall_mem_singleton.2 hmark
    | start _ _ => exact List.forall_mem_singleton.2 hstart
    | capital hlower _ => exact List.forall_mem_singleton.2 (hupper c hlower)
    | itself hdot _ _ => exact List.forall_mem_singleton.2 (hc hdot)

theorem isIdentifierChar_goName {name : String}
    (h : ∀ c ∈ name.toList, c ≠ '.' → Proto.isIdentifierChar c = true) :
    ∀ d ∈ (goName name).toList, Proto.isIdentifierChar d = true :=
  forall_goName (by decide) (by decide)
    (fun _ hc => isIdentifierChar_of_isUpper (toUpper_spec hc).1) h

/-- What a Go name begins with. -/
theorem head?_goName {name : String} {c : Char} {cs : List Char} (hname : name.toList = c :: cs)
    (hdot : c ≠ '.') : (goName name).toList.head? =
      some (if c = '_' then 'X' else if isLowerLetter c then c.toUpper else c) := by
  have hstep : goNameStep none c cs.head? =
      [if c = '_' then 'X' else if isLowerLetter c then c.toUpper else c] := by
    unfold goNameStep
    by_cases hmark : c = '_'
    · simp [hmark]
    · by_cases hlower : isLowerLetter c = true
      · simp [hdot, hmark, hlower, beginsWord]
      · simp [hdot, hmark, hlower]
  rw [toList_goName, hname, goNameFrom, hstep, List.singleton_append, List.head?_cons]

/-! ## Identifiers -/

theorem IsIdentifier.exists_first {name : String} (h : IsIdentifier name) :
    ∃ c cs, name.toList = c :: cs ∧ Proto.isIdentifierChar c = true ∧ c.isDigit = false := by
  obtain ⟨c, cs, hname, hc⟩ := h.exists_cons
  have hbegins := h.begins
  rw [hname] at hbegins
  exact ⟨c, cs, hname, hc, by simpa using hbegins⟩

/-- The Go name of what begins as an identifier begins with a capital. -/
theorem exists_capital_goName {name : String} {c : Char} {cs : List Char}
    (hname : name.toList = c :: cs) (hc : Proto.isIdentifierChar c = true)
    (hdigit : c.isDigit = false) :
    ∃ d, (goName name).toList.head? = some d ∧ d.isUpper = true := by
  have hdot : c ≠ '.' := by
    rintro rfl
    cases hc
  refine ⟨_, head?_goName hname hdot, ?_⟩
  split_ifs with hmark hlower
  · rfl
  · exact (toUpper_spec hlower).1
  · have hletter : c.isLower = false := Bool.eq_false_iff.2 hlower
    have hkind : (((c.isUpper || c.isLower) || c.isDigit) || decide (c = '_')) = true := hc
    simpa [hmark, hdigit, hletter] using hkind

theorem isIdentifier_goName {name : String} (h : IsIdentifier name) :
    IsIdentifier (goName name) := by
  refine ⟨isIdentifierChar_goName fun c hc _ => h.chars c hc, ?_⟩
  obtain ⟨c, cs, hname, hc, hdigit⟩ := h.exists_first
  obtain ⟨d, hd, hupper⟩ := exists_capital_goName hname hc hdigit
  have hword := beginsWord_eq_false_iff.1 (toLower_spec hupper).2.2.2
  rw [hd, Option.any_some, hword.2.2]
  rfl

end CacheGen.Naming
