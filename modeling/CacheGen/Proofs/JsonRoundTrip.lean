import CacheGen.Json.Printer
import CacheGen.Proofs.QuotedText

/-!
# Printed values are read back

A value is printed with blanks and line feeds between its parts, and reading skips them. So what has
to be shown is that the parts of a value are found one behind the other: each is read up to where it
ends, whatever stands behind it (`ReadsBack`). An object or array then follows from its elements, by
induction on the list of them.

The depth of the recursion of a reader is bounded by its first argument. The length of the printed
text is enough for it, since each part that is entered is shorter than what it is a part of.

Numbers are left out. The spelling of one may be any text, and the printer writes it as it is.

Main result: `parse?_pretty`.
-/

namespace CacheGen.Json

open Text (LiteralRules escape quote)

/-- No number occurs, and the members of an object have a key each. -/
inductive Legible : Json → Prop
  | null : Legible .null
  | bool (value : Bool) : Legible (.bool value)
  | string (value : String) : Legible (.string value)
  | array {items : List Json} (h : ∀ v ∈ items, Legible v) : Legible (.array items)
  | object {members : List (String × Json)} (hkeys : (members.map Prod.fst).Nodup)
      (h : ∀ m ∈ members, Legible m.2) : Legible (.object members)

/-! ## Strings -/

/-- The rules for strings. -/
def stringRules : LiteralRules Char where
  plain c := if c.toNat < 0x20 then none else some [c]
  readEscape cs := (readEscape cs).map fun (c, rest) => ([c], rest)

theorem readChars_eq (n : Nat) (cs : List Char) :
    readChars n cs = stringRules.readInside n cs := by
  induction n, cs using readChars.induct with
  | case1 cs => simp [readChars, LiteralRules.readInside]
  | case2 n hn => simp [readChars, LiteralRules.readInside]
  | case3 n cs hn => simp [readChars, LiteralRules.readInside]
  | case4 n cs ih =>
    simp only [readChars, LiteralRules.readInside, ← ih]
    show readEscape cs >>= _ = (readEscape cs).map _ >>= _
    cases readEscape cs <;> rfl
  | case5 n c cs hquote hmark hcontrol =>
    simp [readChars, LiteralRules.readInside, stringRules, hcontrol]
  | case6 n c cs hquote hmark hcontrol ih =>
    have hplain : stringRules.plain c = some [c] := if_neg hcontrol
    simp [readChars, LiteralRules.readInside, hcontrol, hplain, ← ih]

theorem joinUnits_of_lt {n : Nat} (h : n < 0xD800) (rest : List Char) :
    joinUnits n rest = (Char.ofNat n, rest) := by
  have hhigh : isHighSurrogate n = false := by simp [isHighSurrogate]; omega
  have hlow : isLowSurrogate n = false := by simp [isLowSurrogate]; omega
  simp [joinUnits, hhigh, hlow]

theorem undo_stringRules : stringRules.Undo fun c => [c] where
  plain c hc := if_neg (not_lt.2 hc)
  marked c rest hc := by rcases hc with rfl | rfl <;> rfl
  lettered := by
    simp only [Text.letters, List.forall_mem_cons]
    exact ⟨fun _ => rfl, fun _ => rfl, fun _ => rfl, fun _ => rfl, fun _ => rfl, by simp⟩
  numbered c rest hc := by
    show ((readUnit ('0' :: '0' :: _ :: _ :: rest)).map _).map _ = _
    rw [readUnit_digits (by omega)]
    show some ([(joinUnits c.toNat rest).1], (joinUnits c.toNat rest).2) = _
    rw [joinUnits_of_lt (by omega), Char.ofNat_toNat]

theorem readString_escape (s : String) (rest : List Char) :
    readString (escape s.toList ++ '"' :: rest) = some (s, rest) := by
  have hlength := Text.length_le_escape s.toList
  rw [readString, readChars_eq, undo_stringRules.readInside_escape]
  · simp
  · simp only [List.length_append, List.length_cons]
    omega

/-! ## Blanks -/

theorem skipSpace_append {blanks : List Char} (h : ∀ c ∈ blanks, isSpace c = true)
    (cs : List Char) : skipSpace (blanks ++ cs) = skipSpace cs :=
  List.dropWhile_append_of_pos h

theorem skipSpace_replicate (k : Nat) (cs : List Char) :
    skipSpace (List.replicate k ' ' ++ cs) = skipSpace cs :=
  skipSpace_append (fun c hc => by rw [List.eq_of_mem_replicate hc]; rfl) cs

/-- To a line of its own, and in on that line. -/
theorem skipSpace_indented (k : Nat) (cs : List Char) :
    skipSpace ('\n' :: (List.replicate k ' ' ++ cs)) = skipSpace cs :=
  skipSpace_replicate k cs

theorem skipSpace_cons {c : Char} (h : isSpace c = false) (cs : List Char) :
    skipSpace (c :: cs) = c :: cs :=
  List.dropWhile_cons_of_neg (by simp [h])

theorem skipSpace_skipSpace (cs : List Char) : skipSpace (skipSpace cs) = skipSpace cs :=
  List.dropWhile_idempotent _ cs

theorem readValue_skipSpace (n : Nat) (cs : List Char) :
    readValue n (skipSpace cs) = readValue n cs := by
  cases n with
  | zero => rfl
  | succ n => rw [readValue, readValue, skipSpace_skipSpace]

theorem readItems_skipSpace (n : Nat) (cs : List Char) :
    readItems n (skipSpace cs) = readItems n cs := by
  cases n with
  | zero => rfl
  | succ n => rw [readItems, readItems, readValue_skipSpace]

theorem readMembers_skipSpace (n : Nat) (earlier : List (String × Json)) (cs : List Char) :
    readMembers n earlier (skipSpace cs) = readMembers n earlier cs := by
  cases n with
  | zero => rfl
  | succ n => rw [readMembers, readMembers, skipSpace_skipSpace]

theorem readItems_newline (n : Nat) (cs : List Char) :
    readItems n ('\n' :: cs) = readItems n cs :=
  (readItems_skipSpace n ('\n' :: cs)).symm.trans (readItems_skipSpace n cs)

theorem readMembers_newline (n : Nat) (earlier : List (String × Json)) (cs : List Char) :
    readMembers n earlier ('\n' :: cs) = readMembers n earlier cs :=
  (readMembers_skipSpace n earlier ('\n' :: cs)).symm.trans (readMembers_skipSpace n earlier cs)

theorem toList_indentation (level : Nat) :
    (indentation level).toList = List.replicate (2 * level) ' ' := String.toList_ofList

/-! ## Elements -/

/-- Elements on lines of their own. -/
def joined (level : Nat) (elements : List String) : List Char :=
  (",\n".intercalate (elements.map (indentation level ++ ·))).toList

theorem joined_singleton (level : Nat) (e : String) :
    joined level [e] = List.replicate (2 * level) ' ' ++ e.toList := by
  simp [joined, toList_indentation]

theorem joined_cons_cons (level : Nat) (e e' : String) (es : List String) :
    joined level (e :: e' :: es) =
      List.replicate (2 * level) ' ' ++ e.toList ++ ',' :: '\n' :: joined level (e' :: es) := by
  simp [joined, toList_indentation, String.intercalate_cons_cons]

/-- What the first line holds. -/
theorem skipSpace_joined_cons (level : Nat) (e : String) (es : List String) :
    ∃ behind, ∀ cs, skipSpace ('\n' :: (joined level (e :: es) ++ cs)) =
      skipSpace (e.toList ++ (behind ++ cs)) := by
  cases es with
  | nil => exact ⟨[], fun cs => by simp [joined_singleton, skipSpace_indented]⟩
  | cons e' es =>
    exact ⟨',' :: '\n' :: joined level (e' :: es), fun cs => by
      simp [joined_cons_cons, skipSpace_indented]⟩

theorem toList_bracketed_nil (level : Nat) (opening closing : String) :
    (bracketed level opening closing []).toList = opening.toList ++ closing.toList := by
  simp [bracketed]

theorem toList_bracketed {elements : List String} (h : elements ≠ []) (level : Nat)
    (opening closing : String) :
    (bracketed level opening closing elements).toList =
      opening.toList ++ '\n' :: (joined (level + 1) elements ++
        '\n' :: (List.replicate (2 * level) ' ' ++ closing.toList)) := by
  simp [bracketed, joined, toList_indentation, h]

/-- The text of `v` is read as `v`, at any level and whatever stands behind it. -/
def ReadsBack (v : Json) : Prop :=
  ∀ (level n : Nat) (rest : List Char), (print level v).toList.length < n →
    readValue n ((print level v).toList ++ rest) = some (v, rest)

theorem ReadsBack.readValue_indented {v : Json} (hv : ReadsBack v) {level n : Nat}
    (hn : (print level v).toList.length < n) (k : Nat) (rest : List Char) :
    readValue n (List.replicate k ' ' ++ ((print level v).toList ++ rest)) = some (v, rest) := by
  rw [← readValue_skipSpace, skipSpace_replicate, readValue_skipSpace, hv level n rest hn]

/-- Items are read one after the other, up to the bracket. -/
theorem readItems_joined {items : List Json} (hne : items ≠ []) (h : ∀ v ∈ items, ReadsBack v)
    (level : Nat) {n : Nat} (hn : (joined level (printItems level items)).length + 1 < n) (k : Nat)
    (rest : List Char) :
    readItems n (joined level (printItems level items) ++
      '\n' :: (List.replicate k ' ' ++ ']' :: rest)) = some (items, rest) := by
  induction items generalizing n with
  | nil => exact absurd rfl hne
  | cons v items ih =>
    obtain ⟨hv, hitems⟩ := List.forall_mem_cons.1 h
    obtain ⟨n, rfl⟩ := Nat.exists_eq_add_one_of_ne_zero (Nat.ne_zero_of_lt hn)
    have hread : (print level v).toList.length < n → ∀ rest, readValue n
        (List.replicate (2 * level) ' ' ++ ((print level v).toList ++ rest)) = some (v, rest) :=
      fun hlength => hv.readValue_indented hlength _
    cases items with
    | nil =>
      rw [printItems, printItems, joined_singleton] at hn ⊢
      rw [List.length_append] at hn
      simp [readItems, hread (by omega), skipSpace_indented, skipSpace_cons (c := ']') rfl]
    | cons w items =>
      rw [printItems, printItems, joined_cons_cons, ← printItems] at hn ⊢
      simp only [List.length_append, List.length_cons] at hn
      have hlater := ih (List.cons_ne_nil _ _) hitems (n := n) (by omega)
      simp [readItems, hread (by omega), skipSpace_cons (c := ',') rfl, readItems_newline, hlater]

/-- A member is read and put behind those before it. What follows decides how it goes on. -/
theorem readMembers_print {v : Json} (hv : ReadsBack v) {level n : Nat}
    (hn : (print level v).toList.length < n) (earlier : List (String × Json)) (key : String)
    (k : Nat) (behind : List Char) :
    readMembers (n + 1) earlier (List.replicate k ' ' ++
        ((quote key ++ ": " ++ print level v).toList ++ behind)) =
      match skipSpace behind with
      | ',' :: cs => readMembers n (putEntry key v earlier) cs
      | '\x7d' :: cs => some (putEntry key v earlier, cs)
      | _ => none := by
  have htext : (quote key ++ ": " ++ print level v).toList ++ behind = '"' :: (escape key.toList ++
      '"' :: ':' :: ' ' :: ((print level v).toList ++ behind)) := by simp [Text.toList_quote]
  have hvalue : readValue n (' ' :: ((print level v).toList ++ behind)) = some (v, behind) :=
    hv.readValue_indented hn 1 behind
  rw [htext, readMembers, skipSpace_replicate, skipSpace_cons rfl]
  have hquote : ∀ cs, expect "\"" ('"' :: cs) = some cs := fun cs => by simp [expect]
  have hcolon : ∀ cs, expect ":" (':' :: cs) = some cs := fun cs => by simp [expect]
  simp only [hquote, Option.bind_eq_bind, Option.bind_some, readString_escape]
  rw [skipSpace_cons rfl, hcolon, Option.bind_some, hvalue]
  rfl

/-- Members are read one after the other, up to the brace. Their keys are new, so each of them goes
to the end. -/
theorem readMembers_joined {members : List (String × Json)} (hne : members ≠ [])
    (h : ∀ m ∈ members, ReadsBack m.2) (earlier : List (String × Json))
    (hkeys : ((earlier ++ members).map Prod.fst).Nodup) (level : Nat) {n : Nat}
    (hn : (joined level (printMembers level members)).length + 1 < n) (k : Nat) (rest : List Char) :
    readMembers n earlier (joined level (printMembers level members) ++
      '\n' :: (List.replicate k ' ' ++ '\x7d' :: rest)) = some (earlier ++ members, rest) := by
  induction members generalizing n earlier with
  | nil => exact absurd rfl hne
  | cons m members ih =>
    obtain ⟨key, v⟩ := m
    obtain ⟨n, rfl⟩ := Nat.exists_eq_add_one_of_ne_zero (Nat.ne_zero_of_lt hn)
    have hv : ReadsBack v := h (key, v) List.mem_cons_self
    have hput : putEntry key v earlier = earlier ++ [(key, v)] := by
      refine putEntry_of_not_mem v fun hmem => ?_
      rw [List.map_append, List.nodup_append] at hkeys
      exact hkeys.2.2 key hmem key List.mem_cons_self rfl
    cases members with
    | nil =>
      rw [printMembers, printMembers, joined_singleton] at hn ⊢
      simp only [String.toList_append, List.length_append] at hn
      have hlength : (print level v).toList.length < n := by omega
      rw [List.append_assoc, readMembers_print hv hlength, skipSpace_indented,
        skipSpace_cons rfl, hput]
      rfl
    | cons m members =>
      obtain ⟨key', w⟩ := m
      rw [printMembers, printMembers, joined_cons_cons, ← printMembers] at hn ⊢
      simp only [String.toList_append, List.length_append, List.length_cons] at hn
      have hlength : (print level v).toList.length < n := by omega
      have hlater := ih (List.cons_ne_nil _ _) (fun m hm => h m (List.mem_cons_of_mem _ hm))
        (earlier ++ [(key, v)]) (List.append_cons earlier _ _ ▸ hkeys) (n := n) (by omega)
      rw [List.append_assoc, List.append_assoc, readMembers_print hv hlength, List.cons_append,
        skipSpace_cons rfl, hput]
      show readMembers n _ ('\n' :: (joined _ _ ++ _)) = _
      rw [readMembers_newline, hlater, ← List.append_cons earlier]

/-! ## Values -/

theorem readValue_array {n : Nat} {cs : List Char} (h : (skipSpace cs).head? ≠ some ']') :
    readValue (n + 1) ('[' :: cs) =
      (readItems n cs).map fun (items, rest) => (array items, rest) := by
  rw [← readItems_skipSpace]
  simp only [readValue, skipSpace_cons (c := '[') rfl]
  split
  next heq => exact absurd (congrArg List.head? heq) h
  next => rfl

theorem readValue_object {n : Nat} {cs : List Char} (h : (skipSpace cs).head? ≠ some '\x7d') :
    readValue (n + 1) ('\x7b' :: cs) =
      (readMembers n [] cs).map fun (members, rest) => (object members, rest) := by
  rw [← readMembers_skipSpace]
  simp only [readValue, skipSpace_cons (c := '\x7b') rfl]
  split
  next heq => exact absurd (congrArg List.head? heq) h
  next => rfl

/-- What a value begins with. -/
theorem Legible.head?_print {v : Json} (h : Legible v) (level : Nat) :
    ∃ c cs, (print level v).toList = c :: cs ∧ isSpace c = false ∧ c ≠ ']' := by
  cases h with
  | null => exact ⟨'n', _, by rw [print]; rfl, rfl, by decide⟩
  | bool b =>
    cases b with
    | true => exact ⟨'t', _, by rw [print]; rfl, rfl, by decide⟩
    | false => exact ⟨'f', _, by rw [print]; rfl, rfl, by decide⟩
  | string s => exact ⟨'"', _, by rw [print, Text.toList_quote]; rfl, rfl, by decide⟩
  | array h =>
    rw [print, bracketed]
    split <;> exact ⟨'[', _, by simp; rfl, rfl, by decide⟩
  | object hkeys h =>
    rw [print, bracketed]
    split <;> exact ⟨'\x7b', _, by simp; rfl, rfl, by decide⟩

theorem readsBack_array {items : List Json} (hne : items ≠ []) (h : ∀ v ∈ items, Legible v)
    (hread : ∀ v ∈ items, ReadsBack v) : ReadsBack (array items) := by
  rintro level (_ | n) rest hn
  · contradiction
  obtain ⟨v, later, rfl⟩ := List.exists_cons_of_ne_nil hne
  have hprint := toList_bracketed (List.cons_ne_nil (print (level + 1) v)
    (printItems (level + 1) later)) level "[" "]"
  rw [← printItems] at hprint
  rw [print, hprint] at hn ⊢
  simp only [List.length_append, List.length_cons] at hn
  have hitems := readItems_joined hne hread (level + 1) (n := n) (by omega) (2 * level) rest
  obtain ⟨c, cs, hhead, hspace, hc⟩ := (h v List.mem_cons_self).head?_print (level + 1)
  obtain ⟨behind, hfirst⟩ := skipSpace_joined_cons (level + 1) (print (level + 1) v)
    (printItems (level + 1) later)
  -- No item begins with the closing bracket, so this is not taken for an empty array.
  have hopen : ∀ cs, (skipSpace ('\n' :: (joined (level + 1)
      (printItems (level + 1) (v :: later)) ++ cs))).head? ≠ some ']' := fun cs => by
    rw [printItems, hfirst, hhead, List.cons_append, skipSpace_cons hspace]
    simpa using hc
  show readValue (n + 1) ('[' :: ('\n' :: (joined _ _ ++ _) ++ rest)) = _
  rw [List.cons_append, List.append_assoc, readValue_array (hopen _), readItems_newline,
    List.cons_append, List.append_assoc]
  exact congrArg _ hitems

theorem readsBack_object {members : List (String × Json)} (hne : members ≠ [])
    (hkeys : (members.map Prod.fst).Nodup) (hread : ∀ m ∈ members, ReadsBack m.2) :
    ReadsBack (object members) := by
  rintro level (_ | n) rest hn
  · contradiction
  obtain ⟨⟨key, v⟩, later, rfl⟩ := List.exists_cons_of_ne_nil hne
  have hprint := toList_bracketed (List.cons_ne_nil (quote key ++ ": " ++ print (level + 1) v)
    (printMembers (level + 1) later)) level "\x7b" "\x7d"
  rw [← printMembers] at hprint
  rw [print, hprint] at hn ⊢
  simp only [List.length_append, List.length_cons] at hn
  have hmembers := readMembers_joined hne hread [] hkeys (level + 1) (n := n) (by omega)
    (2 * level) rest
  obtain ⟨behind, hfirst⟩ := skipSpace_joined_cons (level + 1)
    (quote key ++ ": " ++ print (level + 1) v) (printMembers (level + 1) later)
  have hopen : ∀ cs, (skipSpace ('\n' :: (joined (level + 1)
      (printMembers (level + 1) ((key, v) :: later)) ++ cs))).head? ≠ some '\x7d' := fun cs => by
    rw [printMembers, hfirst, String.toList_append, String.toList_append, Text.toList_quote]
    simp [skipSpace_cons (c := '"') rfl]
  show readValue (n + 1) ('\x7b' :: ('\n' :: (joined _ _ ++ _) ++ rest)) = _
  rw [List.cons_append, List.append_assoc, readValue_object (hopen _), readMembers_newline,
    List.cons_append, List.append_assoc]
  exact congrArg _ hmembers

theorem Legible.readsBack {v : Json} (h : Legible v) : ReadsBack v := by
  induction h with
  | null =>
    rintro level (_ | n) rest hn
    · contradiction
    · rw [print]
      rfl
  | bool value =>
    rintro level (_ | n) rest hn
    · contradiction
    · rw [print]
      cases value <;> rfl
  | string value =>
    rintro level (_ | n) rest hn
    · contradiction
    · simp [print, Text.toList_quote, readValue, skipSpace_cons (c := '"') rfl,
        readString_escape]
  | @array items h ih =>
    by_cases hne : items = []
    · rintro level (_ | n) rest hn
      · contradiction
      · rw [hne, print, printItems, toList_bracketed_nil]
        rfl
    · exact readsBack_array hne h ih
  | @object members hkeys h ih =>
    by_cases hne : members = []
    · rintro level (_ | n) rest hn
      · contradiction
      · rw [hne, print, printMembers, toList_bracketed_nil]
        rfl
    · exact readsBack_object hne hkeys ih

/-- A printed value is read back, with blanks behind it. -/
theorem parse?_pretty {v : Json} (h : Legible v) {blanks : String}
    (hblanks : ∀ c ∈ blanks.toList, isSpace c = true) : parse? (pretty v ++ blanks) = some v := by
  have hlength : (print 0 v).toList.length < (print 0 v ++ blanks).length + 1 := by
    rw [← String.length_toList, String.toList_append, List.length_append]
    omega
  have hskip : skipSpace blanks.toList = [] := by
    simpa [skipSpace] using skipSpace_append hblanks []
  rw [parse?, pretty, String.toList_append, h.readsBack 0 _ blanks.toList hlength]
  simp [hskip]

end CacheGen.Json
