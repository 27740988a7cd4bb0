import CacheGen.Proofs.GoSpelling

/-!
# Go names word by word

A Go name can also be read off from the left by words. A character that is reached, no mark and no
digit, is put down as a capital where it is a letter, and takes the lower-case letters behind it
along, so that these are never looked at on their own. What each character becomes between its
neighbours is the same (`goName_eq_scan`), since a lower-case letter is reached only where a word
begins.
-/

namespace CacheGen.Naming

/-- What becomes of the rest of a name, where `before` is the last character read. -/
def scanWords (before : Option Char) : List Char → List Char
  | [] => []
  | c :: cs =>
    if c = '.' then
      if cs.head?.any isLowerLetter then scanWords (some c) cs else '_' :: scanWords (some c) cs
    else if c = '_' ∧ (before = none ∨ before = some '.') then 'X' :: scanWords (some c) cs
    else if c = '_' ∧ cs.head?.any isLowerLetter = true then scanWords (some c) cs
    else if isDecimal c then c :: scanWords (some c) cs
    else
      (if isLowerLetter c then c.toUpper else c) ::
        (cs.takeWhile isLowerLetter ++
          scanWords (c :: cs.takeWhile isLowerLetter).getLast? (cs.dropWhile isLowerLetter))
termination_by cs => cs.length
decreasing_by
  all_goals have := (List.dropWhile_suffix isLowerLetter (l := cs)).length_le
  all_goals simp only [List.length_cons]; omega

/-- Lower-case letters that do not begin a word stay. -/
theorem goNameFrom_run {p : Char} (h : beginsWord (some p) = false) (cs : List Char) :
    goNameFrom (some p) cs = cs.takeWhile isLowerLetter ++
      goNameFrom (p :: cs.takeWhile isLowerLetter).getLast? (cs.dropWhile isLowerLetter) := by
  induction cs generalizing p with
  | nil => rfl
  | cons c cs ih =>
    by_cases hlower : isLowerLetter c = true
    · have hword := (toUpper_spec hlower).2.2
      rw [goNameFrom, goNameStep_inside hword, if_neg (by simp [h]), ih hword,
        List.takeWhile_cons_of_pos hlower, List.dropWhile_cons_of_pos hlower,
        List.getLast?_cons_cons]
      rfl
    · rw [List.takeWhile_cons_of_neg hlower, List.dropWhile_cons_of_neg hlower]
      rfl

/-- Where a word begins if a lower-case letter comes next, both readings agree. -/
theorem scanWords_eq {before : Option Char} {cs : List Char}
    (h : ∀ c ∈ cs.head?, isLowerLetter c = true → beginsWord before = true) :
    scanWords before cs = goNameFrom before cs := by
  fun_induction scanWords before cs with
  | case1 => rfl
  -- A dot.
  | case2 before cs hafter ih =>
    rw [goNameFrom, goNameStep, if_pos rfl, if_pos hafter]
    exact ih fun _ _ _ => rfl
  | case3 before cs hafter ih =>
    rw [goNameFrom, goNameStep, if_pos rfl, if_neg hafter, ih fun _ _ _ => rfl]
    rfl
  -- An underscore at the front or behind a dot, and one before a lower-case letter.
  | case4 before c cs hdot hstart ih =>
    obtain ⟨rfl, hbefore⟩ := hstart
    rw [goNameFrom, goNameStep, if_neg hdot, if_pos rfl, if_pos hbefore, ih fun _ _ _ => rfl]
    rfl
  | case5 before c cs hdot hstart hafter ih =>
    obtain ⟨rfl, hafter⟩ := hafter
    have hinside : ¬ (before = none ∨ before = some '.') := fun hb => hstart ⟨rfl, hb⟩
    rw [goNameFrom, goNameStep, if_neg hdot, if_pos rfl, if_neg hinside, if_pos hafter]
    exact ih fun _ _ _ => rfl
  -- A digit.
  | case6 before c cs hdot hstart hafter hdigit ih =>
    have hmark : c ≠ '_' := by
      rintro rfl
      cases hdigit
    have hword : beginsWord (some c) = true := beginsWord_some_iff.2 (.inr (.inr hdigit))
    have hlower : ¬ isLowerLetter c = true := fun hlower => by
      rw [(toUpper_spec hlower).2.2] at hword
      cases hword
    rw [goNameFrom, goNameStep, if_neg hdot, if_neg hmark, if_neg (by simp [hlower]),
      ih fun _ _ _ => hword]
    rfl
  -- A word, or an underscore that stays.
  | case7 before c cs hdot hstart hafter hdigit ih =>
    have hdropped : ∀ d ∈ (cs.dropWhile isLowerLetter).head?, isLowerLetter d = true →
        beginsWord (c :: cs.takeWhile isLowerLetter).getLast? = true := by
      intro d hd hlower
      have hnot := List.head?_dropWhile_not isLowerLetter cs
      rw [Option.mem_def.1 hd] at hnot
      rw [hnot] at hlower
      cases hlower
    rw [ih hdropped, goNameFrom]
    by_cases hmark : c = '_'
    · subst hmark
      have hinside : ¬ (before = none ∨ before = some '.') := fun hb => hstart ⟨rfl, hb⟩
      have hnext : ¬ cs.head?.any isLowerLetter = true := fun hnext => hafter ⟨rfl, hnext⟩
      rw [goNameStep, if_neg hdot, if_pos rfl, if_neg hinside, if_neg hnext]
      -- Nothing is taken along.
      cases cs with
      | nil => rfl
      | cons d ds =>
        have hd : ¬ isLowerLetter d = true := hnext
        rw [List.takeWhile_cons_of_neg hd, List.dropWhile_cons_of_neg hd]
        rfl
    · have hword : beginsWord (some c) = false :=
        beginsWord_eq_false_iff.2 ⟨hdot, hmark, Bool.eq_false_iff.2 hdigit⟩
      have hcapital : isLowerLetter c = true ∧ beginsWord before = true ↔
          isLowerLetter c = true := and_iff_left_of_imp (h c rfl)
      rw [goNameStep_inside hword, goNameFrom_run hword, if_congr hcapital rfl rfl]
      rfl

/-- **A Go name is what reading it word by word gives.** -/
theorem goName_eq_scan (name : String) :
    goName name = String.ofList (scanWords none name.toList) := by
  rw [scanWords_eq fun _ _ _ => rfl]
  rfl

end CacheGen.Naming
