import CacheGen.Proofs.RelativeWays

/-!
# Paths in their shortest spelling

A directory is *spelled* by the names on the way down to it, joined by slashes, or by a dot if there
are none. Normalizing joined names gives the spelling of what a walk along them comes to
(`normalize_joined`).

A relative text is *tidy* if normalizing it changes nothing and no piece of it climbs. Tidy texts are
spellings, but for a slash that may stand at the end (`IsTidy.exists_names`), and so are their
directories (`IsTidy.exists_dirname`).
-/

namespace CacheGen

namespace Path

/-- The text for the directory that the names lead down to. -/
def spell (names : List String) : String := if names = [] then "." else "/".intercalate names

/-! ## Joined names -/

theorem toList_joined_concat (names : List String) (name : String) :
    ("/".intercalate (names ++ [name])).toList =
      (if names = [] then [] else ("/".intercalate names).toList ++ ['/']) ++ name.toList := by
  split
  · next h => rw [h, List.nil_append, String.intercalate_singleton, List.nil_append]
  · next h =>
    rw [String.intercalate_append_of_ne_nil h (List.cons_ne_nil _ _),
      String.intercalate_singleton, String.toList_append, String.toList_append]
    rfl

section

variable {names : List String} (h : ∀ name ∈ names, name ≠ "" ∧ '/' ∉ name.toList)

include h

theorem spell_ne_empty : spell names ≠ "" := by
  unfold spell
  split
  · decide
  · next hne => exact joined_ne_empty h hne

theorem getLast?_joined : ("/".intercalate names).toList.getLast? ≠ some '/' := by
  rcases List.eq_nil_or_concat names with rfl | ⟨init, name, rfl⟩
  · simp
  · rw [List.concat_eq_append] at h ⊢
    obtain ⟨hname, hslash⟩ := h name (List.mem_append_right _ List.mem_cons_self)
    have hsome : name.toList.getLast? = some (name.toList.getLast (by simpa using hname)) :=
      List.getLast?_eq_some_getLast _
    rw [toList_joined_concat, List.getLast?_append, hsome, Option.some_or]
    exact fun hlast => hslash (Option.some.inj hlast ▸ List.getLast_mem _)

/-- What a walk along the names comes to is spelled. -/
theorem normalize_joined (hne : names ≠ []) :
    normalize ("/".intercalate names) = spell (walk true [] names) := by
  have hwalk : ∀ name ∈ walk true [] names, name ≠ "" ∧ '/' ∉ name.toList := fun name hname =>
    h name (walk_subset true [] names hname)
  have hlast : (("/".intercalate names).toList.getLast? == some '/') = false := by
    simpa using getLast?_joined h
  unfold normalize spell
  rw [isAbsolute_joined h, pieces_joined h hne, hlast]
  by_cases hnil : walk true [] names = []
  · simp [hnil]
  · simp [hnil, joined_ne_empty hwalk hnil]

/-- Joining texts of names appends the names. -/
theorem join_joined {names' : List String} (h' : ∀ name ∈ names', name ≠ "" ∧ '/' ∉ name.toList)
    (hne : names ≠ []) (hne' : names' ≠ []) :
    join ["/".intercalate names, "/".intercalate names'] =
      spell (walk true (walk true [] names) names') := by
  have hboth : ["/".intercalate names, "/".intercalate names'].filter (· ≠ "") =
      ["/".intercalate names, "/".intercalate names'] := by
    simp [joined_ne_empty h hne, joined_ne_empty h' hne']
  have hall : ∀ name ∈ names ++ names', name ≠ "" ∧ '/' ∉ name.toList := fun name hname =>
    (List.mem_append.1 hname).elim (h name) (h' name)
  have hjoined : join ["/".intercalate names, "/".intercalate names'] =
      normalize ("/".intercalate (names ++ names')) := by
    rw [join, hboth, String.intercalate_append_of_ne_nil hne hne']
    simp
  rw [hjoined, normalize_joined hall (by simp [hne]), walk_append]

end

/-- A spelling is made of names that lead down to the directory. -/
theorem exists_spell {names : List String} (h : Location.IsProper ⟨names⟩) :
    ∃ start, start ≠ [] ∧ (∀ name ∈ start, name ≠ "" ∧ '/' ∉ name.toList) ∧
      spell names = "/".intercalate start ∧ walk true [] start = names := by
  unfold spell
  split
  · next hnil => exact ⟨["."], by decide, by decide, rfl, hnil.symm⟩
  · next hnil => exact ⟨names, hnil, h.pieces, rfl, walk_plain h.plain []⟩

/-- A slash at the end of a relative text is kept. -/
theorem getLast?_normalize {p : String} (hrel : isAbsolute p = false)
    (h : p.toList.getLast? = some '/') : (normalize p).toList.getLast? = some '/' := by
  unfold normalize
  rw [hrel, h]
  simp only [Bool.false_eq_true, if_false, beq_self_eq_true, if_true]
  split <;> simp

/-! ## Directories -/

theorem dropWhile_exact {α : Type} {p : α → Bool} {body rest : List α}
    (hbody : ∀ a ∈ body, p a = true) (hrest : ∀ a ∈ rest.head?, p a = false) :
    (body ++ rest).dropWhile p = rest := by
  rw [List.dropWhile_append_of_pos hbody]
  cases rest with
  | nil => rfl
  | cons a rest => simp [hrest a rfl]

/-- What is left of a text without the slashes at its end and the name before them. -/
theorem dropName_eq {p : String} (front name slashes : List Char)
    (hp : p.toList = front ++ name ++ slashes) (hslashes : ∀ c ∈ slashes, c = '/')
    (hname : '/' ∉ name) (hne : name ≠ []) (hfront : ∀ c ∈ front.getLast?, c = '/') :
    ((reversedBody p).dropWhile (· ≠ '/')).reverse = front := by
  have hbody : reversedBody p = name.reverse ++ front.reverse := by
    rw [reversedBody, hp, List.reverse_append, List.reverse_append]
    refine dropWhile_exact (by simpa using hslashes) fun c hc => ?_
    rw [List.head?_append_of_ne_nil _ (List.reverse_ne_nil_iff.2 hne), List.head?_reverse] at hc
    exact decide_eq_false fun heq => hname (heq ▸ List.mem_of_getLast? hc)
  have hdrop : (name.reverse ++ front.reverse).dropWhile (· ≠ '/') = front.reverse := by
    refine dropWhile_exact (fun c hc => ?_) fun c hc => ?_
    · exact decide_eq_true fun heq => hname (heq ▸ List.mem_reverse.1 hc)
    · rw [List.head?_reverse] at hc
      simpa using hfront c hc
  rw [hbody, hdrop, List.reverse_reverse]

theorem isAbsolute_append_left {a : String} (h : a ≠ "") (b : String) :
    isAbsolute (a ++ b) = isAbsolute a := by
  rw [isAbsolute, isAbsolute, String.toList_append, List.head?_append_of_ne_nil _ (by simpa using h)]

theorem dirname_joined {names : List String} {name slash : String}
    (h : ∀ n ∈ names ++ [name], n ≠ "" ∧ '/' ∉ n.toList) (hslash : slash = "" ∨ slash = "/") :
    dirname ("/".intercalate (names ++ [name]) ++ slash) = spell names := by
  obtain ⟨hne, hname⟩ := h name (List.mem_append_right _ List.mem_cons_self)
  have hnames : ∀ n ∈ names, n ≠ "" ∧ '/' ∉ n.toList := fun n hn => h n (List.mem_append_left _ hn)
  have hfront := dropName_eq (p := "/".intercalate (names ++ [name]) ++ slash)
    (if names = [] then [] else ("/".intercalate names).toList ++ ['/']) name.toList slash.toList
    (by rw [String.toList_append, toList_joined_concat])
    (by rcases hslash with rfl | rfl <;> simp) hname (by simpa using hne)
    (by split <;> simp)
  have hrel : isAbsolute ("/".intercalate (names ++ [name]) ++ slash) = false := by
    rw [isAbsolute_append_left (joined_ne_empty h (List.concat_ne_nil _ _)), isAbsolute_joined h]
  unfold dirname spell
  rw [hfront, hrel]
  by_cases hnil : names = []
  · simp only [if_pos hnil]
    rfl
  · -- The text in front begins with a name, so it is more than slashes.
    obtain ⟨c, cs, hcs⟩ := List.exists_cons_of_ne_nil
      (String.toList_eq_nil_iff.not.2 (joined_ne_empty hnames hnil))
    have hc : c ≠ '/' := by
      have hstart := isAbsolute_joined hnames
      rw [isAbsolute, hcs] at hstart
      simpa using hstart
    simp only [if_neg hnil]
    rw [hcs, List.cons_append]
    split
    · next heq => cases heq
    · next heq => exact absurd (List.cons.inj heq).1 hc
    · next heq => exact absurd (List.cons.inj heq).1 hc
    · rw [← List.cons_append, List.dropLast_concat, ← hcs, String.ofList_toList]

/-! ## Tidy texts -/

/-- The shortest spelling of a relative path, and no piece of it climbs. -/
structure IsTidy (p : String) : Prop where
  normal : normalize p = p
  relative : isAbsolute p = false
  noUp : ".." ∉ Text.pieces '/' p

instance (p : String) : Decidable (IsTidy p) :=
  decidable_of_iff (normalize p = p ∧ isAbsolute p = false ∧ ".." ∉ Text.pieces '/' p)
    ⟨fun ⟨h, h', h''⟩ => ⟨h, h', h''⟩, fun ⟨h, h', h''⟩ => ⟨h, h', h''⟩⟩

/-- Where nothing climbs, a walk goes down the names. -/
theorem walk_of_not_mem {climbs : Bool} {names : List String} (h : ".." ∉ names)
    (start : List String) :
    walk climbs start names = start ++ names.filter fun n => n ≠ "" ∧ n ≠ "." := by
  induction names generalizing start with
  | nil => exact (List.append_nil start).symm
  | cons name names ih =>
    rw [List.mem_cons, not_or] at h
    rw [walk, List.foldl_cons, stepName, if_neg (Ne.symm h.1), List.filter_cons]
    by_cases hskip : name = "" ∨ name = "."
    · rw [if_pos hskip, if_neg (by simpa [not_or, Decidable.or_iff_not_imp_left] using hskip)]
      exact ih h.2 start
    · rw [if_neg hskip, if_pos (by simpa [not_or] using hskip)]
      exact (ih h.2 _).trans (List.append_assoc start [name] _)

section

variable {p : String} (h : IsTidy p)

include h

/-- A tidy text spells the names of a directory, perhaps with a slash behind them. -/
theorem IsTidy.exists_names : ∃ names slash, Location.IsProper ⟨names⟩ ∧
    (slash = "" ∨ slash = "/") ∧ p = spell names ++ slash := by
  let names := (Text.pieces '/' p).filter fun n => n ≠ "" ∧ n ≠ "."
  let slash := if p.toList.getLast? == some '/' then "/" else ""
  have hproper : Location.IsProper ⟨names⟩ := by
    refine ⟨fun name hname => ?_, fun name hname => ?_⟩
    · obtain ⟨hpiece, hplain⟩ := List.mem_filter.1 hname
      obtain ⟨hempty, hdot⟩ := of_decide_eq_true hplain
      exact ⟨hempty, hdot, fun hup => h.noUp (hup ▸ hpiece)⟩
    · exact Text.not_mem_of_mem_pieces (List.mem_filter.1 hname).1
  refine ⟨names, slash, hproper, ?_, ?_⟩
  · unfold slash
    split
    · exact Or.inr rfl
    · exact Or.inl rfl
  · have hwalk : walk (!isAbsolute p) [] (Text.pieces '/' p) = names := walk_of_not_mem h.noUp []
    have hnormal := h.normal
    unfold normalize at hnormal
    rw [hwalk, h.relative, if_neg Bool.false_ne_true] at hnormal
    rw [← hnormal]
    unfold spell
    by_cases hnil : names = []
    · rw [if_pos hnil, hnil, String.intercalate_nil, if_pos rfl]
    · rw [if_neg hnil, if_neg (joined_ne_empty hproper.pieces hnil)]

theorem IsTidy.exists_dirname : ∃ names, Location.IsProper ⟨names⟩ ∧ dirname p = spell names := by
  obtain ⟨names, slash, hproper, hslash, rfl⟩ := h.exists_names
  rcases List.eq_nil_or_concat names with rfl | ⟨names, name, rfl⟩
  · refine ⟨[], hproper, ?_⟩
    rcases hslash with rfl | rfl <;> decide
  · rw [List.concat_eq_append] at hproper ⊢
    refine ⟨names, hproper.mono (List.subset_append_left names [name]), ?_⟩
    rw [spell, if_neg (List.concat_ne_nil _ _), dirname_joined hproper.pieces hslash]

/-- All but one of these texts have a plain folder. -/
theorem IsTidy.isPlain (hne : p ≠ "./") : IsPlain p := by
  obtain ⟨names, slash, hproper, hslash, rfl⟩ := h.exists_names
  by_cases hnil : names = []
  · rw [hnil] at hne ⊢
    rcases hslash with rfl | rfl
    · have hfolder : folder (spell [] ++ "") = [] := by decide
      rw [IsPlain, hfolder]
      exact fun _ hname => absurd hname List.not_mem_nil
    · exact absurd rfl hne
  · have hpieces := pieces_joined hproper.pieces hnil
    rw [spell, if_neg hnil]
    intro name hname
    refine hproper.plain name ?_
    rcases hslash with rfl | rfl
    · rw [String.append_empty, folder, hpieces] at hname
      exact List.dropLast_subset _ hname
    · have hslashed : Text.pieces '/' ("/".intercalate names ++ "/") = names ++ [""] := by
        have hmark := Text.pieces_append_mark '/' ("/".intercalate names) ""
        rw [String.append_empty, hpieces] at hmark
        exact hmark
      rw [folder, hslashed, List.dropLast_concat] at hname
      exact hname

end

end Path

end CacheGen
