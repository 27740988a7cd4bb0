import CacheGen.Config.Readers
import CacheGen.Proofs.ConfigFile
import CacheGen.Proofs.Utf8

/-!
# The place that decides

A place of a directory is *vacant* when no file is there, or a blank one, or one whose value is
null. A search passes vacant places by, and ends at the first that is not (`IsFirst`), with what the
text there comes to. It has looked at no place behind that one, so these may hold anything.

A script is a place like the others. Where there is none, a loader that could run it finds what the
other finds.

**Theorem (`first_place_decides`).** The config of a directory is that of its first place which is
not vacant, or an error on account of that place.
-/

namespace CacheGen.Discovery

/-! ## Vacant places -/

section

variable (readers : Readers)

/-- At `p` there is no file, or a blank one, or one whose value is null. -/
def Vacant (t : Tree) (dir : Location) (p : String × Format) : Prop :=
  ∀ bytes, t.read? (dir.resolve p.1) = some bytes →
    Text.allBlank (Utf8.decode bytes) = true ∨ p.2.parse readers (Utf8.decode bytes) = .ok .null

/-- `p` is the first place that is not vacant, behind those in `before`. -/
structure IsFirst (t : Tree) (dir : Location) (before : List (String × Format))
    (p : String × Format) : Prop where
  split : before ++ [p] <+: places
  vacant : ∀ q ∈ before, Vacant readers t dir q
  holds : ¬ Vacant readers t dir p

end

/-- Both trees have the same texts at `ps`. -/
def SameAt (t t' : Tree) (dir : Location) (ps : List (String × Format)) : Prop :=
  ∀ p ∈ ps, t'.read? (dir.resolve p.1) = t.read? (dir.resolve p.1)

section

variable {readers : Readers} {t t' : Tree} {dir : Location}

theorem valueAt_of_vacant {p : String × Format} (h : Vacant readers t dir p) :
    valueAt readers t (dir.resolve p.1) p.2 = .ok none := by
  rw [valueAt, valueIn]
  cases hread : t.read? (dir.resolve p.1) with
  | none => rfl
  | some bytes =>
    dsimp only
    rcases h bytes hread with hblank | hnull
    · rw [if_pos hblank]
    · rw [hnull, ite_self]

/-- A place that is not vacant has a text, which is not blank, and is broken or has a value. -/
theorem exists_text {p : String × Format} (h : ¬ Vacant readers t dir p) :
    ∃ bytes, t.read? (dir.resolve p.1) = some bytes ∧
      valueAt readers t (dir.resolve p.1) p.2 =
        (p.2.parse readers (Utf8.decode bytes)).map some := by
  rw [Vacant] at h
  push Not at h
  obtain ⟨bytes, hread, hblank, hnull⟩ := h
  refine ⟨bytes, hread, ?_⟩
  rw [valueAt, valueIn, hread]
  dsimp only
  rw [if_neg hblank]
  cases hparse : p.2.parse readers (Utf8.decode bytes) with
  | error why => rfl
  | ok v =>
    cases v with
    | null => exact absurd hparse hnull
    | _ => rfl

theorem vacant_iff {p : String × Format} :
    Vacant readers t dir p ↔ valueAt readers t (dir.resolve p.1) p.2 = .ok none := by
  refine ⟨valueAt_of_vacant, fun hnone => ?_⟩
  by_contra hholds
  obtain ⟨bytes, -, hvalue⟩ := exists_text hholds
  rw [hnone] at hvalue
  cases hparse : p.2.parse readers (Utf8.decode bytes) <;> simp [hparse, Except.map] at hvalue

instance (p : String × Format) : Decidable (Vacant readers t dir p) :=
  match h : valueAt readers t (dir.resolve p.1) p.2 with
  | .ok none => .isTrue (vacant_iff.2 h)
  | .ok (some _) => .isFalse fun hvacant => nomatch h.symm.trans (vacant_iff.1 hvacant)
  | .error _ => .isFalse fun hvacant => nomatch h.symm.trans (vacant_iff.1 hvacant)

theorem Vacant.congr {p : String × Format} (h : Vacant readers t dir p)
    (hsame : t'.read? (dir.resolve p.1) = t.read? (dir.resolve p.1)) : Vacant readers t' dir p := by
  intro bytes hread
  exact h bytes (hsame ▸ hread)

theorem IsFirst.congr {before : List (String × Format)} {p : String × Format}
    (h : IsFirst readers t dir before p) (hsame : SameAt t t' dir (before ++ [p])) :
    IsFirst readers t' dir before p where
  split := h.split
  vacant q hq := (h.vacant q hq).congr (hsame q (List.mem_append_left _ hq))
  holds hvacant := h.holds (hvacant.congr (hsame p (by simp)).symm)

theorem exists_isFirst (h : ∃ p ∈ places, ¬ Vacant readers t dir p) :
    ∃ before p, IsFirst readers t dir before p := by
  obtain ⟨p, hp, hholds⟩ := h
  cases hfind : places.find? fun q => !Vacant readers t dir q with
  | none =>
    have hnone := List.find?_eq_none.1 hfind p hp
    exact absurd hnone (by simpa using hholds)
  | some q =>
    obtain ⟨hq, before, later, hsplit, hbefore⟩ := List.find?_eq_some_iff_append.1 hfind
    refine ⟨before, q, ⟨later, by simp [hsplit]⟩, fun r hr => ?_, by simpa using hq⟩
    simpa using hbefore r hr

end

/-! ## Searches -/

section

variable {κ : Type} {look : Location → κ → Except String (Option Json)} {dir : Location}
  {source : String}

theorem searchBy_append {before : List (String × κ)}
    (hbefore : ∀ q ∈ before, look (dir.resolve q.1) q.2 = .ok none) (later : List (String × κ)) :
    searchBy look dir source (before ++ later) = searchBy look dir source later := by
  induction before with
  | nil => rfl
  | cons q before ih =>
    obtain ⟨hq, hbefore⟩ := List.forall_mem_cons.1 hbefore
    rw [List.cons_append, searchBy]
    simp only [hq]
    exact ih hbefore

/-- Places for a script are passed by where there is none. -/
theorem searchBy_valueAt {readers : Readers} {t : Tree} {ps : List (String × Content)}
    (h : ∀ p ∈ ps, p.2 = .script → t.read? (dir.resolve p.1) = none) :
    searchBy (Content.valueAt readers t) dir source ps =
      searchBy (valueAt readers t) dir source (ps.filterMap textPlace?) := by
  induction ps with
  | nil => rfl
  | cons p ps ih =>
    obtain ⟨hp, hps⟩ := List.forall_mem_cons.1 h
    obtain ⟨name, content⟩ := p
    cases content with
    | text format => simp [searchBy, textPlace?, Content.valueAt, ih hps]
    | script =>
      have hnone : Content.valueAt readers t (dir.resolve name) .script = .ok none := by
        simp [Content.valueAt, valueIn, hp rfl]
      simp [searchBy, List.filterMap_cons, textPlace?, hnone, ih hps]

end

/-! ## Loading -/

/-- What a text comes to at the place that decides. -/
def verdict (readers : Readers) (source : String) (file : Location) (format : Format)
    (text : String) : Except GenError Overrides :=
  match format.parse readers text with
  | .error why => .error (.unreadableConfig source why)
  | .ok v => Schema.validate v file.path

section

variable {readers : Readers} {t : Tree} {base : Location} {source : String}

theorem load_of_vacant (h : ∀ p ∈ places, Vacant readers t (base.resolve source) p) :
    load readers t base source = .ok {} := by
  rw [load, ← List.append_nil places, searchBy_append fun q hq => valueAt_of_vacant (h q hq)]
  rfl

theorem load_of_isFirst {before : List (String × Format)} {p : String × Format}
    (h : IsFirst readers t (base.resolve source) before p) :
    ∃ bytes, t.read? ((base.resolve source).resolve p.1) = some bytes ∧
      load readers t base source =
        verdict readers source ((base.resolve source).resolve p.1) p.2 (Utf8.decode bytes) := by
  obtain ⟨bytes, hread, hvalue⟩ := exists_text h.holds
  obtain ⟨later, hsplit⟩ := h.split
  refine ⟨bytes, hread, ?_⟩
  rw [load, ← hsplit, List.append_assoc,
    searchBy_append fun q hq => valueAt_of_vacant (h.vacant q hq), List.singleton_append, searchBy]
  simp only [hvalue]
  rw [verdict]
  cases p.2.parse readers (Utf8.decode bytes) <;> rfl

theorem load_congr {t' : Tree} {before : List (String × Format)} {p : String × Format}
    (h : IsFirst readers t (base.resolve source) before p)
    (hsame : SameAt t t' (base.resolve source) (before ++ [p])) :
    load readers t' base source = load readers t base source := by
  obtain ⟨bytes, hread, hload⟩ := load_of_isFirst h
  obtain ⟨bytes', hread', hload'⟩ := load_of_isFirst (h.congr hsame)
  have hbytes := hsame p (List.mem_append_right _ (List.mem_singleton_self p))
  rw [hread, hread', Option.some.injEq] at hbytes
  rw [hload, hload', hbytes]

theorem loadRunning_eq
    (h : t.read? ((base.resolve source).resolve scriptName) = none) :
    loadRunning readers t base source = load readers t base source := by
  refine searchBy_valueAt fun p hp hscript => ?_
  have hname : ∀ p ∈ allPlaces, p.2 = .script → p.1 = scriptName := by decide
  rw [hname p hp hscript]
  exact h

/-- **The first place that is not vacant decides.** Its text alone makes the outcome, whatever there
is behind it: the settings in it, or an error. Without such a place nothing is overridden. Both
loaders agree where there is no script. All this is so however YAML is read. -/
theorem first_place_decides (readers : Readers) (t : Tree) (base : Location) (source : String) :
    let dir := base.resolve source
    let outcome := load readers t base source
    (t.read? (dir.resolve scriptName) = none → loadRunning readers t base source = outcome) ∧
      (∀ e, outcome = .error e → e.code = "INVALID_CONFIG") ∧
      ((∀ p ∈ places, Vacant readers t dir p) → outcome = .ok {}) ∧
      ((∃ p ∈ places, ¬ Vacant readers t dir p) → ∃ before p, IsFirst readers t dir before p) ∧
      ∀ before p, IsFirst readers t dir before p →
        (∃ bytes, t.read? (dir.resolve p.1) = some bytes ∧
          outcome = verdict readers source (dir.resolve p.1) p.2 (Utf8.decode bytes)) ∧
        ∀ t', SameAt t t' dir (before ++ [p]) →
          load readers t' base source = outcome ∧
            (t'.read? (dir.resolve scriptName) = none →
              loadRunning readers t' base source = outcome) := by
  intro dir outcome
  refine ⟨loadRunning_eq, fun e => code_of_searchBy, load_of_vacant, exists_isFirst, ?_⟩
  intro before p hfirst
  refine ⟨load_of_isFirst hfirst, fun t' hsame => ?_⟩
  have hload : load readers t' base source = outcome := load_congr hfirst hsame
  exact ⟨hload, fun hscript => (loadRunning_eq hscript).trans hload⟩

/-- A blank file, one with an empty suffix, and `package` as the text of `package.json`. -/
def placesTree (package : String) : Tree := ⟨.ofEntries [
  (⟨[".cachemanagerrc.yml"]⟩, .file (Utf8.encode "\n")),
  (⟨[".cachemanagerrc.yaml"]⟩, .file (Utf8.encode "suffix: ''\n")),
  (⟨["package.json"]⟩, .file (Utf8.encode package))]⟩

theorem first_place_decides_placesTree :
    let before := [(".cachemanagerrc.json", .json), (".cachemanagerrc.yml", .yaml)]
    let p := (".cachemanagerrc.yaml", .yaml)
    let t := placesTree "\x7b\"cachemanager\": \x7b\"suffix\": \"Store\"\x7d\x7d"
    let t' := placesTree "\x7b"
    let e := GenError.invalidConfig "/.cachemanagerrc.yaml"
      "suffix: String must contain at least 1 character(s)"
    IsFirst .builtin t .root before p ∧ SameAt t t' .root (before ++ [p]) ∧
      t'.read? (Location.root.resolve scriptName) = none ∧
      load .builtin t .root "." = .error e ∧ load .builtin t' .root "." = .error e ∧
      loadRunning .builtin t' .root "." = .error e := by
  intro before p t t' e
  have hfirst : IsFirst .builtin t .root before p :=
    ⟨⟨[("package.json", .package)], by decide⟩, by decide +kernel, by decide +kernel⟩
  have hsame : SameAt t t' .root (before ++ [p]) := by
    unfold SameAt
    decide +kernel
  have hscript : t'.read? (Location.root.resolve scriptName) = none := by decide +kernel
  have hload : load .builtin t .root "." = .error e := by decide +kernel
  obtain ⟨-, -, -, -, hdecides⟩ := first_place_decides .builtin t .root "."
  obtain ⟨hload', hrunning⟩ := (hdecides before p hfirst).2 t' hsame
  exact ⟨hfirst, hsame, hscript, hload, hload'.trans hload, (hrunning hscript).trans hload⟩

end

end CacheGen.Discovery
