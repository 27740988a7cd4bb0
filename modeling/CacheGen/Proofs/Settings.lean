import CacheGen.Command.Generate
import CacheGen.Proofs.Joined

/-!
# Settings written as a parameter

Settings are keys with values. Written as pairs between commas they are a parameter. Reading it
applies one setting after the other, provided that no value is empty, has a comma in it or a blank
at an end (`parse_ofSettings`).

Options of the command are settings too. Taken as options or read from the parameter that they are
written as, they give the same overrides, or the same error (`parse_parameter`).
-/

namespace CacheGen

namespace Parameter

/-! ## Pairs -/

/-- A key that pairs are read by as it stands. -/
structure IsKey (key : String) : Prop where
  chars : ∀ c ∈ key.toList, c ≠ '=' ∧ c ≠ ',' ∧ Text.isBlank c = false
  unmapped : mappedFile? key = none

instance (key : String) : Decidable (IsKey key) :=
  -- Only the characters of the key are gone through, not all that there are.
  letI : Decidable (∀ c ∈ key.toList, c ≠ '=' ∧ c ≠ ',' ∧ Text.isBlank c = false) :=
    List.decidableBAll _ _
  decidable_of_iff (_ ∧ _) ⟨fun ⟨h, h'⟩ => ⟨h, h'⟩, fun ⟨h, h'⟩ => ⟨h, h'⟩⟩

/-- A value that pairs are read with as it stands. -/
structure IsValue (value : String) : Prop where
  ne_empty : value ≠ ""
  no_comma : ',' ∉ value.toList
  trimmed : Text.trim value = value

instance (value : String) : Decidable (IsValue value) :=
  decidable_of_iff (_ ∧ _ ∧ _) ⟨fun ⟨h, h', h''⟩ => ⟨h, h', h''⟩, fun ⟨h, h', h''⟩ => ⟨h, h', h''⟩⟩

/-- A setting as a pair. -/
def pair (s : String × String) : String := s.1 ++ "=" ++ s.2

/-- Settings as one parameter. -/
def ofSettings (settings : List (String × String)) : String :=
  ",".intercalate (settings.map pair)

theorem pair_ne_empty (s : String × String) : pair s ≠ "" := by
  intro h
  have hlength := congrArg String.length h
  simp [pair, String.length_append] at hlength

/-- What is not blank in front and ends with a value has no blanks to trim. -/
theorem trim_append_value {front value : String} (hvalue : IsValue value) (hne : front ≠ "")
    (hfront : ∀ c ∈ front.toList.head?, Text.isBlank c = false) :
    Text.trim (front ++ value) = front ++ value := by
  rw [Text.trim_eq_self_iff, String.toList_append]
  constructor
  · intro c hc
    rw [List.head?_append_of_ne_nil _ (String.toList_eq_nil_iff.not.2 hne)] at hc
    exact hfront c hc
  · intro c hc
    -- The value is not empty, so the text ends as the value does.
    rw [List.getLast?_append_of_ne_nil _ (String.toList_eq_nil_iff.not.2 hvalue.ne_empty)] at hc
    exact (Text.trim_eq_self_iff.1 hvalue.trimmed).2 c hc

/-- Blanks around the equals sign belong neither to the key nor to the value. -/
theorem keyValue_padded {key value before after : String} (hmark : '=' ∉ key.toList)
    (hkey : Text.trim key = key) (hvalue : Text.trim value = value)
    (hbefore : Text.allBlank before = true) (hafter : Text.allBlank after = true) :
    keyValue (key ++ before ++ "=" ++ after ++ value) = (key, value) := by
  have hnone : Text.allBlank "" = true := rfl
  have hfront : '=' ∉ (key ++ before).toList := by
    rw [String.toList_append, List.mem_append]
    rintro (h | h)
    · exact hmark h
    · exact Text.not_mem_of_allBlank hbefore rfl h
  have hcut : Text.cutFirst? '=' (key ++ before ++ "=" ++ after ++ value) =
      some (key ++ before, after ++ value) := by
    rw [String.append_assoc]
    exact Text.cutFirst?_append hfront (after ++ value)
  have hleft := Text.trim_padded hnone hbefore key
  have hright := Text.trim_padded hafter hnone value
  rw [String.empty_append, hkey] at hleft
  rw [String.append_empty, hvalue] at hright
  rw [keyValue, hcut]
  simp only [hleft, hright]

/-- `o` with one setting. -/
def applySetting (o : Overrides) (s : String × String) : Except GenError Overrides :=
  applyKey o (pair s) s.1 s.2

section

variable {s : String × String} (hkey : IsKey s.1) (hvalue : IsValue s.2)

include hkey

theorem trim_key : Text.trim s.1 = s.1 :=
  Text.trim_eq_self_iff.2 ⟨fun c hc => (hkey.chars c (List.mem_of_head? hc)).2.2,
    fun c hc => (hkey.chars c (List.mem_of_getLast? hc)).2.2⟩

include hvalue

theorem comma_not_mem_pair : ',' ∉ (pair s).toList := by
  rw [pair, String.toList_append, String.toList_append, List.mem_append, List.mem_append]
  rintro ((h | h) | h)
  · exact (hkey.chars _ h).2.1 rfl
  · cases List.mem_singleton.1 h
  · exact hvalue.no_comma h

theorem trim_pair : Text.trim (pair s) = pair s := by
  refine trim_append_value hvalue (by simp) fun c hc => ?_
  cases hfirst : s.1.toList with
  | nil =>
    rw [String.toList_append, hfirst] at hc
    cases hc
    rfl
  | cons d ds =>
    rw [String.toList_append, hfirst] at hc
    have hd : d = c := Option.some.inj hc
    exact (hkey.chars c (hd ▸ hfirst ▸ List.mem_cons_self)).2.2

theorem keyValue_pair : keyValue (pair s) = s := by
  have hmark : '=' ∉ s.1.toList := fun h => (hkey.chars _ h).1 rfl
  have hnone : Text.allBlank "" = true := rfl
  have hpair := keyValue_padded hmark (trim_key hkey) hvalue.trimmed hnone hnone
  rwa [String.append_empty, String.append_empty] at hpair

theorem applyPair_pair (o : Overrides) : applyPair o (pair s) = applySetting o s := by
  rw [applyPair, keyValue_pair hkey hvalue]
  simp only
  rw [if_neg hvalue.ne_empty, hkey.unmapped]
  rfl

end

/-! ## Parameters -/

/-- The pairs of texts that are put together with commas. -/
theorem pairs_intercalate {texts : List String} (h : ∀ text ∈ texts, ',' ∉ text.toList) :
    pairs (",".intercalate texts) = (texts.map Text.trim).filter (· ≠ "") := by
  by_cases hnone : texts = []
  · rw [hnone]
    rfl
  · have hpieces : Text.pieces ',' (",".intercalate texts) = texts :=
      Text.pieces_intercalate hnone h
    rw [pairs, hpieces]

section

variable {settings : List (String × String)} (h : ∀ s ∈ settings, IsKey s.1 ∧ IsValue s.2)

include h

theorem pairs_ofSettings : pairs (ofSettings settings) = settings.map pair := by
  have hcomma : ∀ text ∈ settings.map pair, ',' ∉ text.toList :=
    List.forall_mem_map.2 fun s hs => comma_not_mem_pair (h s hs).1 (h s hs).2
  have htrim : (settings.map pair).map Text.trim = settings.map pair := by
    rw [List.map_map]
    exact List.map_congr_left fun s hs => trim_pair (h s hs).1 (h s hs).2
  rw [ofSettings, pairs_intercalate hcomma, htrim, List.filter_eq_self]
  refine List.forall_mem_map.2 fun s hs => ?_
  simpa using pair_ne_empty s

/-- Reading settings that were written applies them in their order. -/
theorem parse_ofSettings : parse (ofSettings settings) = settings.foldlM applySetting {} := by
  rw [parse, pairs_ofSettings h, List.foldlM_map]
  generalize ({} : Overrides) = o
  induction settings generalizing o with
  | nil => rfl
  | cons s settings ih =>
    obtain ⟨⟨hkey, hvalue⟩, hrest⟩ := List.forall_mem_cons.1 h
    rw [List.foldlM_cons, List.foldlM_cons, applyPair_pair hkey hvalue]
    exact congrArg (applySetting o s >>= ·) (funext fun o' => ih hrest o')

end

end Parameter

/-! ## Options -/

namespace Command.GenerateOptions

open Parameter

/-- The options that are settings of the config, under the keys of a parameter. -/
def settings (o : GenerateOptions) : List (String × String) :=
  [("target", o.target), ("suffix", o.suffix), ("paths", o.paths), ("module", o.module)].filterMap
    fun (key, value) => value.map (key, ·)

/-- The options as a parameter. -/
def parameter (o : GenerateOptions) : String := ofSettings o.settings

theorem isKey_of_mem_settings {o : GenerateOptions} {s : String × String} (hs : s ∈ o.settings) :
    IsKey s.1 := by
  obtain ⟨⟨key, value⟩, hmem, hvalue⟩ := List.mem_filterMap.1 hs
  obtain ⟨v, -, rfl⟩ := Option.map_eq_some_iff.1 hvalue
  simp only [List.mem_cons, Prod.mk.injEq, List.not_mem_nil, or_false] at hmem
  show IsKey key
  rcases hmem with ⟨rfl, -⟩ | ⟨rfl, -⟩ | ⟨rfl, -⟩ | ⟨rfl, -⟩ <;> decide

/-- `r` with the option under `key`, if it is given. -/
def applyOption (key : String) (r : Overrides) (value : Option String) :
    Except GenError Overrides :=
  match value with
  | none => pure r
  | some v => applySetting r (key, v)

section

variable {r : Overrides} (value : Option String)

theorem applyOption_target (hr : r.target = none) :
    applyOption "target" r value = do
      let target ← value.mapM readTarget
      return { r with target := target } := by
  cases value with
  | none =>
    show pure r = pure { r with target := none }
    rw [← hr]
  | some t =>
    show (readTarget t).map _ = some <$> readTarget t >>= _
    cases readTarget t <;> rfl

theorem applyOption_suffix (hr : r.suffix = none) :
    applyOption "suffix" r value = return { r with suffix := value } := by
  cases value with
  | none =>
    show pure r = pure { r with suffix := none }
    rw [← hr]
  | some v => rfl

theorem applyOption_paths (hr : r.goLayout = none) :
    applyOption "paths" r value = do
      let layout ← value.mapM fun p => readLayout ("paths=" ++ p) p
      return { r with goLayout := layout } := by
  cases value with
  | none =>
    show pure r = pure { r with goLayout := none }
    rw [← hr]
  | some p =>
    have hpair : pair ("paths", p) = "paths=" ++ p := by simp [pair]
    show (readLayout (pair ("paths", p)) p).map _ = some <$> readLayout ("paths=" ++ p) p >>= _
    rw [hpair]
    cases readLayout ("paths=" ++ p) p <;> rfl

theorem applyOption_module (hr : r.goModule = none) :
    applyOption "module" r value = return { r with goModule := value } := by
  cases value with
  | none =>
    show pure r = pure { r with goModule := none }
    rw [← hr]
  | some v => rfl

end

theorem overrides_eq (o : GenerateOptions) : o.overrides = do
    let target ← o.target.mapM readTarget
    let layout ← o.paths.mapM fun p => readLayout ("paths=" ++ p) p
    return { target := target, suffix := o.suffix, goLayout := layout, goModule := o.module } := by
  unfold overrides
  cases o.target <;> cases o.paths <;> rfl

/-- Applying the settings one after the other is taking the options. -/
theorem foldlM_settings (o : GenerateOptions) :
    o.settings.foldlM applySetting {} = o.overrides := by
  have hsteps : o.settings.foldlM applySetting {} = (do
      let r ← applyOption "target" {} o.target
      let r ← applyOption "suffix" r o.suffix
      let r ← applyOption "paths" r o.paths
      applyOption "module" r o.module) := by
    rw [settings, List.foldlM_filterMap]
    simp only [List.foldlM_cons, List.foldlM_nil]
    cases o.target <;> cases o.suffix <;> cases o.paths <;> cases o.module <;>
      simp [applyOption]
  -- Each key has a field of its own, which no setting before it has filled.
  rw [hsteps, overrides_eq, applyOption_target _ rfl, bind_assoc]
  refine bind_congr fun target => ?_
  rw [pure_bind, applyOption_suffix _ rfl, pure_bind, applyOption_paths _ rfl, bind_assoc]
  refine bind_congr fun layout => ?_
  rw [pure_bind, applyOption_module _ rfl]

theorem parse_parameter {o : GenerateOptions} (h : ∀ s ∈ o.settings, IsValue s.2) :
    parse o.parameter = o.overrides := by
  rw [parameter, parse_ofSettings fun s hs => ⟨isKey_of_mem_settings hs, h s hs⟩, foldlM_settings]

end Command.GenerateOptions

end CacheGen
