import CacheGen.Proofs.Parameters
import CacheGen.Proofs.Settings
import Mathlib.Data.List.ReduceOption

/-!
# Overrides written as a parameter

Overrides are written as settings, a value under each key that has one (`Overrides.settings`). Settings
stand in a parameter as pairs between commas, with blanks around each pair and around its equals sign,
and with blank text between pairs (`IsSegment`).

**Theorem (`parse_written`).** Overrides that a parameter can express are read back from any such
text, in whatever order their settings stand in it.
-/

namespace CacheGen

/-! ## Settings -/

namespace Overrides

/-- The keys of a parameter that are no file's. -/
def fixedKeys : List String :=
  ["target", "suffix", "runtime_import", "runtime_module", "import_extension", "paths", "module"]

/-- The settings that overrides are written as, under the keys of a parameter. -/
def settings (o : Overrides) : List (String × String) :=
  fixedKeys.filterMap (fun key => (o.fixed? key).map (key, ·)) ++
    (o.goImportMap.getD ∅).entries.map fun (file, value) => ("M" ++ file, value)

end Overrides

namespace Parameter

/-- A file that can stand in a key. -/
structure IsFile (file : String) : Prop where
  ne_empty : file ≠ ""
  no_comma : ',' ∉ file.toList
  no_mark : '=' ∉ file.toList
  trimmed : ∀ c ∈ file.toList.getLast?, Text.isBlank c = false

/-- Overrides that a parameter can express. -/
structure IsExpressible (o : Overrides) : Prop where
  target : KnownTarget o
  suffix : ∀ value ∈ o.suffix, IsValue value
  goRuntimeImport : ∀ value ∈ o.goRuntimeImport, IsValue value
  tsRuntimeModule : ∀ value ∈ o.tsRuntimeModule, IsValue value
  goModule : ∀ value ∈ o.goModule, IsValue value
  goImportMap : ∀ m ∈ o.goImportMap,
    m.entries ≠ [] ∧ ∀ e ∈ m.entries, IsFile e.1 ∧ IsValue e.2

/-- How a text between commas is read: as a setting, or as nothing. -/
inductive IsSegment : Option (String × String) → String → Prop
  | blank {text : String} (h : Text.allBlank text = true) : IsSegment none text
  | setting {key value front before after back : String} (hfront : Text.allBlank front = true)
    (hbefore : Text.allBlank before = true) (hafter : Text.allBlank after = true)
    (hback : Text.allBlank back = true) :
    IsSegment (some (key, value)) (front ++ key ++ before ++ "=" ++ after ++ value ++ back)

/-- A key that is read as it stands. -/
structure IsReadable (key : String) : Prop where
  ne_empty : key ≠ ""
  no_comma : ',' ∉ key.toList
  no_mark : '=' ∉ key.toList
  trimmed : Text.trim key = key

instance (key : String) : Decidable (IsReadable key) :=
  decidable_of_iff (_ ∧ _ ∧ _ ∧ _)
    ⟨fun ⟨a, b, c, d⟩ => ⟨a, b, c, d⟩, fun ⟨a, b, c, d⟩ => ⟨a, b, c, d⟩⟩

theorem head?_setting {key : String} (h : IsReadable key) {before after : String} :
    ∀ c ∈ (key ++ before ++ "=" ++ after).toList.head?, Text.isBlank c = false := by
  intro c hc
  simp only [String.toList_append, List.append_assoc] at hc
  rw [List.head?_append_of_ne_nil _ (String.toList_eq_nil_iff.not.2 h.ne_empty)] at hc
  exact (Text.trim_eq_self_iff.1 h.trimmed).1 c hc

/-! ## Pairs -/

theorem comma_not_mem_of_isSegment {segment : Option (String × String)} {text : String}
    (h : IsSegment segment text) (hs : ∀ s ∈ segment, IsReadable s.1 ∧ IsValue s.2) :
    ',' ∉ text.toList := by
  have hblanks : ∀ {blanks : String}, Text.allBlank blanks = true → ',' ∉ blanks.toList :=
    fun hblank => Text.not_mem_of_allBlank hblank rfl
  cases h with
  | blank hblank => exact hblanks hblank
  | setting hfront hbefore hafter hback =>
    obtain ⟨hkey, hvalue⟩ := hs _ rfl
    simp only [String.toList_append, List.mem_append, not_or]
    exact ⟨⟨⟨⟨⟨⟨hblanks hfront, hkey.no_comma⟩, hblanks hbefore⟩, by simp⟩, hblanks hafter⟩,
      hvalue.no_comma⟩, hblanks hback⟩

section

variable {segments : List (Option (String × String))} {texts : List String}
  (htexts : List.Forall₂ IsSegment segments texts)
  (hs : ∀ s ∈ segments.reduceOption, IsReadable s.1 ∧ IsValue s.2)

include htexts hs

theorem comma_not_mem_of_segments : ∀ text ∈ texts, ',' ∉ text.toList := by
  induction htexts with
  | nil => simp
  | @cons segment text segments texts hsegment _ ih =>
    rw [List.forall_mem_cons]
    constructor
    · refine comma_not_mem_of_isSegment hsegment fun s hmem => hs s ?_
      exact List.reduceOption_mem_iff.2 (Option.mem_def.1 hmem ▸ List.mem_cons_self)
    · refine ih fun s hmem => hs s (List.reduceOption_mem_iff.2 ?_)
      exact List.mem_cons_of_mem _ (List.reduceOption_mem_iff.1 hmem)

theorem keyValue_segments :
    ((texts.map Text.trim).filter (· ≠ "")).map keyValue = segments.reduceOption := by
  induction htexts with
  | nil => rfl
  | @cons segment text segments texts hsegment _ ih =>
    cases hsegment with
    | blank hblank =>
      rw [List.reduceOption_cons_of_none] at hs ⊢
      rw [List.map_cons, Text.trim_of_allBlank hblank, List.filter_cons_of_neg (by simp), ih hs]
    | @setting key value front before after back hfront hbefore hafter hback =>
      rw [List.reduceOption_cons_of_some] at hs ⊢
      obtain ⟨⟨hkey, hvalue⟩, hrest⟩ := List.forall_mem_cons.1 hs
      have htrim : Text.trim (front ++ key ++ before ++ "=" ++ after ++ value ++ back) =
          key ++ before ++ "=" ++ after ++ value := by
        have hpadded := Text.trim_padded hfront hback (key ++ before ++ "=" ++ after ++ value)
        rw [trim_append_value hvalue (by simp) (head?_setting hkey)] at hpadded
        simpa only [String.append_assoc] using hpadded
      rw [List.map_cons, htrim, List.filter_cons_of_pos (by simp [hvalue.ne_empty]), List.map_cons,
        keyValue_padded hkey.no_mark hkey.trimmed hvalue.trimmed hbefore hafter, ih hrest]

/-- The pairs of a parameter are the settings that are written in it. -/
theorem keyValue_pairs :
    (pairs (",".intercalate texts)).map keyValue = segments.reduceOption := by
  rw [pairs_intercalate (comma_not_mem_of_segments htexts hs), keyValue_segments htexts hs]

end

/-! ## Settings of overrides -/

theorem mem_fixedKeys {o : Overrides} {key value : String} (h : o.fixed? key = some value) :
    key ∈ Overrides.fixedKeys := by
  unfold Overrides.fixed? at h
  split at h
  all_goals first
    | decide
    | cases h

theorem mappedFile?_of_mem_fixedKeys {key : String} (h : key ∈ Overrides.fixedKeys) :
    mappedFile? key = none := by
  revert key
  decide

theorem isReadable_of_mem_fixedKeys {key : String} (h : key ∈ Overrides.fixedKeys) :
    IsReadable key := by
  revert key
  decide

theorem mappedKey_injective : Function.Injective fun file : String => "M" ++ file := by
  intro a b h
  have hchars := congrArg String.toList h
  simp only [String.toList_append] at hchars
  exact String.toList_inj.1 (List.append_cancel_left hchars)

theorem isReadable_mapped {file : String} (h : IsFile file) : IsReadable ("M" ++ file) := by
  have hlist : ("M" ++ file).toList = 'M' :: file.toList := by simp
  have hne : file.toList ≠ [] := String.toList_eq_nil_iff.not.2 h.ne_empty
  refine ⟨by simp, by simp [h.no_comma], by simp [h.no_mark], ?_⟩
  rw [Text.trim_eq_self_iff, hlist]
  constructor
  · rintro c ⟨rfl⟩
    rfl
  · intro c hc
    rw [List.getLast?_cons_of_ne_nil hne] at hc
    exact h.trimmed c hc

theorem mem_settings_iff {o : Overrides} (ho : MapsFiles o) {key value : String} :
    (key, value) ∈ o.settings ↔ o.given? key = some value := by
  have hfixed : (key, value) ∈ Overrides.fixedKeys.filterMap
      (fun key => (o.fixed? key).map (key, ·)) ↔ o.fixed? key = some value := by
    simp only [List.mem_filterMap, Option.map_eq_some_iff, Prod.mk.injEq]
    constructor
    · rintro ⟨_, _, _, h, rfl, rfl⟩
      exact h
    · intro h
      exact ⟨key, mem_fixedKeys h, value, h, rfl, rfl⟩
  have hmapped : (key, value) ∈ (o.goImportMap.getD ∅).entries.map
      (fun (file, value) => ("M" ++ file, value)) ↔
      ∃ file, o.goPackage? file = some value ∧ "M" ++ file = key := by
    simp only [List.mem_map, Prod.exists, Prod.mk.injEq, OrderedMap.mem_entries_iff,
      Overrides.get?_imports]
    constructor
    · rintro ⟨file, _, h, hkey, rfl⟩
      exact ⟨file, h, hkey⟩
    · rintro ⟨file, h, hkey⟩
      exact ⟨file, value, h, hkey, rfl⟩
  rw [Overrides.settings, List.mem_append, hfixed, hmapped, Overrides.given?]
  cases hkey : mappedFile? key with
  | some file =>
    have hunfixed : ¬o.fixed? key = some value := by
      intro h
      rw [mappedFile?_of_mem_fixedKeys (mem_fixedKeys h)] at hkey
      cases hkey
    obtain ⟨rfl, -⟩ := mappedFile?_eq_some_iff.1 hkey
    rw [or_iff_right hunfixed]
    constructor
    · rintro ⟨file', h, hsame⟩
      exact mappedKey_injective hsame ▸ h
    · intro h
      exact ⟨file, h, rfl⟩
  | none =>
    refine or_iff_left ?_
    rintro ⟨file, h, rfl⟩
    by_cases hfile : file = ""
    · rw [hfile, Overrides.goPackage?_empty ho] at h
      cases h
    · rw [mappedFile?_eq_some_iff.2 ⟨rfl, hfile⟩] at hkey
      cases hkey

theorem nodup_settings {o : Overrides} (ho : MapsFiles o) : (o.settings.map Prod.fst).Nodup := by
  have hfixed : ∀ {key k : String}, ((o.fixed? key).map (key, ·)).map Prod.fst = some k →
      key = k := by
    intro key k h
    rw [Option.map_map, Option.map_eq_some_iff] at h
    obtain ⟨_, _, hkey⟩ := h
    exact hkey
  have hmapped : ((o.goImportMap.getD ∅).entries.map
      fun (file, value) => ("M" ++ file, value)).map Prod.fst =
        (o.goImportMap.getD ∅).keys.map fun file => "M" ++ file := by
    rw [OrderedMap.keys, List.map_map, List.map_map]
    rfl
  rw [Overrides.settings, List.map_append, hmapped, List.map_filterMap, List.nodup_append']
  refine ⟨List.Nodup.filterMap ?_ (by decide : Overrides.fixedKeys.Nodup),
    (OrderedMap.nodup _).map mappedKey_injective, ?_⟩
  · intro key key' k hkey hkey'
    rw [hfixed hkey, hfixed hkey']
  · intro key hleft hright
    obtain ⟨key', hmem, hkey⟩ := List.mem_filterMap.1 hleft
    obtain ⟨file, hfile, rfl⟩ := List.mem_map.1 hright
    obtain rfl := hfixed hkey
    have hne : file ≠ "" := fun hempty => ho.not_mem_keys (hempty ▸ hfile)
    have hnone := mappedFile?_of_mem_fixedKeys hmem
    rw [mappedFile?_eq_some_iff.2 ⟨rfl, hne⟩] at hnone
    cases hnone

theorem isValue_of_fixed? {o : Overrides} (h : IsExpressible o) {key value : String}
    (hkey : o.fixed? key = some value) : IsValue value := by
  unfold Overrides.fixed? at hkey
  split at hkey
  · rcases isSome_ofName?_iff.1 (h.target value hkey) with rfl | rfl <;> decide
  · exact h.suffix value hkey
  · exact h.goRuntimeImport value hkey
  · exact h.tsRuntimeModule value hkey
  · obtain ⟨ext, -, rfl⟩ := Option.map_eq_some_iff.1 hkey
    cases ext <;> decide
  · obtain ⟨layout, -, rfl⟩ := Option.map_eq_some_iff.1 hkey
    cases layout <;> decide
  · exact h.goModule value hkey
  · cases hkey

theorem readable_of_mem_settings {o : Overrides} (h : IsExpressible o) {s : String × String}
    (hs : s ∈ o.settings) : IsReadable s.1 ∧ IsValue s.2 := by
  rcases List.mem_append.1 hs with hfixed | hmapped
  · obtain ⟨key, hkey, hsetting⟩ := List.mem_filterMap.1 hfixed
    obtain ⟨value, hvalue, rfl⟩ := Option.map_eq_some_iff.1 hsetting
    exact ⟨isReadable_of_mem_fixedKeys hkey, isValue_of_fixed? h hvalue⟩
  · obtain ⟨e, he, rfl⟩ := List.mem_map.1 hmapped
    cases hmap : o.goImportMap with
    | none =>
      rw [hmap] at he
      cases he
    | some m =>
      rw [hmap] at he
      obtain ⟨hfile, hvalue⟩ := (h.goImportMap m hmap).2 e he
      exact ⟨isReadable_mapped hfile, hvalue⟩

/-! ## Acceptance -/

theorem exists_applyKey {o : Overrides} (ho : KnownTarget o) {key value : String}
    (h : o.fixed? key = some value) (given : Overrides) (pair : String) :
    ∃ given', applyKey given pair key value = .ok given' := by
  unfold Overrides.fixed? at h
  split at h
  · rcases isSome_ofName?_iff.1 (ho value h) with rfl | rfl <;> exact ⟨_, rfl⟩
  · exact ⟨_, rfl⟩
  · exact ⟨_, rfl⟩
  · exact ⟨_, rfl⟩
  · obtain ⟨ext, -, rfl⟩ := Option.map_eq_some_iff.1 h
    cases ext <;> exact ⟨_, rfl⟩
  · obtain ⟨layout, -, rfl⟩ := Option.map_eq_some_iff.1 h
    cases layout <;> exact ⟨_, rfl⟩
  · exact ⟨_, rfl⟩
  · cases h

theorem refusal?_eq_none {o : Overrides} (ho : KnownTarget o) {pair : String}
    (hvalue : (keyValue pair).2 ≠ "")
    (h : o.given? (keyValue pair).1 = some (keyValue pair).2) : refusal? pair = none := by
  rw [refusal?, Outcome.error?_eq_none]
  unfold applyPair
  generalize keyValue pair = p at hvalue h ⊢
  obtain ⟨key, value⟩ := p
  dsimp only at hvalue h ⊢
  rw [if_neg hvalue]
  unfold Overrides.given? at h
  cases hkey : mappedFile? key with
  | some file => exact ⟨_, rfl⟩
  | none =>
    rw [hkey] at h
    exact exists_applyKey ho h {} pair

theorem parse_written {o : Overrides} (h : IsExpressible o)
    {segments : List (Option (String × String))} {texts : List String}
    (htexts : List.Forall₂ IsSegment segments texts)
    (hsettings : segments.reduceOption.Perm o.settings) :
    ∃ given, parse (",".intercalate texts) = .ok given ∧ given.Agrees o := by
  have hfiles : MapsFiles o := fun m hm =>
    ⟨(h.goImportMap m hm).1, fun hempty => by
      obtain ⟨e, he, hfile⟩ := List.mem_map.1 hempty
      exact ((h.goImportMap m hm).2 e he).1.ne_empty hfile⟩
  have hmem : ∀ {key value : String},
      (key, value) ∈ segments.reduceOption ↔ o.given? key = some value :=
    hsettings.mem_iff.trans (mem_settings_iff hfiles)
  have hreadable : ∀ s ∈ segments.reduceOption, IsReadable s.1 ∧ IsValue s.2 := fun s hs =>
    readable_of_mem_settings h (hsettings.mem_iff.1 hs)
  have hpairs := keyValue_pairs htexts hreadable
  obtain ⟨given, hgiven⟩ : ∃ given, parse (",".intercalate texts) = .ok given := by
    rw [exists_parse_iff, List.findSome?_eq_none_iff]
    intro pair hpair
    have hsetting : keyValue pair ∈ segments.reduceOption :=
      hpairs ▸ List.mem_map_of_mem hpair
    exact refusal?_eq_none h.target (hreadable _ hsetting).2.ne_empty (hmem.1 hsetting)
  refine ⟨given, hgiven, Overrides.agrees_of_given? (mapsFiles_of_parse hgiven) hfiles ?_⟩
  intro key
  have hnodup : (segments.reduceOption.map Prod.fst).Nodup :=
    (hsettings.map Prod.fst).nodup_iff.2 (nodup_settings hfiles)
  refine Option.ext fun value => ?_
  rw [given?_of_parse hgiven, hpairs, ← hmem]
  exact ⟨OrderedMap.mem_of_get?_ofEntries, OrderedMap.get?_ofEntries_of_mem hnodup⟩

theorem parse_written_padded :
    let o : Overrides := {
      suffix := some "Of target=go"
      importExtension := some .none
      goImportMap := some (.ofEntries [("shop/order.proto", "shop.com/a;b")]) }
    ∃ given,
      parse " , Mshop/order.proto =shop.com/a;b,,import_extension= none, suffix = Of target=go " =
        .ok given ∧ given.Agrees o := by
  intro o
  have hmapped := @IsSegment.setting "Mshop/order.proto" "shop.com/a;b" " " " " "" "" rfl rfl rfl rfl
  have hextension := @IsSegment.setting "import_extension" "none" "" "" " " "" rfl rfl rfl rfl
  have hsuffix := @IsSegment.setting "suffix" "Of target=go" " " " " " " " " rfl rfl rfl rfl
  have htexts := List.Forall₂.cons (IsSegment.blank (rfl : Text.allBlank " " = true))
    (.cons hmapped (.cons (.blank (rfl : Text.allBlank "" = true))
      (.cons hextension (.cons hsuffix .nil))))
  have ho : IsExpressible o := by
    refine ⟨by simp [KnownTarget, o], ?_, by simp [o], by simp [o], by simp [o], ?_⟩
    · rintro value ⟨rfl⟩
      decide
    · rintro m ⟨rfl⟩
      refine ⟨by decide, fun e he => ?_⟩
      obtain rfl := List.mem_singleton.1 he
      refine ⟨⟨by decide, by decide, by decide, ?_⟩, by decide⟩
      rintro c ⟨⟩
      rfl
  obtain ⟨given, hgiven, hagrees⟩ := parse_written ho htexts (by decide +kernel)
  refine ⟨given, ?_, hagrees⟩
  rw [← hgiven]
  exact congrArg parse (by decide +kernel)

end Parameter

end CacheGen
