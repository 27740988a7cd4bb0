import CacheGen.Proofs.ConfigConstraints
import CacheGen.Proofs.Lists

/-!
# What a config file is refused for

What is wrong with a file are its offences (`Offends`): a setting that is not what it has to be,
an import map that is none, an entry of it without a text, and unknown keys. Each of them has a
place in the file, all unknown keys together having the root.

**Theorem (`validate_exact`).** A file is accepted exactly when it conforms, and is returned as it
is but for the reserved entry of its import map. Otherwise the issues in the error are at the places
of its offences, each once and in the order of the settings.
-/

namespace CacheGen

namespace Schema

/-! ## Complaints -/

def ruleIssues {α : Type} (key : String) (rule : Rule α) (v : Json) : List Issue :=
  match rule v with
  | .ok _ => []
  | .error text => [⟨[key], text⟩]

/-- What is wrong with the member under `key`. -/
def complaints (key : String) (v : Json) : List Issue :=
  match key with
  | "target" => ruleIssues "target" targetRule v
  | "suffix" => ruleIssues "suffix" someText v
  | "goRuntimeImport" => ruleIssues "goRuntimeImport" someText v
  | "tsRuntimeModule" => ruleIssues "tsRuntimeModule" someText v
  | "importExtension" => ruleIssues "importExtension" extensionRule v
  | "goPaths" => ruleIssues "goPaths" layoutRule v
  | "goModule" => ruleIssues "goModule" anyText v
  | "goImportMap" => mapIssues "goImportMap" v
  | _ => []

def complaintsAt (members : List (String × Json)) (key : String) : List Issue :=
  ((Json.member? members key).map (complaints key)).getD []

theorem issues_object (members : List (String × Json)) :
    issues (.object members) =
      knownKeys.flatMap (complaintsAt members) ++ unknownKeyIssues members := by
  have hrule : ∀ {α : Type} (key : String) (rule : Rule α),
      complaints key = ruleIssues key rule →
        memberIssues members key rule = complaintsAt members key := by
    intro α key rule h
    rw [memberIssues, complaintsAt, h]
    cases Json.member? members key <;> rfl
  rw [issues, hrule "target" targetRule rfl, hrule "suffix" someText rfl,
    hrule "goRuntimeImport" someText rfl, hrule "tsRuntimeModule" someText rfl,
    hrule "importExtension" extensionRule rfl, hrule "goPaths" layoutRule rfl,
    hrule "goModule" anyText rfl]
  have hmap : complaints "goImportMap" = mapIssues "goImportMap" := rfl
  simp [knownKeys, complaintsAt, hmap]

theorem ruleIssues_cases {α : Type} {rule : Rule α} {P : Json → Prop} {write : α → Json}
    (h : rule.Reads P write) (key : String) (v : Json) :
    P v ∧ ruleIssues key rule v = [] ∨ ¬ P v ∧ ∃ text, ruleIssues key rule v = [⟨[key], text⟩] := by
  by_cases hv : P v
  · obtain ⟨a, ha⟩ := h.accepts v hv
    exact .inl ⟨hv, by simp [ruleIssues, ha]⟩
  · refine .inr ⟨hv, ?_⟩
    cases hrule : rule v with
    | ok a => exact absurd (h.sound v a hrule).1 hv
    | error text => exact ⟨text, by simp [ruleIssues, hrule]⟩

/-- A setting other than the import map has one complaint or none. -/
theorem complaints_setting {key : String} (hkey : key ∈ knownKeys) (hmap : key ≠ "goImportMap")
    (v : Json) :
    Satisfies key v ∧ complaints key v = [] ∨
      ¬ Satisfies key v ∧ ∃ text, complaints key v = [⟨[key], text⟩] := by
  simp only [knownKeys, List.mem_cons, List.not_mem_nil, or_false, hmap] at hkey
  rcases hkey with rfl | rfl | rfl | rfl | rfl | rfl | rfl
  · exact ruleIssues_cases reads_targetRule "target" v
  · exact ruleIssues_cases reads_someText "suffix" v
  · exact ruleIssues_cases reads_someText "goRuntimeImport" v
  · exact ruleIssues_cases reads_someText "tsRuntimeModule" v
  · exact ruleIssues_cases reads_extensionRule "importExtension" v
  · exact ruleIssues_cases reads_layoutRule "goPaths" v
  · exact ruleIssues_cases reads_anyText "goModule" v

/-! ## Places -/

/-- The order of places is that of the settings in the schema. The root comes last. -/
def rank : List String → Nat
  | [] => knownKeys.length
  | key :: _ => knownKeys.idxOf key

/-- `places` are those of which `P` holds, each once, in their order. -/
structure Reports (places : List (List String)) (P : List String → Prop) : Prop where
  once : places.Nodup
  mem_iff : ∀ place, place ∈ places ↔ P place
  ordered : places.Pairwise fun a b => rank a ≤ rank b

/-- Reports under one key after the other, where those of a later key go behind. -/
theorem Reports.flatMap {keys : List String} {places : String → List (List String)}
    {P : String → List String → Prop} (h : ∀ key ∈ keys, Reports (places key) (P key))
    (hbehind : keys.Pairwise fun a b => ∀ place place', P a place → P b place' →
      place ≠ place' ∧ rank place ≤ rank place') :
    Reports (keys.flatMap places) fun place => ∃ key ∈ keys, P key place where
  once := by
    refine List.nodup_flatMap.2 ⟨fun key hkey => (h key hkey).once, ?_⟩
    refine hbehind.imp_of_mem fun {a b} ha hb hab place hplace hplace' => ?_
    have hplace := ((h a ha).mem_iff place).1 hplace
    have hplace' := ((h b hb).mem_iff place).1 hplace'
    exact (hab place place hplace hplace').1 rfl
  mem_iff place := by
    rw [List.mem_flatMap]
    exact exists_congr fun key => and_congr_right fun hkey => (h key hkey).mem_iff place
  ordered := by
    refine List.pairwise_flatMap.2 ⟨fun key hkey => (h key hkey).ordered, ?_⟩
    refine hbehind.imp_of_mem fun {a b} ha hb hab place hplace place' hplace' => ?_
    have hplace := ((h a ha).mem_iff place).1 hplace
    have hplace' := ((h b hb).mem_iff place').1 hplace'
    exact (hab place place' hplace hplace').2

theorem OffendsIn.exists_cons {key : String} {v : Json} {place : List String}
    (h : OffendsIn key v place) : ∃ rest, place = key :: rest := by
  cases h <;> exact ⟨_, rfl⟩

theorem OffendsIn.rank_eq {key : String} {v : Json} {place : List String}
    (h : OffendsIn key v place) : rank place = knownKeys.idxOf key := by
  obtain ⟨rest, rfl⟩ := h.exists_cons
  rfl

theorem not_isSomeText_iff {v : Json} : ¬ IsSomeText v ↔ ∃ text, someText v = .error text := by
  rcases ruleIssues_cases reads_someText "" v with ⟨hv, hnone⟩ | ⟨hv, text, htext⟩
  · cases hrule : someText v <;> simp_all [ruleIssues]
  · cases hrule : someText v <;> simp_all [ruleIssues]

/-- What is wrong with an entry of an import map. -/
def entryIssue? (key : String) (e : String × Json) : Option Issue :=
  match someText e.2 with
  | .ok _ => none
  | .error text => some ⟨[key, e.1], text⟩

theorem mapIssues_object (key : String) (entries : List (String × Json)) :
    mapIssues key (.object entries) = (Json.enumerate entries).filterMap (entryIssue? key) := by
  rw [mapIssues]
  induction Json.enumerate entries with
  | nil => rfl
  | cons e es ih =>
    cases hrule : someText e.2 <;> simp [entryIssue?, hrule, ih]

theorem places_sublist (key : String) (es : List (String × Json)) :
    ((es.filterMap (entryIssue? key)).map Issue.place).Sublist (es.map fun e => [key, e.1]) := by
  induction es with
  | nil => simp
  | cons e es ih =>
    cases hrule : someText e.2 with
    | ok s => simpa [entryIssue?, hrule] using ih.cons _
    | error text => simpa [entryIssue?, hrule] using ih

theorem mem_places_mapIssues {v : Json} {place : List String} :
    place ∈ (mapIssues "goImportMap" v).map Issue.place ↔ OffendsIn "goImportMap" v place := by
  constructor
  · intro h
    obtain ⟨i, hi, rfl⟩ := List.mem_map.1 h
    cases v with
    | object entries =>
      rw [mapIssues_object] at hi
      obtain ⟨e, he, hissue⟩ := List.mem_filterMap.1 hi
      cases hrule : someText e.2 with
      | ok s => simp [entryIssue?, hrule] at hissue
      | error text =>
        simp [entryIssue?, hrule] at hissue
        rw [← hissue]
        exact .entry (Json.mem_enumerate.1 he) (not_isSomeText_iff.2 ⟨text, hrule⟩)
    | _ =>
      simp [mapIssues] at hi
      rw [hi]
      exact .notMap (by simp)
  · intro h
    cases h with
    | setting hkey => exact absurd rfl hkey
    | notMap hmap => cases v <;> simp_all [mapIssues]
    | @entry entries file v hmem htext =>
      obtain ⟨text, hrule⟩ := not_isSomeText_iff.1 htext
      have hissue : entryIssue? "goImportMap" (file, v) = some ⟨["goImportMap", file], text⟩ := by
        simp [entryIssue?, hrule]
      rw [mapIssues_object]
      exact List.mem_map.2 ⟨_, List.mem_filterMap.2 ⟨_, Json.mem_enumerate.2 hmem, hissue⟩, rfl⟩

theorem nodup_places_mapIssues {v : Json} (hv : v.DistinctKeys) :
    ((mapIssues "goImportMap" v).map Issue.place).Nodup := by
  cases hv with
  | object hkeys _ =>
    rw [mapIssues_object]
    apply List.Nodup.sublist (places_sublist _ _)
    apply (nodup_map_comp_iff (f := fun file => ["goImportMap", file]) _ Prod.fst _).2
    · exact ((Json.enumerate_perm _).map Prod.fst).nodup_iff.2 hkeys
    · intro a b h
      simpa using h
  | _ => simp [mapIssues]

/-- The complaints about one setting. -/
theorem reports_complaints {key : String} (hkey : key ∈ knownKeys) {v : Json}
    (hv : v.DistinctKeys) : Reports ((complaints key v).map Issue.place) (OffendsIn key v) := by
  have hplaces : ((complaints key v).map Issue.place).Nodup ∧
      ∀ place, place ∈ (complaints key v).map Issue.place ↔ OffendsIn key v place := by
    by_cases hmap : key = "goImportMap"
    · subst hmap
      exact ⟨nodup_places_mapIssues hv, fun place => mem_places_mapIssues⟩
    · have honly : ∀ place, OffendsIn key v place → ¬ Satisfies key v ∧ place = [key] := by
        intro place h
        cases h <;> simp_all
      rcases complaints_setting hkey hmap v with ⟨hok, hnone⟩ | ⟨hbad, text, hone⟩
      · refine ⟨by simp [hnone], fun place => ?_⟩
        simp only [hnone, List.map_nil, List.not_mem_nil, false_iff]
        exact fun h => (honly place h).1 hok
      · refine ⟨by simp [hone], fun place => ?_⟩
        simp only [hone, List.map_cons, List.map_nil, List.mem_singleton]
        exact ⟨fun h => h ▸ .setting hmap hbad, fun h => (honly place h).2⟩
  refine ⟨hplaces.1, hplaces.2, List.pairwise_of_forall_mem_list fun a ha b hb => ?_⟩
  have hrank : rank a = rank b := by
    rw [((hplaces.2 a).1 ha).rank_eq, ((hplaces.2 b).1 hb).rank_eq]
  exact Nat.le_of_eq hrank

/-! ## Whole files -/

section

variable {members : List (String × Json)}

theorem mem_unique (hkeys : (members.map Prod.fst).Nodup) {key : String} {v w : Json}
    (hv : (key, v) ∈ members) (hw : (key, w) ∈ members) : v = w := by
  rw [← Json.member?_eq_some_iff hkeys] at hv hw
  exact Option.some.inj (hv.symm.trans hw)

theorem reports_complaintsAt (h : (Json.object members).DistinctKeys) {key : String}
    (hkey : key ∈ knownKeys) : Reports ((complaintsAt members key).map Issue.place) fun place =>
      ∃ v, (key, v) ∈ members ∧ OffendsIn key v place := by
  cases h with
  | object hkeys hvalues =>
    cases hmember : Json.member? members key with
    | none =>
      have hnone : ∀ v, (key, v) ∉ members := fun v hv => by
        simp [(Json.member?_eq_some_iff hkeys).2 hv] at hmember
      exact ⟨by simp [complaintsAt, hmember], by simp [complaintsAt, hmember, hnone],
        by simp [complaintsAt, hmember]⟩
    | some v =>
      have hv := (Json.member?_eq_some_iff hkeys).1 hmember
      have hone : ∀ place, (∃ w, (key, w) ∈ members ∧ OffendsIn key w place) ↔
          OffendsIn key v place := by
        intro place
        refine ⟨?_, fun h => ⟨v, hv, h⟩⟩
        rintro ⟨w, hw, h⟩
        exact mem_unique hkeys hw hv ▸ h
      simp only [hone]
      simpa [complaintsAt, hmember] using reports_complaints hkey (hvalues _ hv)

theorem reports_known (h : (Json.object members).DistinctKeys) :
    Reports ((knownKeys.flatMap (complaintsAt members)).map Issue.place) fun place =>
      ∃ key ∈ knownKeys, ∃ v, (key, v) ∈ members ∧ OffendsIn key v place := by
  rw [List.map_flatMap]
  refine Reports.flatMap (fun key hkey => reports_complaintsAt h hkey) ?_
  have hkeys : knownKeys.Pairwise fun a b => a ≠ b ∧ knownKeys.idxOf a ≤ knownKeys.idxOf b := by
    decide
  refine hkeys.imp fun {a b} ⟨hne, hle⟩ place place' hplace hplace' => ?_
  obtain ⟨v, -, hv⟩ := hplace
  obtain ⟨w, -, hw⟩ := hplace'
  rw [hv.rank_eq, hw.rank_eq]
  refine ⟨?_, hle⟩
  rintro rfl
  obtain ⟨rest, rfl⟩ := hv.exists_cons
  obtain ⟨rest', hrest⟩ := hw.exists_cons
  exact hne (List.cons.inj hrest).1

theorem unknownKeyIssues_cases (members : List (String × Json)) :
    (∀ m ∈ members, m.1 ∈ knownKeys) ∧ unknownKeyIssues members = [] ∨
      (∃ m ∈ members, m.1 ∉ knownKeys) ∧ ∃ keys,
        keys.Perm ((members.map Prod.fst).filter (· ∉ knownKeys)) ∧
        unknownKeyIssues members =
          [⟨[], "Unrecognized key(s) in object: " ++ quotedWords ", " keys⟩] := by
  have hperm := (((Json.enumerate_perm members).map Prod.fst).filter (· ∉ knownKeys))
  by_cases hknown : ∀ m ∈ members, m.1 ∈ knownKeys
  · exact .inl ⟨hknown, unknownKeyIssues_eq_nil hknown⟩
  · push Not at hknown
    obtain ⟨m, hm, hkey⟩ := hknown
    have hmem : m.1 ∈ ((Json.enumerate members).map Prod.fst).filter (· ∉ knownKeys) :=
      hperm.mem_iff.2 (List.mem_filter.2 ⟨List.mem_map_of_mem hm, by simpa using hkey⟩)
    refine .inr ⟨⟨m, hm, hkey⟩, _, hperm, ?_⟩
    rw [unknownKeyIssues]
    split
    · next hnil =>
      rw [hnil] at hmem
      cases hmem
    · rfl

end

/-- `is` is what is wrong with `raw`, with all unknown keys named at the root. -/
structure Lists (is : List Issue) (raw : Json) : Prop where
  reports : Reports (is.map Issue.place) (Offends raw)
  unknown : ∀ members, raw = .object members → ∀ i ∈ is, i.place = [] → ∃ keys,
    keys.Perm ((members.map Prod.fst).filter (· ∉ knownKeys)) ∧
      i.text = "Unrecognized key(s) in object: " ++ quotedWords ", " keys

theorem rank_le (place : List String) : rank place ≤ rank [] := by
  cases place with
  | nil => exact Nat.le_refl _
  | cons key rest => exact List.idxOf_le_length

/-- The root goes behind places inside the file. -/
theorem Reports.concat_root {places : List (List String)} {P : List String → Prop}
    (h : Reports places P) (hinside : ∀ place, P place → place ≠ []) :
    Reports (places ++ [[]]) fun place => P place ∨ place = [] where
  once := by
    refine List.nodup_append.2 ⟨h.once, by simp, fun place hplace root hroot => ?_⟩
    rw [List.mem_singleton.1 hroot]
    exact hinside place ((h.mem_iff place).1 hplace)
  mem_iff place := by simp [h.mem_iff]
  ordered := by
    refine List.pairwise_append.2 ⟨h.ordered, by simp, fun place _ root hroot => ?_⟩
    rw [List.mem_singleton.1 hroot]
    exact rank_le place

theorem offends_object_iff {members : List (String × Json)} {place : List String} :
    Offends (.object members) place ↔
      (∃ key ∈ knownKeys, ∃ v, (key, v) ∈ members ∧ OffendsIn key v place) ∨
        (∃ m ∈ members, m.1 ∉ knownKeys) ∧ place = [] := by
  constructor
  · intro hplace
    cases hplace with
    | notObject hobject => exact absurd rfl (hobject members)
    | member hmem hkey h => exact .inl ⟨_, hkey, _, hmem, h⟩
    | unknown hmem hkey => exact .inr ⟨⟨_, hmem, hkey⟩, rfl⟩
  · rintro (⟨key, hkey, v, hmem, h⟩ | ⟨⟨m, hmem, hkey⟩, rfl⟩)
    · exact .member hmem hkey h
    · exact .unknown hmem hkey

theorem lists_object {members : List (String × Json)} (h : (Json.object members).DistinctKeys) :
    Lists (issues (.object members)) (.object members) := by
  have hknown := reports_known h
  have hinside : ∀ place, (∃ key ∈ knownKeys, ∃ v, (key, v) ∈ members ∧ OffendsIn key v place) →
      place ≠ [] := by
    rintro place ⟨key, -, v, -, hoffends⟩
    obtain ⟨rest, rfl⟩ := hoffends.exists_cons
    simp
  have hne : ∀ i ∈ knownKeys.flatMap (complaintsAt members), i.place ≠ [] := fun i hi =>
    hinside i.place ((hknown.mem_iff i.place).1 (List.mem_map_of_mem hi))
  rw [issues_object]
  rcases unknownKeyIssues_cases members with ⟨hnone, hissues⟩ | ⟨hsome, keys, hperm, hissues⟩
  · have hnot : ¬ ∃ m ∈ members, m.1 ∉ knownKeys := by simpa using hnone
    rw [hissues, List.append_nil]
    refine ⟨⟨hknown.once, fun place => ?_, hknown.ordered⟩, fun _ _ i hi hroot => ?_⟩
    · rw [offends_object_iff, hknown.mem_iff]
      simp [hnot]
    · exact absurd hroot (hne i hi)
  · rw [hissues]
    have hroot := hknown.concat_root hinside
    refine ⟨⟨by simpa using hroot.once, fun place => ?_, by simpa using hroot.ordered⟩, ?_⟩
    · rw [offends_object_iff, List.map_append]
      simp only [hsome, true_and]
      exact hroot.mem_iff place
    · intro members' heq i hi hroot
      cases heq
      rcases List.mem_append.1 hi with hi | hi
      · exact absurd hroot (hne i hi)
      · rw [List.mem_singleton.1 hi]
        exact ⟨keys, hperm, rfl⟩

theorem lists_issues {raw : Json} (h : raw.DistinctKeys) : Lists (issues raw) raw := by
  have hroot : (∀ members, raw ≠ .object members) →
      issues raw = [⟨[], "Expected object, received " ++ raw.kind⟩] →
      Lists (issues raw) raw := by
    intro hobject hissues
    rw [hissues]
    refine ⟨⟨by simp, fun place => ?_, by simp⟩, fun members hraw => absurd hraw (hobject members)⟩
    simp only [List.map_cons, List.map_nil, List.mem_singleton]
    constructor
    · rintro rfl
      exact .notObject hobject
    · intro hplace
      cases hplace with
      | notObject => rfl
      | member => exact absurd rfl (hobject _)
      | unknown => rfl
  cases raw with
  | object members => exact lists_object h
  | _ => exact hroot (by simp) rfl

/-! ## Conforming files -/

theorem mem_knownKeys_of_satisfies {key : String} {v : Json} (h : Satisfies key v) :
    key ∈ knownKeys := by
  unfold Satisfies at h
  split at h <;> simp_all [knownKeys]

theorem OffendsIn.not_satisfies {key : String} {v : Json} {place : List String}
    (h : OffendsIn key v place) : ¬ Satisfies key v := by
  cases h with
  | setting _ hbad => exact hbad
  | notMap hmap =>
    rintro ⟨entries, rfl, -⟩
    exact hmap entries rfl
  | entry hmem htext =>
    rintro ⟨entries, heq, hall⟩
    cases heq
    exact htext (hall _ hmem)

theorem exists_offendsIn {key : String} {v : Json} (h : ¬ Satisfies key v) :
    ∃ place, OffendsIn key v place := by
  by_cases hmap : key = "goImportMap"
  · subst hmap
    by_cases hobject : ∃ entries, v = .object entries
    · obtain ⟨entries, rfl⟩ := hobject
      have hentry : ∃ e ∈ entries, ¬ IsSomeText e.2 := by
        by_contra hall
        push Not at hall
        exact h ⟨entries, rfl, hall⟩
      obtain ⟨e, he, htext⟩ := hentry
      exact ⟨_, .entry he htext⟩
    · push Not at hobject
      exact ⟨_, .notMap hobject⟩
  · exact ⟨_, .setting hmap h⟩

theorem conforms_iff {raw : Json} : Conforms raw ↔ ∀ place, ¬ Offends raw place := by
  constructor
  · rintro ⟨members, rfl, hall⟩ place hplace
    cases hplace with
    | notObject hobject => exact hobject members rfl
    | member hmem _ h => exact h.not_satisfies (hall _ hmem)
    | unknown hmem hkey => exact hkey (mem_knownKeys_of_satisfies (hall _ hmem))
  · intro hnone
    by_cases hobject : ∃ members, raw = .object members
    · obtain ⟨members, rfl⟩ := hobject
      refine ⟨members, rfl, fun m hm => ?_⟩
      by_contra hbad
      by_cases hkey : m.1 ∈ knownKeys
      · obtain ⟨place, hplace⟩ := exists_offendsIn hbad
        exact hnone place (.member hm hkey hplace)
      · exact hnone [] (.unknown hm hkey)
    · push Not at hobject
      exact absurd (.notObject hobject) (hnone [])

theorem issues_eq_nil_iff {raw : Json} (h : raw.DistinctKeys) : issues raw = [] ↔ Conforms raw := by
  rw [conforms_iff, ← List.map_eq_nil_iff (f := Issue.place), List.eq_nil_iff_forall_not_mem]
  exact forall_congr' fun place => not_congr ((lists_issues h).reports.mem_iff place)

/-! ## What is returned -/

end Schema

/-- An import map as a config file has it. -/
def OrderedMap.toJson (m : OrderedMap String String) : Json :=
  .object (m.entries.map fun e => (e.1, .string e.2))

/-- What `o` gives under a key of config files. -/
def Overrides.member? (o : Overrides) : String → Option Json
  | "target" => o.target.map .string
  | "suffix" => o.suffix.map .string
  | "goRuntimeImport" => o.goRuntimeImport.map .string
  | "tsRuntimeModule" => o.tsRuntimeModule.map .string
  | "importExtension" => o.importExtension.map fun e => .string e.text
  | "goPaths" => o.goLayout.map fun l => .string l.text
  | "goModule" => o.goModule.map .string
  | "goImportMap" => o.goImportMap.map OrderedMap.toJson
  | _ => none

namespace Schema

def withoutReserved : Json → Json
  | .object entries => .object (entries.filter (·.1 ≠ reservedKey))
  | v => v

/-- What is kept of the member under a key. -/
def kept (key : String) (v : Json) : Json :=
  if key = "goImportMap" then withoutReserved v else v

theorem map_memberValue {α : Type} {rule : Rule α} {P : Json → Prop} {write : α → Json}
    (h : rule.Reads P write) {members : List (String × Json)} {key : String}
    (hok : ∀ v, Json.member? members key = some v → P v) :
    (memberValue members key rule).map write = Json.member? members key := by
  cases hmember : Json.member? members key with
  | none => simp [memberValue, hmember]
  | some v =>
    obtain ⟨a, ha⟩ := h.accepts v (hok v hmember)
    rw [memberValue_eq_some hmember ha, Option.map_some, (h.sound v a ha).2]

theorem exists_texts {entries : List (String × Json)} (h : ∀ e ∈ entries, IsSomeText e.2) :
    ∃ texts : List (String × String), entries = texts.map (fun e => (e.1, .string e.2)) ∧
      ∀ e ∈ texts, e.2 ≠ "" := by
  induction entries with
  | nil => exact ⟨[], rfl, by simp⟩
  | cons e entries ih =>
    obtain ⟨file, v⟩ := e
    obtain ⟨s, hs, rfl⟩ := h (file, v) (by simp)
    obtain ⟨texts, rfl, htexts⟩ := ih fun e he => h e (List.mem_cons_of_mem _ he)
    exact ⟨(file, s) :: texts, rfl, by simpa [hs] using htexts⟩

theorem exists_toJson_eq {v : Json} (hv : v.DistinctKeys) (hmap : IsImportMap v) :
    ∃ m : OrderedMap String String, v = m.toJson ∧ ∀ file, m.get? file ≠ some "" := by
  obtain ⟨entries, rfl, hall⟩ := hmap
  obtain ⟨texts, rfl, htexts⟩ := exists_texts hall
  cases hv with
  | object hkeys _ =>
    rw [List.map_map] at hkeys
    refine ⟨⟨texts, hkeys⟩, rfl, fun file hfile => ?_⟩
    exact htexts _ (OrderedMap.mem_entries_iff.2 hfile) rfl

theorem toJson_mapValue {v : Json} (hv : v.DistinctKeys) (hmap : IsImportMap v) :
    (mapValue v).toJson = withoutReserved v := by
  obtain ⟨m, rfl, hm⟩ := exists_toJson_eq hv hmap
  have hread : mapValue m.toJson = m.erase reservedKey := mapValue_entries hm
  rw [hread, OrderedMap.toJson, OrderedMap.toJson, withoutReserved, List.filter_map]
  rfl

theorem member?_settings {members : List (String × Json)} (h : (Json.object members).DistinctKeys)
    (hall : ∀ m ∈ members, Satisfies m.1 m.2) (key : String) :
    (settings (.object members)).member? key = (Json.member? members key).map (kept key) := by
  cases h with
  | object hkeys hvalues =>
    have hok : ∀ k v, Json.member? members k = some v → Satisfies k v := fun k v hmember =>
      hall _ ((Json.member?_eq_some_iff hkeys).1 hmember)
    by_cases hkey : key ∈ knownKeys
    · by_cases hmap : key = "goImportMap"
      · subst hmap
        show ((Json.member? members "goImportMap").map mapValue).map OrderedMap.toJson = _
        rw [Option.map_map]
        refine Option.map_congr fun v hmember => ?_
        exact toJson_mapValue (hvalues _ ((Json.member?_eq_some_iff hkeys).1 hmember))
          (hok _ v hmember)
      · have hid : kept key = id := by
          funext v
          simp [kept, hmap]
        rw [hid, Option.map_id_apply]
        simp only [knownKeys, List.mem_cons, List.not_mem_nil, or_false, hmap] at hkey
        rcases hkey with rfl | rfl | rfl | rfl | rfl | rfl | rfl
        · exact map_memberValue reads_targetRule (hok "target")
        · exact map_memberValue reads_someText (hok "suffix")
        · exact map_memberValue reads_someText (hok "goRuntimeImport")
        · exact map_memberValue reads_someText (hok "tsRuntimeModule")
        · exact map_memberValue reads_extensionRule (hok "importExtension")
        · exact map_memberValue reads_layoutRule (hok "goPaths")
        · exact map_memberValue reads_anyText (hok "goModule")
    · have hnone : Json.member? members key = none :=
        Option.eq_none_iff_forall_ne_some.2 fun v hmember =>
          hkey (mem_knownKeys_of_satisfies (hok key v hmember))
      rw [hnone, Option.map_none]
      unfold Overrides.member?
      split <;> simp_all [knownKeys]

theorem validate_eq_ok_iff {raw : Json} {path : String} {o : Overrides} :
    validate raw path = .ok o ↔ issues raw = [] ∧ o = settings raw := by
  rw [validate]
  cases issues raw <;> simp [eq_comm]

/-- A file is accepted exactly when it conforms, and is returned as it is but for the reserved
entry; otherwise the error lists what is wrong with it. -/
theorem validate_exact {raw : Json} (hraw : raw.DistinctKeys) (path : String) :
    ((∃ o, validate raw path = .ok o) ↔ Conforms raw) ∧
      (∀ o, validate raw path = .ok o → ∃ members, raw = .object members ∧
        ∀ key, o.member? key = (Json.member? members key).map (kept key)) ∧
      (¬ Conforms raw → ∃ is : List Issue, Lists is raw ∧ validate raw path =
        .error (.invalidConfig path ("; ".intercalate (is.map Issue.line)))) := by
  have haccepts := issues_eq_nil_iff hraw
  refine ⟨?_, fun o ho => ?_, fun hbad => ⟨issues raw, lists_issues hraw, ?_⟩⟩
  · simp [validate_eq_ok_iff, haccepts]
  · obtain ⟨hnone, rfl⟩ := validate_eq_ok_iff.1 ho
    obtain ⟨members, rfl, hall⟩ := haccepts.1 hnone
    exact ⟨members, rfl, member?_settings hraw hall⟩
  · rw [← haccepts] at hbad
    rw [validate]
    split
    · contradiction
    · rfl

theorem validate_exact_refused :
    let raw : Json := .object [("out", .number "1"), ("suffix", .string ""),
      ("goImportMap", .object [("b.proto", .string ""), ("a.proto", .string "shop.com/a")]),
      ("target", .string "ts")]
    raw.DistinctKeys ∧ ¬ Conforms raw ∧ ∃ is : List Issue, Lists is raw ∧
      "; ".intercalate (is.map Issue.line) =
        "suffix: String must contain at least 1 character(s); " ++
        "goImportMap.b.proto: String must contain at least 1 character(s); " ++
        "(root): Unrecognized key(s) in object: 'out'" := by
  intro raw
  have hraw : raw.DistinctKeys := by simp [raw]
  have hrun : validate raw "rc.json" = .error (.invalidConfig "rc.json" (
      "suffix: String must contain at least 1 character(s); " ++
      "goImportMap.b.proto: String must contain at least 1 character(s); " ++
      "(root): Unrecognized key(s) in object: 'out'")) := by decide +kernel
  obtain ⟨haccepts, -, hrefuses⟩ := validate_exact hraw "rc.json"
  have hbad : ¬ Conforms raw := by
    intro h
    obtain ⟨o, ho⟩ := haccepts.2 h
    rw [hrun] at ho
    cases ho
  obtain ⟨is, hlists, herror⟩ := hrefuses hbad
  refine ⟨hraw, hbad, is, hlists, ?_⟩
  rw [hrun] at herror
  injection herror with herror
  injection herror with _ htext
  exact htext.symm

/-- A file is accepted, and an entry of its import map is not returned. -/
theorem accepted_entry_lost :
    let imports : Json := .object [("__proto__", .string "shop.com/a")]
    let raw : Json := .object [("goImportMap", imports)]
    raw.DistinctKeys ∧ Conforms raw ∧ validate raw "rc.json" = .ok { goImportMap := some ∅ } ∧
      Overrides.member? { goImportMap := some ∅ } "goImportMap" ≠ some imports := by
  intro imports raw
  have hentry : IsSomeText (.string "shop.com/a") := ⟨_, by decide, rfl⟩
  refine ⟨by simp [raw, imports], ⟨_, rfl, ?_⟩, by decide +kernel, ?_⟩
  · intro m hm
    rw [List.mem_singleton.1 hm]
    exact ⟨_, rfl, by simpa using hentry⟩
  · simp [Overrides.member?, OrderedMap.toJson, imports]
    decide

end Schema

end CacheGen
