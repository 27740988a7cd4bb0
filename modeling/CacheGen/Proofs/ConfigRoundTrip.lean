import CacheGen.Proofs.ConfigFile
import Mathlib.Data.List.Induction

/-!
# Configs as config files

Config files, parameters and the layers over the defaults keep to the same rules
(`Overrides.IsSound`, `Config.IsSound`): none gives a setting that another one refuses.

A config is written as a config file with each of its settings. A sound config is accepted in that
form. The entry of its import map under the reserved key is lost, and all the rest is read back
(`validate_toJson`).

**Theorem (`validate_resolved`).** What is resolved from a config file and a parameter is accepted
as a config file, and what is read from that resolves to itself. It is the same config, unless the
parameter gives the `go_package` of the file with the reserved name.
-/

namespace CacheGen

open Parameter (KnownTarget)

/-! ## Maps -/

namespace OrderedMap

variable {κ ν : Type} [DecidableEq κ]

/-- `m` without its entry under `k`. -/
def erase (m : OrderedMap κ ν) (k : κ) : OrderedMap κ ν where
  entries := m.entries.filter (·.1 ≠ k)
  nodup := m.nodup.sublist (List.filter_sublist.map Prod.fst)

theorem erase_eq_self_iff {m : OrderedMap κ ν} {k : κ} : m.erase k = m ↔ m.get? k = none := by
  rw [OrderedMap.ext_iff]
  show m.entries.filter _ = m.entries ↔ _
  rw [List.filter_eq_self]
  constructor
  · intro h
    refine Option.eq_none_iff_forall_ne_some.2 fun v hv => ?_
    simpa using h _ (mem_entries_iff.2 hv)
  · intro h e he
    have hne : e.1 ≠ k := by
      rintro rfl
      rw [mem_entries_iff.1 he] at h
      cases h
    simpa using hne

theorem entries_ofEntries {es : List (κ × ν)} (h : (es.map Prod.fst).Nodup) :
    (ofEntries es).entries = es := by
  induction es using List.reverseRecOn with
  | nil => rfl
  | append_singleton es e ih =>
    rw [List.map_append, List.nodup_append'] at h
    obtain ⟨hes, -, hdisjoint⟩ := h
    have hnew : (ofEntries es).contains e.1 = false := by
      refine Bool.eq_false_iff.2 fun hmem => ?_
      have hkey := mem_keys_ofEntries.1 (contains_iff_mem_keys.1 hmem)
      exact hdisjoint hkey (List.mem_singleton_self e.1)
    have hlast : ofEntries (es ++ [e]) = (ofEntries es).insert e.1 e.2 := insertAll_append _ _ _
    rw [hlast, entries_insert_of_new hnew, ih hes]

theorem ofEntries_entries (m : OrderedMap κ ν) : ofEntries m.entries = m :=
  ext (entries_ofEntries m.nodup)

end OrderedMap

/-! ## Sound settings -/

/-- No unknown target, and no empty text where a text has to be. -/
structure Overrides.IsSound (o : Overrides) : Prop where
  target : KnownTarget o
  suffix : o.suffix ≠ some ""
  goRuntimeImport : o.goRuntimeImport ≠ some ""
  tsRuntimeModule : o.tsRuntimeModule ≠ some ""
  goImportMap : ∀ file, o.goPackage? file ≠ some ""

/-- A known target, and no empty text where a text has to be. -/
structure Config.IsSound (c : Config) : Prop where
  target : (Target.ofName? c.target).isSome = true
  suffix : c.suffix ≠ ""
  goRuntimeImport : c.goRuntimeImport ≠ ""
  tsRuntimeModule : c.tsRuntimeModule ≠ ""
  goImportMap : ∀ file, c.goImportMap.get? file ≠ some ""

theorem Overrides.isSound_nothing : ({} : Overrides).IsSound := by
  refine ⟨?_, by simp, by simp, by simp, by simp [Overrides.goPackage?]⟩
  intro name hname
  cases hname

/-! ## Parameters -/

namespace Parameter

theorem Sets.isSound {o o' : Overrides} {key value : String} (ho : o.IsSound) (hvalue : value ≠ "")
    (h : Sets o key value o') : o'.IsSound := by
  have hsome : some value ≠ some "" := fun hempty => hvalue (Option.some.inj hempty)
  cases h with
  | @file file hfile value =>
    refine { ho with goImportMap := fun file' => ?_ }
    show ((o.goImportMap.getD ∅).insert file value).get? file' ≠ some ""
    rw [OrderedMap.get?_insert, Overrides.get?_imports]
    split
    · exact hsome
    · exact ho.goImportMap file'
  | target htarget => exact { ho with target := (Sets.target htarget).known ho.target }
  | suffix value => exact { ho with suffix := hsome }
  | goRuntimeImport value => exact { ho with goRuntimeImport := hsome }
  | tsRuntimeModule value => exact { ho with tsRuntimeModule := hsome }
  | importExtension ext => exact { ho with }
  | goLayout layout => exact { ho with }
  | goModule value => exact { ho with }

theorem isSound_of_parse {parameter : String} {o : Overrides} (h : parse parameter = .ok o) :
    o.IsSound := by
  refine Outcome.foldlM_keeps (fun ho hpair => ?_) Overrides.isSound_nothing h
  obtain ⟨hvalue, hsets⟩ := sets_of_applyPair hpair
  exact hsets.isSound ho hvalue

end Parameter

/-! ## Config files -/

namespace Schema

theorem ne_empty_of_someText {v : Json} {s : String} (h : someText v = .ok s) : s ≠ "" := by
  cases v with
  | string s' =>
    rw [someText] at h
    by_cases hempty : s' = ""
    · rw [if_pos hempty] at h
      cases h
    · rw [if_neg hempty] at h
      exact Except.ok.inj h ▸ hempty
  | _ => cases h

theorem memberValue_someText_ne (members : List (String × Json)) (key : String) :
    memberValue members key someText ≠ some "" := by
  intro h
  obtain ⟨v, -, hv⟩ := Option.bind_eq_some_iff.1 h
  cases hrule : someText v with
  | error e => rw [hrule] at hv; cases hv
  | ok s =>
    rw [hrule] at hv
    cases hv
    exact ne_empty_of_someText hrule rfl

theorem get?_mapValue {v : Json} {file s : String} (h : (mapValue v).get? file = some s) :
    file ≠ reservedKey ∧ s ≠ "" := by
  cases v with
  | object entries =>
    obtain ⟨e, he, hs⟩ := List.mem_filterMap.1 (OrderedMap.mem_of_get?_ofEntries h)
    cases hrule : someText e.2 with
    | error e => rw [hrule] at hs; cases hs
    | ok s' =>
      rw [hrule] at hs
      cases hs
      exact ⟨by simpa using (List.mem_filter.1 he).2, ne_empty_of_someText hrule⟩
  | _ => cases h

theorem goPackage?_of_validate {raw : Json} {path : String} {o : Overrides}
    (h : validate raw path = .ok o) {file s : String} (hfile : o.goPackage? file = some s) :
    file ≠ reservedKey ∧ s ≠ "" := by
  obtain rfl := eq_settings h
  cases raw with
  | object members =>
    obtain ⟨m, hm, hget⟩ := Option.bind_eq_some_iff.1 hfile
    obtain ⟨v, -, rfl⟩ := Option.map_eq_some_iff.1 hm
    exact get?_mapValue hget
  | _ => cases hfile

theorem isSound_of_validate {raw : Json} {path : String} {o : Overrides}
    (h : validate raw path = .ok o) : o.IsSound := by
  have htarget := known_of_validate h
  have himports : ∀ file, o.goPackage? file ≠ some "" := fun file hfile =>
    (goPackage?_of_validate h hfile).2 rfl
  obtain rfl := eq_settings h
  cases raw with
  | object members =>
    exact ⟨htarget, memberValue_someText_ne members _, memberValue_someText_ne members _,
      memberValue_someText_ne members _, himports⟩
  | _ => exact Overrides.isSound_nothing

end Schema

/-! ## Layers -/

namespace Config

theorem get?_override (c : Config) (o : Overrides) (file : String) :
    (c.override o).goImportMap.get? file = (o.goPackage? file).or (c.goImportMap.get? file) := by
  show (c.goImportMap.overlay (o.goImportMap.getD ∅)).get? file = _
  rw [OrderedMap.get?_overlay, Overrides.get?_imports]

theorem IsSound.override {c : Config} {o : Overrides} (hc : c.IsSound) (ho : o.IsSound) :
    (c.override o).IsSound := by
  have hgetD : ∀ {x : Option String} {s : String}, x ≠ some "" → s ≠ "" → x.getD s ≠ "" := by
    intro x s hx hs
    cases x with
    | none => exact hs
    | some v => exact fun hv => hx (congrArg some hv)
  refine ⟨known_override ho.target hc.target, hgetD ho.suffix hc.suffix,
    hgetD ho.goRuntimeImport hc.goRuntimeImport, hgetD ho.tsRuntimeModule hc.tsRuntimeModule, ?_⟩
  intro file
  rw [get?_override]
  cases hgiven : o.goPackage? file with
  | none => exact hc.goImportMap file
  | some v =>
    have hv := ho.goImportMap file
    rwa [hgiven] at hv

theorem isSound_default : ({} : Config).IsSound := by
  exact ⟨rfl, by simp, by simp, by simp, fun file hfile => by cases hfile⟩

/-- Each of the settings. -/
def asOverrides (c : Config) : Overrides where
  target := some c.target
  suffix := some c.suffix
  goRuntimeImport := some c.goRuntimeImport
  tsRuntimeModule := some c.tsRuntimeModule
  importExtension := some c.importExtension
  goLayout := some c.goLayout
  goModule := some c.goModule
  goImportMap := some c.goImportMap

theorem override_asOverrides (c : Config) : ({} : Config).override c.asOverrides = c := by
  have himports : (∅ : OrderedMap String String).overlay c.goImportMap = c.goImportMap :=
    OrderedMap.ofEntries_entries c.goImportMap
  unfold override asOverrides
  simp only [Option.getD_some, himports]

/-- `c` without the `go_package` of a file. -/
def withoutFile (c : Config) (file : String) : Config :=
  { c with goImportMap := c.goImportMap.erase file }

theorem withoutFile_eq_self_iff {c : Config} {file : String} :
    c.withoutFile file = c ↔ c.goImportMap.get? file = none := by
  rw [← OrderedMap.erase_eq_self_iff]
  constructor
  · intro h
    exact congrArg goImportMap h
  · intro h
    rw [withoutFile, h]

end Config

/-! ## Written configs -/

namespace Json

/-- Going through the members changes their order only. -/
theorem enumerate_perm (members : List (String × Json)) : (enumerate members).Perm members := by
  have hindexed : (members.filterMap fun m => (indexOf? m.1).map fun n => (n, m)).map Prod.snd =
      members.filter fun m => !(indexOf? m.1).isNone := by
    rw [List.map_filterMap, ← List.filterMap_eq_filter]
    refine List.filterMap_congr fun m _ => ?_
    cases hindex : indexOf? m.1 <;> simp [Option.guard, hindex]
  have hsorted := (List.mergeSort_perm (members.filterMap fun m =>
    (indexOf? m.1).map fun n => (n, m)) fun a b => a.1 ≤ b.1).map Prod.snd
  rw [hindexed] at hsorted
  exact (hsorted.append_right _).trans (List.perm_append_comm.trans (List.filter_append_perm _ _))

theorem mem_enumerate {members : List (String × Json)} {m : String × Json} :
    m ∈ enumerate members ↔ m ∈ members := (enumerate_perm members).mem_iff

end Json

namespace Schema

theorem memberIssues_eq_nil {α : Type} {members : List (String × Json)} {key : String}
    {rule : Rule α} {v : Json} {a : α} (hmember : Json.member? members key = some v)
    (hrule : rule v = .ok a) : memberIssues members key rule = [] := by
  rw [memberIssues, hmember]
  simp only [hrule]

theorem memberValue_eq_some {α : Type} {members : List (String × Json)} {key : String}
    {rule : Rule α} {v : Json} {a : α} (hmember : Json.member? members key = some v)
    (hrule : rule v = .ok a) : memberValue members key rule = some a := by
  rw [memberValue, hmember, Option.bind_some, hrule]
  rfl

theorem unknownKeyIssues_eq_nil {members : List (String × Json)}
    (h : ∀ m ∈ members, m.1 ∈ knownKeys) : unknownKeyIssues members = [] := by
  have hknown : ((Json.enumerate members).map Prod.fst).filter (· ∉ knownKeys) = [] := by
    rw [List.filter_eq_nil_iff, List.forall_mem_map]
    intro m hm
    simpa using h m (Json.mem_enumerate.1 hm)
  rw [unknownKeyIssues, hknown]

section

variable {m : OrderedMap String String} (hm : ∀ file, m.get? file ≠ some "")

include hm

theorem someText_of_mem {e : String × String} (he : e ∈ m.entries) :
    someText (.string e.2) = .ok e.2 := by
  have hne : e.2 ≠ "" := fun hempty => hm e.1 (hempty ▸ OrderedMap.mem_entries_iff.1 he)
  rw [someText, if_neg hne]

theorem mapIssues_entries (key : String) :
    mapIssues key (.object (m.entries.map fun e => (e.1, .string e.2))) = [] := by
  show (Json.enumerate (m.entries.map fun e => (e.1, Json.string e.2))).flatMap _ = []
  rw [List.flatMap_eq_nil_iff]
  intro e he
  obtain ⟨e', he', rfl⟩ := List.mem_map.1 (Json.mem_enumerate.1 he)
  rw [someText_of_mem hm he']

theorem mapValue_entries :
    mapValue (.object (m.entries.map fun e => (e.1, .string e.2))) = m.erase reservedKey := by
  have hread : ((m.entries.map fun e => (e.1, Json.string e.2)).filter
      (·.1 ≠ reservedKey)).filterMap (fun e => (someText e.2).toOption.map fun s => (e.1, s)) =
        (m.erase reservedKey).entries := by
    rw [List.filter_map, List.filterMap_map]
    refine (List.filterMap_congr fun e he => ?_).trans List.filterMap_some
    show (someText (.string e.2)).toOption.map _ = some e
    rw [someText_of_mem hm (List.mem_filter.1 he).1]
    rfl
  rw [mapValue, hread, OrderedMap.ofEntries_entries]

end

theorem targetRule_of_known {name : String} (h : (Target.ofName? name).isSome = true) :
    targetRule (.string name) = .ok name := by
  rw [targetRule, oneOf, if_pos (Parameter.isSome_ofName?_iff.1 h)]

theorem validate_toJson {c : Config} (hc : c.IsSound) (path : String) :
    validate c.toJson path = .ok (c.withoutFile reservedKey).asOverrides := by
  have htarget : targetRule (.string c.target) = .ok c.target := targetRule_of_known hc.target
  have hsuffix : someText (.string c.suffix) = .ok c.suffix := if_neg hc.suffix
  have hruntime : someText (.string c.goRuntimeImport) = .ok c.goRuntimeImport :=
    if_neg hc.goRuntimeImport
  have hmodule : someText (.string c.tsRuntimeModule) = .ok c.tsRuntimeModule :=
    if_neg hc.tsRuntimeModule
  have hextension : extensionRule (.string c.importExtension.text) = .ok c.importExtension := by
    cases c.importExtension <;> rfl
  have hlayout : layoutRule (.string c.goLayout.text) = .ok c.goLayout := by
    cases c.goLayout <;> rfl
  have hgoModule : anyText (.string c.goModule) = .ok c.goModule := rfl
  have hissues : issues c.toJson = [] := by
    rw [Config.toJson, issues, memberIssues_eq_nil rfl htarget, memberIssues_eq_nil rfl hsuffix,
      memberIssues_eq_nil rfl hruntime, memberIssues_eq_nil rfl hmodule,
      memberIssues_eq_nil rfl hextension, memberIssues_eq_nil rfl hlayout,
      memberIssues_eq_nil rfl hgoModule]
    exact List.append_eq_nil_iff.2 ⟨mapIssues_entries hc.goImportMap "goImportMap",
      unknownKeyIssues_eq_nil (by simp [knownKeys])⟩
  have hsettings : settings c.toJson = (c.withoutFile reservedKey).asOverrides := by
    rw [Config.toJson, settings, memberValue_eq_some rfl htarget, memberValue_eq_some rfl hsuffix,
      memberValue_eq_some rfl hruntime, memberValue_eq_some rfl hmodule,
      memberValue_eq_some rfl hextension, memberValue_eq_some rfl hlayout,
      memberValue_eq_some rfl hgoModule]
    exact congrArg (fun m => { c.asOverrides with goImportMap := some m })
      (mapValue_entries hc.goImportMap)
  rw [validate, hissues, hsettings]

end Schema

/-- A config resolved from a file and a parameter is a config file, which resolves to itself. -/
theorem validate_resolved {raw : Json} {path parameter : String} {file given : Overrides}
    {c : Config} (hfile : Schema.validate raw path = .ok file)
    (hgiven : Parameter.parse parameter = .ok given)
    (hresolve : Config.resolve [file, given] = .ok c) (path' : String) :
    let kept := c.withoutFile Schema.reservedKey
    c.IsSound ∧
      Schema.validate c.toJson path' = .ok kept.asOverrides ∧
      Config.resolve [kept.asOverrides] = .ok kept ∧
      (kept = c ↔ given.goPackage? Schema.reservedKey = none) := by
  intro kept
  obtain ⟨hlayers, hconflict⟩ := Config.resolve_eq_ok_iff.1 hresolve
  obtain rfl : (({} : Config).override file).override given = c := hlayers
  have hsound : ((({} : Config).override file).override given).IsSound :=
    (Config.isSound_default.override (Schema.isSound_of_validate hfile)).override
      (Parameter.isSound_of_parse hgiven)
  refine ⟨hsound, Schema.validate_toJson hsound path', ?_, ?_⟩
  · rw [Config.resolve_eq_ok_iff]
    exact ⟨Config.override_asOverrides kept, hconflict⟩
  · -- A config file has given nothing under the reserved key, nor have the defaults.
    have hbelow : file.goPackage? Schema.reservedKey = none :=
      Option.eq_none_iff_forall_ne_some.2 fun s hs =>
        (Schema.goPackage?_of_validate hfile hs).1 rfl
    rw [Config.withoutFile_eq_self_iff, Config.get?_override, Config.get?_override, hbelow]
    have hdefault : ({} : Config).goImportMap.get? Schema.reservedKey = none := rfl
    rw [hdefault, Option.or_none, Option.or_none]

theorem validate_resolved_merged :
    let raw : Json := .object [("suffix", .string "Store"),
      ("goImportMap", .object [("order.proto", .string "shop.com/order")])]
    let c : Config := {
      suffix := "Store"
      goModule := "shop.com"
      goImportMap := .ofEntries [("order.proto", "shop.com/order"), ("line.proto", "shop.com/line")] }
    ∃ file given : Overrides,
      Schema.validate raw "rc.json" = .ok file ∧
      Parameter.parse "module=shop.com,Mline.proto=shop.com/line" = .ok given ∧
      Config.resolve [file, given] = .ok c ∧
      Schema.validate c.toJson "rc.json" = .ok c.asOverrides ∧
      Config.resolve [c.asOverrides] = .ok c := by
  intro raw c
  have hfile : Schema.validate raw "rc.json" = .ok {
      suffix := some "Store"
      goImportMap := some (.ofEntries [("order.proto", "shop.com/order")]) } := by decide +kernel
  have hgiven : Parameter.parse "module=shop.com,Mline.proto=shop.com/line" = .ok {
      goModule := some "shop.com"
      goImportMap := some (.ofEntries [("line.proto", "shop.com/line")]) } := by decide +kernel
  obtain ⟨-, hread, hagain, hsame⟩ :=
    validate_resolved (c := c) hfile hgiven (by decide +kernel) "rc.json"
  rw [hsame.2 (by decide +kernel)] at hread hagain
  exact ⟨_, _, hfile, hgiven, by decide +kernel, hread, hagain⟩

/-- An entry under the reserved key is accepted, and lost. -/
theorem reserved_entry_lost :
    let given : Overrides := { goImportMap := some (.ofEntries [("__proto__", "shop.com/a")]) }
    let c : Config := { goImportMap := .ofEntries [("__proto__", "shop.com/a")] }
    Schema.validate (.object []) "rc.json" = .ok {} ∧
      Parameter.parse "M__proto__=shop.com/a" = .ok given ∧
      Config.resolve [{}, given] = .ok c ∧
      Schema.validate c.toJson "rc.json" = .ok { c.asOverrides with goImportMap := some ∅ } ∧
      { c.asOverrides with goImportMap := some ∅ } ≠ c.asOverrides := by
  decide +kernel

end CacheGen
