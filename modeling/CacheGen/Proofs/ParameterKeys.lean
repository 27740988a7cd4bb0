import CacheGen.Proofs.Layers
import CacheGen.Proofs.Outcome

/-!
# What a parameter gives under a key

Overrides are looked at as a parameter writes them: a value under each key, where `M<file>` is the key
of a file (`Overrides.given?`). A pair writes its value under its key and nothing else
(`Sets.given?_eq`), as writing into a map does. So a parameter that is accepted gives under each
key what the last pair with that key gives (`given?_of_parse`).

The values under the keys are all there is to overrides, but for the order of the files in an import
map (`agrees_of_given?`).
-/

namespace CacheGen

/-- Maps that answer alike have the same entries. -/
theorem OrderedMap.entries_perm {κ ν : Type} [DecidableEq κ] {a b : OrderedMap κ ν}
    (h : ∀ k, a.get? k = b.get? k) : a.entries.Perm b.entries := by
  refine (List.perm_ext_iff_of_nodup a.nodup.of_map b.nodup.of_map).2 fun e => ?_
  rw [mem_entries_iff, mem_entries_iff, h]

/-! ## Values by key -/

/-- The word for it in a parameter. -/
def ImportExtension.word : ImportExtension → String
  | js => ".js"
  | ts => ".ts"
  | none => "none"

theorem ImportExtension.word_injective : Function.Injective word := by
  intro a b h
  cases a <;> cases b <;> first | rfl | exact absurd h (by decide)

theorem GoLayout.text_injective : Function.Injective text := by
  intro a b h
  cases a <;> cases b <;> first | rfl | exact absurd h (by decide)

namespace Overrides

/-- The value under a key that is no file's. -/
def fixed? (o : Overrides) (key : String) : Option String :=
  match key with
  | "target" => o.target
  | "suffix" => o.suffix
  | "runtime_import" => o.goRuntimeImport
  | "runtime_module" => o.tsRuntimeModule
  | "import_extension" => o.importExtension.map ImportExtension.word
  | "paths" => o.goLayout.map GoLayout.text
  | "module" => o.goModule
  | _ => none

theorem get?_imports (o : Overrides) (file : String) :
    (o.goImportMap.getD ∅).get? file = o.goPackage? file := by
  unfold goPackage?
  cases o.goImportMap <;> rfl

/-- The value under a key of a parameter, as it is written there. -/
def given? (o : Overrides) (key : String) : Option String :=
  match Parameter.mappedFile? key with
  | some file => o.goPackage? file
  | none => o.fixed? key

end Overrides

namespace Parameter

theorem mappedFile?_eq_some_iff {key file : String} :
    mappedFile? key = some file ↔ key = "M" ++ file ∧ file ≠ "" := by
  unfold mappedFile?
  constructor
  · intro h
    split at h
    · next c cs hkey =>
      obtain rfl := Option.some.inj h
      refine ⟨?_, by simp⟩
      rw [← String.toList_inj, hkey]
      simp
    · cases h
  · rintro ⟨rfl, hfile⟩
    obtain ⟨c, cs, hchars⟩ := List.exists_cons_of_ne_nil (String.toList_eq_nil_iff.not.2 hfile)
    have hkey : ("M" ++ file).toList = 'M' :: c :: cs := by simp [hchars]
    rw [hkey]
    show some (String.ofList (c :: cs)) = some file
    rw [← hchars, String.ofList_toList]

/-! ## Words and values -/

theorem word_of_readExtension {pair value : String} {ext : ImportExtension}
    (h : readExtension pair value = .ok ext) : ext.word = value := by
  unfold readExtension at h
  split at h <;> cases h <;> rfl

theorem text_of_readLayout {pair value : String} {layout : GoLayout}
    (h : readLayout pair value = .ok layout) : layout.text = value := by
  unfold readLayout GoLayout.ofText? at h
  split at h
  · next hread =>
    cases h
    split at hread <;> cases hread <;> rfl
  · cases h

/-! ## Pairs -/

/-- What a value sets under a key. -/
inductive Sets (o : Overrides) : String → String → Overrides → Prop
  | file {file : String} (hfile : file ≠ "") (value : String) :
    Sets o ("M" ++ file) value
      { o with goImportMap := some ((o.goImportMap.getD ∅).insert file value) }
  | target {value : String} (h : value = "go" ∨ value = "ts") :
    Sets o "target" value { o with target := some value }
  | suffix (value : String) : Sets o "suffix" value { o with suffix := some value }
  | goRuntimeImport (value : String) :
    Sets o "runtime_import" value { o with goRuntimeImport := some value }
  | tsRuntimeModule (value : String) :
    Sets o "runtime_module" value { o with tsRuntimeModule := some value }
  | importExtension (ext : ImportExtension) :
    Sets o "import_extension" ext.word { o with importExtension := some ext }
  | goLayout (layout : GoLayout) : Sets o "paths" layout.text { o with goLayout := some layout }
  | goModule (value : String) : Sets o "module" value { o with goModule := some value }

section

variable {o o' : Overrides} {pair key value : String}

theorem sets_of_applyKey (h : applyKey o pair key value = .ok o') : Sets o key value o' := by
  unfold applyKey at h
  split at h
  · unfold readTarget at h
    split at h
    · next htarget => cases h; exact .target htarget
    · cases h
  · cases h; exact .suffix value
  · cases h; exact .goRuntimeImport value
  · cases h; exact .tsRuntimeModule value
  · cases hread : readExtension pair value with
    | error e => rw [hread] at h; cases h
    | ok ext =>
      rw [hread] at h
      cases h
      exact word_of_readExtension hread ▸ .importExtension ext
  · cases hread : readLayout pair value with
    | error e => rw [hread] at h; cases h
    | ok layout =>
      rw [hread] at h
      cases h
      exact text_of_readLayout hread ▸ .goLayout layout
  · cases h; exact .goModule value
  · cases h

/-- A pair that is accepted has a value, and sets it under its key. -/
theorem sets_of_applyPair (h : applyPair o pair = .ok o') :
    (keyValue pair).2 ≠ "" ∧ Sets o (keyValue pair).1 (keyValue pair).2 o' := by
  unfold applyPair at h
  generalize keyValue pair = p at h ⊢
  obtain ⟨key, value⟩ := p
  dsimp only at h ⊢
  by_cases hvalue : value = ""
  · rw [if_pos hvalue] at h
    cases h
  · rw [if_neg hvalue] at h
    refine ⟨hvalue, ?_⟩
    cases hmapped : mappedFile? key with
    | some file =>
      rw [hmapped] at h
      cases h
      obtain ⟨rfl, hfile⟩ := mappedFile?_eq_some_iff.1 hmapped
      exact .file hfile value
    | none =>
      rw [hmapped] at h
      exact sets_of_applyKey h

/-- A value is written under its key and under no other. -/
theorem Sets.given?_eq (h : Sets o key value o') (key' : String) :
    o'.given? key' = if key' = key then some value else o.given? key' := by
  by_cases hkey : key' = key
  · rw [if_pos hkey, hkey]
    cases h with
    | @file file hfile value =>
      have hget := OrderedMap.get?_insert (o.goImportMap.getD ∅) file file value
      rw [if_pos rfl] at hget
      unfold Overrides.given?
      rw [mappedFile?_eq_some_iff.2 ⟨rfl, hfile⟩]
      exact hget
    | _ => rfl
  · rw [if_neg hkey]
    unfold Overrides.given?
    cases hmapped : mappedFile? key' with
    | some file' =>
      cases h with
      | @file file hfile value =>
        have hne : file' ≠ file := by
          rintro rfl
          exact hkey (mappedFile?_eq_some_iff.1 hmapped).1
        show ((o.goImportMap.getD ∅).insert file value).get? file' = o.goPackage? file'
        rw [OrderedMap.get?_insert, if_neg hne, Overrides.get?_imports]
      | _ => rfl
    | none =>
      show o'.fixed? key' = o.fixed? key'
      clear hmapped
      unfold Overrides.fixed?
      cases h with
      | file hfile value => rfl
      | _ => split <;> first | rfl | exact absurd rfl hkey

end

theorem given?_nothing (key : String) : ({} : Overrides).given? key = none := by
  unfold Overrides.given?
  split
  · rfl
  · unfold Overrides.fixed?
    split <;> rfl

/-! ## Parameters -/

/-- Pairs write as entries into a map do. -/
theorem given?_of_foldlM {pairs : List String} {o o' : Overrides}
    (h : pairs.foldlM applyPair o = .ok o') {m : OrderedMap String String}
    (hm : ∀ key, m.get? key = o.given? key) (key : String) :
    (m.insertAll (pairs.map keyValue)).get? key = o'.given? key := by
  induction pairs generalizing o m with
  | nil =>
    rw [List.foldlM_nil, Outcome.pure_eq_ok] at h
    exact h ▸ hm key
  | cons pair pairs ih =>
    rw [List.foldlM_cons] at h
    obtain ⟨o₁, hstep, hrest⟩ := Outcome.bind_eq_ok.1 h
    refine ih hrest fun key' => ?_
    rw [OrderedMap.get?_insert, hm, (sets_of_applyPair hstep).2.given?_eq]

/-- A parameter gives under each key what the last pair with that key gives. -/
theorem given?_of_parse {parameter : String} {o : Overrides} (h : parse parameter = .ok o)
    (key : String) :
    o.given? key = (OrderedMap.ofEntries ((pairs parameter).map keyValue)).get? key := by
  exact (given?_of_foldlM h (m := OrderedMap.empty) (fun _ => (given?_nothing _).symm) key).symm

/-! ## Import maps of parameters -/

/-- There is an import map only where it has an entry, and every entry is for a file. -/
def MapsFiles (o : Overrides) : Prop := ∀ m ∈ o.goImportMap, m.entries ≠ [] ∧ "" ∉ m.keys

theorem MapsFiles.not_mem_keys {o : Overrides} (h : MapsFiles o) :
    "" ∉ (o.goImportMap.getD ∅).keys := by
  cases hmap : o.goImportMap with
  | none => exact List.not_mem_nil
  | some m => exact (h m hmap).2

theorem Sets.mapsFiles {o o' : Overrides} {key value : String} (ho : MapsFiles o)
    (h : Sets o key value o') : MapsFiles o' := by
  cases h with
  | @file file hfile value =>
    intro m hm
    obtain rfl := Option.mem_some_iff.1 hm
    have hkeys := OrderedMap.keys_insert (o.goImportMap.getD ∅) file value
    refine ⟨fun hnil => ?_, fun hempty => ?_⟩
    · have hnone : file ∈ ((o.goImportMap.getD ∅).insert file value).keys := by
        rw [hkeys]
        split <;> simp [*]
      rw [OrderedMap.keys, hnil] at hnone
      exact absurd hnone List.not_mem_nil
    · rw [hkeys] at hempty
      split at hempty
      · exact ho.not_mem_keys hempty
      · rcases List.mem_append.1 hempty with hempty | hlast
        · exact ho.not_mem_keys hempty
        · exact hfile (List.mem_singleton.1 hlast).symm
  | _ => exact ho

theorem mapsFiles_of_parse {parameter : String} {o : Overrides} (h : parse parameter = .ok o) :
    MapsFiles o :=
  Outcome.foldlM_keeps (fun ho hpair => (sets_of_applyPair hpair).2.mapsFiles ho)
    (fun _ hm => by cases hm) h

end Parameter

/-! ## Agreement -/

namespace Overrides

/-- The same overrides, but for the order of the entries in their import maps. -/
structure Agrees (a b : Overrides) : Prop where
  settings : { a with goImportMap := none } = { b with goImportMap := none }
  imports : Option.Rel (fun m m' => m.entries.Perm m'.entries) a.goImportMap b.goImportMap

theorem isSome_goImportMap_iff {o : Overrides} (h : Parameter.MapsFiles o) :
    o.goImportMap.isSome = true ↔ ∃ file, (o.goPackage? file).isSome = true := by
  unfold goPackage?
  cases hmap : o.goImportMap with
  | none => simp
  | some m =>
    obtain ⟨e, rest, hentries⟩ := List.exists_cons_of_ne_nil (h m hmap).1
    have hget : m.get? e.1 = some e.2 :=
      OrderedMap.mem_entries_iff.1 (hentries ▸ List.mem_cons_self)
    exact iff_of_true rfl ⟨e.1, by simp [hget]⟩

theorem goPackage?_empty {o : Overrides} (h : Parameter.MapsFiles o) : o.goPackage? "" = none := by
  have hget : (o.goImportMap.getD ∅).contains "" = false :=
    Bool.eq_false_iff.2 fun hmem => h.not_mem_keys (OrderedMap.contains_iff_mem_keys.1 hmem)
  rw [← get?_imports]
  simpa [OrderedMap.contains] using hget

theorem goPackage?_eq {a b : Overrides} (ha : Parameter.MapsFiles a) (hb : Parameter.MapsFiles b)
    (h : ∀ key, a.given? key = b.given? key) (file : String) :
    a.goPackage? file = b.goPackage? file := by
  by_cases hfile : file = ""
  · rw [hfile, goPackage?_empty ha, goPackage?_empty hb]
  · have hkey := h ("M" ++ file)
    unfold given? at hkey
    rwa [Parameter.mappedFile?_eq_some_iff.2 ⟨rfl, hfile⟩] at hkey

theorem agrees_of_given? {a b : Overrides} (ha : Parameter.MapsFiles a)
    (hb : Parameter.MapsFiles b) (h : ∀ key, a.given? key = b.given? key) : a.Agrees b := by
  have hfiles := goPackage?_eq ha hb h
  have htarget : a.target = b.target := h "target"
  have hsuffix : a.suffix = b.suffix := h "suffix"
  have himport : a.goRuntimeImport = b.goRuntimeImport := h "runtime_import"
  have hmodule : a.tsRuntimeModule = b.tsRuntimeModule := h "runtime_module"
  have hext : a.importExtension = b.importExtension :=
    Option.map_injective ImportExtension.word_injective (h "import_extension")
  have hlayout : a.goLayout = b.goLayout :=
    Option.map_injective GoLayout.text_injective (h "paths")
  have hgoModule : a.goModule = b.goModule := h "module"
  refine ⟨by rw [htarget, hsuffix, himport, hmodule, hext, hlayout, hgoModule], ?_⟩
  have hmaps : a.goImportMap.isSome = b.goImportMap.isSome := by
    rw [Bool.eq_iff_iff, isSome_goImportMap_iff ha, isSome_goImportMap_iff hb]
    simp only [hfiles]
  unfold goPackage? at hfiles
  cases hma : a.goImportMap <;> cases hmb : b.goImportMap <;> rw [hma, hmb] at hmaps hfiles
  · exact .none
  · cases hmaps
  · cases hmaps
  · exact .some (OrderedMap.entries_perm hfiles)

end Overrides

end CacheGen
