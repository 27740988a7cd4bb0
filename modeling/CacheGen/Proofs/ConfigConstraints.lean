import CacheGen.Proofs.ConfigRoundTrip

/-!
# Constraints on config files

What has to be under each key of a config file (`Satisfies`), and where a file is wrong that keeps
not to it (`Offends`). The rules of the schema are read against the constraints (`Rule.Reads`): a
rule accepts exactly the values of its constraint, and from what it gives the value is written back.
-/

namespace CacheGen

/-! ## Objects -/

namespace Json

/-- The members of an object have a key each, and so have those of the objects inside. -/
inductive DistinctKeys : Json → Prop
  | null : DistinctKeys .null
  | bool (value : Bool) : DistinctKeys (.bool value)
  | number (spelling : String) : DistinctKeys (.number spelling)
  | string (value : String) : DistinctKeys (.string value)
  | array {items : List Json} (h : ∀ v ∈ items, DistinctKeys v) : DistinctKeys (.array items)
  | object {members : List (String × Json)} (hkeys : (members.map Prod.fst).Nodup)
      (h : ∀ m ∈ members, DistinctKeys m.2) : DistinctKeys (.object members)

@[simp] theorem distinctKeys_number (spelling : String) : (number spelling).DistinctKeys :=
  .number spelling

@[simp] theorem distinctKeys_string (value : String) : (string value).DistinctKeys := .string value

@[simp] theorem distinctKeys_object {members : List (String × Json)} :
    (object members).DistinctKeys ↔
      (members.map Prod.fst).Nodup ∧ ∀ m ∈ members, m.2.DistinctKeys := by
  constructor
  · rintro ⟨⟩
    exact ⟨‹_›, ‹_›⟩
  · exact fun ⟨hkeys, hvalues⟩ => .object hkeys hvalues

theorem member?_eq_getEntry (members : List (String × Json)) (key : String) :
    member? members key = getEntry key members := by
  induction members with
  | nil => rfl
  | cons m members ih =>
    rw [member?] at ih ⊢
    by_cases hkey : m.1 = key <;> simp [getEntry, hkey, ih]

theorem member?_eq_some_iff {members : List (String × Json)} (h : (members.map Prod.fst).Nodup)
    {key : String} {v : Json} : member? members key = some v ↔ (key, v) ∈ members := by
  rw [member?_eq_getEntry, mem_iff_getEntry h]

end Json

namespace Schema

/-! ## Constraints -/

def IsText (v : Json) : Prop := ∃ s, v = .string s

def IsSomeText (v : Json) : Prop := ∃ s, s ≠ "" ∧ v = .string s

def IsWord (words : List String) (v : Json) : Prop := ∃ w ∈ words, v = .string w

def IsImportMap (v : Json) : Prop :=
  ∃ entries, v = .object entries ∧ ∀ e ∈ entries, IsSomeText e.2

/-- The constraint on the member under a key. Nothing may stand under an unknown key. -/
def Satisfies : String → Json → Prop
  | "target" => IsWord ["go", "ts"]
  | "suffix" => IsSomeText
  | "goRuntimeImport" => IsSomeText
  | "tsRuntimeModule" => IsSomeText
  | "importExtension" => IsWord [".js", ".ts", ""]
  | "goPaths" => IsWord ["import", "source_relative"]
  | "goModule" => IsText
  | "goImportMap" => IsImportMap
  | _ => fun _ => False

/-- An object whose members all satisfy their constraints. -/
def Conforms (raw : Json) : Prop :=
  ∃ members, raw = .object members ∧ ∀ m ∈ members, Satisfies m.1 m.2

/-- What is wrong with the member `v` under a known key is at a place in the file. -/
inductive OffendsIn : String → Json → List String → Prop
  | setting {key : String} {v : Json} (hkey : key ≠ "goImportMap") (h : ¬ Satisfies key v) :
      OffendsIn key v [key]
  | notMap {v : Json} (h : ∀ entries, v ≠ .object entries) :
      OffendsIn "goImportMap" v ["goImportMap"]
  | entry {entries : List (String × Json)} {file : String} {v : Json} (hmem : (file, v) ∈ entries)
      (h : ¬ IsSomeText v) : OffendsIn "goImportMap" (.object entries) ["goImportMap", file]

/-- What is wrong with a file is at a place in it. -/
inductive Offends : Json → List String → Prop
  | notObject {raw : Json} (h : ∀ members, raw ≠ .object members) : Offends raw []
  | member {members : List (String × Json)} {key : String} {v : Json} {place : List String}
      (hmem : (key, v) ∈ members) (hkey : key ∈ knownKeys) (h : OffendsIn key v place) :
      Offends (.object members) place
  | unknown {members : List (String × Json)} {key : String} {v : Json} (hmem : (key, v) ∈ members)
      (hkey : key ∉ knownKeys) : Offends (.object members) []

/-! ## Rules -/

/-- `rule` accepts what satisfies `P`, and `write` undoes it. -/
structure Rule.Reads {α : Type} (rule : Rule α) (P : Json → Prop) (write : α → Json) : Prop where
  accepts : ∀ v, P v → ∃ a, rule v = .ok a
  sound : ∀ v a, rule v = .ok a → P v ∧ write a = v

theorem reads_anyText : Rule.Reads anyText IsText .string where
  accepts := by
    rintro v ⟨s, rfl⟩
    exact ⟨s, rfl⟩
  sound v s h := by
    cases v <;> simp_all [anyText, IsText]

theorem reads_someText : Rule.Reads someText IsSomeText .string where
  accepts := by
    rintro v ⟨s, hs, rfl⟩
    exact ⟨s, if_neg hs⟩
  sound v s h := by
    cases v with
    | string s' =>
      by_cases hs : s' = "" <;> simp_all [someText, IsSomeText]
    | _ => simp [someText, anyText] at h

theorem reads_oneOf {α : Type} {words : List String} {meaning : String → Option α}
    (word : α → String) (hknown : ∀ s ∈ words, (meaning s).isSome = true)
    (hword : ∀ s a, meaning s = some a → s ∈ words ∧ word a = s) :
    Rule.Reads (oneOf words meaning) (IsWord words) fun a => .string (word a) where
  accepts := by
    rintro v ⟨s, hs, rfl⟩
    obtain ⟨a, ha⟩ := Option.isSome_iff_exists.1 (hknown s hs)
    exact ⟨a, by simp [oneOf, ha]⟩
  sound v a h := by
    cases v with
    | string s =>
      cases hs : meaning s with
      | none => simp [oneOf, hs] at h
      | some a' =>
        obtain ⟨hmem, rfl⟩ := hword s a' hs
        simp [oneOf, hs] at h
        exact ⟨⟨_, hmem, rfl⟩, by rw [h]⟩
    | _ => simp [oneOf] at h

theorem reads_targetRule : Rule.Reads targetRule (IsWord ["go", "ts"]) .string := by
  refine reads_oneOf id (by decide) fun s a h => ?_
  by_cases hs : s = "go" ∨ s = "ts" <;> simp_all

theorem reads_extensionRule :
    Rule.Reads extensionRule (IsWord [".js", ".ts", ""]) fun e => .string e.text := by
  refine reads_oneOf _ (by decide) fun s e h => ?_
  unfold ImportExtension.ofText? at h
  split at h <;> cases h <;> simp [ImportExtension.text]

theorem reads_layoutRule :
    Rule.Reads layoutRule (IsWord ["import", "source_relative"]) fun l => .string l.text := by
  refine reads_oneOf _ (by decide) fun s l h => ?_
  unfold GoLayout.ofText? at h
  split at h <;> cases h <;> simp [GoLayout.text]

end Schema

end CacheGen
