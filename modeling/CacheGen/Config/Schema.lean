import CacheGen.Config.Basic
import CacheGen.Json

/-!
# The config file schema

Which JSON values are config files. The root is an object whose members are all settings; each
setting that is present satisfies the rule of its key:

* the target, the import extension and the Go paths are one of a few words,
* the suffix, the runtimes and the values of the import map are texts that are not empty,
* the Go module is any text.

An entry of the import map under the reserved key is checked like the others, and then left out.

A refusal lists everything that is wrong: the settings in the order above of their declaration,
each entry of the import map on its own, and all unknown keys together at the end.
-/

namespace CacheGen.Schema

/-- Something wrong at a place in the file. -/
structure Issue where
  place : List String
  text : String
  deriving DecidableEq, Repr

def Issue.line (i : Issue) : String :=
  let place := ".".intercalate i.place
  (if place = "" then "(root)" else place) ++ ": " ++ i.text

/-! ## Rules -/

/-- What is wrong with a value, or its meaning. -/
abbrev Rule (α : Type) := Json → Except String α

def anyText : Rule String
  | .string s => .ok s
  | v => .error ("Expected string, received " ++ v.kind)

def someText : Rule String
  | .string s =>
    if s = "" then .error "String must contain at least 1 character(s)" else .ok s
  | v => anyText v

/-- Words in single quotes, joined by `separator`. -/
def quotedWords (separator : String) (words : List String) : String :=
  separator.intercalate (words.map fun w => "'" ++ w ++ "'")

/-- One of `words`, by its meaning. -/
def oneOf {α : Type} (words : List String) (meaning : String → Option α) : Rule α
  | .string s =>
    match meaning s with
    | some a => .ok a
    | none =>
      .error ("Invalid enum value. Expected " ++ quotedWords " | " words ++
        ", received '" ++ s ++ "'")
  | v => .error ("Expected " ++ quotedWords " | " words ++ ", received " ++ v.kind)

def targetRule : Rule String :=
  oneOf ["go", "ts"] fun s => if s = "go" ∨ s = "ts" then some s else none

def extensionRule : Rule ImportExtension := oneOf [".js", ".ts", ""] ImportExtension.ofText?

def layoutRule : Rule GoLayout := oneOf ["import", "source_relative"] GoLayout.ofText?

/-! ## Members -/

/-- The issues of the member under `key`, if it is present. -/
def memberIssues {α : Type} (members : List (String × Json)) (key : String) (rule : Rule α) :
    List Issue :=
  match Json.member? members key with
  | none => []
  | some v =>
    match rule v with
    | .ok _ => []
    | .error text => [⟨[key], text⟩]

/-- The setting under `key`, if it is present and right. -/
def memberValue {α : Type} (members : List (String × Json)) (key : String) (rule : Rule α) :
    Option α :=
  (Json.member? members key).bind fun v => (rule v).toOption

/-- The issues of an import map: one per bad entry, or one if it is no map. -/
def mapIssues (key : String) : Json → List Issue
  | .object entries =>
    (Json.enumerate entries).flatMap fun e =>
      match someText e.2 with
      | .ok _ => []
      | .error text => [⟨[key, e.1], text⟩]
  | v => [⟨[key], "Expected object, received " ++ v.kind⟩]

/-- The key under which an import map keeps no entry. -/
def reservedKey : String := "__proto__"

def mapValue : Json → OrderedMap String String
  | .object entries =>
    .ofEntries ((entries.filter (·.1 ≠ reservedKey)).filterMap fun e =>
      (someText e.2).toOption.map fun s => (e.1, s))
  | _ => ∅

def knownKeys : List String :=
  ["target", "suffix", "goRuntimeImport", "tsRuntimeModule", "importExtension", "goPaths",
    "goModule", "goImportMap"]

def unknownKeyIssues (members : List (String × Json)) : List Issue :=
  match ((Json.enumerate members).map Prod.fst).filter (· ∉ knownKeys) with
  | [] => []
  | keys =>
    [⟨[], "Unrecognized key(s) in object: " ++ quotedWords ", " keys⟩]

/-! ## Files -/

/-- Everything that is wrong with a config file. -/
def issues : Json → List Issue
  | .object members =>
    memberIssues members "target" targetRule ++
      memberIssues members "suffix" someText ++
      memberIssues members "goRuntimeImport" someText ++
      memberIssues members "tsRuntimeModule" someText ++
      memberIssues members "importExtension" extensionRule ++
      memberIssues members "goPaths" layoutRule ++
      memberIssues members "goModule" anyText ++
      ((Json.member? members "goImportMap").map (mapIssues "goImportMap")).getD [] ++
      unknownKeyIssues members
  | v => [⟨[], "Expected object, received " ++ v.kind⟩]

/-- The settings of a config file, the wrong ones left out. -/
def settings : Json → Overrides
  | .object members => {
      target := memberValue members "target" targetRule
      suffix := memberValue members "suffix" someText
      goRuntimeImport := memberValue members "goRuntimeImport" someText
      tsRuntimeModule := memberValue members "tsRuntimeModule" someText
      importExtension := memberValue members "importExtension" extensionRule
      goLayout := memberValue members "goPaths" layoutRule
      goModule := memberValue members "goModule" anyText
      goImportMap := (Json.member? members "goImportMap").map mapValue }
  | _ => {}

/-- Accept a config file without issues, or list them. `path` is where it was found. -/
def validate (raw : Json) (path : String) : Except GenError Overrides :=
  match issues raw with
  | [] => .ok (settings raw)
  | is => .error (.invalidConfig path ("; ".intercalate (is.map Issue.line)))

end CacheGen.Schema

namespace CacheGen.Config

/-- A config as the config file that gives each of its settings. -/
def toJson (c : Config) : Json :=
  .object [
    ("target", .string c.target),
    ("suffix", .string c.suffix),
    ("goRuntimeImport", .string c.goRuntimeImport),
    ("tsRuntimeModule", .string c.tsRuntimeModule),
    ("importExtension", .string c.importExtension.text),
    ("goPaths", .string c.goLayout.text),
    ("goModule", .string c.goModule),
    ("goImportMap", .object (c.goImportMap.entries.map fun e => (e.1, .string e.2)))]

end CacheGen.Config
