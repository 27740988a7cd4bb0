import CacheGen.Config.Schema
import CacheGen.Json.Reader
import CacheGen.Text.Blank
import CacheGen.Tree

/-!
# Finding the config file

A project keeps its settings in one of a few places of a directory. The first place that holds a
value decides, even when the value is bad: a later place never stands in for a broken earlier one.
A place holds no value when it is missing or no file, when its text is blank, and when its value is
null or, in `package.json`, not there. Without any value there is nothing to override.

One of the places is a script. A loader that can run it looks at all of them, and any other loader
passes it over. How YAML is read and what a script gives is for others to say (`Readers`).
-/

namespace CacheGen.Discovery

/-- Readers for what is not read here. A value that is no JSON is for them to refuse, and null stands
for no value. -/
structure Readers where
  /-- The value of a text in YAML. -/
  yaml : String → Except String Json
  /-- What the script at a place of a tree gives when it is run. -/
  script : Tree → Location → Except String Json

inductive Format where
  | json
  | yaml
  /-- A JSON object with the settings under `cachemanager`. -/
  | package
  deriving DecidableEq, Repr

/-- What a place is to hold. -/
inductive Content where
  | text (format : Format)
  | script
  deriving DecidableEq, Repr

def scriptName : String := "cachemanager.config.js"

/-- All places in the order they are looked at. -/
def allPlaces : List (String × Content) := [
  (".cachemanagerrc.json", .text .json),
  (".cachemanagerrc.yml", .text .yaml),
  (".cachemanagerrc.yaml", .text .yaml),
  (scriptName, .script),
  ("package.json", .text .package)]

/-- A place with a text in some format. -/
def textPlace? : String × Content → Option (String × Format)
  | (name, .text format) => some (name, format)
  | (_, .script) => none

/-- The places without the script. -/
def places : List (String × Format) := allPlaces.filterMap textPlace?

/-- The settings under `cachemanager`; a value that can have no members has none. -/
def packageSettings : Json → Except String Json
  | .object members => .ok ((Json.member? members "cachemanager").getD .null)
  | .null => .error "null has no members"
  | _ => .ok .null

/-- The value of a text in a format. -/
def Format.parse (readers : Readers) (format : Format) (text : String) : Except String Json :=
  match format with
  | .json =>
    match Json.parse? text with
    | some v => .ok v
    | none => .error "the text is not JSON"
  | .yaml => readers.yaml text
  | .package =>
    match Json.parse? text with
    | some v => packageSettings v
    | none => .error "the text is not JSON"

/-- The value that the text of a file is read as, if it holds one. -/
def valueIn (t : Tree) (file : Location) (read : String → Except String Json) :
    Except String (Option Json) :=
  match t.read? file with
  | none => .ok none
  | some bytes =>
    let text := Utf8.decode bytes
    if Text.allBlank text then .ok none
    else
      match read text with
      | .error e => .error e
      | .ok .null => .ok none
      | .ok v => .ok (some v)

/-- The value that a place holds, if it holds one. -/
def valueAt (readers : Readers) (t : Tree) (file : Location) (format : Format) :
    Except String (Option Json) :=
  valueIn t file (format.parse readers)

/-- As `valueAt`, with scripts read by running them. -/
def Content.valueAt (readers : Readers) (t : Tree) (file : Location) :
    Content → Except String (Option Json)
  | text format => Discovery.valueAt readers t file format
  | script => valueIn t file fun _ => readers.script t file

/-- The overrides of the first of `places` in `dir` that holds a value, by what `look` finds there.
`source` is the directory as the user wrote it. -/
def searchBy {κ : Type} (look : Location → κ → Except String (Option Json)) (dir : Location)
    (source : String) : List (String × κ) → Except GenError Overrides
  | [] => .ok {}
  | (name, kind) :: later =>
    let file := dir.resolve name
    match look file kind with
    | .error e => .error (.unreadableConfig source e)
    | .ok (some v) => Schema.validate v file.path
    | .ok none => searchBy look dir source later

/-- The overrides of the project in `source`, a directory read from `base`. -/
def load (readers : Readers) (t : Tree) (base : Location) (source : String) :
    Except GenError Overrides :=
  searchBy (valueAt readers t) (base.resolve source) source places

/-- As `load`, with the script among the places. -/
def loadRunning (readers : Readers) (t : Tree) (base : Location) (source : String) :
    Except GenError Overrides :=
  searchBy (Content.valueAt readers t) (base.resolve source) source allPlaces

end CacheGen.Discovery
