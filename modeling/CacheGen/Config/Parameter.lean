import CacheGen.Config.Basic
import CacheGen.Text.Blank
import CacheGen.Text.Cut

/-!
# The plugin parameter

One text with settings as `key=value` pairs between commas, such as `target=go,suffix=Cache`. Blanks
around a pair, its key and its value are not part of them, and blank pairs are skipped. `M<file>`
gives the `go_package` of a file. Of two pairs with one key the later counts. The first bad pair
ends the reading.
-/

namespace CacheGen.Parameter

/-- The pairs of a parameter, trimmed. -/
def pairs (parameter : String) : List String :=
  ((Text.pieces ',' parameter).map Text.trim).filter (· ≠ "")

/-- Key and value of a pair; without an equals sign there is no value. -/
def keyValue (pair : String) : String × String :=
  match Text.cutFirst? '=' pair with
  | some (key, value) => (Text.trim key, Text.trim value)
  | none => (pair, "")

/-- The file that a key `M<file>` is about. A lone `M` is about none. -/
def mappedFile? (key : String) : Option String :=
  match key.toList with
  | 'M' :: c :: cs => some (String.ofList (c :: cs))
  | _ => none

def readTarget (value : String) : Except GenError String :=
  if value = "go" ∨ value = "ts" then .ok value else .error (.unknownTarget value)

def readExtension (pair value : String) : Except GenError ImportExtension :=
  match value with
  | ".js" => .ok .js
  | ".ts" => .ok .ts
  | "none" => .ok .none
  | _ => .error (.invalidParameter pair "expected .js, .ts or none")

def readLayout (pair value : String) : Except GenError GoLayout :=
  match GoLayout.ofText? value with
  | some layout => .ok layout
  | none => .error (.invalidParameter pair "expected import or source_relative")

/-- `o` with the setting under `key`, one of the fixed keys. -/
def applyKey (o : Overrides) (pair key value : String) : Except GenError Overrides :=
  match key with
  | "target" => (readTarget value).map fun t => { o with target := some t }
  | "suffix" => .ok { o with suffix := some value }
  | "runtime_import" => .ok { o with goRuntimeImport := some value }
  | "runtime_module" => .ok { o with tsRuntimeModule := some value }
  | "import_extension" =>
    (readExtension pair value).map fun e => { o with importExtension := some e }
  | "paths" => (readLayout pair value).map fun l => { o with goLayout := some l }
  | "module" => .ok { o with goModule := some value }
  | _ => .error (.invalidParameter pair ("unknown key \"" ++ key ++ "\""))

/-- `o` with the setting of one pair. -/
def applyPair (o : Overrides) (pair : String) : Except GenError Overrides :=
  let (key, value) := keyValue pair
  if value = "" then .error (.invalidParameter pair "missing value")
  else
    match mappedFile? key with
    | some file => .ok { o with goImportMap := some ((o.goImportMap.getD ∅).insert file value) }
    | none => applyKey o pair key value

def parse (parameter : String) : Except GenError Overrides :=
  (pairs parameter).foldlM applyPair {}

end CacheGen.Parameter
