import CacheGen.Error
import CacheGen.OrderedMap

/-!
# Configuration

What generation can be told. A `Config` has every setting; `Overrides` has some of them, as a config
file, a plugin parameter or command line options give them.

**Layers.** `Config.resolve` lays overrides over the defaults, the later over the earlier. A setting
takes the last value given; the Go import map takes entries one by one. Only the outcome is checked:
a Go module can be stripped from import paths but not from source-relative names, whichever layers
the two settings come from.
-/

namespace CacheGen

/-- What relative imports in generated TypeScript end in. -/
inductive ImportExtension where
  | js
  | ts
  | none
  deriving DecidableEq, Inhabited, Repr

namespace ImportExtension

def text : ImportExtension → String
  | js => ".js"
  | ts => ".ts"
  | none => ""

def ofText? : String → Option ImportExtension
  | ".js" => some js
  | ".ts" => some ts
  | "" => some none
  | _ => Option.none

end ImportExtension

/-- Where Go output goes: under the Go import path, or beside the source. -/
inductive GoLayout where
  | importPath
  | sourceRelative
  deriving DecidableEq, Inhabited, Repr

namespace GoLayout

def text : GoLayout → String
  | importPath => "import"
  | sourceRelative => "source_relative"

def ofText? : String → Option GoLayout
  | "import" => some importPath
  | "source_relative" => some sourceRelative
  | _ => none

end GoLayout

structure Config where
  /-- The name of the target language; whether there is such a target shows on generating. -/
  target : String := "ts"
  /-- How the name of a service ends that takes part. -/
  suffix : String := "Cache"
  goRuntimeImport : String := "github.com/NSXBet/go-cache-manager/pkg/gocachemanager"
  tsRuntimeModule : String := "cache-manager-runtime"
  importExtension : ImportExtension := .js
  goLayout : GoLayout := .importPath
  /-- The part of Go import paths to strip from output names. -/
  goModule : String := ""
  /-- `go_package` by file, over the option in the file. -/
  goImportMap : OrderedMap String String := ∅
  deriving DecidableEq, Inhabited

structure Overrides where
  target : Option String := none
  suffix : Option String := none
  goRuntimeImport : Option String := none
  tsRuntimeModule : Option String := none
  importExtension : Option ImportExtension := none
  goLayout : Option GoLayout := none
  goModule : Option String := none
  goImportMap : Option (OrderedMap String String) := none
  deriving DecidableEq, Inhabited

namespace Config

/-- `c` with the settings that `o` gives. -/
def override (c : Config) (o : Overrides) : Config where
  target := o.target.getD c.target
  suffix := o.suffix.getD c.suffix
  goRuntimeImport := o.goRuntimeImport.getD c.goRuntimeImport
  tsRuntimeModule := o.tsRuntimeModule.getD c.tsRuntimeModule
  importExtension := o.importExtension.getD c.importExtension
  goLayout := o.goLayout.getD c.goLayout
  goModule := o.goModule.getD c.goModule
  goImportMap := c.goImportMap.overlay (o.goImportMap.getD ∅)

/-- A module that cannot be stripped. -/
def hasConflict (c : Config) : Bool := c.goModule ≠ "" && c.goLayout = .sourceRelative

def resolve (layers : List Overrides) : Except GenError Config :=
  let c := layers.foldl override {}
  if c.hasConflict then
    .error (.invalidParameter ("module=" ++ c.goModule)
      "cannot be combined with paths=source_relative")
  else .ok c

end Config

end CacheGen
