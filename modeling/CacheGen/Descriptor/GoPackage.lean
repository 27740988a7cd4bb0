import CacheGen.Descriptor.Proto
import CacheGen.Path
import CacheGen.Text.Units

/-!
# Go packages

The Go package of a file follows from its `go_package`, an import path with an optional package
name behind a semicolon. Without one the protobuf package names it, and without that the file.
-/

namespace CacheGen.Proto

/-- The file name without `.proto`. -/
def stem (file : String) : String := (Text.dropEnd? ".proto" file).getD file

def isIdentifierChar (c : Char) : Bool := c.isAlphanum || c = '_'

/-- An underscore for each 16-bit unit outside the identifier characters. -/
def identifierChars (cs : List Char) : List Char :=
  cs.flatMap fun c =>
    if isIdentifierChar c then [c] else List.replicate (Text.charUnits c).length '_'

/-- `name` as a Go identifier; an underscore goes in front of a digit. -/
def goIdentifier (name : String) : String :=
  match identifierChars name.toList with
  | [] => ""
  | c :: cs => String.ofList (if c.isDigit then '_' :: c :: cs else c :: cs)

/-- The Go package name of `f` when its `go_package` is `goPackage`. -/
def File.goPackageName (f : File) (goPackage : String) : String :=
  if goPackage ≠ "" then
    match Text.cutLast? ';' goPackage with
    | some (_, name) => goIdentifier name
    | none => goIdentifier (Text.afterLast '/' goPackage)
  else if f.package ≠ "" then goIdentifier ("_".intercalate (Text.pieces '.' f.package))
  else goIdentifier (Text.afterLast '/' (stem f.name))

/-- The Go import path of `f` when its `go_package` is `goPackage`; the directory of the file
stands in for an empty one. -/
def File.goImportPath (f : File) (goPackage : String) : String :=
  let path := match Text.cutLast? ';' goPackage with
    | some (path, _) => path
    | none => goPackage
  if path = "" then Path.dirname f.name else path

end CacheGen.Proto
