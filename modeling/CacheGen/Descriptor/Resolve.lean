import CacheGen.Descriptor.Comment
import CacheGen.Descriptor.GoPackage
import CacheGen.Descriptor.Model
import CacheGen.Error
import CacheGen.OrderedMap

/-!
# From the compiler's descriptors to the model

All files of a request share one index of message types, so that a method may refer to a message of
any of them. Resolving goes through the files, their services and their methods in order, the input
of a method before its output, and stops at the first reference to a type that no file declares.

An import map is looked up by file name. Besides its entries it has the members that every map
inherits, and a file with the name of one of these is taken to have that member as its Go package.
It is no text, so the run breaks off there, before the services of the file.
-/

namespace CacheGen

/-! ## Declared messages -/

namespace Proto

/-- The reference to the message reached through `nesting`, outermost first. -/
def File.refTo (f : File) (nesting : List String) : MessageRef where
  fullName := (if f.package = "" then "" else f.package ++ ".") ++ ".".intercalate nesting
  localName := "_".intercalate nesting
  scopedName := ".".intercalate nesting
  file := f.name

mutual

/-- A message inside `outer` and all messages nested in it, as nestings. -/
def Message.nestings (outer : List String) : Message → List (List String)
  | ⟨name, nested⟩ => (outer ++ [name]) :: nestingsOfAll (outer ++ [name]) nested

def nestingsOfAll (outer : List String) : List Message → List (List String)
  | [] => []
  | m :: ms => m.nestings outer ++ nestingsOfAll outer ms

end

def File.declared (f : File) : List MessageRef := (nestingsOfAll [] f.messages).map f.refTo

end Proto

/-- Declared messages by full name. -/
abbrev TypeIndex := OrderedMap String MessageRef

/-- Of two declarations with one full name the later counts. -/
def TypeIndex.ofFiles (files : List Proto.File) : TypeIndex :=
  .ofEntries ((files.flatMap Proto.File.declared).map fun r => (r.fullName, r))

/-- Type names may begin with a dot, which is not part of the full name. -/
def bareTypeName (typeName : String) : String := (Text.dropStart? "." typeName).getD typeName

def TypeIndex.resolve (types : TypeIndex) (typeName user : String) : Except GenError MessageRef :=
  match types.get? (bareTypeName typeName) with
  | some r => .ok r
  | none => .error (.unknownType typeName user)

/-! ## Go packages from an import map -/

/-- The members that every map inherits. None of them is a text. -/
def inheritedMembers : List String := [
  "constructor", "__defineGetter__", "__defineSetter__", "hasOwnProperty", "__lookupGetter__",
  "__lookupSetter__", "isPrototypeOf", "propertyIsEnumerable", "toString", "valueOf", "__proto__",
  "toLocaleString"]

/-- What becomes of taking the package name out of something that is no text. -/
def packageFault : GenError := .notCallable "goPackage.lastIndexOf"

namespace Proto

/-- The map has no entry for `f`, but inherits a member under its name. -/
def File.Inherits (imports : OrderedMap String String) (f : File) : Prop :=
  imports.get? f.name = none ∧ f.name ∈ inheritedMembers

instance (imports : OrderedMap String String) (f : File) : Decidable (f.Inherits imports) :=
  inferInstanceAs (Decidable (_ ∧ _))

/-- The `go_package` of `f`, unless `imports` has an entry for the file. -/
def File.effectiveGoPackage (imports : OrderedMap String String) (f : File) :
    Except GenError String :=
  if f.Inherits imports then .error packageFault
  else .ok ((imports.get? f.name).getD f.goPackage)

end Proto

/-! ## Files -/

namespace Proto

def Method.resolve (types : TypeIndex) (parent : String) (comment : Option String) (m : Method) :
    Except GenError CacheGen.Method := do
  let user := parent ++ "." ++ m.name
  let input ← types.resolve m.inputType user
  let output ← types.resolve m.outputType user
  return {
    name := m.name
    parent := parent
    input := input
    output := output
    leadingComment := comment
    clientStreaming := m.clientStreaming
    serverStreaming := m.serverStreaming }

def File.resolveService (types : TypeIndex) (f : File) (s : Service) (index : Nat) :
    Except GenError CacheGen.Service := do
  let methods ← s.methods.zipIdx.mapM fun (m, i) =>
    m.resolve types s.name (f.leadingComment (methodPath index i))
  return {
    name := s.name
    methods := methods
    leadingComment := f.leadingComment (servicePath index) }

def File.resolve (types : TypeIndex) (requested : List String) (imports : OrderedMap String String)
    (f : File) : Except GenError SourceFile := do
  let goPackage ← f.effectiveGoPackage imports
  let services ← f.services.zipIdx.mapM fun (s, i) => f.resolveService types s i
  return {
    name := f.name
    package := f.package
    isRequested := requested.contains f.name
    stem := stem f.name
    goPackageName := f.goPackageName goPackage
    goImportPath := f.goImportPath goPackage
    services := services }

end Proto

/-- The model of all `files`, those in `requested` marked. -/
def SourceFile.ofProtos (files : List Proto.File) (requested : List String)
    (imports : OrderedMap String String) : Except GenError (List SourceFile) :=
  files.mapM (Proto.File.resolve (TypeIndex.ofFiles files) requested imports)

end CacheGen
