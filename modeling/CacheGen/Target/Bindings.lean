import CacheGen.Config.Basic
import CacheGen.Descriptor.GoPackage
import CacheGen.Plan
import CacheGen.Target.Scope
import CacheGen.Text.Quoted

/-!
# Imported names

A generated TypeScript module imports message types, the schemas of messages it creates, and
symbols of two runtimes. All names it binds live in one scope.

**Order of claims.** The names of managers and constructors are reserved first, since they must not
change. Messages follow in the order of first use, the schema of an output right behind its type,
and the runtime symbols come last. Whoever comes too late gets an alias.
-/

namespace CacheGen

/-- An imported symbol: the name it is exported under and the name it is bound to here. -/
structure Binding where
  exported : String
  bound : String
  deriving DecidableEq, Inhabited, Repr

/-- The binding as it stands in an import. -/
def Binding.clause (b : Binding) : String :=
  if b.exported = b.bound then b.bound else b.exported ++ " as " ++ b.bound

/-! ## Modules of messages -/

/-- The module with the well-known messages. -/
def wellKnownModule : String := "@bufbuild/protobuf/wkt"

/-- The module, seen from the generated file `output`, of the messages that `protoFile` declares. -/
def messageModule (base : Location) (output protoFile : String) (ext : ImportExtension) : String :=
  if Text.startsWith protoFile "google/protobuf/" then wellKnownModule
  else
    let way := Path.relative base (Path.dirname output)
      (Proto.stem protoFile ++ "_pb" ++ ext.text)
    if Text.startsWith way "." then way else "./" ++ way

/-! ## Messages -/

/-- The messages bound so far, by full name. -/
structure MessageBindings where
  scope : Scope
  types : OrderedMap String Binding
  schemas : OrderedMap String Binding
  modules : OrderedMap String String

namespace MessageBindings

/-- The name a message type is bound to. -/
def typeName (b : MessageBindings) (r : MessageRef) : String :=
  match b.types.get? r.fullName with
  | some binding => binding.bound
  | none => r.localName

/-- The name the schema of a message is bound to. -/
def schemaName (b : MessageBindings) (r : MessageRef) : String :=
  match b.schemas.get? r.fullName with
  | some binding => binding.bound
  | none => b.typeName r ++ "Schema"

def moduleName (b : MessageBindings) (fullName : String) : String :=
  (b.modules.get? fullName).getD ""

/-- Bind the type of `r` unless it is bound, and note its module. -/
def useType (b : MessageBindings) (moduleOf : String → String) (r : MessageRef) :
    MessageBindings :=
  let modules := b.modules.insert r.fullName (moduleOf r.file)
  if b.types.contains r.fullName then { b with modules := modules }
  else
    let (name, scope) := b.scope.claim r.localName
    { b with
      scope := scope
      types := b.types.insert r.fullName ⟨r.localName, name⟩
      modules := modules }

/-- Bind the schema of `r`, whose type is bound, unless it is bound too. -/
def useSchema (b : MessageBindings) (r : MessageRef) : MessageBindings :=
  if b.schemas.contains r.fullName then b
  else
    let (name, scope) := b.scope.claim (b.typeName r ++ "Schema")
    { b with
      scope := scope
      schemas := b.schemas.insert r.fullName ⟨r.localName ++ "Schema", name⟩ }

/-- Bind what the handle of a method needs: both types, and the schema of the output. -/
def useHandle (moduleOf : String → String) (b : MessageBindings) (h : Handle) : MessageBindings :=
  ((b.useType moduleOf h.method.input).useType moduleOf h.method.output).useSchema
    h.method.output

end MessageBindings

/-! ## All names of a module -/

structure RuntimeNames where
  create : String
  newCacheManager : String
  cacheManager : String
  cacheOption : String
  context : String
  deriving DecidableEq, Repr

structure ModuleNames where
  hasHandles : Bool
  messages : MessageBindings
  runtime : RuntimeNames

/-- Claim the runtime symbols. Without a handle only the options of the constructors are used, so
nothing else is claimed. -/
def RuntimeNames.claim (hasHandles : Bool) (s : Scope) : RuntimeNames :=
  if hasHandles then
    let (create, s) := s.claim "create"
    let (newCacheManager, s) := s.claim "newCacheManager"
    let (cacheManager, s) := s.claim "CacheManager"
    let (cacheOption, s) := s.claim "CacheOption"
    let (context, _) := s.claim "Context"
    ⟨create, newCacheManager, cacheManager, cacheOption, context⟩
  else
    ⟨"create", "newCacheManager", "CacheManager", (s.claim "CacheOption").1, "Context"⟩

/-- The scope with the declared names of `plans`. -/
def Scope.ofPlans (plans : List ManagerPlan) : Scope :=
  plans.foldl (fun s p => (s.reserve p.managerName).reserve p.constructorName) ⟨[]⟩

def MessageBindings.ofPlans (moduleOf : String → String) (plans : List ManagerPlan) :
    MessageBindings :=
  (plans.flatMap (·.handles)).foldl (useHandle moduleOf) ⟨Scope.ofPlans plans, ∅, ∅, ∅⟩

def ModuleNames.ofPlans (moduleOf : String → String) (plans : List ManagerPlan) : ModuleNames :=
  let hasHandles := plans.any fun p => !p.handles.isEmpty
  let messages := MessageBindings.ofPlans moduleOf plans
  { hasHandles := hasHandles
    messages := messages
    runtime := .claim hasHandles messages.scope }

end CacheGen
