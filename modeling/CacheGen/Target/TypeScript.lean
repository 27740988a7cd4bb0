import CacheGen.Target.Bindings
import CacheGen.Target.Header
import CacheGen.Text.Units

/-!
# TypeScript output

One module per source file: a head with the imports, then for each manager a class that holds the
handles and a constructor function that builds it. A handle is created by the runtime's
`newCacheManager` and used through its `fetch` and `forceRefresh`.
-/

namespace CacheGen.TypeScript

def fileName (f : SourceFile) : String := f.stem ++ "_cache_manager.ts"

/-! ## Imports -/

structure Import where
  typeOnly : Bool
  bindings : List Binding
  source : String
  deriving DecidableEq, Repr

def Import.line (i : Import) : String :=
  "import " ++ (if i.typeOnly then "type " else "") ++ "\x7b " ++
    ", ".intercalate (i.bindings.map Binding.clause) ++ " \x7d from " ++ Text.quote i.source ++ ";"

/-- In the order of their clauses. -/
def sortBindings (bs : List Binding) : List Binding :=
  bs.mergeSort fun a b => Text.unitLE a.clause b.clause

def runtimeImports (n : ModuleNames) (runtimeModule : String) : List Import :=
  let option : Binding := ⟨"CacheOption", n.runtime.cacheOption⟩
  if n.hasHandles then
    [⟨false, [⟨"create", n.runtime.create⟩], "@bufbuild/protobuf"⟩,
      ⟨false, [⟨"newCacheManager", n.runtime.newCacheManager⟩], runtimeModule⟩,
      ⟨true, [⟨"CacheManager", n.runtime.cacheManager⟩, option,
        ⟨"Context", n.runtime.context⟩], runtimeModule⟩]
  else [⟨true, [option], runtimeModule⟩]

/-- The bindings among `es` that come from `source`. -/
def bindingsFrom (b : MessageBindings) (source : String) (es : OrderedMap String Binding) :
    List Binding :=
  (es.entries.filter fun e => b.moduleName e.1 = source).map Prod.snd

/-- The modules that messages are imported from, in order. -/
def messageSources (b : MessageBindings) : List String :=
  Text.sortByUnits (((b.types.keys ++ b.schemas.keys).map b.moduleName).eraseDups)

/-- From each module first the schemas, if any, then the types. -/
def messageImports (b : MessageBindings) : List Import :=
  (messageSources b).flatMap fun source =>
    let schemas := sortBindings (bindingsFrom b source b.schemas)
    let types := sortBindings (bindingsFrom b source b.types)
    (if schemas.isEmpty then [] else [⟨false, schemas, source⟩]) ++ [⟨true, types, source⟩]

def imports (n : ModuleNames) (runtimeModule : String) : List Import :=
  runtimeImports n runtimeModule ++ messageImports n.messages

/-! ## Docs -/

/-- A body with each `*/` broken up, so that it does not end the comment. -/
def guardBody : List Char → List Char
  | '*' :: '/' :: cs => '*' :: '\\' :: '/' :: guardBody cs
  | c :: cs => c :: guardBody cs
  | [] => []

def docLines (indent : String) : Option Doc → List String
  | none => []
  | some doc =>
    [indent ++ "/**"] ++
      doc.map (fun body => indent ++ " *" ++ String.ofList (guardBody body.toList)) ++
      [indent ++ " */"]

/-! ## Managers -/

def handleType (n : ModuleNames) (m : Method) : String :=
  n.runtime.cacheManager ++ "<" ++ n.messages.typeName m.input ++ ", " ++
    n.messages.typeName m.output ++ ">"

def accessName : Access → String
  | .get => "fetch"
  | .refresh => "forceRefresh"

def wrapperLines (n : ModuleNames) (w : Wrapper) : List String :=
  [""] ++ docLines "  " w.doc ++
    ["  " ++ w.name ++ "(ctx: " ++ n.runtime.context ++ ", input: " ++
        n.messages.typeName w.method.input ++ "): Promise<" ++
        n.messages.typeName w.method.output ++ "> \x7b",
      "    return this." ++ w.field ++ "." ++ accessName w.access ++ "(ctx, input);",
      "  \x7d"]

def classLines (n : ModuleNames) (p : ManagerPlan) : List String :=
  docLines "" p.typeDoc ++
    ["export class " ++ p.managerName ++ " \x7b", "  constructor("] ++
    p.handles.map (fun h =>
      "    private readonly " ++ h.field ++ ": " ++ handleType n h.method ++ ",") ++
    ["  ) \x7b\x7d"] ++
    p.wrappers.flatMap (wrapperLines n) ++
    ["\x7d", ""]

def updateParamLine (n : ModuleNames) (h : Handle) : String :=
  "  " ++ h.updateParam ++ ": (ctx: " ++ n.runtime.context ++ ", input: " ++
    n.messages.typeName h.method.input ++ ") => Promise<" ++
    n.messages.typeName h.method.output ++ ">,"

def constructionLines (n : ModuleNames) (h : Handle) : List String :=
  ["  let " ++ h.field ++ ": " ++ handleType n h.method ++ ";",
    "  try \x7b",
    "    " ++ h.field ++ " = " ++ n.runtime.newCacheManager ++ "<" ++
      n.messages.typeName h.method.input ++ ", " ++ n.messages.typeName h.method.output ++ ">(",
    "      " ++ Text.quote h.cacheName ++ ",",
    "      () => " ++ n.runtime.create ++ "(" ++ n.messages.schemaName h.method.output ++ "),",
    "      " ++ h.updateParam ++ ",",
    "      ...options,",
    "    );",
    "  \x7d catch (err) \x7b",
    "    throw new Error(`creating cache manager " ++ h.method.name ++
      ": $\x7berr instanceof Error ? err.message : String(err)\x7d`, \x7b cause: err \x7d);",
    "  \x7d",
    ""]

/-- The return of the manager, its handles in the order of the class. -/
def returnLines (p : ManagerPlan) : List String :=
  if p.handles.isEmpty then ["  return new " ++ p.managerName ++ "();"]
  else
    ["  return new " ++ p.managerName ++ "("] ++
      p.handles.map (fun h => "    " ++ h.field ++ ",") ++ ["  );"]

def constructorLines (n : ModuleNames) (p : ManagerPlan) : List String :=
  docLines "" p.constructorDoc ++
    ["export function " ++ p.constructorName ++ "("] ++
    p.handles.map (updateParamLine n) ++
    ["  ...options: " ++ n.runtime.cacheOption ++ "[]", "): " ++ p.managerName ++ " \x7b"] ++
    p.handles.flatMap (constructionLines n) ++
    returnLines p ++
    ["\x7d", ""]

def managerLines (n : ModuleNames) (p : ManagerPlan) : List String :=
  classLines n p ++ constructorLines n p

/-! ## The module -/

def headLines (f : SourceFile) : List String :=
  [generatedHeader,
    "// @generated from file " ++ f.name ++ " (package " ++
      (if f.package = "" then "(none)" else f.package) ++ ")",
    "/* eslint-disable */",
    ""]

/-- The names of the module generated for `f`, with module names as seen from there. -/
def names (base : Location) (f : SourceFile) (plans : List ManagerPlan) (c : Config) :
    ModuleNames :=
  .ofPlans (fun file => messageModule base (fileName f) file c.importExtension) plans

def lines (base : Location) (f : SourceFile) (plans : List ManagerPlan) (c : Config) :
    List String :=
  let n := names base f plans c
  headLines f ++ (imports n c.tsRuntimeModule).map Import.line ++ [""] ++
    plans.flatMap (managerLines n)

end CacheGen.TypeScript
