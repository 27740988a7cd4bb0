import CacheGen.Config.Basic
import CacheGen.Naming.GoName
import CacheGen.Path
import CacheGen.Plan
import CacheGen.Target.Header
import CacheGen.Text.Quoted

/-!
# Go output

One file per source file: for each manager a struct that holds the handles, a constructor function
and the methods that wrap them. Messages are those of the same Go package, so nothing is imported
but the runtime and the standard library. Names are those that the Go code of the messages uses.
-/

namespace CacheGen.Go

/-! ## Names -/

def renameRef (r : MessageRef) : MessageRef :=
  { r with localName := Naming.goName r.scopedName }

def renameMethod (m : Method) : Method :=
  { m with
    name := Naming.goName m.name
    parent := Naming.goName m.parent
    input := renameRef m.input
    output := renameRef m.output }

def renameService (s : Service) : Service :=
  { s with name := Naming.goName s.name, methods := s.methods.map renameMethod }

/-- The output name before a module is stripped. -/
def plainFileName (f : SourceFile) (layout : GoLayout) : String :=
  match layout with
  | .importPath => Path.join [f.goImportPath, Path.basename f.stem] ++ "_cache_manager.pb.go"
  | .sourceRelative => f.stem ++ "_cache_manager.pb.go"

def fileName (f : SourceFile) (c : Config) : Except GenError String :=
  let name := plainFileName f c.goLayout
  if c.goModule = "" ∨ c.goLayout ≠ .importPath then .ok name
  else
    match Text.dropStart? (c.goModule ++ "/") name with
    | some rest => .ok rest
    | none => .error (.moduleMismatch name c.goModule)

/-! ## Docs -/

def docLines : Option Doc → List String
  | none => []
  | some doc => doc.map ("//" ++ ·)

/-! ## Managers -/

/-- The name the runtime package is imported under. -/
def runtimePackage : String := "gocachemanager"

def handleType (m : Method) : String :=
  "*" ++ runtimePackage ++ ".CacheManager[*" ++ m.input.localName ++ ", *" ++
    m.output.localName ++ "]"

def typeLines (p : ManagerPlan) : List String :=
  docLines p.typeDoc ++
    ["type " ++ p.managerName ++ " struct \x7b"] ++
    p.handles.map (fun h => "\t" ++ h.field ++ " " ++ handleType h.method) ++
    ["\x7d", ""]

def updateParamLine (h : Handle) : String :=
  "\t" ++ h.updateParam ++ " func(context.Context, *" ++ h.method.input.localName ++ ") (*" ++
    h.method.output.localName ++ ", error),"

def constructionLines (h : Handle) : List String :=
  let output := h.method.output.localName
  ["\t" ++ h.field ++ ", err := " ++ runtimePackage ++ ".NewCacheManager[*" ++
      h.method.input.localName ++ ", *" ++ output ++ "](",
    "\t\t" ++ Text.quote h.cacheName ++ ",",
    "\t\tfunc() *" ++ output ++ " \x7b return &" ++ output ++ "\x7b\x7d \x7d,",
    "\t\t" ++ h.updateParam ++ ",",
    "\t\toptions...,",
    "\t)",
    "\tif err != nil \x7b",
    "\t\treturn nil, fmt.Errorf(\"creating cache manager %s: %w\", " ++
      Text.quote h.method.name ++ ", err)",
    "\t\x7d",
    ""]

def constructorLines (p : ManagerPlan) : List String :=
  docLines p.constructorDoc ++
    ["func " ++ p.constructorName ++ "("] ++
    p.handles.map updateParamLine ++
    ["\toptions ..." ++ runtimePackage ++ ".CacheOption,",
      ") (*" ++ p.managerName ++ ", error) \x7b"] ++
    p.handles.flatMap constructionLines ++
    ["\treturn &" ++ p.managerName ++ "\x7b"] ++
    p.handles.map (fun h => "\t\t" ++ h.field ++ ": " ++ h.field ++ ",") ++
    ["\t\x7d, nil", "\x7d", ""]

def accessName : Access → String
  | .get => "Get"
  | .refresh => "Refresh"

def wrapperLines (p : ManagerPlan) (w : Wrapper) : List String :=
  docLines w.doc ++
    ["func (cm *" ++ p.managerName ++ ") " ++ w.name ++ "(",
      "\tctx context.Context,",
      "\tinput *" ++ w.method.input.localName ++ ",",
      ") (*" ++ w.method.output.localName ++ ", error) \x7b",
      "\treturn cm." ++ w.field ++ "." ++ accessName w.access ++ "(ctx, input)",
      "\x7d",
      ""]

def managerLines (p : ManagerPlan) : List String :=
  typeLines p ++ constructorLines p ++ p.wrappers.flatMap (wrapperLines p)

/-! ## The file -/

def headLines (f : SourceFile) (c : Config) : List String :=
  [generatedHeader,
    "// source: " ++ f.name,
    "",
    "package " ++ f.goPackageName,
    "",
    "import (",
    "\t\"context\"",
    "\t\"fmt\"",
    "",
    "\t" ++ runtimePackage ++ " \"" ++ c.goRuntimeImport ++ "\"",
    ")",
    ""]

/-- Only methods use `context` and `fmt`, so without one both are referred to here. -/
def unusedImportLines : List String :=
  ["// Reference imports to suppress errors if they are not otherwise used.",
    "var _ = context.Background",
    "var _ = fmt.Errorf",
    ""]

def lines (f : SourceFile) (plans : List ManagerPlan) (c : Config) : List String :=
  headLines f c ++
    (if plans.all fun p => p.handles.isEmpty then unusedImportLines else []) ++
    plans.flatMap managerLines

end CacheGen.Go
