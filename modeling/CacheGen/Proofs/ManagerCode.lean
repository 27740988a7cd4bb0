import CacheGen.Proofs.Lists
import CacheGen.Target

/-!
# Managers as code

The lines of a manager declare fields, parameters and variables and refer to them by name. Here they
are read as *code*: what is declared, and which name stands where, in the order of the lines.

Both targets have the same code up to two things. They spell messages differently (`Spelling`), and
they fill the fields of the new manager differently: a Go literal names the field of each variable,
a TypeScript call passes the variables by position. So `ManagerCode` leaves the *filling* open.

Main results: `Go.print_code` and `TypeScript.print_code`, that the lines are those of the code.
-/

namespace CacheGen

/-! ## Code -/

/-- How a target writes the type of a message, and the function that makes an empty one. -/
structure Spelling where
  type : MessageRef → String
  zero : MessageRef → String

/-- A declared name with the messages of the handle it is for. -/
structure Slot where
  name : String
  input : String
  output : String
  deriving DecidableEq, Repr

/-- A handle that is constructed and held in a variable. -/
structure Construction where
  holder : String
  input : String
  output : String
  cacheName : String
  zero : String
  updateParam : String
  /-- The method that errors name. -/
  method : String
  deriving DecidableEq, Repr

/-- A wrapper: a function of the manager that hands its input on to the handle in a field. -/
structure Accessor where
  access : Access
  name : String
  input : String
  output : String
  field : String
  doc : Option Doc
  deriving DecidableEq, Repr

structure ManagerCode (φ : Type) where
  managerName : String
  constructorName : String
  typeDoc : Option Doc
  constructorDoc : Option Doc
  fields : List Slot
  params : List Slot
  constructions : List Construction
  filling : φ
  accessors : List Accessor

/-! ## The code of a plan -/

section

variable (sp : Spelling)

def Slot.ofField (h : Handle) : Slot := ⟨h.field, sp.type h.method.input, sp.type h.method.output⟩

def Slot.ofParam (h : Handle) : Slot :=
  ⟨h.updateParam, sp.type h.method.input, sp.type h.method.output⟩

def Construction.ofHandle (h : Handle) : Construction :=
  { holder := h.field
    input := sp.type h.method.input
    output := sp.type h.method.output
    cacheName := h.cacheName
    zero := sp.zero h.method.output
    updateParam := h.updateParam
    method := h.method.name }

def Accessor.ofWrapper (w : Wrapper) : Accessor :=
  { access := w.access
    name := w.name
    input := sp.type w.method.input
    output := sp.type w.method.output
    field := w.field
    doc := w.doc }

def ManagerCode.ofPlan {φ : Type} (fill : List Handle → φ) (p : ManagerPlan) : ManagerCode φ :=
  { managerName := p.managerName
    constructorName := p.constructorName
    typeDoc := p.typeDoc
    constructorDoc := p.constructorDoc
    fields := p.handles.map (Slot.ofField sp)
    params := p.handles.map (Slot.ofParam sp)
    constructions := p.handles.map (Construction.ofHandle sp)
    filling := fill p.handles
    accessors := p.wrappers.map (Accessor.ofWrapper sp) }

namespace ManagerCode

variable {φ : Type} (fill : List Handle → φ) (p : ManagerPlan)

@[simp] theorem map_name_fields : (ofPlan sp fill p).fields.map Slot.name =
    p.handles.map Handle.field := by
  rw [ofPlan, List.map_map]
  rfl

@[simp] theorem map_name_params : (ofPlan sp fill p).params.map Slot.name =
    p.handles.map Handle.updateParam := by
  rw [ofPlan, List.map_map]
  rfl

@[simp] theorem map_holder_constructions : (ofPlan sp fill p).constructions.map
    Construction.holder = p.handles.map Handle.field := by
  rw [ofPlan, List.map_map]
  rfl

@[simp] theorem map_name_accessors : (ofPlan sp fill p).accessors.map Accessor.name =
    p.wrappers.map Wrapper.name := by
  rw [ofPlan, List.map_map]
  rfl

end ManagerCode

end

/-! ## Go -/

namespace Go

def spelling : Spelling where
  type r := "*" ++ r.localName
  zero r := "func() *" ++ r.localName ++ " \x7b return &" ++ r.localName ++ "\x7b\x7d \x7d"

/-- Fields with the variables they are set to. -/
abbrev Literal := List (String × String)

def code (p : ManagerPlan) : ManagerCode Literal :=
  .ofPlan spelling (·.map fun h => (h.field, h.field)) p

def printField (s : Slot) : String :=
  "\t" ++ s.name ++ " *" ++ runtimePackage ++ ".CacheManager[" ++ s.input ++ ", " ++ s.output ++ "]"

def printParam (s : Slot) : String :=
  "\t" ++ s.name ++ " func(context.Context, " ++ s.input ++ ") (" ++ s.output ++ ", error),"

def printConstruction (k : Construction) : List String :=
  ["\t" ++ k.holder ++ ", err := " ++ runtimePackage ++ ".NewCacheManager[" ++ k.input ++ ", " ++
      k.output ++ "](",
    "\t\t" ++ Text.quote k.cacheName ++ ",",
    "\t\t" ++ k.zero ++ ",",
    "\t\t" ++ k.updateParam ++ ",",
    "\t\toptions...,",
    "\t)",
    "\tif err != nil \x7b",
    "\t\treturn nil, fmt.Errorf(\"creating cache manager %s: %w\", " ++ Text.quote k.method ++
      ", err)",
    "\t\x7d",
    ""]

def printAccessor (manager : String) (a : Accessor) : List String :=
  docLines a.doc ++
    ["func (cm *" ++ manager ++ ") " ++ a.name ++ "(",
      "\tctx context.Context,",
      "\tinput " ++ a.input ++ ",",
      ") (" ++ a.output ++ ", error) \x7b",
      "\treturn cm." ++ a.field ++ "." ++ accessName a.access ++ "(ctx, input)",
      "\x7d",
      ""]

def print (k : ManagerCode Literal) : List String :=
  docLines k.typeDoc ++ ["type " ++ k.managerName ++ " struct \x7b"] ++ k.fields.map printField ++
    ["\x7d", ""] ++
    docLines k.constructorDoc ++ ["func " ++ k.constructorName ++ "("] ++
    k.params.map printParam ++
    ["\toptions ..." ++ runtimePackage ++ ".CacheOption,",
      ") (*" ++ k.managerName ++ ", error) \x7b"] ++
    k.constructions.flatMap printConstruction ++
    ["\treturn &" ++ k.managerName ++ "\x7b"] ++
    k.filling.map (fun e => "\t\t" ++ e.1 ++ ": " ++ e.2 ++ ",") ++ ["\t\x7d, nil", "\x7d", ""] ++
    k.accessors.flatMap (printAccessor k.managerName)

theorem printField_ofField (h : Handle) :
    printField (.ofField spelling h) = "\t" ++ h.field ++ " " ++ handleType h.method := by
  simp [printField, Slot.ofField, spelling, handleType, ← String.toList_inj]

theorem printParam_ofParam (h : Handle) : printParam (.ofParam spelling h) = updateParamLine h := by
  simp [printParam, Slot.ofParam, spelling, updateParamLine, ← String.toList_inj]

theorem printConstruction_ofHandle (h : Handle) :
    printConstruction (.ofHandle spelling h) = constructionLines h := by
  simp [printConstruction, Construction.ofHandle, spelling, constructionLines,
    ← String.toList_inj]

theorem printAccessor_ofWrapper (p : ManagerPlan) (w : Wrapper) :
    printAccessor p.managerName (.ofWrapper spelling w) = wrapperLines p w := by
  simp [printAccessor, Accessor.ofWrapper, spelling, wrapperLines, ← String.toList_inj]

theorem print_code (p : ManagerPlan) : print (code p) = managerLines p := by
  simp [print, code, ManagerCode.ofPlan, managerLines, typeLines, constructorLines,
    List.flatMap_map, Function.comp_def, printField_ofField, printParam_ofParam,
    printConstruction_ofHandle, printAccessor_ofWrapper]

end Go

/-! ## TypeScript -/

namespace TypeScript

def spelling (n : ModuleNames) : Spelling where
  type := n.messages.typeName
  zero r := "() => " ++ n.runtime.create ++ "(" ++ n.messages.schemaName r ++ ")"

/-- The variables in the order they are passed in. -/
abbrev Arguments := List String

def code (n : ModuleNames) (p : ManagerPlan) : ManagerCode Arguments :=
  .ofPlan (spelling n) (·.map Handle.field) p

section

variable (rt : RuntimeNames)

def printHandleType (input output : String) : String :=
  rt.cacheManager ++ "<" ++ input ++ ", " ++ output ++ ">"

def printField (s : Slot) : String :=
  "    private readonly " ++ s.name ++ ": " ++ printHandleType rt s.input s.output ++ ","

def printParam (s : Slot) : String :=
  "  " ++ s.name ++ ": (ctx: " ++ rt.context ++ ", input: " ++ s.input ++ ") => Promise<" ++
    s.output ++ ">,"

def printConstruction (k : Construction) : List String :=
  ["  let " ++ k.holder ++ ": " ++ printHandleType rt k.input k.output ++ ";",
    "  try \x7b",
    "    " ++ k.holder ++ " = " ++ rt.newCacheManager ++ "<" ++ k.input ++ ", " ++ k.output ++ ">(",
    "      " ++ Text.quote k.cacheName ++ ",",
    "      " ++ k.zero ++ ",",
    "      " ++ k.updateParam ++ ",",
    "      ...options,",
    "    );",
    "  \x7d catch (err) \x7b",
    "    throw new Error(`creating cache manager " ++ k.method ++
      ": $\x7berr instanceof Error ? err.message : String(err)\x7d`, \x7b cause: err \x7d);",
    "  \x7d",
    ""]

def printAccessor (a : Accessor) : List String :=
  [""] ++ docLines "  " a.doc ++
    ["  " ++ a.name ++ "(ctx: " ++ rt.context ++ ", input: " ++ a.input ++ "): Promise<" ++
        a.output ++ "> \x7b",
      "    return this." ++ a.field ++ "." ++ accessName a.access ++ "(ctx, input);",
      "  \x7d"]

def printReturn (manager : String) (arguments : Arguments) : List String :=
  if arguments.isEmpty then ["  return new " ++ manager ++ "();"]
  else
    ["  return new " ++ manager ++ "("] ++ arguments.map (fun a => "    " ++ a ++ ",") ++ ["  );"]

def print (k : ManagerCode Arguments) : List String :=
  docLines "" k.typeDoc ++
    ["export class " ++ k.managerName ++ " \x7b", "  constructor("] ++
    k.fields.map (printField rt) ++ ["  ) \x7b\x7d"] ++
    k.accessors.flatMap (printAccessor rt) ++ ["\x7d", ""] ++
    docLines "" k.constructorDoc ++ ["export function " ++ k.constructorName ++ "("] ++
    k.params.map (printParam rt) ++
    ["  ...options: " ++ rt.cacheOption ++ "[]", "): " ++ k.managerName ++ " \x7b"] ++
    k.constructions.flatMap (printConstruction rt) ++
    printReturn k.managerName k.filling ++ ["\x7d", ""]

end

section

variable (n : ModuleNames)

theorem printField_ofField (h : Handle) :
    printField n.runtime (.ofField (spelling n) h) =
      "    private readonly " ++ h.field ++ ": " ++ handleType n h.method ++ "," := rfl

theorem printParam_ofParam (h : Handle) :
    printParam n.runtime (.ofParam (spelling n) h) = updateParamLine n h := rfl

theorem printConstruction_ofHandle (h : Handle) :
    printConstruction n.runtime (.ofHandle (spelling n) h) = constructionLines n h := by
  simp [printConstruction, printHandleType, Construction.ofHandle, spelling, constructionLines,
    handleType, ← String.toList_inj]

theorem printAccessor_ofWrapper (w : Wrapper) :
    printAccessor n.runtime (.ofWrapper (spelling n) w) = wrapperLines n w := rfl

theorem printReturn_code (p : ManagerPlan) :
    printReturn p.managerName (p.handles.map Handle.field) = returnLines p := by
  simp [printReturn, returnLines, Function.comp_def]

theorem print_code (p : ManagerPlan) : print n.runtime (code n p) = managerLines n p := by
  simp [print, code, ManagerCode.ofPlan, managerLines, classLines, constructorLines,
    List.flatMap_map, Function.comp_def, printField_ofField, printParam_ofParam,
    printConstruction_ofHandle, printAccessor_ofWrapper, printReturn_code]

end

end TypeScript

end CacheGen
