import CacheGen.Proofs.Imports

/-!
# Message names in declarations

The lines of a manager are a *pattern*: pieces of text with holes for the names of message types and
schemas. A pattern is made without the names of messages, so those stand in its holes and nowhere
else, and the text of the manager is its pattern with the holes filled in.

Main results: `print_managerPattern`, and the holes of a plan made from a service.
-/

namespace CacheGen.TypeScript

/-! ## Patterns -/

/-- A piece of a line: text, or a hole for a name. -/
inductive Piece where
  | text (s : String)
  | type (r : MessageRef)
  | schema (r : MessageRef)
  deriving DecidableEq, Repr

/-- The piece with its hole filled in. -/
def Piece.print (b : MessageBindings) : Piece → String
  | text s => s
  | type r => b.typeName r
  | schema r => b.schemaName r

abbrev Pattern := List Piece

def Pattern.print (b : MessageBindings) : Pattern → String
  | [] => ""
  | p :: ps => p.print b ++ Pattern.print b ps

/-- Lines without holes. -/
def plain (ls : List String) : List Pattern := ls.map fun l => [.text l]

def handleTypePattern (rt : RuntimeNames) (m : Method) : Pattern :=
  [.text (rt.cacheManager ++ "<"), .type m.input, .text ", ", .type m.output, .text ">"]

def wrapperPattern (rt : RuntimeNames) (w : Wrapper) : List Pattern :=
  plain ([""] ++ docLines "  " w.doc) ++
    [[.text ("  " ++ w.name ++ "(ctx: " ++ rt.context ++ ", input: "), .type w.method.input,
      .text "): Promise<", .type w.method.output, .text "> \x7b"]] ++
    plain ["    return this." ++ w.field ++ "." ++ accessName w.access ++ "(ctx, input);", "  \x7d"]

def classPattern (rt : RuntimeNames) (p : ManagerPlan) : List Pattern :=
  plain (docLines "" p.typeDoc ++
      ["export class " ++ p.managerName ++ " \x7b", "  constructor("]) ++
    p.handles.map (fun h =>
      .text ("    private readonly " ++ h.field ++ ": ") :: handleTypePattern rt h.method ++
        [.text ","]) ++
    plain ["  ) \x7b\x7d"] ++ p.wrappers.flatMap (wrapperPattern rt) ++ plain ["\x7d", ""]

def updateParamPattern (rt : RuntimeNames) (h : Handle) : Pattern :=
  [.text ("  " ++ h.updateParam ++ ": (ctx: " ++ rt.context ++ ", input: "), .type h.method.input,
    .text ") => Promise<", .type h.method.output, .text ">,"]

def constructionPattern (rt : RuntimeNames) (h : Handle) : List Pattern :=
  [.text ("  let " ++ h.field ++ ": ") :: handleTypePattern rt h.method ++ [.text ";"],
    [.text "  try \x7b"],
    [.text ("    " ++ h.field ++ " = " ++ rt.newCacheManager ++ "<"), .type h.method.input,
      .text ", ", .type h.method.output, .text ">("],
    [.text ("      " ++ Text.quote h.cacheName ++ ",")],
    [.text ("      () => " ++ rt.create ++ "("), .schema h.method.output, .text "),"]] ++
    plain ["      " ++ h.updateParam ++ ",",
      "      ...options,",
      "    );",
      "  \x7d catch (err) \x7b",
      "    throw new Error(`creating cache manager " ++ h.method.name ++
        ": $\x7berr instanceof Error ? err.message : String(err)\x7d`, \x7b cause: err \x7d);",
      "  \x7d",
      ""]

def constructorPattern (rt : RuntimeNames) (p : ManagerPlan) : List Pattern :=
  plain (docLines "" p.constructorDoc ++ ["export function " ++ p.constructorName ++ "("]) ++
    p.handles.map (updateParamPattern rt) ++
    plain ["  ...options: " ++ rt.cacheOption ++ "[]", "): " ++ p.managerName ++ " \x7b"] ++
    p.handles.flatMap (constructionPattern rt) ++
    plain (returnLines p ++ ["\x7d", ""])

def managerPattern (rt : RuntimeNames) (p : ManagerPlan) : List Pattern :=
  classPattern rt p ++ constructorPattern rt p

/-! ## The text is its pattern, filled in -/

theorem print_append (b : MessageBindings) (ps qs : Pattern) :
    Pattern.print b (ps ++ qs) = Pattern.print b ps ++ Pattern.print b qs := by
  induction ps with
  | nil => simp [Pattern.print]
  | cons p ps ih => rw [List.cons_append, Pattern.print, ih, Pattern.print, String.append_assoc]

theorem print_plain (b : MessageBindings) (ls : List String) :
    (plain ls).map (Pattern.print b) = ls := by
  rw [plain, List.map_map]
  exact (List.map_congr_left fun l _ => by simp [Pattern.print, Piece.print]).trans (List.map_id ls)

theorem print_handleTypePattern (n : ModuleNames) (m : Method) :
    Pattern.print n.messages (handleTypePattern n.runtime m) = handleType n m := by
  simp [handleTypePattern, handleType, Pattern.print, Piece.print, String.append_assoc]

theorem print_wrapperPattern (n : ModuleNames) (w : Wrapper) :
    (wrapperPattern n.runtime w).map (Pattern.print n.messages) = wrapperLines n w := by
  simp [wrapperPattern, wrapperLines, print_plain, Pattern.print, Piece.print, String.append_assoc]

theorem print_classPattern (n : ModuleNames) (p : ManagerPlan) :
    (classPattern n.runtime p).map (Pattern.print n.messages) = classLines n p := by
  simp [classPattern, classLines, print_plain, print_append, Pattern.print, Piece.print,
    print_handleTypePattern, List.map_flatMap, print_wrapperPattern, Function.comp_def,
    String.append_assoc]

theorem print_updateParamPattern (n : ModuleNames) (h : Handle) :
    Pattern.print n.messages (updateParamPattern n.runtime h) = updateParamLine n h := by
  simp [updateParamPattern, updateParamLine, Pattern.print, Piece.print, String.append_assoc]

theorem print_constructionPattern (n : ModuleNames) (h : Handle) :
    (constructionPattern n.runtime h).map (Pattern.print n.messages) = constructionLines n h := by
  simp [constructionPattern, constructionLines, print_plain, print_append, Pattern.print,
    Piece.print, print_handleTypePattern, String.append_assoc]

theorem print_constructorPattern (n : ModuleNames) (p : ManagerPlan) :
    (constructorPattern n.runtime p).map (Pattern.print n.messages) = constructorLines n p := by
  simp [constructorPattern, constructorLines, print_plain, print_updateParamPattern,
    List.map_flatMap, print_constructionPattern, Function.comp_def]

theorem print_managerPattern (n : ModuleNames) (p : ManagerPlan) :
    (managerPattern n.runtime p).map (Pattern.print n.messages) = managerLines n p := by
  rw [managerPattern, List.map_append, print_classPattern, print_constructorPattern, managerLines]

/-! ## Holes -/

def Piece.isHole : Piece → Bool
  | text _ => false
  | type _ => true
  | schema _ => true

/-- The holes of `ls`, in the order of the text. -/
def holes (ls : List Pattern) : List Piece := ls.flatMap (·.filter Piece.isHole)

/-- The holes that name the types of a method. -/
def typeHoles (m : Method) : List Piece := m.refs.map .type

/-- The holes of the construction of a handle: its types twice, then what it creates. -/
def constructionHoles (m : Method) : List Piece := typeHoles m ++ typeHoles m ++ [.schema m.output]

theorem holes_append (ls ls' : List Pattern) : holes (ls ++ ls') = holes ls ++ holes ls' :=
  List.flatMap_append

theorem holes_plain (ls : List String) : holes (plain ls) = [] := by
  simp [holes, plain, List.flatMap_map, List.filter, Piece.isHole]

theorem holes_classPattern (rt : RuntimeNames) (p : ManagerPlan) :
    holes (classPattern rt p) =
      p.handles.flatMap (fun h => typeHoles h.method) ++
        p.wrappers.flatMap fun w => typeHoles w.method := by
  have hfields : holes (p.handles.map fun h =>
      .text ("    private readonly " ++ h.field ++ ": ") :: handleTypePattern rt h.method ++
        [.text ","]) = p.handles.flatMap fun h => typeHoles h.method := by
    rw [holes, List.flatMap_map]
    exact List.flatMap_congr fun h _ => rfl
  have hwrappers : holes (p.wrappers.flatMap (wrapperPattern rt)) =
      p.wrappers.flatMap fun w => typeHoles w.method := by
    rw [holes, List.flatMap_assoc]
    refine List.flatMap_congr fun w _ => ?_
    show holes (wrapperPattern rt w) = _
    rw [wrapperPattern, holes_append, holes_append, holes_plain, holes_plain, List.append_nil]
    rfl
  rw [classPattern, holes_append, holes_append, holes_append, holes_append, hfields, hwrappers]
  simp only [holes_plain, List.nil_append, List.append_nil]

theorem holes_constructorPattern (rt : RuntimeNames) (p : ManagerPlan) :
    holes (constructorPattern rt p) =
      p.handles.flatMap (fun h => typeHoles h.method) ++
        p.handles.flatMap fun h => constructionHoles h.method := by
  have hparams : holes (p.handles.map (updateParamPattern rt)) =
      p.handles.flatMap fun h => typeHoles h.method := by
    rw [holes, List.flatMap_map]
    exact List.flatMap_congr fun h _ => rfl
  have hconstructions : holes (p.handles.flatMap (constructionPattern rt)) =
      p.handles.flatMap fun h => constructionHoles h.method := by
    rw [holes, List.flatMap_assoc]
    refine List.flatMap_congr fun h _ => ?_
    show holes (constructionPattern rt h) = _
    rw [constructionPattern, holes_append, holes_plain, List.append_nil]
    rfl
  rw [constructorPattern, holes_append, holes_append, holes_append, holes_append, hparams,
    hconstructions]
  simp only [holes_plain, List.nil_append, List.append_nil]

end CacheGen.TypeScript

namespace CacheGen

/-! ## Plans of services -/

/-- The references of a service, in the order of its methods. -/
def Service.refs (s : Service) : List MessageRef := s.methods.flatMap Method.refs

/-- What the methods of a service return. -/
def Service.outputs (s : Service) : List MessageRef := s.methods.map (·.output)

theorem Service.outputs_subset_refs (s : Service) : s.outputs ⊆ s.refs := by
  intro r hr
  obtain ⟨m, hm, rfl⟩ := List.mem_map.1 hr
  exact List.mem_flatMap.2 ⟨m, hm, by simp [Method.refs]⟩

theorem ManagerPlan.flatMap_handles_ofService {α : Type} (s : Service) (g : Method → List α) :
    (ManagerPlan.ofService s).handles.flatMap (fun h => g h.method) = s.methods.flatMap g := by
  rw [ManagerPlan.ofService, List.flatMap_map]
  exact List.flatMap_congr fun m _ => rfl

theorem ManagerPlan.flatMap_wrappers_ofService {α : Type} (s : Service) (g : Method → List α) :
    (ManagerPlan.ofService s).wrappers.flatMap (fun w => g w.method) =
      s.methods.flatMap fun m => g m ++ g m := by
  rw [ManagerPlan.wrappers, ManagerPlan.ofService, List.flatMap_map, List.flatMap_assoc]
  refine List.flatMap_congr fun m _ => ?_
  simp [Handle.wrappers, Handle.ofMethod]

theorem refs_ofServices (services : List Service) :
    ((services.map ManagerPlan.ofService).flatMap (·.handles)).flatMap (·.method.refs) =
      services.flatMap Service.refs := by
  rw [List.flatMap_map, List.flatMap_assoc]
  exact List.flatMap_congr fun s _ => ManagerPlan.flatMap_handles_ofService s Method.refs

theorem outputs_ofServices (services : List Service) :
    ((services.map ManagerPlan.ofService).flatMap (·.handles)).map (·.method.output) =
      services.flatMap Service.outputs := by
  rw [List.flatMap_map, List.map_flatMap]
  refine List.flatMap_congr fun s _ => ?_
  rw [ManagerPlan.ofService, List.map_map]
  rfl

namespace TypeScript

theorem holes_ofService (rt : RuntimeNames) (s : Service) :
    holes (managerPattern rt (ManagerPlan.ofService s)) =
      s.methods.flatMap typeHoles ++ s.methods.flatMap (fun m => typeHoles m ++ typeHoles m) ++
        (s.methods.flatMap typeHoles ++ s.methods.flatMap constructionHoles) := by
  rw [managerPattern, holes_append, holes_classPattern, holes_constructorPattern,
    ManagerPlan.flatMap_handles_ofService s typeHoles,
    ManagerPlan.flatMap_wrappers_ofService s typeHoles,
    ManagerPlan.flatMap_handles_ofService s constructionHoles]

theorem type_mem_holes_ofService {rt : RuntimeNames} {s : Service} {r : MessageRef} :
    Piece.type r ∈ holes (managerPattern rt (ManagerPlan.ofService s)) ↔ r ∈ s.refs := by
  simp [holes_ofService, constructionHoles, typeHoles, Service.refs]

theorem schema_mem_holes_ofService {rt : RuntimeNames} {s : Service} {r : MessageRef} :
    Piece.schema r ∈ holes (managerPattern rt (ManagerPlan.ofService s)) ↔ r ∈ s.outputs := by
  simp [holes_ofService, constructionHoles, typeHoles, Service.outputs, eq_comm]

/-- The declarations of a module made from `services`. -/
def declarations (rt : RuntimeNames) (services : List Service) : List Pattern :=
  (services.map ManagerPlan.ofService).flatMap (managerPattern rt)

theorem mem_holes_declarations {rt : RuntimeNames} {services : List Service} {p : Piece} :
    p ∈ holes (declarations rt services) ↔
      ∃ s ∈ services, p ∈ holes (managerPattern rt (ManagerPlan.ofService s)) := by
  rw [holes, declarations, List.flatMap_map, List.flatMap_assoc, List.mem_flatMap]
  rfl

theorem type_mem_holes {rt : RuntimeNames} {services : List Service} {r : MessageRef} :
    Piece.type r ∈ holes (declarations rt services) ↔ r ∈ services.flatMap Service.refs := by
  simp only [mem_holes_declarations, type_mem_holes_ofService, List.mem_flatMap]

theorem schema_mem_holes {rt : RuntimeNames} {services : List Service} {r : MessageRef} :
    Piece.schema r ∈ holes (declarations rt services) ↔ r ∈ services.flatMap Service.outputs := by
  simp only [mem_holes_declarations, schema_mem_holes_ofService, List.mem_flatMap]

theorem print_declarations (n : ModuleNames) (services : List Service) :
    (declarations n.runtime services).map (Pattern.print n.messages) =
      (services.map ManagerPlan.ofService).flatMap (managerLines n) := by
  rw [declarations, List.map_flatMap]
  exact List.flatMap_congr fun p _ => print_managerPattern n p

end TypeScript

end CacheGen
