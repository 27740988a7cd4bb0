import CacheGen.Proofs.DocBlock
import CacheGen.Proofs.Joined
import CacheGen.Proofs.LineKinds
import CacheGen.Proofs.OutputPlace
import CacheGen.Proofs.PrintableNames

/-!
# The declarations in a file

In the text of a generated file, the lines that look like declarations are those of the candidates:
for each its manager, its constructor, and for each of its methods a getter and a refresher. No
comment brings in others, since its lines stand behind a comment marker, and no name does, since
what a line begins with is fixed.

The blocks of a file are gone through in the order in which they are written: for either target the
lines around a handle, the lines of a manager, and the head of the file.

Main result: `declared_lines_eq`.
-/

namespace CacheGen

open Text (OneLine)

/-! ## Go -/

namespace Go

/-- The lines that declare what `s` is served by. -/
def declaredLines (s : Service) : Declaration → List String
  | .manager => ["type " ++ Naming.managerName s.name ++ " struct \x7b"]
  | .constructor => ["func " ++ Naming.constructorName (Naming.managerName s.name) ++ "("]
  | .wrapper => s.methods.flatMap fun m =>
    [Naming.getterName m.name, Naming.refresherName m.name].map fun name =>
      "func (cm *" ++ Naming.managerName s.name ++ ") " ++ name ++ "("

theorem isInner_docLines {doc : Option Doc} (h : ∀ d ∈ doc, d.IsPrintable) :
    ∀ l ∈ docLines doc, Target.go.IsInner l := by
  intro l hl
  cases doc with
  | none => cases hl
  | some d =>
    obtain ⟨body, hbody, rfl⟩ := List.mem_map.1 hl
    exact Target.isInner_append (by decide) (h d rfl body hbody)

section

variable {p : ManagerPlan} {h : Handle} {w : Wrapper}

theorem isInner_fieldLine (hh : h.IsPrintable) :
    Target.go.IsInner ("\t" ++ h.field ++ " " ++ handleType h.method) := by
  simp +decide [handleType, String.append_assoc, runtimePackage, Target.isInner_append, hh.field,
    hh.method.input, hh.method.output]

theorem isInner_updateParamLine (hh : h.IsPrintable) : Target.go.IsInner (updateParamLine h) := by
  simp +decide [updateParamLine, String.append_assoc, Target.isInner_append,
    hh.oneLine_updateParam, hh.method.input, hh.method.output]

theorem isInner_constructionLines (hh : h.IsPrintable) :
    ∀ l ∈ constructionLines h, Target.go.IsInner l := by
  simp +decide [constructionLines, String.append_assoc, runtimePackage, Target.isInner_append,
    Text.oneLine_quote, hh.field, hh.oneLine_updateParam, hh.method.input, hh.method.output]

theorem isInner_fillingLine (hh : h.IsPrintable) :
    Target.go.IsInner ("\t\t" ++ h.field ++ ": " ++ h.field ++ ",") := by
  simp +decide [String.append_assoc, Target.isInner_append, hh.field]

theorem shows_typeLines (hp : p.IsPrintable) : Target.go.Shows (typeLines p) fun k =>
    if .manager = k then ["type " ++ p.managerName ++ " struct \x7b"] else [] := by
  have hopen : Target.go.Shows ["type " ++ p.managerName ++ " struct \x7b"] fun k =>
      if .manager = k then ["type " ++ p.managerName ++ " struct \x7b"] else [] :=
    Target.shows_declaration (by decide) (Text.oneLine_append.2 ⟨hp.managerName, by decide⟩)
      String.append_assoc
  have hfields : ∀ l ∈ p.handles.map fun h => "\t" ++ h.field ++ " " ++ handleType h.method,
      Target.go.IsInner l :=
    List.forall_mem_map.2 fun h hh => isInner_fieldLine (hp.handles h hh)
  have hclose : ∀ l ∈ ["\x7d", ""], Target.go.IsInner l := by decide
  exact ((hopen.inner_append (isInner_docLines hp.typeDoc)).append_inner
    hfields).append_inner hclose

theorem shows_constructorLines (hp : p.IsPrintable) : Target.go.Shows (constructorLines p) fun k =>
    if .constructor = k then ["func " ++ p.constructorName ++ "("] else [] := by
  have hopen : Target.go.Shows ["func " ++ p.constructorName ++ "("] fun k =>
      if .constructor = k then ["func " ++ p.constructorName ++ "("] else [] := by
    -- The mark goes into the name of the constructor.
    have hline : "func " ++ p.constructorName ++ "(" = "func New" ++ (p.managerName ++ "(") := by
      simp [hp.constructorName, Naming.constructorName, ← String.toList_inj]
    exact Target.shows_declaration (by decide) (Text.oneLine_append.2 ⟨hp.managerName, by decide⟩)
      hline
  have hparams : ∀ l ∈ p.handles.map updateParamLine, Target.go.IsInner l :=
    List.forall_mem_map.2 fun h hh => isInner_updateParamLine (hp.handles h hh)
  have hoptions : ∀ l ∈ ["\toptions ..." ++ runtimePackage ++ ".CacheOption,",
      ") (*" ++ p.managerName ++ ", error) \x7b"], Target.go.IsInner l := by
    simp +decide [String.append_assoc, runtimePackage, Target.isInner_append, hp.managerName]
  have hconstructions : ∀ l ∈ p.handles.flatMap constructionLines, Target.go.IsInner l :=
    List.forall_mem_flatMap.2 fun h hh => isInner_constructionLines (hp.handles h hh)
  have hreturn : ∀ l ∈ ["\treturn &" ++ p.managerName ++ "\x7b"], Target.go.IsInner l := by
    simp +decide [String.append_assoc, Target.isInner_append, hp.managerName]
  have hfilling : ∀ l ∈ p.handles.map fun h => "\t\t" ++ h.field ++ ": " ++ h.field ++ ",",
      Target.go.IsInner l :=
    List.forall_mem_map.2 fun h hh => isInner_fillingLine (hp.handles h hh)
  have hclose : ∀ l ∈ ["\t\x7d, nil", "\x7d", ""], Target.go.IsInner l := by decide
  exact ((((((hopen.inner_append (isInner_docLines hp.constructorDoc)).append_inner
    hparams).append_inner hoptions).append_inner hconstructions).append_inner hreturn).append_inner
    hfilling).append_inner hclose

/-- The line that declares `w`. -/
def wrapperLine (p : ManagerPlan) (w : Wrapper) : String :=
  "func (cm *" ++ p.managerName ++ ") " ++ w.name ++ "("

theorem shows_wrapperLines (hp : p.IsPrintable) (hw : w.IsPrintable) :
    Target.go.Shows (wrapperLines p w) fun k =>
      if .wrapper = k then [wrapperLine p w] else [] := by
  have hopen : Target.go.Shows [wrapperLine p w] fun k =>
      if .wrapper = k then [wrapperLine p w] else [] := by
    have hline : wrapperLine p w =
        "func (cm *" ++ (p.managerName ++ ") " ++ w.name ++ "(") := by
      simp [wrapperLine, String.append_assoc]
    exact Target.shows_declaration (by decide) (by simp +decide [hp.managerName, hw.oneLine_name])
      hline
  have hbody : ∀ l ∈ ["\tctx context.Context,", "\tinput *" ++ w.method.input.localName ++ ",",
      ") (*" ++ w.method.output.localName ++ ", error) \x7b",
      "\treturn cm." ++ w.field ++ "." ++ accessName w.access ++ "(ctx, input)", "\x7d", ""],
      Target.go.IsInner l := by
    have haccess : OneLine (accessName w.access) := by
      cases w.access <;> decide
    simp +decide [String.append_assoc, Target.isInner_append, hw.field, haccess, hw.method.input,
      hw.method.output]
  exact (hopen.append_inner hbody).inner_append (isInner_docLines hw.doc)

theorem shows_managerLines {s : Service} (hs : s.IsPrintable) :
    Target.go.Shows (managerLines (.ofService s)) (declaredLines s) := by
  have hp := ManagerPlan.isPrintable_ofService hs
  have hwrappers := Target.Shows.flatMap fun w hw => shows_wrapperLines hp (hp.wrappers w hw)
  have hall := ((shows_typeLines hp).append (shows_constructorLines hp)).append hwrappers
  refine hall.congr fun k => ?_
  cases k with
  | manager => simp [declaredLines, ManagerPlan.ofService]
  | constructor => simp [declaredLines, ManagerPlan.ofService]
  | wrapper =>
    simp [declaredLines, ManagerPlan.wrappers, ManagerPlan.ofService, List.flatMap_map,
      List.flatMap_assoc, Handle.wrappers, Handle.ofMethod, wrapperLine]

end

/-! ### The file -/

theorem isInner_headLines {f : SourceFile} {c : Config} (hname : OneLine f.name)
    (hpackage : OneLine f.goPackageName) (hruntime : OneLine c.goRuntimeImport) :
    ∀ l ∈ headLines f c, Target.go.IsInner l := by
  simp +decide [headLines, String.append_assoc, runtimePackage, Target.isInner_append, hname,
    hpackage, hruntime]

theorem shows_lines {f : SourceFile} {c : Config} (hname : OneLine f.name)
    (hpackage : OneLine f.goPackageName) (hruntime : OneLine c.goRuntimeImport)
    {services : List Service} (hs : ∀ s ∈ services, s.IsPrintable) :
    Target.go.Shows (lines f (services.map ManagerPlan.ofService) c) fun k =>
      services.flatMap (declaredLines · k) := by
  have hunused : ∀ l ∈ if (services.map ManagerPlan.ofService).all fun p => p.handles.isEmpty
      then unusedImportLines else [], Target.go.IsInner l := by
    split_ifs
    · decide
    · exact fun l hl => absurd hl List.not_mem_nil
  have hmanagers := Target.Shows.flatMap fun s h => shows_managerLines (hs s h)
  unfold lines
  rw [List.flatMap_map, List.append_assoc]
  exact (hmanagers.inner_append hunused).inner_append (isInner_headLines hname hpackage hruntime)

end Go

/-! ## TypeScript -/

namespace TypeScript

/-- The lines that declare what `s` is served by, in a module with the names `n`. -/
def declaredLines (n : ModuleNames) (s : Service) : Declaration → List String
  | .manager => ["export class " ++ Naming.managerName s.name ++ " \x7b"]
  | .constructor =>
    ["export function " ++ Naming.constructorName (Naming.managerName s.name) ++ "("]
  | .wrapper => s.methods.flatMap fun m =>
    [Naming.getterName m.name, Naming.refresherName m.name].map fun name =>
      "  " ++ name ++ "(ctx: " ++ n.runtime.context ++ ", input: " ++ n.messages.typeName m.input ++
        "): Promise<" ++ n.messages.typeName m.output ++ "> \x7b"

theorem isInner_docLines {indent : String} (hindent : indent = "" ∨ indent = "  ")
    {doc : Option Doc} (h : ∀ d ∈ doc, d.IsPrintable) :
    ∀ l ∈ docLines indent doc, Target.typeScript.IsInner l := by
  cases doc with
  | none => exact fun l hl => absurd hl List.not_mem_nil
  | some d =>
    have hopen : ∀ l ∈ [indent ++ "/**"], Target.typeScript.IsInner l := by
      rcases hindent with rfl | rfl <;> decide
    have hbodies : ∀ body ∈ d, Target.typeScript.IsInner
        (indent ++ " *" ++ String.ofList (guardBody body.toList)) := by
      intro body hbody
      have hguarded : OneLine (String.ofList (guardBody body.toList)) :=
        Text.oneLine_ofList.2 (newline_not_mem_guardBody (h d rfl body hbody))
      rcases hindent with rfl | rfl
      · exact Target.isInner_append (by decide) hguarded
      · exact Target.isInner_append (by decide) hguarded
    have hclose : ∀ l ∈ [indent ++ " */"], Target.typeScript.IsInner l := by
      rcases hindent with rfl | rfl <;> decide
    exact List.forall_mem_append.2
      ⟨List.forall_mem_append.2 ⟨hopen, List.forall_mem_map.2 hbodies⟩, hclose⟩

section

variable {n : ModuleNames} {p : ManagerPlan} {h : Handle} {w : Wrapper}

theorem oneLine_handleType (hn : n.IsPrintable) (hh : h.IsPrintable) :
    OneLine (handleType n h.method) := by
  simp +decide [handleType, hn.runtime.cacheManager, hn.messages.typeName hh.method.input,
    hn.messages.typeName hh.method.output]

theorem isInner_fieldLine (hn : n.IsPrintable) (hh : h.IsPrintable) : Target.typeScript.IsInner
    ("    private readonly " ++ h.field ++ ": " ++ handleType n h.method ++ ",") := by
  simp +decide [String.append_assoc, Target.isInner_append, hh.field, oneLine_handleType hn hh]

theorem isInner_updateParamLine (hn : n.IsPrintable) (hh : h.IsPrintable) :
    Target.typeScript.IsInner (updateParamLine n h) := by
  -- A wrapper has the same indent, so the line is told from one by the word behind that.
  have hparam : h.updateParam = "update" ++ (h.method.name ++ "Fn") := by
    rw [hh.updateParam, Naming.updateParam, String.append_assoc]
  have hline : updateParamLine n h = "  update" ++ (h.method.name ++ ("Fn: (ctx: " ++
      (n.runtime.context ++ (", input: " ++ (n.messages.typeName h.method.input ++
        (") => Promise<" ++ (n.messages.typeName h.method.output ++ ">,"))))))) := by
    simp [updateParamLine, hparam, ← String.toList_inj]
  rw [hline]
  refine Target.isInner_append (by decide) ?_
  simp +decide [hh.method.name, hn.runtime.context, hn.messages.typeName hh.method.input,
    hn.messages.typeName hh.method.output]

theorem isInner_constructionLines (hn : n.IsPrintable) (hh : h.IsPrintable) :
    ∀ l ∈ constructionLines n h, Target.typeScript.IsInner l := by
  simp +decide [constructionLines, String.append_assoc, Target.isInner_append, Text.oneLine_quote,
    oneLine_handleType hn hh, hh.field, hh.oneLine_updateParam, hh.method.name, hn.runtime.create,
    hn.runtime.newCacheManager, hn.messages.typeName hh.method.input,
    hn.messages.typeName hh.method.output, hn.messages.schemaName hh.method.output]

theorem isInner_returnLines (hp : p.IsPrintable) :
    ∀ l ∈ returnLines p, Target.typeScript.IsInner l := by
  unfold returnLines
  split_ifs
  · simp +decide [String.append_assoc, Target.isInner_append, hp.managerName]
  · have hopen : ∀ l ∈ ["  return new " ++ p.managerName ++ "("],
        Target.typeScript.IsInner l := by
      simp +decide [String.append_assoc, Target.isInner_append, hp.managerName]
    have hfields : ∀ h ∈ p.handles, Target.typeScript.IsInner ("    " ++ h.field ++ ",") := by
      intro h hh
      simp +decide [String.append_assoc, Target.isInner_append, (hp.handles h hh).field]
    have hclose : ∀ l ∈ ["  );"], Target.typeScript.IsInner l := by decide
    exact List.forall_mem_append.2
      ⟨List.forall_mem_append.2 ⟨hopen, List.forall_mem_map.2 hfields⟩, hclose⟩

/-- The line that declares `w`. -/
def wrapperLine (n : ModuleNames) (w : Wrapper) : String :=
  "  " ++ w.name ++ "(ctx: " ++ n.runtime.context ++ ", input: " ++
    n.messages.typeName w.method.input ++ "): Promise<" ++
    n.messages.typeName w.method.output ++ "> \x7b"

theorem shows_wrapperLine (hn : n.IsPrintable) (hw : w.IsPrintable) :
    Target.typeScript.Shows [wrapperLine n w] fun k =>
      if .wrapper = k then [wrapperLine n w] else [] := by
  have hrest : OneLine ("(ctx: " ++ n.runtime.context ++ ", input: " ++
      n.messages.typeName w.method.input ++ "): Promise<" ++
      n.messages.typeName w.method.output ++ "> \x7b") := by
    simp +decide [hn.runtime.context, hn.messages.typeName hw.method.input,
      hn.messages.typeName hw.method.output]
  -- Either way the mark is the indent with the front of the name.
  have hshows : ∀ front, w.name = front ++ w.method.name →
      Target.typeScript.opens (some .wrapper) ("  " ++ front) = true →
      Target.typeScript.Shows [wrapperLine n w] fun k =>
        if .wrapper = k then [wrapperLine n w] else [] := by
    intro front hname hopens
    refine Target.shows_declaration hopens (Text.oneLine_append.2 ⟨hw.method.name, hrest⟩) ?_
    simp [wrapperLine, hname, ← String.toList_inj]
  rcases hw.name with hname | hname
  · exact hshows "Get" hname (by decide)
  · exact hshows "Refresh" hname (by decide)

theorem shows_wrapperLines (hn : n.IsPrintable) (hw : w.IsPrintable) :
    Target.typeScript.Shows (wrapperLines n w) fun k =>
      if .wrapper = k then [wrapperLine n w] else [] := by
  have hopen : ∀ l ∈ [""] ++ docLines "  " w.doc, Target.typeScript.IsInner l :=
    List.forall_mem_append.2 ⟨by decide, isInner_docLines (.inr rfl) hw.doc⟩
  have hbody : ∀ l ∈
      ["    return this." ++ w.field ++ "." ++ accessName w.access ++ "(ctx, input);", "  \x7d"],
      Target.typeScript.IsInner l := by
    have haccess : OneLine (accessName w.access) := by
      cases w.access <;> decide
    simp +decide [String.append_assoc, Target.isInner_append, hw.field, haccess]
  exact ((shows_wrapperLine hn hw).append_inner hbody).inner_append hopen

theorem shows_classLines (hn : n.IsPrintable) (hp : p.IsPrintable) :
    Target.typeScript.Shows (classLines n p) fun k =>
      (if .manager = k then ["export class " ++ p.managerName ++ " \x7b"] else []) ++
        p.wrappers.flatMap fun w => if .wrapper = k then [wrapperLine n w] else [] := by
  have hopen : Target.typeScript.Shows ["export class " ++ p.managerName ++ " \x7b"] fun k =>
      if .manager = k then ["export class " ++ p.managerName ++ " \x7b"] else [] :=
    Target.shows_declaration (by decide) (Text.oneLine_append.2 ⟨hp.managerName, by decide⟩)
      String.append_assoc
  have hconstructor : ∀ l ∈ ["  constructor("], Target.typeScript.IsInner l := by decide
  have hfields : ∀ l ∈ p.handles.map fun h =>
      "    private readonly " ++ h.field ++ ": " ++ handleType n h.method ++ ",",
      Target.typeScript.IsInner l :=
    List.forall_mem_map.2 fun h hh => isInner_fieldLine hn (hp.handles h hh)
  have hbraces : ∀ l ∈ ["  ) \x7b\x7d"], Target.typeScript.IsInner l := by decide
  have hwrappers := Target.Shows.flatMap fun w hw => shows_wrapperLines hn (hp.wrappers w hw)
  have hclose : ∀ l ∈ ["\x7d", ""], Target.typeScript.IsInner l := by decide
  exact ((((((hopen.append_inner hconstructor).inner_append
    (isInner_docLines (.inl rfl) hp.typeDoc)).append_inner hfields).append_inner
    hbraces).append hwrappers).append_inner hclose)

theorem shows_constructorLines (hn : n.IsPrintable) (hp : p.IsPrintable) :
    Target.typeScript.Shows (constructorLines n p) fun k =>
      if .constructor = k then ["export function " ++ p.constructorName ++ "("] else [] := by
  have hopen : Target.typeScript.Shows ["export function " ++ p.constructorName ++ "("] fun k =>
      if .constructor = k then ["export function " ++ p.constructorName ++ "("] else [] := by
    have hconstructor : OneLine p.constructorName := by
      rw [hp.constructorName]
      exact Text.oneLine_append.2 ⟨by decide, hp.managerName⟩
    exact Target.shows_declaration (by decide) (Text.oneLine_append.2 ⟨hconstructor, by decide⟩)
      String.append_assoc
  have hparams : ∀ l ∈ p.handles.map (updateParamLine n), Target.typeScript.IsInner l :=
    List.forall_mem_map.2 fun h hh => isInner_updateParamLine hn (hp.handles h hh)
  have hoptions : ∀ l ∈ ["  ...options: " ++ n.runtime.cacheOption ++ "[]",
      "): " ++ p.managerName ++ " \x7b"], Target.typeScript.IsInner l := by
    simp +decide [String.append_assoc, Target.isInner_append, hn.runtime.cacheOption,
      hp.managerName]
  have hconstructions : ∀ l ∈ p.handles.flatMap (constructionLines n),
      Target.typeScript.IsInner l :=
    List.forall_mem_flatMap.2 fun h hh => isInner_constructionLines hn (hp.handles h hh)
  have hclose : ∀ l ∈ ["\x7d", ""], Target.typeScript.IsInner l := by decide
  exact (((((hopen.inner_append (isInner_docLines (.inl rfl) hp.constructorDoc)).append_inner
    hparams).append_inner hoptions).append_inner hconstructions).append_inner
    (isInner_returnLines hp)).append_inner hclose

theorem shows_managerLines (hn : n.IsPrintable) {s : Service} (hs : s.IsPrintable) :
    Target.typeScript.Shows (managerLines n (.ofService s)) (declaredLines n s) := by
  have hp := ManagerPlan.isPrintable_ofService hs
  refine ((shows_classLines hn hp).append (shows_constructorLines hn hp)).congr fun k => ?_
  cases k with
  | manager => simp [declaredLines, ManagerPlan.ofService]
  | constructor => simp [declaredLines, ManagerPlan.ofService]
  | wrapper =>
    simp [declaredLines, ManagerPlan.wrappers, ManagerPlan.ofService, List.flatMap_map,
      List.flatMap_assoc, Handle.wrappers, Handle.ofMethod, wrapperLine]

end

/-! ### The file -/

theorem isInner_headLines {f : SourceFile} (hname : OneLine f.name) (hpackage : OneLine f.package) :
    ∀ l ∈ headLines f, Target.typeScript.IsInner l := by
  have hshown : OneLine (if f.package = "" then "(none)" else f.package) := by
    split_ifs
    · decide
    · exact hpackage
  simp +decide [headLines, String.append_assoc, Target.isInner_append, hname, hshown]

theorem isInner_importLine {i : Import} (h : OneLine i.line) :
    Target.typeScript.IsInner i.line := by
  have hline : i.line = "import " ++ ((if i.typeOnly then "type " else "") ++ ("\x7b " ++
      (", ".intercalate (i.bindings.map Binding.clause) ++
        (" \x7d from " ++ (Text.quote i.source ++ ";"))))) := by
    simp only [Import.line, String.append_assoc]
  rw [hline] at h ⊢
  exact Target.isInner_append (by decide) (Text.oneLine_append.1 h).2

theorem shows_lines {f : SourceFile} (base : Location) (c : Config) (hname : OneLine f.name)
    (hpackage : OneLine f.package) {services : List Service}
    (hs : ∀ s ∈ services, s.IsPrintable) :
    let plans := services.map ManagerPlan.ofService
    Target.typeScript.Shows (lines base f plans c) fun k =>
      services.flatMap (declaredLines (names base f plans c) · k) := by
  intro plans
  have hn : (names base f plans c).IsPrintable := ModuleNames.isPrintable_ofPlans _ hs
  have himports : ∀ l ∈ (imports (names base f plans c) c.tsRuntimeModule).map Import.line,
      Target.typeScript.IsInner l :=
    List.forall_mem_map.2 fun i hi => isInner_importLine (oneLine_of_mem_imports hn hi)
  have hblank : ∀ l ∈ [""], Target.typeScript.IsInner l := by decide
  have hmanagers := Target.Shows.flatMap fun s h => shows_managerLines hn (hs s h)
  have hplans : plans.flatMap (managerLines (names base f plans c)) =
      services.flatMap fun s => managerLines (names base f plans c) (.ofService s) :=
    List.flatMap_map _ _ services
  unfold lines
  dsimp only
  rw [hplans]
  exact hmanagers.inner_append (List.forall_mem_append.2
    ⟨List.forall_mem_append.2 ⟨isInner_headLines hname hpackage, himports⟩, hblank⟩)

end TypeScript

/-! ## The text of a file -/

namespace Target

/-- The lines that declare what `s` is served by; only in TypeScript a file has names for others. -/
def declaredLines (t : Target) (n : ModuleNames) (s : Service) : Declaration → List String :=
  match t with
  | go => Go.declaredLines s
  | typeScript => TypeScript.declaredLines n s

variable {t : Target} {f : SourceFile} {c : Config}

theorem shows_lines (t : Target) (base : Location) (hname : OneLine f.name)
    (hpackage : OneLine f.package) (hgo : OneLine f.goPackageName)
    (hruntime : OneLine c.goRuntimeImport) {services : List Service}
    (hs : ∀ s ∈ services, s.IsPrintable) :
    let plans := services.map ManagerPlan.ofService
    t.Shows (t.lines base f plans c) fun k =>
      services.flatMap (t.declaredLines (TypeScript.names base f plans c) · k) := by
  cases t with
  | go => exact Go.shows_lines hname hgo hruntime hs
  | typeScript => exact TypeScript.shows_lines base c hname hpackage hs

theorem lines_ne_nil (t : Target) (base : Location) (f : SourceFile) (plans : List ManagerPlan)
    (c : Config) : t.lines base f plans c ≠ [] := by
  cases t with
  | go => simp [lines, Go.lines, Go.headLines]
  | typeScript => simp [lines, TypeScript.lines, TypeScript.headLines]

/-- Cut at its line feeds, a text gives back the lines it was made of. -/
theorem pieces_render {base : Location} {plans : List ManagerPlan}
    (h : ∀ l ∈ t.lines base f plans c, OneLine l) :
    Text.pieces '\n' (t.render base f plans c) = t.lines base f plans c :=
  Text.pieces_intercalate (t.lines_ne_nil base f plans c) h

end Target

/-- A file with a candidate has text, and a name if it lies in the Go module. -/
theorem generateFile_of_candidates {t : Target} {f : SourceFile} {c : Config} (base : Location)
    (ht : Target.ofName c.target = .ok t) (h : t.candidates c.suffix f.services ≠ []) :
    generateFile base f c = (t.fileName f c).map fun name => some ⟨name, t.render base f
      ((t.candidates c.suffix f.services).map ManagerPlan.ofService) c⟩ := by
  have hsome : (t.candidates c.suffix f.services).isEmpty = false := List.isEmpty_eq_false_iff.2 h
  unfold generateFile
  rw [ht]
  show (if (t.candidates c.suffix f.services).isEmpty then _ else _) = _
  rw [hsome]
  cases t.fileName f c <;> rfl

/-- **What a file declares.** Let a file have a candidate, its services, their methods and messages
be named by identifiers, and its name, its packages and the runtime of Go have no line feed. Then it
has a text, and of the lines of that, those that begin as a declaration of a kind are, for one
candidate after the other, the lines that declare this of it. Comments may say anything. -/
theorem declared_lines_eq {t : Target} {f : SourceFile} {c : Config} (base : Location)
    (ht : Target.ofName c.target = .ok t) (hcandidates : t.candidates c.suffix f.services ≠ [])
    (hnamed : ∀ s ∈ f.services, s.IsNamed) (hname : OneLine f.name) (hpackage : OneLine f.package)
    (hgo : OneLine f.goPackageName) (hruntime : OneLine c.goRuntimeImport) :
    let services := t.candidates c.suffix f.services
    let names := TypeScript.names base f (services.map ManagerPlan.ofService) c
    ∃ content,
      generateFile base f c = (t.fileName f c).map (fun name => some ⟨name, content⟩) ∧
        ∀ k, (Text.pieces '\n' content).filter (t.declares k) =
          services.flatMap (t.declaredLines names · k) := by
  intro services names
  have hshows := t.shows_lines base hname hpackage hgo hruntime
    (t.isPrintable_of_mem_candidates c.suffix hnamed)
  refine ⟨_, generateFile_of_candidates base ht hcandidates, fun k => ?_⟩
  rw [Target.pieces_render hshows.oneLine]
  exact hshows.declared k

/-- A file in which a comment goes on with a declaration, and with a service that takes no part. -/
def commentedFile : SourceFile :=
  ⟨"shop/v1/order.proto", "shop.v1", true, "shop/v1/order", "shopv1", "shop/v1",
    [⟨"Orders", [fetch], none⟩, ⟨"OrderCache", [fetch], some " Caches.\nexport class Fake \x7b\n"⟩]⟩
where
  order : MessageRef := ⟨"shop.v1.Shop.Order", "Shop_Order", "Shop.Order", "shop/v1/order.proto"⟩
  fetch : Method := ⟨"Fetch", "OrderCache", order, order, some "\n  GetFake() \x7b", false, false⟩

theorem declared_lines_eq_commentedFile : ∃ content,
    generateFile .root commentedFile {} =
        .ok (some ⟨"shop/v1/order_cache_manager.ts", content⟩) ∧
      ∀ k, (Text.pieces '\n' content).filter (Target.typeScript.declares k) = match k with
        | .manager => ["export class OrderCacheManager \x7b"]
        | .constructor => ["export function NewOrderCacheManager("]
        | .wrapper => [
          "  GetFetch(ctx: Context, input: Shop_Order): Promise<Shop_Order> \x7b",
          "  RefreshFetch(ctx: Context, input: Shop_Order): Promise<Shop_Order> \x7b"] := by
  have horder : commentedFile.order.IsNamed := ⟨["Shop", "Order"], by decide, by decide, by decide⟩
  have hnamed : ∀ s ∈ commentedFile.services, s.IsNamed := by
    have hfetch : ∀ m ∈ [commentedFile.fetch], m.IsNamed :=
      List.forall_mem_singleton.2 ⟨by decide, horder, horder⟩
    have horders : Service.IsNamed ⟨"Orders", [commentedFile.fetch], none⟩ := ⟨by decide, hfetch⟩
    exact List.forall_mem_cons.2 ⟨horders, List.forall_mem_singleton.2 ⟨by decide, hfetch⟩⟩
  obtain ⟨content, hfile, hdeclared⟩ := declared_lines_eq (t := .typeScript) (f := commentedFile)
    (c := {}) .root rfl (by decide) hnamed (by decide) (by decide) (by decide) (by decide)
  have hname : Target.typeScript.fileName commentedFile {} =
      .ok "shop/v1/order_cache_manager.ts" := rfl
  rw [hname] at hfile
  refine ⟨content, hfile, fun k => (hdeclared k).trans ?_⟩
  cases k <;> decide +kernel

end CacheGen
