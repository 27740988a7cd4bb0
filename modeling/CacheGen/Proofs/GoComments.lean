import CacheGen.Proofs.DeclaredLines
import CacheGen.Proofs.Paths

/-!
# Comments in Go output

A comment goes through two paths. For types, constructors and refreshers its bodies are printed as
they are, behind a line of their own. For getters a marker space is taken off each body, the whole
is put behind `Get` and trimmed at its end, and a space is put back where a line is not empty.
Either way the comment can be read back from its block.

**Blocks.** The text of a file is cut into lines again. A doc block is what stands between an empty
line and a declaration (`Documents`), and all of it are comment lines. This needs no more than that
the bodies of the doc and the declaration are lines, so a comment cannot leave its block.

**Reading.** Cutting at line feeds and joining with line feeds undo one another, so the bodies are
got back from the block (`readBodies?_docText`) and the comment from the bodies.

Main result: `comments_read_back`.
-/

namespace CacheGen

open Text (OneLine)
open Naming (IsIdentifier)

/-! ## Texts -/

namespace Text

theorem flatMap_pieces_of_oneLine {ls : List String} (h : ∀ l ∈ ls, OneLine l) :
    ls.flatMap (pieces '\n') = ls :=
  (List.flatMap_congr fun l hl => pieces_of_not_mem (h l hl)).trans (List.flatMap_singleton' ls)

/-- Without the spaces at the very end. -/
def withoutFinalSpaces (s : String) : String := String.ofList (s.toList.rdropWhile (· = ' '))

end Text

namespace Comment

/-- Without one line feed at the very end. -/
def withoutFinalNewline (raw : String) : String := (Text.dropEnd? "\n" raw).getD raw

theorem ofList_dropFinalNewline (raw : String) :
    String.ofList (dropFinalNewline raw.toList) = withoutFinalNewline raw := by
  rw [dropFinalNewline, withoutFinalNewline]
  split
  · next hlast =>
    have hraw : raw = String.ofList raw.toList.dropLast ++ "\n" := by
      rw [← String.toList_inj, String.toList_append, String.toList_ofList]
      exact (List.dropLast_append_getLast? _ hlast).symm
    rw [Text.dropEnd?_eq_some.2 hraw, Option.getD_some]
  · next hlast =>
    cases hdrop : Text.dropEnd? "\n" raw with
    | none => exact String.ofList_toList
    | some rest =>
      refine absurd ?_ hlast
      rw [Text.dropEnd?_eq_some.1 hdrop]
      simp

theorem bodies_eq_pieces (raw : String) :
    bodies raw = Text.pieces '\n' (withoutFinalNewline raw) := by
  rw [← ofList_dropFinalNewline, Text.pieces, String.toList_ofList, bodies]

end Comment

namespace Go

/-! ## Reading a block -/

/-- The doc as it stands in the text. -/
def docText (doc : Doc) : String := "\n".intercalate (docLines (some doc))

/-- What stands behind the markers of `block`, if each of its lines has one. -/
def readBodies? (block : String) : Option (List String) :=
  (Text.pieces '\n' block).mapM (Text.dropStart? "//")

/-- The comment that `block` repeats behind its first line. -/
def readRepeated? (block : String) : Option String :=
  match readBodies? block with
  | some (_ :: bodies) => some ("\n".intercalate bodies)
  | _ => none

/-- Without the space that stands in front of what is not empty. -/
def dropMarkerSpace? (body : String) : Option String :=
  if body = "" then some "" else Text.dropStart? " " body

/-- The text in the block of a getter. -/
def readGetter? (block : String) : Option String :=
  ((readBodies? block).bind (List.mapM dropMarkerSpace?)).map ("\n".intercalate ·)

section

variable {doc : Doc}

theorem oneLine_docLines (h : doc.IsPrintable) : ∀ l ∈ docLines (some doc), OneLine l :=
  List.forall_mem_map.2 fun body hbody => Text.oneLine_append.2 ⟨by decide, h body hbody⟩

theorem pieces_docText (hdoc : doc ≠ []) (hlines : doc.IsPrintable) :
    Text.pieces '\n' (docText doc) = docLines (some doc) :=
  Text.pieces_intercalate (by simpa [docLines] using hdoc) (oneLine_docLines hlines)

theorem readBodies?_docText (hdoc : doc ≠ []) (hlines : doc.IsPrintable) :
    readBodies? (docText doc) = some doc := by
  rw [readBodies?, pieces_docText hdoc hlines]
  exact mapM_map_eq_some fun body _ => Text.dropStart?_eq_some.2 rfl

end

theorem readRepeated?_introduced {sentence : String} (h : OneLine sentence) (raw : String) :
    readRepeated? (docText (Doc.introduced sentence raw)) =
      some (Comment.withoutFinalNewline raw) := by
  have hdoc : Doc.introduced sentence raw ≠ [] := List.cons_ne_nil _ _
  rw [readRepeated?, readBodies?_docText hdoc (Doc.isPrintable_introduced h raw)]
  show some ("\n".intercalate (Comment.bodies raw)) = _
  rw [Comment.bodies_eq_pieces]
  exact congrArg some (Text.intercalate_pieces '\n' _)

/-- The end of `Get` is not trimmed. -/
theorem withoutFinalSpaces_get (text : String) :
    Text.withoutFinalSpaces ("Get" ++ text) = "Get" ++ Text.withoutFinalSpaces text := by
  have hget : ("Get" ++ text).toList = ['G', 'e', 't'] ++ text.toList := String.toList_append
  rw [← String.toList_inj, String.toList_append, Text.withoutFinalSpaces, Text.withoutFinalSpaces,
    String.toList_ofList, String.toList_ofList, hget, List.rdropWhile, List.rdropWhile,
    List.reverse_append, List.dropWhile_append]
  split
  · next hnone =>
    rw [List.isEmpty_iff.1 hnone]
    decide
  · rw [List.reverse_append, String.toList_ofList]
    rfl

/-- The doc of a getter, from the lines of its text. -/
theorem ofGetter_eq (raw : String) : Doc.ofGetter raw =
    (Text.pieces '\n' ("Get" ++ Text.withoutFinalSpaces (Comment.text raw))).map fun line =>
      if line = "" then "" else " " ++ line := by
  rw [← withoutFinalSpaces_get, Text.withoutFinalSpaces, Text.pieces, String.toList_ofList,
    List.map_map]
  refine List.map_congr_left fun line _ => ?_
  cases line with
  | nil => rfl
  | cons c cs =>
    have hempty : String.ofList (c :: cs) ≠ "" := by simp
    rw [if_neg (List.cons_ne_nil c cs), Function.comp, if_neg hempty, ← String.toList_inj]
    simp

theorem dropMarkerSpace?_line (line : String) :
    dropMarkerSpace? (if line = "" then "" else " " ++ line) = some line := by
  by_cases hempty : line = ""
  · rw [if_pos hempty, hempty]
    rfl
  · have hspace : " " ++ line ≠ "" := by simp
    rw [if_neg hempty, dropMarkerSpace?, if_neg hspace]
    exact Text.dropStart?_eq_some.2 rfl

theorem ofGetter_ne_nil (raw : String) : Doc.ofGetter raw ≠ [] := by
  rw [ofGetter_eq]
  simp [Text.pieces]

theorem readGetter?_ofGetter (raw : String) : readGetter? (docText (Doc.ofGetter raw)) =
    some ("Get" ++ Text.withoutFinalSpaces (Comment.text raw)) := by
  rw [readGetter?, readBodies?_docText (ofGetter_ne_nil raw) (Doc.isPrintable_ofGetter raw),
    ofGetter_eq, Option.bind_some, mapM_map_eq_some fun line _ => dropMarkerSpace?_line line,
    Option.map_some]
  exact congrArg some (Text.intercalate_pieces '\n' _)

/-! ## Blocks in a file -/

theorem oneLine_managerName {service : String} (h : OneLine service) :
    OneLine (Naming.managerName service) := by
  rw [Naming.managerName]
  split_ifs
  · decide
  · exact Text.oneLine_append.2 ⟨h, by decide⟩

/-- In `text`, the comment lines of `block` are what stands between an empty line and the line
`declaration`. -/
structure Documents (text declaration block : String) : Prop where
  stands : [""] ++ Text.pieces '\n' block ++ [declaration] <:+: Text.pieces '\n' text
  comment : ∀ l ∈ Text.pieces '\n' block, Text.startsWith l "//" = true

/-- The lines of the declarations of `p`, one after the other. -/
def sections (p : ManagerPlan) : List (List String) :=
  typeLines p :: constructorLines p :: p.wrappers.map (wrapperLines p)

theorem typeLines_begins (p : ManagerPlan) :
    docLines p.typeDoc ++ ["type " ++ p.managerName ++ " struct \x7b"] <+: typeLines p := by
  simp only [typeLines, List.append_assoc]
  exact (List.prefix_append_right_inj _).2 (List.prefix_append _ _)

theorem constructorLines_begins (p : ManagerPlan) :
    docLines p.constructorDoc ++ ["func " ++ p.constructorName ++ "("] <+: constructorLines p := by
  simp only [constructorLines, List.append_assoc]
  exact (List.prefix_append_right_inj _).2 (List.prefix_append _ _)

theorem wrapperLines_begins (p : ManagerPlan) (w : Wrapper) :
    docLines w.doc ++ [wrapperLine p w] <+: wrapperLines p w :=
  (List.prefix_append_right_inj _).2 (List.prefix_append [_] _)

theorem typeLines_mem_sections (p : ManagerPlan) : typeLines p ∈ sections p := List.mem_cons_self

theorem constructorLines_mem_sections (p : ManagerPlan) : constructorLines p ∈ sections p :=
  List.mem_cons_of_mem _ List.mem_cons_self

theorem wrapperLines_mem_sections {p : ManagerPlan} {h : Handle} (hh : h ∈ p.handles) {w : Wrapper}
    (hw : w ∈ h.wrappers) : wrapperLines p w ∈ sections p :=
  List.mem_cons_of_mem _ (List.mem_cons_of_mem _
    (List.mem_map_of_mem (List.mem_flatMap.2 ⟨h, hh, hw⟩)))

theorem flatten_sections (p : ManagerPlan) : (sections p).flatten = managerLines p := by
  rw [sections, List.flatten_cons, List.flatten_cons, ← List.flatMap_def, managerLines,
    List.append_assoc]

theorem getLast?_of_mem_sections {p : ManagerPlan} {ls : List String} (h : ls ∈ sections p) :
    ls.getLast? = some "" := by
  simp only [sections, List.mem_cons, List.mem_map] at h
  rcases h with rfl | rfl | ⟨w, -, rfl⟩
  · rw [typeLines, List.getLast?_append]
    rfl
  · rw [constructorLines, List.getLast?_append]
    rfl
  · rw [wrapperLines, List.getLast?_append]
    rfl

/-- What is put behind lines that end with an empty one has one in front. -/
theorem infix_flatten {front ls : List String} {sections : List (List String)}
    (hfront : front.getLast? = some "") (hempty : ∀ ls ∈ sections, ls.getLast? = some "")
    (h : ls ∈ sections) : [""] ++ ls <:+: front ++ sections.flatten := by
  induction sections generalizing front with
  | nil => cases h
  | cons first rest ih =>
    obtain ⟨hfirst, hrest⟩ := List.forall_mem_cons.1 hempty
    rw [List.flatten_cons]
    rcases List.mem_cons.1 h with rfl | h
    · obtain ⟨before, rfl⟩ := List.getLast?_eq_some_iff.1 hfront
      exact ⟨before, rest.flatten, by simp⟩
    · rw [← List.append_assoc]
      exact ih (by rw [List.getLast?_append, hfirst]; rfl) hrest h

theorem section_infix_lines (f : SourceFile) {plans : List ManagerPlan} (c : Config)
    {p : ManagerPlan} (hp : p ∈ plans) {ls : List String} (h : ls ∈ sections p) :
    [""] ++ ls <:+: lines f plans c := by
  have hlines : plans.flatMap managerLines = (plans.flatMap sections).flatten := by
    rw [← List.flatMap_id, List.flatMap_assoc]
    exact List.flatMap_congr fun p _ => by rw [List.flatMap_id, flatten_sections]
  rw [lines, hlines]
  refine infix_flatten ?_ (List.forall_mem_flatMap.2 fun p _ _ => getLast?_of_mem_sections)
    (List.mem_flatMap.2 ⟨p, hp, h⟩)
  split_ifs
  · simp [unusedImportLines]
  · simp [headLines]

/-- The doc of a section stands in the text of the file. -/
theorem documents_of_section (base : Location) (f : SourceFile) {plans : List ManagerPlan}
    (c : Config) {p : ManagerPlan} (hp : p ∈ plans) {ls : List String} (hls : ls ∈ sections p)
    {doc : Doc} {declaration : String} (hbegins : docLines (some doc) ++ [declaration] <+: ls)
    (hdoc : doc ≠ []) (hbodies : doc.IsPrintable) (hdeclaration : OneLine declaration) :
    Documents (Target.go.render base f plans c) declaration (docText doc) := by
  have hblock := pieces_docText hdoc hbodies
  refine ⟨?stands, ?comment⟩
  case stands =>
    have hlines : [""] ++ docLines (some doc) ++ [declaration] <:+: lines f plans c := by
      rw [List.append_assoc]
      exact ((List.prefix_append_right_inj [""]).2 hbegins).isInfix.trans
        (section_infix_lines f c hp hls)
    have hone : ∀ l ∈ [""] ++ docLines (some doc) ++ [declaration], OneLine l := by
      refine List.forall_mem_append.2 ⟨List.forall_mem_append.2 ⟨by decide, ?_⟩, by simpa⟩
      exact oneLine_docLines hbodies
    have htext : Text.pieces '\n' (Target.go.render base f plans c) =
        (lines f plans c).flatMap (Text.pieces '\n') :=
      Text.pieces_intercalate_eq_flatMap '\n' (Target.go.lines_ne_nil base f plans c)
    rw [hblock, htext, ← Text.flatMap_pieces_of_oneLine hone]
    exact hlines.flatMap _
  case comment =>
    rw [hblock]
    exact List.forall_mem_map.2 fun body _ => Text.startsWith_iff.2 (by simp)

section

variable (base : Location) (f : SourceFile) {plans : List ManagerPlan} (c : Config)
  {p : ManagerPlan} (hp : p ∈ plans) {ls : List String} (hls : ls ∈ sections p)
  {doc : Option Doc} {declaration raw : String} (hdeclaration : OneLine declaration)
  (hbegins : docLines doc ++ [declaration] <+: ls)

include hp hls hdeclaration hbegins

theorem exists_block_introduced {sentence : String} (hsentence : OneLine sentence)
    (hdoc : doc = some (Doc.introduced sentence raw)) :
    ∃ block, Documents (Target.go.render base f plans c) declaration block ∧
      readRepeated? block = some (Comment.withoutFinalNewline raw) := by
  subst hdoc
  exact ⟨_, documents_of_section base f c hp hls hbegins (List.cons_ne_nil _ _)
    (Doc.isPrintable_introduced hsentence raw) hdeclaration, readRepeated?_introduced hsentence raw⟩

theorem exists_block_ofGetter (hdoc : doc = some (Doc.ofGetter raw)) :
    ∃ block, Documents (Target.go.render base f plans c) declaration block ∧
      readGetter? block = some ("Get" ++ Text.withoutFinalSpaces (Comment.text raw)) := by
  subst hdoc
  exact ⟨_, documents_of_section base f c hp hls hbegins (ofGetter_ne_nil raw)
    (Doc.isPrintable_ofGetter raw) hdeclaration, readGetter?_ofGetter raw⟩

end

section

variable (base : Location) (f : SourceFile) {plans : List ManagerPlan} (c : Config) {raw : String}

/-- The comment of a service is told in the doc of its type and in that of its constructor. -/
theorem exists_blocks_of_service {s : Service} (hp : ManagerPlan.ofService s ∈ plans)
    (hname : OneLine s.name) (hraw : s.leadingComment = some raw) :
    ∀ declaration ∈ ["type " ++ Naming.managerName s.name ++ " struct \x7b",
        "func " ++ Naming.constructorName (Naming.managerName s.name) ++ "("],
      ∃ block, Documents (Target.go.render base f plans c) declaration block ∧
        readRepeated? block = some (Comment.withoutFinalNewline raw) := by
  have hmanager := oneLine_managerName hname
  have hconstructor : OneLine (Naming.constructorName (Naming.managerName s.name)) :=
    Text.oneLine_append.2 ⟨by decide, hmanager⟩
  have htold (sentence : String) :
      s.leadingComment.map (Doc.introduced sentence) = some (Doc.introduced sentence raw) := by
    rw [hraw, Option.map_some]
  refine List.forall_mem_cons.2 ⟨?type, List.forall_mem_singleton.2 ?constructor⟩
  case type =>
    have hdeclaration : OneLine ("type " ++ Naming.managerName s.name ++ " struct \x7b") := by
      simp +decide [hmanager]
    have hbegins := typeLines_begins (.ofService s)
    have hsentence :
        OneLine (Naming.managerName s.name ++ " for every operation related to this service:") :=
      Text.oneLine_append.2 ⟨hmanager, by decide⟩
    exact exists_block_introduced base f c hp (typeLines_mem_sections _) hdeclaration hbegins
      hsentence (htold _)
  case constructor =>
    have hdeclaration :
        OneLine ("func " ++ Naming.constructorName (Naming.managerName s.name) ++ "(") := by
      simp +decide [hconstructor]
    have hbegins := constructorLines_begins (.ofService s)
    have hsentence : OneLine (Naming.constructorName (Naming.managerName s.name) ++
        " is the constructor method for this service:") :=
      Text.oneLine_append.2 ⟨hconstructor, by decide⟩
    exact exists_block_introduced base f c hp (constructorLines_mem_sections _) hdeclaration hbegins
      hsentence (htold _)

/-- The comment of a method is told in the docs of its wrappers, in two ways. -/
theorem exists_blocks_of_method {p : ManagerPlan} {m : Method} {service : String} (hp : p ∈ plans)
    (hh : Handle.ofMethod service m ∈ p.handles) (hmanager : OneLine p.managerName)
    (hname : OneLine m.name) (hraw : m.leadingComment = some raw) :
    (∃ block, Documents (Target.go.render base f plans c)
        ("func (cm *" ++ p.managerName ++ ") " ++ Naming.getterName m.name ++ "(") block ∧
      readGetter? block = some ("Get" ++ Text.withoutFinalSpaces (Comment.text raw))) ∧
    ∃ block, Documents (Target.go.render base f plans c)
        ("func (cm *" ++ p.managerName ++ ") " ++ Naming.refresherName m.name ++ "(") block ∧
      readRepeated? block = some (Comment.withoutFinalNewline raw) := by
  set h := Handle.ofMethod service m with hofMethod
  constructor
  · have hdoc : h.getter.doc = some (Doc.ofGetter raw) := by
      show m.leadingComment.map _ = _
      rw [hraw, Option.map_some]
    have hdeclaration : OneLine (wrapperLine p h.getter) := by
      simp +decide [wrapperLine, hofMethod, Handle.ofMethod, Naming.getterName, hmanager, hname]
    exact exists_block_ofGetter base f c hp
      (wrapperLines_mem_sections hh (List.mem_cons_self : h.getter ∈ h.wrappers)) hdeclaration
      (wrapperLines_begins p h.getter) hdoc
  · have hdoc : h.refresher.doc =
        some (Doc.introduced "Eagerly refresh the cache for the method that:" raw) := by
      show m.leadingComment.map _ = _
      rw [hraw, Option.map_some]
    have hmem : h.refresher ∈ h.wrappers := List.mem_cons_of_mem _ List.mem_cons_self
    have hdeclaration : OneLine (wrapperLine p h.refresher) := by
      simp +decide [wrapperLine, hofMethod, Handle.ofMethod, Naming.refresherName, hmanager, hname]
    exact exists_block_introduced base f c hp (wrapperLines_mem_sections hh hmem) hdeclaration
      (wrapperLines_begins p h.refresher) (by decide) hdoc

end

/-- **Comments can be read back.** In the text of a file, the comment of a service stands between an
empty line and the declaration of its type, and again before that of its constructor; the comment of
a method stands before its getter and before its refresher. All lines there are comments. Behind
the first one, and without their markers, they are the comment less one final line feed; before a
getter, without their marker spaces too, they are `Get` and the comment text less its final
spaces. -/
theorem comments_read_back (base : Location) (f : SourceFile) (c : Config)
    {services : List Service}
    (hnames : ∀ s ∈ services, IsIdentifier s.name ∧ ∀ m ∈ s.methods, IsIdentifier m.name) :
    let plans := services.map fun s => ManagerPlan.ofService (renameService s)
    let text := Target.go.render base f plans c
    ∀ s ∈ services,
      let manager := Naming.managerName (Naming.goName s.name)
      let wrapper := "func (cm *" ++ manager ++ ") "
      (∀ raw ∈ s.leadingComment, ∀ declaration ∈ ["type " ++ manager ++ " struct \x7b",
          "func " ++ Naming.constructorName manager ++ "("],
        ∃ block, Documents text declaration block ∧
          readRepeated? block = some (Comment.withoutFinalNewline raw)) ∧
      ∀ m ∈ s.methods, ∀ raw ∈ m.leadingComment,
        (∃ block,
          Documents text (wrapper ++ Naming.getterName (Naming.goName m.name) ++ "(") block ∧
          readGetter? block = some ("Get" ++ Text.withoutFinalSpaces (Comment.text raw))) ∧
        ∃ block,
          Documents text (wrapper ++ Naming.refresherName (Naming.goName m.name) ++ "(") block ∧
          readRepeated? block = some (Comment.withoutFinalNewline raw) := by
  intro plans text s hs manager wrapper
  have hp : ManagerPlan.ofService (renameService s) ∈ plans := List.mem_map_of_mem hs
  have hname : OneLine (renameService s).name := Naming.oneLine_goName (hnames s hs).1.oneLine
  refine ⟨fun raw hraw => ?service, fun m hm raw hraw => ?method⟩
  -- The blocks are stated under the names of the renamed service first. Found from the goal, these
  -- names would be Go names that are computed to be compared.
  case service =>
    have hblocks := exists_blocks_of_service base f c hp hname hraw
    exact hblocks
  case method =>
    have hh : Handle.ofMethod (renameService s).name (renameMethod m) ∈
        (ManagerPlan.ofService (renameService s)).handles :=
      List.mem_map_of_mem (List.mem_map_of_mem hm)
    have hmanager : OneLine (ManagerPlan.ofService (renameService s)).managerName :=
      oneLine_managerName hname
    have hmethod : OneLine (renameMethod m).name :=
      Naming.oneLine_goName ((hnames s hs).2 m hm).oneLine
    have hblocks := exists_blocks_of_method base f c hp hh hmanager hmethod hraw
    exact hblocks

/-- A service with an empty line, a line of spaces and more than one line feed at the end of its
comment, and with a method whose comment has no space behind the first marker and ends in spaces. -/
def orderService : Service where
  name := "order_cache"
  methods := [⟨"GetOrder", "order_cache", order, order, some "Order fetches.\n\n  Twice.  \n  ",
    false, false⟩]
  leadingComment := some " Caches orders.\n\n   \nKeeps them.\n\n"
where
  order : MessageRef := ⟨"shop.v1.Order", "Order", "Order", "shop/v1/order.proto"⟩

theorem comments_read_back_orderService :
    (∀ s ∈ [orderService], IsIdentifier s.name ∧ ∀ m ∈ s.methods, IsIdentifier m.name) ∧
      let text := Target.go.render .root default
        [ManagerPlan.ofService (renameService orderService)] {}
      (∃ block, Documents text "type OrderCacheManager struct \x7b" block ∧
        readRepeated? block = some " Caches orders.\n\n   \nKeeps them.\n") ∧
      ∃ block, Documents text "func (cm *OrderCacheManager) GetGetOrder(" block ∧
        readGetter? block = some "GetOrder fetches.\n\n Twice.  \n" := by
  have hnames : ∀ s ∈ [orderService],
      IsIdentifier s.name ∧ ∀ m ∈ s.methods, IsIdentifier m.name := by
    decide
  have h := comments_read_back .root default {} hnames orderService List.mem_cons_self
  have htype := h.1 _ rfl _ List.mem_cons_self
  have hgetter := (h.2 _ List.mem_cons_self _ rfl).1
  exact ⟨hnames, htype, hgetter⟩

end Go

end CacheGen
