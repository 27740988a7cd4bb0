import CacheGen.Proofs.ManagerText
import Mathlib.Algebra.Ring.Nat
import Mathlib.Data.List.Basic

/-!
# Where a doc block ends

A block comment ends at its first `*/`. In the lines of a doc block that pair must stand in the
closing line only. There are three places where it could come up before: inside a body, across two
lines, and where a body meets the `*` in front of it.

**Inside a body** the guard breaks the pair up. **Across lines** a line feed is in between. **At the
front** nothing is done, so a body that begins with `/` ends the block there. The bodies of a getter
begin with a space or are empty, and the sentence in front of a repeated comment begins with a
space. What is left are the lines of a repeated comment: its block is closed where it should be
exactly when none of them begins with `/`.

Main result: `doc_block_closed_iff`.
-/

namespace CacheGen.TypeScript

/-! ## Counting ends -/

/-- How often a `*` is followed by a `/`. -/
def commentEnds (cs : List Char) : Nat := (cs.zip cs.tail).count ('*', '/')

theorem commentEnds_cons (c : Char) (cs : List Char) :
    commentEnds (c :: cs) =
      commentEnds cs + if c = '*' ∧ cs.head? = some '/' then 1 else 0 := by
  cases cs with
  | nil => simp [commentEnds]
  | cons d ds =>
    rw [commentEnds, List.tail_cons, List.zip_cons_cons, List.count_cons, List.head?_cons]
    simp [commentEnds]

theorem commentEnds_append (a b : List Char) :
    commentEnds (a ++ b) =
      commentEnds a + commentEnds b +
        if a.getLast? = some '*' ∧ b.head? = some '/' then 1 else 0 := by
  induction a with
  | nil => simp [commentEnds]
  | cons c cs ih =>
    rw [List.cons_append, commentEnds_cons, ih, commentEnds_cons]
    cases cs with
    | nil => simp [commentEnds]
    | cons d ds =>
      rw [List.cons_append, List.head?_cons, List.head?_cons, List.getLast?_cons_cons]
      omega

theorem commentEnds_of_not_mem {cs : List Char} (h : '*' ∉ cs) : commentEnds cs = 0 :=
  List.count_eq_zero.2 fun hmem => h (List.of_mem_zip hmem).1

/-- A line feed between two texts keeps them apart. -/
theorem commentEnds_newline (a b : List Char) :
    commentEnds (a ++ '\n' :: b) = commentEnds a + commentEnds b := by
  rw [commentEnds_append, commentEnds_cons]
  simp

/-- The ends in a text are those in its lines. -/
theorem commentEnds_intercalate (ls : List String) :
    commentEnds ("\n".intercalate ls).toList = (ls.map fun l => commentEnds l.toList).sum := by
  induction ls with
  | nil => rfl
  | cons l ls ih =>
    cases ls with
    | nil => simp
    | cons m ms =>
      have hfeed : ("\n" : String).toList = ['\n'] := rfl
      rw [String.intercalate_cons_cons, String.toList_append, String.toList_append, hfeed,
        List.append_assoc, List.singleton_append, commentEnds_newline, ih]
      simp

/-! ## Guarded bodies -/

theorem head?_guardBody (cs : List Char) : (guardBody cs).head? = cs.head? := by
  fun_cases guardBody cs <;> rfl

theorem commentEnds_guardBody (cs : List Char) : commentEnds (guardBody cs) = 0 := by
  fun_induction guardBody cs with
  | case1 cs ih => simp [commentEnds_cons, ih]
  | case2 c cs hpair ih =>
    rw [commentEnds_cons, ih, head?_guardBody, if_neg]
    -- The pair at the front is what the first case takes.
    rintro ⟨rfl, hslash⟩
    obtain ⟨rest, rfl⟩ := List.head?_eq_some_iff.1 hslash
    exact hpair rest rfl rfl
  | case3 => rfl

/-- The guard puts in nothing but backslashes. -/
theorem newline_not_mem_guardBody {cs : List Char} (h : '\n' ∉ cs) : '\n' ∉ guardBody cs := by
  fun_induction guardBody cs with
  | case1 cs ih =>
    have hrest : '\n' ∉ cs := fun hmem => h (List.mem_cons_of_mem _ (List.mem_cons_of_mem _ hmem))
    simp [ih hrest]
  | case2 c cs _ ih =>
    rw [List.mem_cons, not_or] at h ⊢
    exact ⟨h.1, ih h.2⟩
  | case3 => exact h

/-! ## Lines of a block -/

/-- Nothing but spaces. -/
def IsIndent (indent : String) : Prop := ∀ c ∈ indent.toList, c = ' '

instance (indent : String) : Decidable (IsIndent indent) := List.decidableBAll _ _

theorem IsIndent.commentEnds {indent : String} (h : IsIndent indent) :
    commentEnds indent.toList = 0 :=
  commentEnds_of_not_mem fun hmem => by cases h _ hmem

theorem IsIndent.getLast?_ne {indent : String} (h : IsIndent indent) :
    indent.toList.getLast? ≠ some '*' :=
  fun hlast => by cases h _ (List.mem_of_getLast? hlast)

/-- A body ends the comment exactly when it meets the `*` in front of it with a `/`. -/
theorem commentEnds_bodyLine {indent : String} (h : IsIndent indent) (body : String) :
    commentEnds (indent ++ " *" ++ String.ofList (guardBody body.toList)).toList =
      if Text.startsWith body "/" then 1 else 0 := by
  have hstar : (" *" : String).toList = [' ', '*'] := rfl
  have hslash : Text.startsWith body "/" = true ↔ body.toList.head? = some '/' := by
    rw [Text.startsWith_iff]
    cases body.toList <;> simp [eq_comm]
  rw [String.toList_append, String.toList_append, hstar, String.toList_ofList, commentEnds_append,
    commentEnds_append, h.commentEnds, commentEnds_guardBody, head?_guardBody]
  simp [commentEnds, hslash]

theorem commentEnds_openingLine {indent : String} (h : IsIndent indent) :
    commentEnds (indent ++ "/**").toList = 0 := by
  have hopen : ("/**" : String).toList = ['/', '*', '*'] := rfl
  rw [String.toList_append, hopen, commentEnds_append, h.commentEnds,
    if_neg fun hj => h.getLast?_ne hj.1]
  rfl

theorem commentEnds_closingLine {indent : String} (h : IsIndent indent) :
    commentEnds (indent ++ " */").toList = 1 := by
  have hclose : (" */" : String).toList = [' ', '*', '/'] := rfl
  rw [String.toList_append, hclose, commentEnds_append, h.commentEnds]
  simp [commentEnds]

/-- A block has one end for its closing line, and one for each body that begins with `/`. -/
theorem commentEnds_docLines {indent : String} (h : IsIndent indent) (doc : Doc) :
    commentEnds ("\n".intercalate (docLines indent (some doc))).toList =
      doc.countP (Text.startsWith · "/") + 1 := by
  have hbodies : (doc.map fun body =>
      commentEnds (indent ++ " *" ++ String.ofList (guardBody body.toList)).toList).sum =
        doc.countP (Text.startsWith · "/") := by
    induction doc with
    | nil => rfl
    | cons body doc ih =>
      rw [List.map_cons, List.sum_cons, ih, commentEnds_bodyLine h, List.countP_cons, Nat.add_comm]
  rw [commentEnds_intercalate, docLines]
  simp only [List.map_append, List.map_map, List.sum_append, List.map_cons, List.map_nil,
    List.sum_singleton, Function.comp_def, hbodies, commentEnds_openingLine h,
    commentEnds_closingLine h, Nat.zero_add]

/-! ## Well-formed blocks -/

/-- The lines of one block comment: it is opened in the first line and closed in the last, and it
ends nowhere before. -/
structure OneComment (ls : List String) : Prop where
  opened : ∃ indent, IsIndent indent ∧ ls.head? = some (indent ++ "/**")
  closed : ∃ indent, IsIndent indent ∧ ls.getLast? = some (indent ++ " */")
  once : commentEnds ("\n".intercalate ls).toList = 1

theorem oneComment_docLines_iff {indent : String} (h : IsIndent indent) (doc : Doc) :
    OneComment (docLines indent (some doc)) ↔ ∀ body ∈ doc, Text.startsWith body "/" = false := by
  have hcount : commentEnds ("\n".intercalate (docLines indent (some doc))).toList = 1 ↔
      ∀ body ∈ doc, Text.startsWith body "/" = false := by
    rw [commentEnds_docLines h, Nat.add_eq_right, List.countP_eq_zero]
    simp
  refine ⟨fun hone => hcount.1 hone.once, fun hbodies => ⟨⟨indent, h, ?_⟩, ⟨indent, h, ?_⟩,
    hcount.2 hbodies⟩⟩
  · rfl
  · exact List.getLast?_concat

/-! ## Docs of a plan -/

/-- No line of the comment begins with `/`. -/
def NoSlashLine (raw : String) : Prop :=
  ∀ body ∈ Comment.bodies raw, Text.startsWith body "/" = false

instance (raw : String) : Decidable (NoSlashLine raw) :=
  inferInstanceAs (Decidable (∀ body ∈ Comment.bodies raw, Text.startsWith body "/" = false))

theorem startsWith_space (s : String) : Text.startsWith (" " ++ s) "/" = false := by
  have hspace : (" " : String).toList = [' '] := rfl
  have hslash : ("/" : String).toList = ['/'] := rfl
  rw [Text.startsWith, String.toList_append, hspace, hslash]
  rfl

theorem oneComment_introduced_iff {indent : String} (h : IsIndent indent) (sentence raw : String) :
    OneComment (docLines indent (some (Doc.introduced sentence raw))) ↔ NoSlashLine raw := by
  rw [oneComment_docLines_iff h, Doc.introduced, List.forall_mem_cons]
  exact and_iff_right (startsWith_space sentence)

theorem oneComment_ofGetter {indent : String} (h : IsIndent indent) (raw : String) :
    OneComment (docLines indent (some (Doc.ofGetter raw))) := by
  refine (oneComment_docLines_iff h _).2 fun body hbody => ?_
  obtain ⟨line, -, rfl⟩ := List.mem_map.1 hbody
  split
  · rfl
  · rw [String.ofList_cons]
    exact startsWith_space _

theorem oneComment_serviceDoc_iff {s : Service} {raw : String} (hraw : s.leadingComment = some raw)
    {doc : Option Doc}
    (hdoc : doc ∈ [(ManagerPlan.ofService s).typeDoc, (ManagerPlan.ofService s).constructorDoc]) :
    OneComment (docLines "" doc) ↔ NoSlashLine raw := by
  have hintro : ∃ sentence, doc = some (Doc.introduced sentence raw) := by
    simp only [ManagerPlan.ofService, hraw, Option.map_some, List.mem_cons, List.not_mem_nil,
      or_false] at hdoc
    rcases hdoc with rfl | rfl
    · exact ⟨_, rfl⟩
    · exact ⟨_, rfl⟩
  obtain ⟨sentence, rfl⟩ := hintro
  exact oneComment_introduced_iff (by decide) sentence raw

theorem oneComment_wrapperDoc_iff {s : Service} {w : Wrapper}
    (hw : w ∈ (ManagerPlan.ofService s).wrappers) {raw : String}
    (hraw : w.method.leadingComment = some raw) :
    OneComment (docLines "  " w.doc) ↔ w.access = .get ∨ NoSlashLine raw := by
  obtain ⟨h, hh, hw⟩ := List.mem_flatMap.1 hw
  obtain ⟨m, -, rfl⟩ := List.mem_map.1 hh
  simp only [Handle.wrappers, Handle.ofMethod, List.mem_cons, List.not_mem_nil, or_false] at hw
  rcases hw with rfl | rfl
  · have hdoc : OneComment (docLines "  " (some (Doc.ofGetter raw))) :=
      oneComment_ofGetter (by decide) raw
    rw [hraw, Option.map_some]
    exact iff_of_true hdoc (Or.inl rfl)
  · rw [hraw, Option.map_some, oneComment_introduced_iff (by decide)]
    simp

/-! ## Blocks of a module -/

theorem typeDoc_infix_managerLines (n : ModuleNames) (p : ManagerPlan) :
    docLines "" p.typeDoc <:+: managerLines n p := by
  simp only [managerLines, classLines, List.append_assoc]
  exact (List.prefix_append _ _).isInfix

theorem constructorDoc_infix_managerLines (n : ModuleNames) (p : ManagerPlan) :
    docLines "" p.constructorDoc <:+: managerLines n p := by
  simp only [managerLines, constructorLines, List.append_assoc]
  exact List.infix_append' _ _ _

theorem wrapperDoc_infix_managerLines (n : ModuleNames) {p : ManagerPlan} {w : Wrapper}
    (hw : w ∈ p.wrappers) : docLines "  " w.doc <:+: managerLines n p := by
  have hwrapper : docLines "  " w.doc <:+: wrapperLines n w := List.infix_append _ _ _
  have hclass : p.wrappers.flatMap (wrapperLines n) <:+: classLines n p := List.infix_append _ _ _
  exact hwrapper.trans ((infix_flatMap hw _).trans
    (hclass.trans (List.prefix_append _ _).isInfix))

/-- **Where doc blocks close.** In the module of `services` stand, for a service with a comment, the
blocks of its class and of its constructor, and for a method with a comment those of its wrappers.
The block of a getter is one comment whatever the comment of its method is. Any other is one comment
exactly when no line of the comment it repeats begins with `/`. -/
theorem doc_block_closed_iff (base : Location) (f : SourceFile) (services : List Service)
    (c : Config) {s : Service} (hs : s ∈ services) :
    let p := ManagerPlan.ofService s
    let file := lines base f (services.map ManagerPlan.ofService) c
    (∀ raw, s.leadingComment = some raw → ∀ doc ∈ [p.typeDoc, p.constructorDoc],
        docLines "" doc <:+: file ∧ (OneComment (docLines "" doc) ↔ NoSlashLine raw)) ∧
      ∀ w ∈ p.wrappers, ∀ raw, w.method.leadingComment = some raw →
        docLines "  " w.doc <:+: file ∧
          (OneComment (docLines "  " w.doc) ↔ w.access = .get ∨ NoSlashLine raw) := by
  intro p file
  have hfile : managerLines (names base f (services.map ManagerPlan.ofService) c) p <:+: file :=
    managerLines_infix_lines base f c (List.mem_map_of_mem hs)
  refine ⟨fun raw hraw doc hdoc => ⟨?_, oneComment_serviceDoc_iff hraw hdoc⟩,
    fun w hw raw hraw => ⟨?_, oneComment_wrapperDoc_iff hw hraw⟩⟩
  · simp only [List.mem_cons, List.not_mem_nil, or_false] at hdoc
    rcases hdoc with rfl | rfl
    · exact (typeDoc_infix_managerLines _ p).trans hfile
    · exact (constructorDoc_infix_managerLines _ p).trans hfile
  · exact (wrapperDoc_infix_managerLines _ hw).trans hfile

/-- A service with a comment, and with a method whose comment begins with `/`. -/
def commentedCache : Service where
  name := "OrderCache"
  methods := [getOrder]
  leadingComment := some " Caches orders.\n See */ below.\n"
where
  order : MessageRef := ⟨"shop.v1.Order", "Order", "Order", "shop/v1/order.proto"⟩
  getOrder : Method :=
    ⟨"GetOrder", "OrderCache", order, order, some "/ Fetches an order.\n", false, false⟩

/-- The class block is closed where it should be, the block of the refresher is not. -/
theorem doc_block_closed_iff_commentedCache :
    let p := ManagerPlan.ofService commentedCache
    let refresher := (Handle.ofMethod "OrderCache" commentedCache.getOrder).refresher
    commentedCache ∈ [commentedCache] ∧ OneComment (docLines "" p.typeDoc) ∧
      refresher ∈ p.wrappers ∧ ¬ OneComment (docLines "  " refresher.doc) := by
  intro p refresher
  have h := doc_block_closed_iff .root default [commentedCache] {} List.mem_cons_self
  have hrefresher : refresher ∈ p.wrappers :=
    List.mem_flatMap.2 ⟨_, List.mem_cons_self, List.mem_cons_of_mem _ List.mem_cons_self⟩
  refine ⟨List.mem_cons_self, (h.1 _ rfl _ List.mem_cons_self).2.2 (by decide), hrefresher, ?_⟩
  rw [(h.2 refresher hrefresher _ rfl).2]
  decide

/-- A comment that begins with `/` leaves its block. -/
theorem slash_line_leaves_doc_block :
    ¬ ∀ (s : Service) (doc : Doc), (ManagerPlan.ofService s).typeDoc = some doc →
      OneComment (docLines "" (some doc)) := by
  intro hall
  have h := hall ⟨"OrderCache", [], some "/ Caches orders.\n"⟩ _ rfl
  have hno : ¬ NoSlashLine "/ Caches orders.\n" := by decide
  exact hno ((oneComment_introduced_iff (by decide) _ _).1 h)

end CacheGen.TypeScript
