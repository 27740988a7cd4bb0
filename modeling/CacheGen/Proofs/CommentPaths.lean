import CacheGen.Proofs.Joined
import CacheGen.Proofs.MapLookup
import CacheGen.Proofs.Numerals
import CacheGen.Proofs.Resolution

/-!
# Comments of elements

Comments are filed under keys, the paths of their spans written as text. A key is read back to the
numbers of its path, so paths that differ have different keys (`pathKey_injective`), and what is
found under the key of a path was filed for this path. Of several comments that is the last
(`leadingComment_eq_some_iff`).

Resolving numbers the services of a file and the methods of a service, and looks under the paths made
of these numbers.

**Theorem (`comments_on_own_elements`).** Every service and every method of a model has the comment of
the last span that is at its path and has one. No span at another path has a say in it.
-/

namespace CacheGen.Proto

/-! ## Keys -/

/-- Cut at its dots, the key of a path gives its numbers. -/
theorem pieces_pathKey {path : List ℤ} (h : path ≠ []) :
    Text.pieces '.' (pathKey path) = path.map Int.repr := by
  refine Text.pieces_intercalate (by simpa using h) ?_
  rw [List.forall_mem_map]
  intro n _ hdot
  rcases Text.mem_intRepr hdot with hsign | hdigit
  · exact absurd hsign (by decide)
  · exact absurd hdigit (by decide)

theorem pathKey_ne_empty {path : List ℤ} (h : path ≠ []) : pathKey path ≠ "" := by
  intro hkey
  have hpieces := pieces_pathKey h
  rw [hkey] at hpieces
  have hmem : "" ∈ path.map Int.repr := hpieces ▸ List.mem_cons_self
  obtain ⟨n, -, hn⟩ := List.mem_map.1 hmem
  exact Text.intRepr_ne_empty n hn

/-- **A key tells the path.** -/
theorem pathKey_injective : Function.Injective pathKey := by
  intro a b h
  by_cases ha : a = []
  · by_contra hne
    rw [ha] at h hne
    exact pathKey_ne_empty (Ne.symm hne) h.symm
  · by_cases hb : b = []
    · rw [hb] at h
      exact absurd h (pathKey_ne_empty ha)
    · have hnumbers : a.map Int.repr = b.map Int.repr := by
        rw [← pieces_pathKey ha, h, pieces_pathKey hb]
      exact List.map_injective_iff.2 Text.intRepr_injective hnumbers

/-! ## Looking up -/

theorem leadingComment_eq (f : File) (path : List ℤ) : f.leadingComment path =
    (f.spans.reverse.find? fun s => s.leadingComment ≠ "" ∧ s.path = path).map
      Span.leadingComment := by
  have hkey : ∀ s : Span, pathKey s.path = pathKey path ↔ s.path = path :=
    fun s => pathKey_injective.eq_iff
  rw [File.leadingComment, CommentIndex.ofSpans, OrderedMap.get?_ofEntries, ← List.map_reverse,
    List.find?_map, ← List.filter_reverse, List.find?_filter, Option.map_map]
  simp only [Function.comp_def, hkey, decide_eq_true_eq]

/-- There is a comment at the path, and this is the last one. -/
def LastAt (spans : List Span) (path : List ℤ) (comment : String) : Prop :=
  comment ≠ "" ∧ ∃ before after, spans = before ++ ⟨path, comment⟩ :: after ∧
    ∀ s ∈ after, s.path = path → s.leadingComment = ""

theorem leadingComment_eq_some_iff {f : File} {path : List ℤ} {comment : String} :
    f.leadingComment path = some comment ↔ LastAt f.spans path comment := by
  rw [leadingComment_eq, Option.map_eq_some_iff]
  constructor
  · rintro ⟨⟨path', comment'⟩, hfound, hcomment⟩
    obtain ⟨hspan, after, before, hspans, hafter⟩ := List.find?_eq_some_iff_append.1 hfound
    obtain ⟨hne, hpath⟩ := of_decide_eq_true hspan
    change comment' = comment at hcomment
    change comment' ≠ "" at hne
    change path' = path at hpath
    subst hcomment hpath
    refine ⟨hne, before.reverse, after.reverse, ?_, ?_⟩
    · rw [← List.reverse_reverse f.spans, hspans]
      simp
    · intro s hs hpath
      by_contra hsome
      have hno := hafter s (List.mem_reverse.1 hs)
      simp [hsome, hpath] at hno
  · rintro ⟨hne, before, after, hspans, hafter⟩
    refine ⟨⟨path, comment⟩, List.find?_eq_some_iff_append.2 ⟨by simpa using hne, after.reverse,
      before.reverse, ?_, ?_⟩, rfl⟩
    · rw [hspans]
      simp
    · intro s hs
      rw [Bool.not_eq_true', decide_eq_false_iff_not]
      rintro ⟨hsome, hpath⟩
      exact hsome (hafter s (List.mem_reverse.1 hs) hpath)

/-! ## Elements -/

/-- `comment?` is what the file says in front of the element at `path`. -/
def File.Says (f : File) (path : List ℤ) (comment? : Option String) : Prop :=
  ∀ comment, comment? = some comment ↔ LastAt f.spans path comment

/-- The model of the numbered method of service `s` has the comment of the method. -/
def File.SaysOfMethod (f : File) (s : ℕ) (e : Method × ℕ) (method : CacheGen.Method) : Prop :=
  method.name = e.1.name ∧ f.Says [6, s, 2, e.2] method.leadingComment

/-- The model of the numbered service has the comments of the service and of its methods. -/
def File.SaysOfService (f : File) (e : Service × ℕ) (service : CacheGen.Service) : Prop :=
  service.name = e.1.name ∧ f.Says [6, e.2] service.leadingComment ∧
    List.Forall₂ (f.SaysOfMethod e.2) e.1.methods.zipIdx service.methods

theorem Method.comment_of_resolve {types : TypeIndex} {service : String} {comment : Option String}
    {m : Method} {method : CacheGen.Method} (h : m.resolve types service comment = .ok method) :
    method.name = m.name ∧ method.leadingComment = comment := by
  obtain ⟨input, -, h⟩ := Outcome.bind_eq_ok.1 h
  obtain ⟨output, -, h⟩ := Outcome.bind_eq_ok.1 h
  rw [← Outcome.pure_eq_ok.1 h]
  exact ⟨rfl, rfl⟩

theorem File.saysOfService_of_resolve {types : TypeIndex} {f : File} {s : Service} {index : ℕ}
    {service : CacheGen.Service} (h : f.resolveService types s index = .ok service) :
    f.SaysOfService (s, index) service := by
  obtain ⟨methods, hmethods, h⟩ := Outcome.bind_eq_ok.1 h
  rw [← Outcome.pure_eq_ok.1 h]
  refine ⟨rfl, fun _ => leadingComment_eq_some_iff, (Outcome.mapM_eq_ok.1 hmethods).imp ?_⟩
  rintro ⟨m, i⟩ method hmethod
  obtain ⟨hname, hcomment⟩ := Method.comment_of_resolve hmethod
  exact ⟨hname, fun _ => hcomment ▸ leadingComment_eq_some_iff⟩

/-- **Comments are on their own elements.** Where the files of a request resolve, service number `s` of
a file has the comment of the last span at exactly `[6, s]` that is not empty, and its method number
`m` that of the last one at exactly `[6, s, 2, m]`; without such a span there is no comment. -/
theorem comments_on_own_elements {files : List File} {requested : List String}
    {imports : OrderedMap String String} {sources : List SourceFile}
    (h : SourceFile.ofProtos files requested imports = .ok sources) :
    List.Forall₂ (fun f source => List.Forall₂ f.SaysOfService f.services.zipIdx source.services)
      files sources := by
  refine (Outcome.mapM_eq_ok.1 h).imp fun f source hsource => ?_
  obtain ⟨-, hservices⟩ := File.resolve_ok hsource
  exact (Outcome.mapM_eq_ok.1 hservices).imp fun e service => File.saysOfService_of_resolve

/-- A file with comments at paths of elements and around them, some said twice. -/
def notedOrders : File where
  name := "order.proto"
  package := "shop"
  messages := [⟨"Order", []⟩]
  services := [⟨"PingCache", []⟩,
    ⟨"OrderCache", [{ name := "Find", inputType := ".shop.Order", outputType := "shop.Order" }]⟩]
  spans := [⟨[6, 1], " Draft.\n"⟩, ⟨[6, 1, 2, 0], " Finds one.\n"⟩, ⟨[6, 1], " Orders.\n"⟩,
    ⟨[6, 1], ""⟩, ⟨[6], " Services.\n"⟩, ⟨[6, 0, 3], " Options.\n"⟩, ⟨[-6, 0], " Nothing.\n"⟩,
    ⟨[6, 1, 2, 0, 2], " Input.\n"⟩]

/-- The source that `notedOrders` resolves to. -/
def notedSource : SourceFile where
  name := "order.proto"
  package := "shop"
  isRequested := false
  stem := "order"
  goPackageName := "shop"
  goImportPath := "."
  services := [⟨"PingCache", [], none⟩,
    ⟨"OrderCache", [⟨"Find", "OrderCache", order, order, some " Finds one.\n", false, false⟩],
      some " Orders.\n"⟩]
where
  order : MessageRef := notedOrders.refTo ["Order"]

theorem comments_on_own_elements_noted :
    SourceFile.ofProtos [notedOrders] [] ∅ = .ok [notedSource] ∧
      List.Forall₂ notedOrders.SaysOfService notedOrders.services.zipIdx notedSource.services := by
  have hok : SourceFile.ofProtos [notedOrders] [] ∅ = .ok [notedSource] := by rfl
  exact ⟨hok, (List.forall₂_cons.1 (comments_on_own_elements hok)).1⟩

end CacheGen.Proto
