import CacheGen.Proofs.Independence

/-!
# References and the messages they name

The messages of a file are trees. The names on the way to a message, from the outermost one on, are
its *nesting* (`Nested`), and its full name is the package followed by these. The index of a request
is filled from lists of nestings; a nesting is in the list of a file exactly when it leads to a
message (`mem_nestingsOfAll_iff`). Where full names are declared once, a full name tells the file and
the nesting (`Declares.unique`).

**Theorem (`resolution_exact`).** Files resolve exactly when none inherits its Go package and every
type name of a method, without one leading dot, is the full name of a declared message. They then
refer to that message, in its file and under its nesting. Otherwise resolving gets stuck, or the first
type name that is no full name is the error.
-/

namespace CacheGen.Proto

/-! ## Messages in their nesting -/

/-- The names on the way to one of the messages, or to one inside of them, outermost first. -/
inductive Nested : List Message → List String → Prop
  | outer {ms : List Message} {m : Message} : m ∈ ms → Nested ms [m.name]
  | inner {ms : List Message} {m : Message} {nesting : List String} :
      m ∈ ms → Nested m.nested nesting → Nested ms (m.name :: nesting)

theorem Nested.ne_nil {ms : List Message} {nesting : List String} (h : Nested ms nesting) :
    nesting ≠ [] := by
  cases h <;> exact List.cons_ne_nil _ _

theorem nested_cons_iff {m : Message} {ms : List Message} {nesting : List String} :
    Nested (m :: ms) nesting ↔
      (∃ rest, nesting = m.name :: rest ∧ (rest = [] ∨ Nested m.nested rest)) ∨
        Nested ms nesting := by
  constructor
  · rintro (hm | ⟨hm, hrest⟩)
    · rcases List.mem_cons.1 hm with rfl | hm
      · exact Or.inl ⟨[], rfl, Or.inl rfl⟩
      · exact Or.inr (.outer hm)
    · rcases List.mem_cons.1 hm with rfl | hm
      · exact Or.inl ⟨_, rfl, Or.inr hrest⟩
      · exact Or.inr (.inner hm hrest)
  · rintro (⟨rest, rfl, rfl | hrest⟩ | h)
    · exact .outer List.mem_cons_self
    · exact .inner List.mem_cons_self hrest
    · cases h with
      | outer hm => exact .outer (List.mem_cons_of_mem m hm)
      | inner hm hrest => exact .inner (List.mem_cons_of_mem m hm) hrest

mutual

theorem Message.mem_nestings_iff {outer nesting : List String} : (m : Message) →
    (nesting ∈ m.nestings outer ↔
      ∃ rest, nesting = outer ++ m.name :: rest ∧ (rest = [] ∨ Nested m.nested rest))
  | ⟨name, nested⟩ => by
    have hinner : nesting ∈ nestingsOfAll (outer ++ [name]) nested ↔
        ∃ rest, nesting = outer ++ [name] ++ rest ∧ Nested nested rest :=
      mem_nestingsOfAll_iff nested
    rw [Message.nestings, List.mem_cons, hinner]
    constructor
    · rintro (rfl | ⟨rest, rfl, hrest⟩)
      · exact ⟨[], rfl, Or.inl rfl⟩
      · exact ⟨rest, List.append_assoc _ _ _, Or.inr hrest⟩
    · rintro ⟨rest, rfl, rfl | hrest⟩
      · exact Or.inl rfl
      · exact Or.inr ⟨rest, (List.append_assoc outer [name] rest).symm, hrest⟩

/-- **The list of nestings holds those that lead to a message.** -/
theorem mem_nestingsOfAll_iff {outer nesting : List String} : (ms : List Message) →
    (nesting ∈ nestingsOfAll outer ms ↔ ∃ rest, nesting = outer ++ rest ∧ Nested ms rest)
  | [] => by
    rw [nestingsOfAll]
    exact iff_of_false List.not_mem_nil fun ⟨_, _, h⟩ => by cases h <;> contradiction
  | m :: ms => by
    rw [nestingsOfAll, List.mem_append, Message.mem_nestings_iff m, mem_nestingsOfAll_iff ms]
    simp only [nested_cons_iff]
    constructor
    · rintro (⟨rest, rfl, hrest⟩ | ⟨rest, rfl, hrest⟩)
      · exact ⟨m.name :: rest, rfl, Or.inl ⟨rest, rfl, hrest⟩⟩
      · exact ⟨rest, rfl, Or.inr hrest⟩
    · rintro ⟨_, rfl, ⟨rest, rfl, hrest⟩ | hrest⟩
      · exact Or.inl ⟨rest, rfl, hrest⟩
      · exact Or.inr ⟨_, rfl, hrest⟩

end

/-! ## Declarations -/

/-- The names from the package down to a message. -/
def qualified (package : String) (nesting : List String) : String :=
  ".".intercalate (if package = "" then nesting else package :: nesting)

theorem fullName_refTo (f : File) {nesting : List String} (h : nesting ≠ []) :
    (f.refTo nesting).fullName = qualified f.package nesting := by
  unfold File.refTo qualified
  split_ifs
  · exact String.empty_append
  · exact (String.intercalate_cons_of_ne_nil h).symm

/-- `f` is one of the files, and the message at `nesting` in it has this full name. -/
structure Declares (files : List File) (fullName : String) (f : File) (nesting : List String) :
    Prop where
  file : f ∈ files
  nested : Nested f.messages nesting
  fullName : qualified f.package nesting = fullName

section

variable {files : List File} {fullName : String}

theorem declaresAt_iff {file : String} {nesting : List String} :
    DeclaresAt files fullName file nesting ↔
      ∃ f, f.name = file ∧ Declares files fullName f nesting := by
  unfold DeclaresAt
  simp only [mem_nestingsOfAll_iff, List.nil_append]
  constructor
  · rintro ⟨f, hf, rfl, ⟨_, rfl, hnested⟩, hname⟩
    exact ⟨f, rfl, hf, hnested, (fullName_refTo f hnested.ne_nil).symm.trans hname⟩
  · rintro ⟨f, rfl, hf, hnested, hname⟩
    exact ⟨f, hf, rfl, ⟨_, rfl, hnested⟩, (fullName_refTo f hnested.ne_nil).trans hname⟩

theorem mem_messageNames_iff :
    fullName ∈ messageNames files ↔ ∃ f nesting, Declares files fullName f nesting := by
  unfold messageNames
  constructor
  · intro h
    obtain ⟨r, hr, rfl⟩ := List.mem_map.1 h
    obtain ⟨f, hf, hr⟩ := List.mem_flatMap.1 hr
    obtain ⟨nesting, hnesting, rfl⟩ := List.mem_map.1 hr
    obtain ⟨f, -, hdeclares⟩ := declaresAt_iff.1 ⟨f, hf, rfl, hnesting, rfl⟩
    exact ⟨f, nesting, hdeclares⟩
  · rintro ⟨f, nesting, hdeclares⟩
    obtain ⟨g, hg, -, hnesting, rfl⟩ := declaresAt_iff.2 ⟨f, rfl, hdeclares⟩
    exact List.mem_map_of_mem (List.mem_flatMap.2 ⟨g, hg, List.mem_map_of_mem hnesting⟩)

/-- A full name that is declared once tells the file and the nesting. -/
theorem Declares.unique (hnodup : (messageNames files).Nodup) {f f' : File}
    {nesting nesting' : List String} (h : Declares files fullName f nesting)
    (h' : Declares files fullName f' nesting') : f' = f ∧ nesting' = nesting := by
  let places := files.flatMap fun f => (nestingsOfAll [] f.messages).map fun n => (f, n)
  have hmem : ∀ {g n}, Declares files fullName g n → (g, n) ∈ places := fun hg =>
    List.mem_flatMap.2 ⟨_, hg.file,
      List.mem_map_of_mem ((mem_nestingsOfAll_iff _).2 ⟨_, rfl, hg.nested⟩)⟩
  have hkey : ∀ {g n}, Declares files fullName g n → (g.refTo n).fullName = fullName :=
    fun hg => (fullName_refTo _ hg.nested.ne_nil).trans hg.fullName
  have hkeys : places.map (fun e => (e.1.refTo e.2).fullName) = messageNames files := by
    simp only [places, messageNames, List.map_flatMap, List.map_map, File.declared]
    rfl
  have heq := List.inj_on_of_nodup_map (hkeys ▸ hnodup) (hmem h') (hmem h)
    ((hkey h').trans (hkey h).symm)
  exact Prod.mk.inj heq

/-- The type name, without one leading dot, is the full name of a message that is declared. -/
def IsDeclared (files : List File) (typeName : String) : Prop :=
  ∃ f nesting, Declares files (bareTypeName typeName) f nesting

theorem contains_iff_isDeclared {typeName : String} :
    (TypeIndex.ofFiles files).contains (bareTypeName typeName) = true ↔
      IsDeclared files typeName :=
  (TypeIndex.contains_ofFiles files _).trans mem_messageNames_iff

end

/-! ## References of a model -/

/-- `r` is the one declared message that the type name is for. -/
def RefersTo (files : List File) (typeName : String) (r : MessageRef) : Prop :=
  ∃ f nesting, Declares files (bareTypeName typeName) f nesting ∧
    (∀ f' nesting', Declares files (bareTypeName typeName) f' nesting' →
      f' = f ∧ nesting' = nesting) ∧
    r = {
      fullName := bareTypeName typeName
      localName := "_".intercalate nesting
      scopedName := ".".intercalate nesting
      file := f.name }

/-- The model of a method, with the messages that it takes and returns. -/
structure Method.ResolvesTo (files : List File) (service : String) (m : Method)
    (method : CacheGen.Method) : Prop where
  name : method.name = m.name
  parent : method.parent = service
  input : RefersTo files m.inputType method.input
  output : RefersTo files m.outputType method.output

structure Service.ResolvesTo (files : List File) (s : Service) (service : CacheGen.Service) :
    Prop where
  name : service.name = s.name
  methods : List.Forall₂ (Method.ResolvesTo files s.name) s.methods service.methods

structure File.ResolvesTo (files : List File) (f : File) (source : SourceFile) : Prop where
  name : source.name = f.name
  package : source.package = f.package
  services : List.Forall₂ (Service.ResolvesTo files) f.services source.services

section

variable {files : List File} (hnodup : (messageNames files).Nodup)

include hnodup

theorem refersTo_of_resolve {typeName user : String} {r : MessageRef}
    (h : (TypeIndex.ofFiles files).resolve typeName user = .ok r) : RefersTo files typeName r := by
  unfold TypeIndex.resolve at h
  split at h
  · next hget =>
    cases h
    have hcontains : (TypeIndex.ofFiles files).contains (bareTypeName typeName) = true := by
      rw [OrderedMap.contains, hget]
      rfl
    obtain ⟨f, nesting, hdeclares⟩ := contains_iff_isDeclared.1 hcontains
    refine ⟨f, nesting, hdeclares, fun _ _ => hdeclares.unique hnodup, ?_⟩
    have htells := (declaresAt_iff.2 ⟨f, rfl, hdeclares⟩).get? hnodup
    exact Option.some.inj (hget.symm.trans htells)
  · cases h

theorem Method.resolvesTo_of_resolve {service : String} {comment : Option String} {m : Method}
    {method : CacheGen.Method} (h : m.resolve (.ofFiles files) service comment = .ok method) :
    m.ResolvesTo files service method := by
  obtain ⟨input, hinput, h⟩ := Outcome.bind_eq_ok.1 h
  obtain ⟨output, houtput, h⟩ := Outcome.bind_eq_ok.1 h
  rw [← Outcome.pure_eq_ok.1 h]
  exact ⟨rfl, rfl, refersTo_of_resolve hnodup hinput, refersTo_of_resolve hnodup houtput⟩

theorem Service.resolvesTo_of_resolve {f : File} {s : Service} {index : ℕ}
    {service : CacheGen.Service} (h : f.resolveService (.ofFiles files) s index = .ok service) :
    s.ResolvesTo files service := by
  obtain ⟨methods, hmethods, h⟩ := Outcome.bind_eq_ok.1 h
  rw [← Outcome.pure_eq_ok.1 h]
  exact ⟨rfl, forall₂_of_zipIdx ((Outcome.mapM_eq_ok.1 hmethods).imp fun _ _ =>
    Method.resolvesTo_of_resolve hnodup)⟩

theorem File.resolvesTo_of_resolve {f : File} {requested : List String}
    {imports : OrderedMap String String} {source : SourceFile}
    (h : f.resolve (.ofFiles files) requested imports = .ok source) : f.ResolvesTo files source := by
  obtain ⟨hheader, hservices⟩ := File.resolve_ok h
  refine ⟨congrArg SourceFile.name hheader, congrArg SourceFile.package hheader, ?_⟩
  exact forall₂_of_zipIdx ((Outcome.mapM_eq_ok.1 hservices).imp fun _ _ =>
    Service.resolvesTo_of_resolve hnodup)

end

/-! ## The first reference that dangles -/

/-- `ref` is not to a declared message, and all references before it are, file by file, service by
service and method by method, each input before the output. -/
def FirstDangling (files : List File) (ref : Reference) : Prop :=
  ∃ before after, files.flatMap File.references = before ++ ref :: after ∧
    (∀ r ∈ before, IsDeclared files r.typeName) ∧ ¬ IsDeclared files ref.typeName

theorem dangling?_eq_some_iff {files : List File} {ref : Reference} :
    dangling? files = some ref ↔ FirstDangling files ref := by
  rw [dangling?, List.find?_eq_some_iff_append]
  simp only [mem_messageNames_iff, decide_eq_true_eq, Bool.not_eq_true', decide_eq_false_iff_not,
    not_not]
  constructor
  · rintro ⟨href, before, after, hall, hbefore⟩
    exact ⟨before, after, hall, hbefore, href⟩
  · rintro ⟨before, after, hall, hbefore, href⟩
    exact ⟨href, before, after, hall, hbefore⟩

theorem dangling?_eq_none_iff {files : List File} :
    dangling? files = none ↔ ∀ f ∈ files, ∀ s ∈ f.services, ∀ m ∈ s.methods,
      IsDeclared files m.inputType ∧ IsDeclared files m.outputType := by
  rw [dangling?, List.find?_eq_none]
  simp only [mem_messageNames_iff, decide_eq_true_eq, not_not, List.forall_mem_flatMap,
    File.references, Method.references, List.forall_mem_cons, List.not_mem_nil, false_implies,
    implies_true, and_true]
  rfl

/-- **Resolution is exact.** Let each full name be declared once. The files resolve exactly when none
of them inherits its Go package and every input and every output of a method is declared. Their model
then has each method with the messages that its type names are for. If they do not resolve, they get
stuck, or the error is about the first type name that is not declared, and names the method. -/
theorem resolution_exact {files : List File} (hnodup : (messageNames files).Nodup)
    (requested : List String) (imports : OrderedMap String String) :
    ((∃ sources, SourceFile.ofProtos files requested imports = .ok sources) ↔
        (∀ f ∈ files, ¬ f.Inherits imports) ∧
          ∀ f ∈ files, ∀ s ∈ f.services, ∀ m ∈ s.methods,
            IsDeclared files m.inputType ∧ IsDeclared files m.outputType) ∧
      (∀ sources, SourceFile.ofProtos files requested imports = .ok sources →
        List.Forall₂ (File.ResolvesTo files) files sources) ∧
      ∀ e, SourceFile.ofProtos files requested imports = .error e →
        (Stuck (messageNames files) imports files ∧ e = packageFault) ∨
          (¬ Stuck (messageNames files) imports files ∧ e.code = "UNKNOWN_TYPE" ∧
            ∃ ref, FirstDangling files ref ∧ e = .unknownType ref.typeName ref.user) := by
  refine ⟨?_, fun sources h => ?_, fun e h => ?_⟩
  · rw [exists_ofProtos_iff, dangling?_eq_none_iff]
  · exact (Outcome.mapM_eq_ok.1 h).imp fun _ _ => File.resolvesTo_of_resolve hnodup
  · by_cases hstuck : Stuck (messageNames files) imports files
    · rw [ofProtos_of_stuck hstuck requested] at h
      exact .inl ⟨hstuck, (Except.error.inj h).symm⟩
    · have herror := error?_ofProtos hstuck requested
      rw [Outcome.error?_eq_some.2 h] at herror
      obtain ⟨ref, href, rfl⟩ := Option.map_eq_some_iff.1 herror.symm
      exact .inr ⟨hstuck, rfl, ref, dangling?_eq_some_iff.1 href, rfl⟩

/-- The messages of `items` are found by `lookups`, which does not resolve without them. -/
theorem resolution_exact_lookups :
    (∃ sources, SourceFile.ofProtos [items [], lookups] [] ∅ = .ok sources ∧
      List.Forall₂ (File.ResolvesTo [items [], lookups]) [items [], lookups] sources) ∧
    (SourceFile.ofProtos [lookups] [] ∅ = .error (.unknownType ".shop.Item.Key" "ItemCache.Find") ∧
      FirstDangling [lookups] ⟨".shop.Item.Key", "ItemCache.Find"⟩) := by
  have hok : Outcome.error? (SourceFile.ofProtos [items [], lookups] [] ∅) = none := by
    decide +kernel
  have herror : Outcome.error? (SourceFile.ofProtos [lookups] [] ∅) =
      some (.unknownType ".shop.Item.Key" "ItemCache.Find") := by
    decide +kernel
  obtain ⟨sources, hsources⟩ := Outcome.error?_eq_none.1 hok
  have hrefused := Outcome.error?_eq_some.1 herror
  have hboth : (messageNames [items [], lookups]).Nodup := by decide +kernel
  have hone : (messageNames [lookups]).Nodup := by decide +kernel
  obtain ⟨-, hresolved, -⟩ := resolution_exact hboth [] ∅
  obtain ⟨-, -, hfailed⟩ := resolution_exact hone [] ∅
  rcases hfailed _ hrefused with ⟨-, hfault⟩ | ⟨-, -, ⟨typeName, user⟩, hfirst, href⟩
  · cases hfault
  · obtain ⟨rfl, rfl⟩ := GenError.unknownType.inj href
    exact ⟨⟨sources, hsources, hresolved _ hsources⟩, hrefused, hfirst⟩

/-- A file that refers to nothing does not resolve under the name of an inherited member. -/
theorem constructor_does_not_resolve :
    ¬ ∀ (files : List File) (requested : List String) (imports : OrderedMap String String),
      (messageNames files).Nodup →
      (∀ f ∈ files, ∀ s ∈ f.services, ∀ m ∈ s.methods,
        IsDeclared files m.inputType ∧ IsDeclared files m.outputType) →
      ∃ sources, SourceFile.ofProtos files requested imports = .ok sources := by
  intro hall
  obtain ⟨sources, hsources⟩ := hall [{ name := "constructor" }] [] ∅ List.nodup_nil (by simp)
  have hstuck : SourceFile.ofProtos [{ name := "constructor" }] [] ∅ = .error packageFault :=
    ofProtos_of_stuck (.here (by decide)) []
  rw [hstuck] at hsources
  cases hsources

end CacheGen.Proto
