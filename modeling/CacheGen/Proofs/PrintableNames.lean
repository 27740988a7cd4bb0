import CacheGen.Generate
import CacheGen.Proofs.Imports
import CacheGen.Proofs.OneLine

/-!
# Names that stand in lines

The names of services, methods and messages in a descriptor are identifiers, those of messages once
for each message on the way. No name that a target makes of these has a line feed in it: not under
the Go spelling, not as a field, not under the aliases of a TypeScript module. An import statement
is one line too, whatever the module is called, since that is quoted.
-/

namespace CacheGen

open Text (OneLine)
open Naming (IsIdentifier)

/-! ## Names in a descriptor -/

/-- The names of the message are joined from those of the messages on the way to it. -/
def MessageRef.IsNamed (r : MessageRef) : Prop :=
  ∃ nesting : List String, (∀ name ∈ nesting, IsIdentifier name) ∧
    r.localName = "_".intercalate nesting ∧ r.scopedName = ".".intercalate nesting

structure Method.IsNamed (m : Method) : Prop where
  name : IsIdentifier m.name
  input : m.input.IsNamed
  output : m.output.IsNamed

structure Service.IsNamed (s : Service) : Prop where
  name : IsIdentifier s.name
  methods : ∀ m ∈ s.methods, m.IsNamed

/-! ## Names in a file -/

/-- The names that lines for the method are made of. -/
structure Method.IsPrintable (m : Method) : Prop where
  name : OneLine m.name
  input : OneLine m.input.localName
  output : OneLine m.output.localName

structure Service.IsPrintable (s : Service) : Prop where
  name : IsIdentifier s.name
  methods : ∀ m ∈ s.methods, m.IsPrintable

theorem MessageRef.IsNamed.oneLine {r : MessageRef} (h : r.IsNamed) :
    OneLine r.localName ∧ OneLine r.scopedName := by
  obtain ⟨nesting, hnames, hlocal, hscoped⟩ := h
  have hlines : ∀ name ∈ nesting, OneLine name := fun name hname => (hnames name hname).oneLine
  rw [hlocal, hscoped]
  exact ⟨Text.oneLine_intercalate (by decide) hlines, Text.oneLine_intercalate (by decide) hlines⟩

/-- Both targets spell named services so that they can be printed. -/
theorem Target.isPrintable_renameService (t : Target) {s : Service} (h : s.IsNamed) :
    (t.renameService s).IsPrintable := by
  cases t with
  | typeScript =>
    refine ⟨h.name, ?_⟩
    intro m hm
    obtain ⟨hname, hinput, houtput⟩ := h.methods m hm
    exact ⟨hname.oneLine, hinput.oneLine.1, houtput.oneLine.1⟩
  | go =>
    refine ⟨Naming.isIdentifier_goName h.name, ?_⟩
    intro m hm
    obtain ⟨m', hm', rfl⟩ := List.mem_map.1 hm
    obtain ⟨hname, hinput, houtput⟩ := h.methods m' hm'
    exact ⟨Naming.oneLine_goName hname.oneLine, Naming.oneLine_goName hinput.oneLine.2,
      Naming.oneLine_goName houtput.oneLine.2⟩

theorem Target.isPrintable_of_mem_candidates (t : Target) (suffix : String)
    {services : List Service} (h : ∀ s ∈ services, s.IsNamed) :
    ∀ s ∈ t.candidates suffix services, s.IsPrintable := by
  intro s hs
  obtain ⟨s', hs', rfl⟩ := List.mem_map.1 (List.mem_of_mem_filter hs)
  exact t.isPrintable_renameService (h s' hs')

/-! ## Plans -/

/-- No body of the doc leaves its line. -/
def Doc.IsPrintable (doc : Doc) : Prop := ∀ body ∈ doc, OneLine body

theorem Doc.isPrintable_introduced {sentence : String} (h : OneLine sentence) (raw : String) :
    (Doc.introduced sentence raw).IsPrintable := by
  intro body hbody
  rcases List.mem_cons.1 hbody with rfl | hbody
  · exact Text.oneLine_append.2 ⟨by decide, h⟩
  · exact Comment.oneLine_bodies hbody

theorem Doc.isPrintable_ofGetter (raw : String) : (Doc.ofGetter raw).IsPrintable := by
  intro body hbody
  obtain ⟨line, hline, rfl⟩ := List.mem_map.1 hbody
  split_ifs
  · decide
  · rw [Text.oneLine_ofList, List.mem_cons, not_or]
    exact ⟨by decide, Text.not_mem_of_mem_splitOn hline⟩

structure Wrapper.IsPrintable (w : Wrapper) : Prop where
  method : w.method.IsPrintable
  name : w.name = Naming.getterName w.method.name ∨ w.name = Naming.refresherName w.method.name
  field : OneLine w.field
  doc : ∀ doc ∈ w.doc, doc.IsPrintable

structure Handle.IsPrintable (h : Handle) : Prop where
  method : h.method.IsPrintable
  field : OneLine h.field
  updateParam : h.updateParam = Naming.updateParam h.method.name

structure ManagerPlan.IsPrintable (p : ManagerPlan) : Prop where
  managerName : OneLine p.managerName
  constructorName : p.constructorName = Naming.constructorName p.managerName
  typeDoc : ∀ doc ∈ p.typeDoc, doc.IsPrintable
  constructorDoc : ∀ doc ∈ p.constructorDoc, doc.IsPrintable
  handles : ∀ h ∈ p.handles, h.IsPrintable
  wrappers : ∀ w ∈ p.wrappers, w.IsPrintable

theorem Wrapper.IsPrintable.oneLine_name {w : Wrapper} (h : w.IsPrintable) : OneLine w.name := by
  rcases h.name with hname | hname
  · rw [hname]
    exact Text.oneLine_append.2 ⟨by decide, h.method.name⟩
  · rw [hname]
    exact Text.oneLine_append.2 ⟨by decide, h.method.name⟩

theorem Handle.IsPrintable.oneLine_updateParam {h : Handle} (hh : h.IsPrintable) :
    OneLine h.updateParam := by
  rw [hh.updateParam, Naming.updateParam, Text.oneLine_append, Text.oneLine_append]
  exact ⟨⟨by decide, hh.method.name⟩, by decide⟩

theorem ManagerPlan.isPrintable_ofService {s : Service} (h : s.IsPrintable) :
    (ManagerPlan.ofService s).IsPrintable := by
  have hmanager : OneLine (Naming.managerName s.name) := by
    unfold Naming.managerName
    split_ifs
    · decide
    · exact Text.oneLine_append.2 ⟨h.name.oneLine, by decide⟩
  have hconstructor : OneLine (Naming.constructorName (Naming.managerName s.name)) :=
    Text.oneLine_append.2 ⟨by decide, hmanager⟩
  have hfield : ∀ m ∈ s.methods, OneLine (Naming.handleField s.name m.name) :=
    fun m hm => Naming.oneLine_handleField h.name (h.methods m hm).name
  refine ⟨hmanager, rfl, ?typeDoc, ?constructorDoc, ?handles, ?wrappers⟩
  case typeDoc =>
    intro doc hdoc
    obtain ⟨raw, -, rfl⟩ := Option.map_eq_some_iff.1 hdoc
    exact Doc.isPrintable_introduced (Text.oneLine_append.2 ⟨hmanager, by decide⟩) raw
  case constructorDoc =>
    intro doc hdoc
    obtain ⟨raw, -, rfl⟩ := Option.map_eq_some_iff.1 hdoc
    exact Doc.isPrintable_introduced (Text.oneLine_append.2 ⟨hconstructor, by decide⟩) raw
  case handles =>
    intro hd hmem
    obtain ⟨m, hm, rfl⟩ := List.mem_map.1 hmem
    exact ⟨h.methods m hm, hfield m hm, rfl⟩
  case wrappers =>
    intro w hw
    obtain ⟨hd, hmem, hw⟩ := List.mem_flatMap.1 hw
    obtain ⟨m, hm, rfl⟩ := List.mem_map.1 hmem
    simp only [Handle.wrappers, Handle.ofMethod, List.mem_cons, List.not_mem_nil, or_false] at hw
    rcases hw with rfl | rfl
    · refine ⟨h.methods m hm, .inl rfl, hfield m hm, ?_⟩
      intro doc hdoc
      obtain ⟨raw, -, rfl⟩ := Option.map_eq_some_iff.1 hdoc
      exact Doc.isPrintable_ofGetter raw
    · refine ⟨h.methods m hm, .inr rfl, hfield m hm, ?_⟩
      intro doc hdoc
      obtain ⟨raw, -, rfl⟩ := Option.map_eq_some_iff.1 hdoc
      exact Doc.isPrintable_introduced (by decide) raw

/-! ## Bound names -/

theorem Scope.oneLine_claim (s : Scope) {wanted : String} (h : OneLine wanted) :
    OneLine (s.claim wanted).1 := by
  obtain ⟨n, -, hname, -⟩ := s.firstFree_spec wanted
  show OneLine (s.firstFree wanted)
  rw [hname]
  cases n with
  | zero => exact h
  | succ n =>
    rw [candidate, Text.oneLine_append, Text.oneLine_append]
    exact ⟨⟨h, by decide⟩, Text.oneLine_toString _⟩

theorem OrderedMap.forall_insert {κ ν : Type} [DecidableEq κ] {p : ν → Prop}
    {m : OrderedMap κ ν} (h : ∀ e ∈ m.entries, p e.2) (k : κ) {v : ν} (hv : p v) :
    ∀ e ∈ (m.insert k v).entries, p e.2 := by
  rintro ⟨k', v'⟩ he
  rw [mem_entries_iff, get?_insert] at he
  split_ifs at he with hk
  · cases he
    exact hv
  · exact h (k', v') (mem_entries_iff.2 he)

/-- Both names of the binding stay in their line. -/
def Binding.IsPrintable (x : Binding) : Prop := OneLine x.exported ∧ OneLine x.bound

namespace MessageBindings

structure IsPrintable (b : MessageBindings) : Prop where
  types : ∀ e ∈ b.types.entries, e.2.IsPrintable
  schemas : ∀ e ∈ b.schemas.entries, e.2.IsPrintable

variable {b : MessageBindings} {moduleOf : String → String} {r : MessageRef}

theorem IsPrintable.typeName (h : b.IsPrintable) (hr : OneLine r.localName) :
    OneLine (b.typeName r) := by
  unfold MessageBindings.typeName
  split
  · next x hx => exact (h.types _ (OrderedMap.mem_entries_iff.2 hx)).2
  · exact hr

theorem IsPrintable.schemaName (h : b.IsPrintable) (hr : OneLine r.localName) :
    OneLine (b.schemaName r) := by
  unfold MessageBindings.schemaName
  split
  · next x hx => exact (h.schemas _ (OrderedMap.mem_entries_iff.2 hx)).2
  · exact Text.oneLine_append.2 ⟨h.typeName hr, by decide⟩

theorem IsPrintable.useType (h : b.IsPrintable) (hr : OneLine r.localName) :
    (b.useType moduleOf r).IsPrintable := by
  by_cases hbound : b.types.contains r.fullName = true
  · rw [useType_of_bound hbound]
    exact ⟨h.types, h.schemas⟩
  · rw [useType_of_new (Bool.eq_false_iff.2 hbound)]
    exact ⟨OrderedMap.forall_insert h.types _ ⟨hr, b.scope.oneLine_claim hr⟩, h.schemas⟩

theorem IsPrintable.useSchema (h : b.IsPrintable) (hr : OneLine r.localName) :
    (b.useSchema r).IsPrintable := by
  by_cases hbound : b.schemas.contains r.fullName = true
  · rw [useSchema_of_bound hbound]
    exact h
  · rw [useSchema_of_new (Bool.eq_false_iff.2 hbound)]
    have hwanted : OneLine (b.typeName r ++ "Schema") :=
      Text.oneLine_append.2 ⟨h.typeName hr, by decide⟩
    exact ⟨h.types, OrderedMap.forall_insert h.schemas _
      ⟨Text.oneLine_append.2 ⟨hr, by decide⟩, b.scope.oneLine_claim hwanted⟩⟩

theorem IsPrintable.useHandles (h : b.IsPrintable) {hs : List Handle}
    (hhs : ∀ hd ∈ hs, hd.method.IsPrintable) :
    (hs.foldl (MessageBindings.useHandle moduleOf) b).IsPrintable := by
  induction hs generalizing b with
  | nil => exact h
  | cons hd hs ih =>
    obtain ⟨hhd, hrest⟩ := List.forall_mem_cons.1 hhs
    exact ih (((h.useType hhd.input).useType hhd.output).useSchema hhd.output) hrest

end MessageBindings

structure RuntimeNames.IsPrintable (rt : RuntimeNames) : Prop where
  create : OneLine rt.create
  newCacheManager : OneLine rt.newCacheManager
  cacheManager : OneLine rt.cacheManager
  cacheOption : OneLine rt.cacheOption
  context : OneLine rt.context

theorem RuntimeNames.isPrintable_claim (hasHandles : Bool) (s : Scope) :
    (RuntimeNames.claim hasHandles s).IsPrintable := by
  cases hasHandles with
  | false =>
    exact ⟨(by decide : OneLine "create"), (by decide : OneLine "newCacheManager"),
      (by decide : OneLine "CacheManager"), Scope.oneLine_claim _ (by decide),
      (by decide : OneLine "Context")⟩
  | true =>
    exact ⟨Scope.oneLine_claim _ (by decide), Scope.oneLine_claim _ (by decide),
      Scope.oneLine_claim _ (by decide), Scope.oneLine_claim _ (by decide),
      Scope.oneLine_claim _ (by decide)⟩

structure ModuleNames.IsPrintable (n : ModuleNames) : Prop where
  messages : n.messages.IsPrintable
  runtime : n.runtime.IsPrintable

theorem ModuleNames.isPrintable_ofPlans (moduleOf : String → String) {services : List Service}
    (h : ∀ s ∈ services, s.IsPrintable) :
    (ModuleNames.ofPlans moduleOf (services.map ManagerPlan.ofService)).IsPrintable := by
  refine ⟨?_, RuntimeNames.isPrintable_claim _ _⟩
  have hnone : MessageBindings.IsPrintable
      ⟨Scope.ofPlans (services.map ManagerPlan.ofService), ∅, ∅, ∅⟩ :=
    ⟨fun _ he => absurd he List.not_mem_nil, fun _ he => absurd he List.not_mem_nil⟩
  refine hnone.useHandles ?_
  intro hd hmem
  obtain ⟨p, hp, hhd⟩ := List.mem_flatMap.1 hmem
  obtain ⟨s, hs, rfl⟩ := List.mem_map.1 hp
  exact ((ManagerPlan.isPrintable_ofService (h s hs)).handles hd hhd).method

/-! ## Import statements -/

namespace TypeScript

theorem oneLine_clause {x : Binding} (h : x.IsPrintable) : OneLine x.clause := by
  unfold Binding.clause
  split_ifs
  · exact h.2
  · rw [Text.oneLine_append, Text.oneLine_append]
    exact ⟨⟨h.1, by decide⟩, h.2⟩

theorem oneLine_line {i : Import} (h : ∀ x ∈ i.bindings, x.IsPrintable) : OneLine i.line := by
  have hclauses : OneLine (", ".intercalate (i.bindings.map Binding.clause)) := by
    refine Text.oneLine_intercalate (by decide) ?_
    exact List.forall_mem_map.2 fun x hx => oneLine_clause (h x hx)
  have htype : OneLine (if i.typeOnly then "type " else "") := by
    split_ifs <;> decide
  have hquoted := Text.oneLine_quote i.source
  unfold Import.line
  simp only [Text.oneLine_append]
  exact ⟨⟨⟨⟨⟨⟨by decide, htype⟩, by decide⟩, hclauses⟩, by decide⟩, hquoted⟩, by decide⟩

theorem isPrintable_of_mem_runtimeImports {n : ModuleNames} (h : n.runtime.IsPrintable)
    {runtimeModule : String} {i : Import} (hi : i ∈ runtimeImports n runtimeModule) :
    ∀ x ∈ i.bindings, x.IsPrintable := by
  obtain ⟨hcreate, hnew, hmanager, hoption, hcontext⟩ := h
  have hname : ∀ name ∈ ["create", "newCacheManager", "CacheManager", "CacheOption", "Context"],
      OneLine name := by
    decide
  unfold runtimeImports at hi
  split_ifs at hi
  · simp only [List.mem_cons, List.not_mem_nil, or_false] at hi
    rcases hi with rfl | rfl | rfl
    · simp [Binding.IsPrintable, hcreate, hname]
    · simp [Binding.IsPrintable, hnew, hname]
    · simp [Binding.IsPrintable, hmanager, hoption, hcontext, hname]
  · rw [List.mem_singleton] at hi
    subst hi
    simp [Binding.IsPrintable, hoption, hname]

theorem isPrintable_of_mem_messageImports {b : MessageBindings} (h : b.IsPrintable) {i : Import}
    (hi : i ∈ messageImports b) : ∀ x ∈ i.bindings, x.IsPrintable := by
  intro x hx
  have hsymbol : (⟨i.typeOnly, x, i.source⟩ : Imported) ∈ importedSymbols (messageImports b) :=
    List.mem_flatMap.2 ⟨i, hi, List.mem_map_of_mem hx⟩
  rw [(symbols_messageImports_perm b).mem_iff, List.mem_append] at hsymbol
  rcases hsymbol with hschema | htype
  · obtain ⟨e, he, heq⟩ := List.mem_map.1 hschema
    have hbinding : e.2 = x := congrArg Imported.binding heq
    exact hbinding ▸ h.schemas e he
  · obtain ⟨e, he, heq⟩ := List.mem_map.1 htype
    have hbinding : e.2 = x := congrArg Imported.binding heq
    exact hbinding ▸ h.types e he

theorem oneLine_of_mem_imports {n : ModuleNames} (h : n.IsPrintable) {runtimeModule : String}
    {i : Import} (hi : i ∈ imports n runtimeModule) : OneLine i.line := by
  rcases List.mem_append.1 hi with hruntime | hmessage
  · exact oneLine_line (isPrintable_of_mem_runtimeImports h.runtime hruntime)
  · exact oneLine_line (isPrintable_of_mem_messageImports h.messages hmessage)

end TypeScript

end CacheGen
