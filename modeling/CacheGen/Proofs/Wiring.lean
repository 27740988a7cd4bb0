import CacheGen.Proofs.DerivedNames
import CacheGen.Proofs.ManagerCode
import CacheGen.Proofs.ManagerText

/-!
# Every handle is wired to its own method

A wrapper gets to its handle by names alone: it names a field, the field is filled with a variable,
and the variable holds what was constructed in it. Fields of distinct methods differ and no field is
a wrapper, so this way leads to one construction, that of the method of the wrapper
(`ManagerCode.reached`).

The plan says so first (`ManagerPlan.Wired`). The code of a target says so as well, provided that it
fills each field with the variable of the same handle (`ManagerPlan.Wired.ofPlan`); for a call by
position this is a matter of order.

Main result: `handles_wired`.
-/

namespace CacheGen

variable {s : Service}

/-- The name of a wrapper of `m`. -/
def Method.WrappedAs (m : Method) (name : String) : Prop :=
  name = Naming.getterName m.name ∨ name = Naming.refresherName m.name

/-! ## Plans -/

/-- One handle for each method, and two wrappers that lead to it. -/
structure ManagerPlan.Wired (s : Service) (p : ManagerPlan) : Prop where
  handles : p.handles.map (fun h => (h.method, h.field, h.updateParam, h.cacheName)) =
    s.methods.map fun m => (m, Naming.handleField s.name m.name, Naming.updateParam m.name,
      Naming.cacheName m.name)
  wrappers : p.wrappers.map (fun w => (w.access, w.name, w.method)) =
    s.methods.flatMap fun m =>
      [(.get, Naming.getterName m.name, m), (.refresh, Naming.refresherName m.name, m)]
  fields_nodup : (p.handles.map Handle.field).Nodup
  params_nodup : (p.handles.map Handle.updateParam).Nodup
  wrappers_nodup : (p.wrappers.map Wrapper.name).Nodup
  field_ne_wrapper : ∀ h ∈ p.handles, ∀ w ∈ p.wrappers, h.field ≠ w.name
  /-- The field of a wrapper of `m` is that of one handle, which is for `m`. -/
  reached : ∀ m ∈ s.methods, ∀ w ∈ p.wrappers, m.WrappedAs w.name →
    ∃ h, p.handles.filter (·.field = w.field) = [h] ∧ h.method = m ∧
      h.cacheName = Naming.cacheName m.name ∧ h.updateParam = Naming.updateParam m.name

theorem ManagerPlan.wrappers_ofService (s : Service) :
    (ofService s).wrappers = s.methods.flatMap fun m => (Handle.ofMethod s.name m).wrappers :=
  (lists_ofService s).2.2.2

theorem ManagerPlan.mem_wrappers_ofService {w : Wrapper} :
    w ∈ (ofService s).wrappers ↔
      ∃ m ∈ s.methods, w ∈ (Handle.ofMethod s.name m).wrappers := by
  rw [wrappers_ofService, List.mem_flatMap]

theorem Handle.wrappedAs_ofMethod {service : String} {m m' : Method} {w : Wrapper}
    (hw : w ∈ (ofMethod service m).wrappers) : m'.WrappedAs w.name ↔ m'.name = m.name := by
  rcases List.mem_pair.1 hw with rfl | rfl
  · have hne : Naming.getterName m.name ≠ Naming.refresherName m'.name :=
      Naming.getterName_ne_refresherName _ _
    constructor
    · rintro (h | h)
      · exact (Naming.getterName_injective h).symm
      · exact absurd h hne
    · exact fun h => .inl (congrArg Naming.getterName h.symm)
  · have hne : Naming.getterName m'.name ≠ Naming.refresherName m.name :=
      Naming.getterName_ne_refresherName _ _
    constructor
    · rintro (h | h)
      · exact absurd h.symm hne
      · exact (Naming.refresherName_injective h).symm
    · exact fun h => .inr (congrArg Naming.refresherName h.symm)

theorem ManagerPlan.wired_ofService (hname : Naming.IsIdentifier s.name)
    (hmethods : (s.methods.map Method.name).Nodup) : (ofService s).Wired s := by
  have hfields : ((ofService s).handles.map Handle.field).Nodup := by
    rw [ofService, List.map_map]
    exact (nodup_map_comp_iff (Naming.handleField_injective s.name) Method.name s.methods).2 hmethods
  constructor
  case handles => rw [ofService, List.map_map]; rfl
  case wrappers => rw [wrappers_ofService, List.map_flatMap]; rfl
  case fields_nodup => exact hfields
  case params_nodup =>
    rw [ofService, List.map_map]
    exact (nodup_map_comp_iff Naming.updateParam_injective Method.name s.methods).2 hmethods
  case wrappers_nodup =>
    rw [wrappers_ofService, List.map_flatMap]
    refine (nodup_flatMap_pair s.methods _ _).2 ⟨?_, ?_, fun m _ m' _ => ?_⟩
    · exact (nodup_map_comp_iff Naming.getterName_injective Method.name s.methods).2 hmethods
    · exact (nodup_map_comp_iff Naming.refresherName_injective Method.name s.methods).2 hmethods
    · exact Naming.getterName_ne_refresherName m.name m'.name
  case field_ne_wrapper =>
    intro h hh w hw
    obtain ⟨m, -, rfl⟩ := List.mem_map.1 hh
    obtain ⟨m', -, hw⟩ := mem_wrappers_ofService.1 hw
    have hne := Naming.handleField_ne_wrapper hname m.name m'.name
    rcases List.mem_pair.1 hw with rfl | rfl
    · exact hne.1
    · exact hne.2
  case reached =>
    intro m hm w hw hwrapped
    obtain ⟨m', hm', hw⟩ := mem_wrappers_ofService.1 hw
    -- A wrapper tells by its name which method it is for, and no other method has that name.
    obtain rfl : m = m' :=
      List.inj_on_of_nodup_map hmethods hm hm' ((Handle.wrappedAs_ofMethod hw).1 hwrapped)
    have hfield : w.field = (Handle.ofMethod s.name m).field := by
      rcases List.mem_pair.1 hw with rfl | rfl <;> rfl
    refine ⟨Handle.ofMethod s.name m, ?_, rfl, rfl, rfl⟩
    rw [hfield]
    exact filter_key_eq_singleton hfields (List.mem_map_of_mem (f := Handle.ofMethod s.name) hm)

/-! ## Code -/

/-- What the handle in `field` was constructed with: the field leads to the variables it is filled
with, and these to the constructions they hold. -/
def ManagerCode.reached {φ : Type} (k : ManagerCode φ) (filled : List (String × String))
    (field : String) : List Construction :=
  (filled.filter (·.1 = field)).flatMap fun e => k.constructions.filter (·.holder = e.2)

/-- The code of a manager for `s`, whose fields are filled as in `filled`. -/
structure ManagerCode.Wired (sp : Spelling) (s : Service) {φ : Type} (k : ManagerCode φ)
    (filled : List (String × String)) : Prop where
  fields : k.fields = s.methods.map fun m =>
    ⟨Naming.handleField s.name m.name, sp.type m.input, sp.type m.output⟩
  params : k.params = s.methods.map fun m =>
    ⟨Naming.updateParam m.name, sp.type m.input, sp.type m.output⟩
  constructions : k.constructions.map Construction.method = s.methods.map Method.name
  accessors : k.accessors.map (fun a => (a.access, a.name, a.input, a.output)) =
    s.methods.flatMap fun m =>
      [(.get, Naming.getterName m.name, sp.type m.input, sp.type m.output),
        (.refresh, Naming.refresherName m.name, sp.type m.input, sp.type m.output)]
  fields_nodup : (k.fields.map Slot.name).Nodup
  params_nodup : (k.params.map Slot.name).Nodup
  holders_nodup : (k.constructions.map Construction.holder).Nodup
  accessors_nodup : (k.accessors.map Accessor.name).Nodup
  field_ne_accessor : ∀ x ∈ k.fields, ∀ a ∈ k.accessors, x.name ≠ a.name
  filled_fields : filled.map Prod.fst = k.fields.map Slot.name
  filled_holders : filled.map Prod.snd = k.constructions.map Construction.holder
  /-- A wrapper of `m` gets to one construction, with the parameter of `m`, a factory of what `m`
  returns and the messages of `m`. -/
  reached : ∀ m ∈ s.methods, ∀ a ∈ k.accessors, m.WrappedAs a.name →
    ∃ holder, k.reached filled a.field =
      [⟨holder, sp.type m.input, sp.type m.output, Naming.cacheName m.name, sp.zero m.output,
        Naming.updateParam m.name, m.name⟩]

/-- Where one handle has the field, and the field is filled with the variable of that handle. -/
theorem ManagerCode.reached_ofPlan {p : ManagerPlan} (sp : Spelling) {φ : Type}
    (fill : List Handle → φ) {filled : List (String × String)}
    (hfilled : filled = p.handles.map fun h => (h.field, h.field)) {field : String} {h : Handle}
    (hone : p.handles.filter (·.field = field) = [h]) :
    (ofPlan sp fill p).reached filled field = [.ofHandle sp h] := by
  have hself : h.field = field := by
    have hmem : h ∈ p.handles.filter (·.field = field) := hone ▸ List.mem_singleton_self h
    simpa using (List.mem_filter.1 hmem).2
  have hvariables : filled.filter (·.1 = field) = [(h.field, h.field)] := by
    rw [hfilled, List.filter_map]
    exact congrArg (List.map fun h => (h.field, h.field)) hone
  have hconstructions : (ofPlan sp fill p).constructions.filter (·.holder = field) =
      [.ofHandle sp h] := by
    rw [ofPlan, List.filter_map]
    exact congrArg (List.map (Construction.ofHandle sp)) hone
  rw [reached, hvariables, List.flatMap_singleton, hself, hconstructions]

/-- The code of a plan is wired as the plan is, if each field is filled with the variable of the
same handle. -/
theorem ManagerPlan.Wired.ofPlan {p : ManagerPlan} (hp : p.Wired s) (sp : Spelling) {φ : Type}
    (fill : List Handle → φ) {filled : List (String × String)}
    (hfilled : filled = p.handles.map fun h => (h.field, h.field)) :
    (ManagerCode.ofPlan sp fill p).Wired sp s filled := by
  constructor
  case fields =>
    have h := congrArg (List.map fun e => Slot.mk e.2.1 (sp.type e.1.input) (sp.type e.1.output))
      hp.handles
    rwa [List.map_map, List.map_map] at h
  case params =>
    have h := congrArg (List.map fun e => Slot.mk e.2.2.1 (sp.type e.1.input) (sp.type e.1.output))
      hp.handles
    rwa [List.map_map, List.map_map] at h
  case constructions =>
    have h := congrArg (List.map fun e => e.1.name) hp.handles
    rw [List.map_map, List.map_map] at h
    rw [ManagerCode.ofPlan, List.map_map]
    exact h
  case accessors =>
    have h := congrArg (List.map fun e => (e.1, e.2.1, sp.type e.2.2.input, sp.type e.2.2.output))
      hp.wrappers
    rw [List.map_map, List.map_flatMap] at h
    rw [ManagerCode.ofPlan, List.map_map]
    exact h
  case fields_nodup => rw [ManagerCode.map_name_fields]; exact hp.fields_nodup
  case params_nodup => rw [ManagerCode.map_name_params]; exact hp.params_nodup
  case holders_nodup => rw [ManagerCode.map_holder_constructions]; exact hp.fields_nodup
  case accessors_nodup => rw [ManagerCode.map_name_accessors]; exact hp.wrappers_nodup
  case field_ne_accessor =>
    intro x hx a ha
    obtain ⟨h, hh, rfl⟩ := List.mem_map.1 hx
    obtain ⟨w, hw, rfl⟩ := List.mem_map.1 ha
    exact hp.field_ne_wrapper h hh w hw
  case filled_fields => rw [hfilled, ManagerCode.map_name_fields, List.map_map]; rfl
  case filled_holders => rw [hfilled, ManagerCode.map_holder_constructions, List.map_map]; rfl
  case reached =>
    intro m hm a ha hwrapped
    obtain ⟨w, hw, rfl⟩ := List.mem_map.1 ha
    obtain ⟨h, hone, rfl, hcache, hparam⟩ := hp.reached m hm w hw hwrapped
    refine ⟨h.field, ?_⟩
    show (ManagerCode.ofPlan sp fill p).reached filled w.field = _
    rw [ManagerCode.reached_ofPlan sp fill hfilled hone, Construction.ofHandle, hcache, hparam]

/-! ## Targets -/

/-- The fields of a class with what a call passes for them. -/
def TypeScript.passed (k : ManagerCode TypeScript.Arguments) : List (String × String) :=
  (k.fields.map Slot.name).zip k.filling

theorem TypeScript.passed_code (n : ModuleNames) (p : ManagerPlan) :
    passed (code n p) = p.handles.map fun h => (h.field, h.field) := by
  rw [passed, code, ManagerCode.map_name_fields]
  exact List.zip_map'

/-- **Wiring.** A service that is called by an identifier, and whose methods differ in name, has a
plan whose handles are wired to their methods. In the file of either target stands the code of its
manager, and that is wired as well: by name in the literal of Go, by position in the call of
TypeScript. -/
theorem handles_wired (hname : Naming.IsIdentifier s.name)
    (hmethods : (s.methods.map Method.name).Nodup) :
    let p := ManagerPlan.ofService s
    p.Wired s ∧
    (∀ (f : SourceFile) (plans : List ManagerPlan) (c : Config), p ∈ plans →
      let k := Go.code p
      Go.print k <:+: Go.lines f plans c ∧ k.Wired Go.spelling s k.filling) ∧
    ∀ (base : Location) (f : SourceFile) (plans : List ManagerPlan) (c : Config), p ∈ plans →
      let n := TypeScript.names base f plans c
      let k := TypeScript.code n p
      TypeScript.print n.runtime k <:+: TypeScript.lines base f plans c ∧
        k.filling.length = k.fields.length ∧
        k.Wired (TypeScript.spelling n) s (TypeScript.passed k) := by
  intro p
  have hp : p.Wired s := ManagerPlan.wired_ofService hname hmethods
  refine ⟨hp, fun f plans c hmem => ⟨?_, ?_⟩, fun base f plans c hmem => ⟨?_, ?_, ?_⟩⟩
  · rw [Go.print_code]
    exact Go.managerLines_infix_lines f c hmem
  · exact hp.ofPlan Go.spelling _ rfl
  · rw [TypeScript.print_code]
    exact TypeScript.managerLines_infix_lines base f c hmem
  · rw [TypeScript.code, ManagerCode.ofPlan, List.length_map, List.length_map]
  · exact hp.ofPlan (TypeScript.spelling _) _ (TypeScript.passed_code _ p)

/-- Two methods whose caches share a name. -/
def lookupService : Service :=
  { (default : Service) with
    name := "OrderCache"
    methods := ["Lookup", "LOOKUP"].map fun name => { (default : Method) with name := name } }

theorem handles_wired_lookup :
    Naming.IsIdentifier lookupService.name ∧ (lookupService.methods.map Method.name).Nodup ∧
      (ManagerPlan.ofService lookupService).Wired lookupService ∧
      (Go.code (ManagerPlan.ofService lookupService)).Wired Go.spelling lookupService
        (Go.code (ManagerPlan.ofService lookupService)).filling := by
  have hname : Naming.IsIdentifier lookupService.name := by decide
  have hmethods : (lookupService.methods.map Method.name).Nodup := by decide
  have h := handles_wired hname hmethods
  exact ⟨hname, hmethods, h.1, (h.2.1 default _ default (List.mem_singleton_self _)).2⟩

end CacheGen
