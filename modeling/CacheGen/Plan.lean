import CacheGen.Descriptor.Comment
import CacheGen.Descriptor.Model
import CacheGen.Naming

/-!
# Manager plans

What is generated for one service, in no language yet: a manager with one cache handle per method.

A handle is kept in a field of the manager, is constructed under the name of its cache with the
function that fills it, and is reached through two wrappers, one that gets and one that refreshes.
A *doc* is the list of comment bodies that goes in front of a declaration.
-/

namespace CacheGen

abbrev Doc := List String

/-- What a wrapper does with its handle. -/
inductive Access where
  | get
  | refresh
  deriving DecidableEq, Inhabited, Repr

structure Wrapper where
  access : Access
  name : String
  /-- The field of the handle. -/
  field : String
  method : Method
  doc : Option Doc
  deriving DecidableEq, Inhabited, Repr

structure Handle where
  method : Method
  /-- The field that holds the handle, and the variable it is constructed in. -/
  field : String
  cacheName : String
  /-- The parameter with the function that fills the cache. -/
  updateParam : String
  getter : Wrapper
  refresher : Wrapper
  deriving DecidableEq, Inhabited, Repr

def Handle.wrappers (h : Handle) : List Wrapper := [h.getter, h.refresher]

structure ManagerPlan where
  service : Service
  managerName : String
  constructorName : String
  typeDoc : Option Doc
  constructorDoc : Option Doc
  /-- One handle per method, in the order of the methods. -/
  handles : List Handle
  deriving DecidableEq, Inhabited, Repr

namespace ManagerPlan

variable (p : ManagerPlan)

/-- The fields, each with the method it is for. -/
def fields : List (String × Method) := p.handles.map fun h => (h.field, h.method)

/-- The parameters of the constructor, each with the method it is for. -/
def updateParams : List (String × Method) := p.handles.map fun h => (h.updateParam, h.method)

/-- What is constructed for each method: the variable, the name of the cache and the parameter. -/
def constructions : List ((String × String × String) × Method) :=
  p.handles.map fun h => ((h.field, h.cacheName, h.updateParam), h.method)

def wrappers : List Wrapper := p.handles.flatMap Handle.wrappers

end ManagerPlan

/-! ## Docs -/

/-- A sentence in front of the bodies of a comment. -/
def Doc.introduced (sentence raw : String) : Doc := (" " ++ sentence) :: Comment.bodies raw

/-- The doc of a getter: the comment text behind `Get`, so that "GetOrder fetches …" speaks of
`GetGetOrder`. Spaces at the very end are dropped. -/
def Doc.ofGetter (raw : String) : Doc :=
  let cs := ("Get" ++ Comment.text raw).toList
  let kept := (cs.reverse.dropWhile (· = ' ')).reverse
  (kept.splitOn '\n').map fun line =>
    if line = [] then "" else String.ofList (' ' :: line)

/-! ## Plans -/

def Handle.ofMethod (service : String) (m : Method) : Handle :=
  let field := Naming.handleField service m.name
  { method := m
    field := field
    cacheName := Naming.cacheName m.name
    updateParam := Naming.updateParam m.name
    getter := {
      access := .get
      name := Naming.getterName m.name
      field := field
      method := m
      doc := m.leadingComment.map Doc.ofGetter }
    refresher := {
      access := .refresh
      name := Naming.refresherName m.name
      field := field
      method := m
      doc := m.leadingComment.map
        (Doc.introduced "Eagerly refresh the cache for the method that:") } }

def ManagerPlan.ofService (s : Service) : ManagerPlan :=
  let manager := Naming.managerName s.name
  let constructor := Naming.constructorName manager
  { service := s
    managerName := manager
    constructorName := constructor
    typeDoc := s.leadingComment.map
      (Doc.introduced (manager ++ " for every operation related to this service:"))
    constructorDoc := s.leadingComment.map
      (Doc.introduced (constructor ++ " is the constructor method for this service:"))
    handles := s.methods.map (Handle.ofMethod s.name) }

/-- Each list of a plan goes through the methods in their order. -/
theorem ManagerPlan.lists_ofService (s : Service) :
    (ofService s).fields = s.methods.map (fun m => (Naming.handleField s.name m.name, m)) ∧
      (ofService s).updateParams = s.methods.map (fun m => (Naming.updateParam m.name, m)) ∧
      (ofService s).constructions = s.methods.map (fun m =>
        ((Naming.handleField s.name m.name, Naming.cacheName m.name, Naming.updateParam m.name),
          m)) ∧
      (ofService s).wrappers = s.methods.flatMap fun m =>
        [⟨.get, Naming.getterName m.name, Naming.handleField s.name m.name, m,
            m.leadingComment.map Doc.ofGetter⟩,
          ⟨.refresh, Naming.refresherName m.name, Naming.handleField s.name m.name, m,
            m.leadingComment.map
              (Doc.introduced "Eagerly refresh the cache for the method that:")⟩] := by
  unfold fields updateParams constructions wrappers ofService
  rw [List.map_map, List.map_map, List.map_map, List.flatMap_map]
  exact ⟨rfl, rfl, rfl, rfl⟩

end CacheGen
