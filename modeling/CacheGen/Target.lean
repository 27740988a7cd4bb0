import CacheGen.Target.Go
import CacheGen.Target.TypeScript

/-!
# Target languages

The languages that managers can be generated in. A target gives services the names that the code
of their messages uses, names the output file and renders it.
-/

namespace CacheGen

inductive Target where
  | go
  | typeScript
  deriving DecidableEq, Inhabited, Repr

namespace Target

def ofName? : String → Option Target
  | "go" => some go
  | "ts" => some typeScript
  | _ => none

def ofName (name : String) : Except GenError Target :=
  match ofName? name with
  | some t => .ok t
  | none => .error (.unknownTarget name)

def renameService : Target → Service → Service
  | go, s => Go.renameService s
  | typeScript, s => s

def fileName : Target → SourceFile → Config → Except GenError String
  | go, f, c => Go.fileName f c
  | typeScript, f, _ => .ok (TypeScript.fileName f)

def lines (t : Target) (base : Location) (f : SourceFile) (plans : List ManagerPlan)
    (c : Config) : List String :=
  match t with
  | go => Go.lines f plans c
  | typeScript => TypeScript.lines base f plans c

def render (t : Target) (base : Location) (f : SourceFile) (plans : List ManagerPlan)
    (c : Config) : String :=
  "\n".intercalate (t.lines base f plans c)

end Target

end CacheGen
