import CacheGen.Target

/-!
# Generation

From files of the model to generated files. A service takes part when its name, as the target
spells it, ends with the configured suffix. A file without such a service gives no output.
-/

namespace CacheGen

structure GeneratedFile where
  name : String
  content : String
  deriving DecidableEq, Inhabited, Repr

/-! ## Candidates -/

/-- The service takes part; the suffix alone is a name that does. -/
def Service.isCandidate (suffix : String) (s : Service) : Bool := Text.endsWith s.name suffix

/-- The candidates among `services`, under the names of `t`. -/
def Target.candidates (t : Target) (suffix : String) (services : List Service) : List Service :=
  (services.map t.renameService).filter (·.isCandidate suffix)

/-- The candidates of a file under the names of the configured target. -/
def candidateServices (f : SourceFile) (c : Config) : Except GenError (List Service) := do
  let t ← Target.ofName c.target
  return t.candidates c.suffix f.services

/-! ## Files -/

/-- The output for one file, if it has a candidate. -/
def generateFile (base : Location) (f : SourceFile) (c : Config) :
    Except GenError (Option GeneratedFile) := do
  let t ← Target.ofName c.target
  let services := t.candidates c.suffix f.services
  if services.isEmpty then
    return none
  let name ← t.fileName f c
  return some ⟨name, t.render base f (services.map ManagerPlan.ofService) c⟩

/-- As `generateFile`, for a file that may not be requested; an error names the file. -/
def generateRequested (base : Location) (c : Config) (f : SourceFile) :
    Except GenError (Option GeneratedFile) :=
  if f.isRequested then
    match generateFile base f c with
    | .ok out => .ok out
    | .error e => .error (.generationFailed f.name e.message)
  else .ok none

/-- The outputs of all requested files in order. The first failure ends the run. -/
def generateFiles (base : Location) (files : List SourceFile) (c : Config) :
    Except GenError (List GeneratedFile) := do
  let outputs ← files.mapM (generateRequested base c)
  return outputs.filterMap id

end CacheGen
