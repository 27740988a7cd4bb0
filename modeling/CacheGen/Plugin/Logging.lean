import CacheGen.Plugin.Run

/-!
# A run with a logger

The same run as it goes on: step by step, with a logger that is set to a level. An event below the
level is dropped where it comes up. What was logged before a failure stays, and the failure itself
is logged before the run ends.
-/

namespace CacheGen.Plugin

/-- A computation that logs and may fail. -/
abbrev Logging := ExceptT GenError (StateM Log)

/-- Go on with `x`, or fail as it does. -/
def Logging.ofOutcome {α : Type} (x : Except GenError α) : Logging α := ExceptT.mk (pure x)

/-- Log `e`, unless it is below `level`. -/
def note (level : Level) (e : Event) : Logging Unit :=
  modify fun log => if level.rank ≤ e.level.rank then log ++ [e] else log

/-- Warn of the streaming methods of the candidates of `f`, which must be requested to count. -/
def noteStreamingMethods (level : Level) (c : Config) (f : SourceFile) : Logging Unit := do
  if f.isRequested then
    let services ← .ofOutcome (candidateServices f c)
    services.forM fun s => s.methods.forM fun m => do
      if m.isStreaming then
        note level (.streamingMethod f.name s.name m.name)

/-- The steps of a run, each of which may fail. -/
def steps (level : Level) (base : Location) (project : Except GenError Overrides) (r : Request) :
    Logging (List GeneratedFile) := do
  let c ← .ofOutcome (settings project r.parameter)
  note level (.configResolved r.parameter c)
  let files ← .ofOutcome (SourceFile.ofProtos r.files r.requested c.goImportMap)
  files.forM (noteStreamingMethods level c)
  let outputs ← .ofOutcome (generateFiles base files c)
  outputs.forM fun o => note level (.generated o.name (Text.unitLength o.content))
  return outputs

/-- Run on `r` with a logger that is set to `level`. -/
def runAt (level : Level) (base : Location) (project : Except GenError Overrides) (r : Request) :
    Report :=
  let guarded := tryCatch (steps level base project r) fun e => do
    note level (.failed e)
    throw e
  let (outcome, log) := guarded.run.run []
  ⟨outcome, log⟩

end CacheGen.Plugin
