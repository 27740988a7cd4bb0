import CacheGen.Config.Discovery
import CacheGen.Config.Parameter
import CacheGen.Descriptor.Resolve
import CacheGen.Generate
import CacheGen.Plugin.Log
import CacheGen.Plugin.Request

/-!
# A plugin run

A run resolves the settings of a request, then its descriptors, looks for streaming methods, and
generates. The first error ends it. The log of a run tells its steps; it is the same whatever level
is read.
-/

namespace CacheGen.Plugin

structure Report where
  outcome : Except GenError (List GeneratedFile)
  log : Log

/-- The run went wrong behind the events in `log`. -/
def Report.failure (log : Log) (e : GenError) : Report := ⟨.error e, log ++ [.failed e]⟩

/-- The streaming methods of the candidates of `f`, which must be requested to count. -/
def streamingMethods (c : Config) (f : SourceFile) : Except GenError Log :=
  if f.isRequested then do
    let services ← candidateServices f c
    return services.flatMap fun s =>
      (s.methods.filter Method.isStreaming).map fun m => .streamingMethod f.name s.name m.name
  else return []

/-- Resolve the settings of a request over those of the project. -/
def settings (project : Except GenError Overrides) (parameter : String) :
    Except GenError Config := do
  let file ← project
  let given ← Parameter.parse parameter
  Config.resolve [file, given]

/-- Run on `r` in the directory `base`, with the overrides of the project's config file. -/
def run (base : Location) (project : Except GenError Overrides) (r : Request) : Report :=
  match settings project r.parameter with
  | .error e => .failure [] e
  | .ok c =>
    let resolved := [Event.configResolved r.parameter c]
    match SourceFile.ofProtos r.files r.requested c.goImportMap with
    | .error e => .failure resolved e
    | .ok files =>
      match files.mapM (streamingMethods c) with
      | .error e => .failure resolved e
      | .ok warnings =>
        let warned := resolved ++ warnings.flatten
        match generateFiles base files c with
        | .error e => .failure warned e
        | .ok outputs =>
          let written := outputs.map fun o => Event.generated o.name (Text.unitLength o.content)
          ⟨.ok outputs, warned ++ written⟩

/-- Run without a config file. -/
def runAlone (base : Location) (r : Request) : Report := run base (.ok {}) r

/-- Run with the config file found in `source`. -/
def runIn (readers : Discovery.Readers) (t : Tree) (base : Location) (source : String)
    (r : Request) : Report :=
  run base (Discovery.load readers t base source) r

end CacheGen.Plugin
