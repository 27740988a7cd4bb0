import CacheGen.Command.Terminal
import CacheGen.Config.Discovery
import CacheGen.Config.Parameter
import CacheGen.Descriptor.Resolve
import CacheGen.Generate
import CacheGen.Wire.Descriptor

/-!
# The `generate` command

Generates from a descriptor set in a file, without the compiler. Settings come from the project's
config file, which may be a script, and over them from options.

Nothing is written before everything has been generated. Then the outputs are written one after the
other, and the first that cannot be written ends the run with those before it in place.
-/

namespace CacheGen.Command

structure GenerateOptions where
  out : Option String := none
  /-- The files to generate for; all if none are given. -/
  files : List String := []
  target : Option String := none
  suffix : Option String := none
  paths : Option String := none
  module : Option String := none
  /-- The directory with the config file. -/
  config : Option String := none
  dryRun : Bool := false
  quiet : Bool := false
  deriving DecidableEq, Inhabited

structure Generated where
  files : List GeneratedFile
  written : List Location
  deriving DecidableEq, Inhabited

/-- The end of a command: its result, what it printed, and the tree it leaves. -/
structure Run (α : Type) where
  outcome : Except GenError α
  terminal : Terminal
  tree : Tree

/-! ## Settings -/

/-- The overrides that the options give. -/
def GenerateOptions.overrides (o : GenerateOptions) : Except GenError Overrides := do
  let target ← match o.target with
    | none => pure none
    | some t => some <$> Parameter.readTarget t
  let layout ← match o.paths with
    | none => pure none
    | some p => some <$> Parameter.readLayout ("paths=" ++ p) p
  return { target := target, suffix := o.suffix, goLayout := layout, goModule := o.module }

/-! ## Reading and generating -/

def readSet (t : Tree) (set : Location) : Except GenError (List Proto.File) :=
  match t.get? set with
  | none => .error (.fileNotFound set.path)
  | some .directory => .error (.descriptorUnreadable set.path "it is a directory")
  | some (.file content) =>
    match Wire.readFileSet content with
    | some files => .ok files
    | none => .error (.descriptorUnreadable set.path "it is not a descriptor set")

/-- The config that applies, and the outputs. -/
def produce (readers : Discovery.Readers) (t : Tree) (base : Location) (o : GenerateOptions)
    (set : List Proto.File) : Except GenError (Config × List GeneratedFile) := do
  let project ← match o.config with
    | some dir => Discovery.loadRunning readers t base dir
    | none => Discovery.loadRunning readers t base base.path
  let given ← o.overrides
  let c ← Config.resolve [project, given]
  let requested := if o.files.isEmpty then set.map (·.name) else o.files
  let files ← SourceFile.ofProtos set requested c.goImportMap
  let outputs ← generateFiles base files c
  return (c, outputs)

/-! ## Writing -/

/-- Write the outputs below `out`. On failure the tree is the one before the output that failed. -/
def writeAll (out : Location) :
    Tree → List GeneratedFile → Except GenError (List Location) × Tree
  | t, [] => (.ok [], t)
  | t, f :: fs =>
    let place := out.resolve f.name
    match t.writeDeep place (Utf8.encode f.content) with
    | none => (.error (.writeFailed place.path "it cannot be written there"), t)
    | some t =>
      let (rest, t) := writeAll out t fs
      (rest.map (place :: ·), t)

/-! ## The command -/

def nothingFound (c : Config) : Terminal :=
  .line ("\n⚠ No service ending in \"" ++ c.suffix ++ "\" found — nothing generated.\n")

def summary (c : Config) (outputs : List GeneratedFile) : Terminal :=
  outputs.foldl (fun t f => t ++ .line ("  " ++ f.name))
    (.line ("\n✔ " ++ toString outputs.length ++ " cache manager file(s) for target " ++
      c.target ++ "\n"))

def writtenTo (base out : Location) : Terminal :=
  let way := base.relative out
  .line ("\n📄 Written to: " ++ (if way = "" then "." else way) ++ "\n")

/-- What is printed about reading the set. -/
def readingReport : Except GenError (List Proto.File) → Terminal
  | .ok files => .begun "Reading descriptor set..." ++
      .succeeded ("Read " ++ toString files.length ++ " proto file(s)")
  | .error (.fileNotFound _) => {}
  | .error _ => .begun "Reading descriptor set..." ++ .failed "Failed to decode descriptor set"

/-- Generate from the set in the file `set`, in the directory `base`. -/
def generate (readers : Discovery.Readers) (t : Tree) (base : Location) (set : String)
    (o : GenerateOptions) : Run Generated :=
  let read := readSet t (base.resolve set)
  let reading := Terminal.hushed o.quiet (readingReport read)
  match read with
  | .error e => ⟨.error e, reading, t⟩
  | .ok files =>
    match produce readers t base o files with
    | .error e => ⟨.error e, reading, t⟩
    | .ok (c, outputs) =>
      if outputs.isEmpty then
        ⟨.ok ⟨outputs, []⟩, reading ++ .hushed o.quiet (nothingFound c), t⟩
      else
        let listed := reading ++ .hushed o.quiet (summary c outputs)
        if o.dryRun then
          ⟨.ok ⟨outputs, []⟩,
            listed ++ .hushed o.quiet (.line "\nℹ Dry run — no files written.\n"), t⟩
        else
          let out := base.resolve (o.out.getD ".")
          match writeAll out t outputs with
          | (.error e, t) => ⟨.error e, listed, t⟩
          | (.ok written, t) =>
            ⟨.ok ⟨outputs, written⟩, listed ++ .hushed o.quiet (writtenTo base out), t⟩

end CacheGen.Command
