import CacheGen.Command.Arguments

/-!
# The command line program

Runs what the arguments ask for. The exit code is zero if it went well and one otherwise; an error
is shown with its advice.
-/

namespace CacheGen.Command

structure Exit where
  code : Nat
  terminal : Terminal
  tree : Tree

def usage : String :=
  "Usage: cache-manager generate [options] <descriptor-set>\n" ++
    "       cache-manager init [options]"

/-- The end of the program behind a command. -/
def Run.exit {α : Type} (r : Run α) : Exit :=
  match r.outcome with
  | .ok _ => ⟨0, r.terminal, r.tree⟩
  | .error e => ⟨1, r.terminal ++ .errLine e.display, r.tree⟩

/-- Run with `args` in the directory `base`. -/
def execute (readers : Discovery.Readers) (t : Tree) (base : Location) (args : List String) :
    Exit :=
  match Arguments.parse args with
  | .error complaint => ⟨1, .errLine complaint.text, t⟩
  | .ok (.generate set o) => (generate readers t base set o).exit
  | .ok (.init o) => (init t base o).exit
  | .ok .version => ⟨0, .line generatorVersion, t⟩
  | .ok (.usage true) => ⟨0, .line usage, t⟩
  | .ok (.usage false) => ⟨1, .errLine usage, t⟩

/-! ## What is looked at -/

/-- The locations whose content decides how the program runs. Outputs are not among them: whether
they can be written shows on writing. -/
def consulted (base : Location) (args : List String) : List Location :=
  match Arguments.parse args with
  | .ok (.generate set o) =>
    let dir := (o.config.map base.resolve).getD base
    base.resolve set :: Discovery.allPlaces.map fun place => dir.resolve place.1
  | .ok (.init o) =>
    let dir := (o.directory.map base.resolve).getD base
    [dir, dir.resolve configFileName]
  | _ => []

/-- The files that `after` has and `before` has not, or not with that content. -/
def changes (before after : Tree) : List (Location × Bytes) :=
  after.entries.entries.filterMap fun e =>
    match e.2 with
    | .file content => if before.read? e.1 = some content then none else some (e.1, content)
    | .directory => none

end CacheGen.Command
