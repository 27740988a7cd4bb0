import CacheGen.Command.Line
import CacheGen.Config.Readers

/-!
# The program

Takes the consulted part of the disk into a tree, runs on it, and writes the changes back.
-/

namespace CacheGen.Disk

/-- What is at `l`, if anything. -/
def probe (l : Location) : IO (Option Entry) := do
  let here ← IO.currentDir
  let path := here / l.path
  if ← path.isDir then
    return some .directory
  else if ← path.pathExists then
    return some (.file (← IO.FS.readBinFile path).toList)
  else
    return none

def load (ls : List Location) : IO Tree :=
  ls.foldlM (fun t l => do
    match ← probe l with
    | some e => return ⟨t.entries.insert l e⟩
    | none => return t) Tree.empty

/-- Write the files in order. The first that cannot be written is the result. -/
def store : List (Location × Bytes) → IO (Option Location)
  | [] => return none
  | (l, content) :: rest => do
    let written ← try
        IO.FS.createDirAll l.parent.path
        IO.FS.writeBinFile l.path ⟨content.toArray⟩
        pure true
      catch _ => pure false
    if written then store rest else return some l

end CacheGen.Disk

open CacheGen in
/-- A location that cannot be written is put into the tree as an obstacle, and the run on that tree
is the one reported. -/
def main (args : List String) : IO UInt32 := do
  let base := Location.root.resolve (← IO.currentDir).toString
  let before ← Disk.load (Command.consulted base args)
  let run := fun t => Command.execute Discovery.Readers.builtin t base args
  let planned := run before
  let final ← match ← Disk.store (Command.changes before planned.tree) with
    | none => pure planned
    | some l => pure (run ⟨before.entries.insert l .directory⟩)
  IO.print final.terminal.out
  IO.eprint final.terminal.err
  return final.code.toUInt32
