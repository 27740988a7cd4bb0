import CacheGen.OrderedMap
import CacheGen.Path
import CacheGen.Text.Units
import CacheGen.Text.Utf8

/-!
# Directory trees

The files and directories that commands read and write, by location. The root is a directory and is
always there. A file goes into a directory that is there; nothing replaces a directory.
-/

namespace CacheGen

inductive Entry where
  | directory
  | file (content : Bytes)
  deriving DecidableEq, Inhabited, Repr

structure Tree where
  entries : OrderedMap Location Entry
  deriving DecidableEq, Inhabited

namespace Tree

def empty : Tree := ⟨∅⟩

def get? (t : Tree) (l : Location) : Option Entry :=
  if l = Location.root then some .directory else t.entries.get? l

def isDirectory (t : Tree) (l : Location) : Bool := t.get? l = some .directory

/-- The content of the file at `l`, if a file is there. -/
def read? (t : Tree) (l : Location) : Option Bytes :=
  match t.get? l with
  | some (.file content) => some content
  | _ => none

/-! ## Writing -/

/-- A directory at `l`, unless a file is in the way. -/
def makeDirectory (t : Tree) (l : Location) : Option Tree :=
  match t.get? l with
  | some .directory => some t
  | some (.file _) => none
  | none => some ⟨t.entries.insert l .directory⟩

/-- Directories all the way down to `l`. -/
def makeDirectories (t : Tree) (l : Location) : Option Tree := l.ancestry.foldlM makeDirectory t

/-- `content` at `l`, if that is in a directory and none itself. -/
def write (t : Tree) (l : Location) (content : Bytes) : Option Tree :=
  if t.isDirectory l.parent && !t.isDirectory l then
    some ⟨t.entries.insert l (.file content)⟩
  else none

/-- As `write`, with the directories above made first. -/
def writeDeep (t : Tree) (l : Location) (content : Bytes) : Option Tree := do
  let t ← t.makeDirectories l.parent
  t.write l content

/-! ## Listing -/

/-- The files below `l` as paths from there, in order. -/
def filesBelow (t : Tree) (l : Location) : List String :=
  Text.sortByUnits <| t.entries.entries.filterMap fun e =>
    match e.2, l.names.isPrefixOf? e.1.names with
    | .file _, some below => some ("/".intercalate below)
    | _, _ => none

end Tree

end CacheGen
