import CacheGen.Descriptor.Proto
import CacheGen.OrderedMap

/-!
# Comments

A raw comment is what stands behind the comment markers, one line feed behind each line. Its
*bodies* are those lines; its *text* is the bodies without the space that separates them from the
marker.

A comment belongs to an element by the path of its span: service `s` of a file is at `[6, s]`, and
its method `m` at `[6, s, 2, m]`. The comments of a file are indexed by paths written as text.
-/

namespace CacheGen

namespace Comment

/-- Without one line feed at the end. -/
def dropFinalNewline (cs : List Char) : List Char :=
  if cs.getLast? = some '\n' then cs.dropLast else cs

def bodies (raw : String) : List String :=
  ((dropFinalNewline raw.toList).splitOn '\n').map String.ofList

/-- Without one space in front. -/
def dropMarkerSpace (body : String) : String :=
  match body.toList with
  | ' ' :: rest => String.ofList rest
  | _ => body

def text (raw : String) : String := "\n".intercalate ((bodies raw).map dropMarkerSpace)

end Comment

namespace Proto

def servicePath (s : Nat) : List Int := [6, s]

def methodPath (s m : Nat) : List Int := servicePath s ++ [2, (m : Int)]

/-- A path as one text: its numbers in decimal with dots between them. -/
def pathKey (path : List Int) : String := ".".intercalate (path.map toString)

end Proto

/-- The comments of a file by the keys of their paths. -/
abbrev CommentIndex := OrderedMap String String

/-- Of two comments at one path the later counts. An empty one is none. -/
def CommentIndex.ofSpans (spans : List Proto.Span) : CommentIndex :=
  .ofEntries ((spans.filter (·.leadingComment ≠ "")).map fun s =>
    (Proto.pathKey s.path, s.leadingComment))

namespace Proto

/-- The comment of the element at `path`. -/
def File.leadingComment (f : File) (path : List Int) : Option String :=
  (CommentIndex.ofSpans f.spans).get? (pathKey path)

end Proto

end CacheGen
