import CacheGen.Generate
import CacheGen.Plugin.Request
import CacheGen.Wire.Descriptor

/-!
# Requests and responses in binary

What the compiler sends a plugin, and what the plugin answers.
-/

namespace CacheGen.Wire

def request : FieldReader Plugin.Request := fun t r bs =>
  match t.field with
  | 1 => (string bs).map fun (s, rest) => ({ r with requested := r.requested ++ [s] }, rest)
  | 2 => (string bs).map fun (s, rest) => ({ r with parameter := s }, rest)
  | 15 => (submessage file {} bs).map fun (f, rest) => ({ r with files := r.files ++ [f] }, rest)
  | _ => unknown t r bs

def readRequest (bs : Bytes) : Option Plugin.Request := whole request {} bs

def putGenerated (f : GeneratedFile) : Bytes := putString 1 f.name ++ putString 15 f.content

/-- The response with generated files. It announces support for optional fields first. -/
def putResponse (outputs : List GeneratedFile) : Bytes :=
  putTag 2 0 ++ putVarint 1 ++ outputs.flatMap fun f => putBytes 15 (putGenerated f)

end CacheGen.Wire
