import CacheGen.Descriptor.Proto
import CacheGen.Wire.Reader
import CacheGen.Wire.Writer

/-!
# Descriptors in binary

The field numbers of file descriptors and of sets of them. A repeated message is collected in
order; a single message that occurs again is merged into the one read before, and of a single value
the last occurrence counts.
-/

namespace CacheGen.Wire

/-! ## Reading -/

/-- A message type with what is nested in it, to a depth of `n`. -/
def messageType : Nat → FieldReader Proto.Message
  | 0, _, _, _ => none
  | n + 1, t, m, bs =>
    match t.field with
    | 1 => (string bs).map fun (s, rest) => (⟨s, m.nested⟩, rest)
    | 3 => (submessage (messageType n) ⟨"", []⟩ bs).map fun (inner, rest) =>
      (⟨m.name, m.nested ++ [inner]⟩, rest)
    | _ => unknown t m bs

def method : FieldReader Proto.Method := fun t m bs =>
  match t.field with
  | 1 => (string bs).map fun (s, rest) => ({ m with name := s }, rest)
  | 2 => (string bs).map fun (s, rest) => ({ m with inputType := s }, rest)
  | 3 => (string bs).map fun (s, rest) => ({ m with outputType := s }, rest)
  | 5 => (bool bs).map fun (b, rest) => ({ m with clientStreaming := b }, rest)
  | 6 => (bool bs).map fun (b, rest) => ({ m with serverStreaming := b }, rest)
  | _ => unknown t m bs

def service : FieldReader Proto.Service := fun t s bs =>
  match t.field with
  | 1 => (string bs).map fun (name, rest) => ({ s with name := name }, rest)
  | 2 => (submessage method {} bs).map fun (m, rest) =>
    ({ s with methods := s.methods ++ [m] }, rest)
  | _ => unknown t s bs

def span : FieldReader Proto.Span := fun t s bs =>
  match t.field with
  | 1 => (elements int32 t bs).map fun (is, rest) => ({ s with path := s.path ++ is }, rest)
  | 3 => (string bs).map fun (c, rest) => ({ s with leadingComment := c }, rest)
  | _ => unknown t s bs

/-- The options of a file, of which `go_package` is kept. -/
def fileOptions : FieldReader String := fun t goPackage bs =>
  match t.field with
  | 11 => string bs
  | _ => unknown t goPackage bs

def sourceInfo : FieldReader (List Proto.Span) := fun t spans bs =>
  match t.field with
  | 1 => (submessage span {} bs).map fun (s, rest) => (spans ++ [s], rest)
  | _ => unknown t spans bs

def file : FieldReader Proto.File := fun t f bs =>
  match t.field with
  | 1 => (string bs).map fun (s, rest) => ({ f with name := s }, rest)
  | 2 => (string bs).map fun (s, rest) => ({ f with package := s }, rest)
  | 4 => (submessage (messageType bs.length) ⟨"", []⟩ bs).map fun (m, rest) =>
    ({ f with messages := f.messages ++ [m] }, rest)
  | 6 => (submessage service {} bs).map fun (s, rest) =>
    ({ f with services := f.services ++ [s] }, rest)
  | 8 => (submessage fileOptions f.goPackage bs).map fun (g, rest) =>
    ({ f with goPackage := g }, rest)
  | 9 => (submessage sourceInfo f.spans bs).map fun (ss, rest) => ({ f with spans := ss }, rest)
  | _ => unknown t f bs

def fileSet : FieldReader (List Proto.File) := fun t fs bs =>
  match t.field with
  | 1 => (submessage file {} bs).map fun (f, rest) => (fs ++ [f], rest)
  | _ => unknown t fs bs

def readFileSet (bs : Bytes) : Option (List Proto.File) := whole fileSet [] bs

/-! ## Writing -/

mutual

def putMessageType : Proto.Message → Bytes
  | ⟨name, nested⟩ => putString 1 name ++ putNested nested

def putNested : List Proto.Message → Bytes
  | [] => []
  | m :: ms => putBytes 3 (putMessageType m) ++ putNested ms

end

def putMethod (m : Proto.Method) : Bytes :=
  putString 1 m.name ++ putString 2 m.inputType ++ putString 3 m.outputType ++
    putBool 5 m.clientStreaming ++ putBool 6 m.serverStreaming

def putService (s : Proto.Service) : Bytes :=
  putString 1 s.name ++ s.methods.flatMap fun m => putBytes 2 (putMethod m)

def putSpan (s : Proto.Span) : Bytes :=
  putBytes 1 (s.path.flatMap putInt32) ++ putString 3 s.leadingComment

def putFile (f : Proto.File) : Bytes :=
  putString 1 f.name ++ putString 2 f.package ++
    (f.messages.flatMap fun m => putBytes 4 (putMessageType m)) ++
    (f.services.flatMap fun s => putBytes 6 (putService s)) ++
    putBytes 8 (putString 11 f.goPackage) ++
    putBytes 9 (f.spans.flatMap fun s => putBytes 1 (putSpan s))

def putFileSet (fs : List Proto.File) : Bytes := fs.flatMap fun f => putBytes 1 (putFile f)

end CacheGen.Wire
