/-!
# Descriptors as the compiler sends them

The parts of a protobuf file descriptor that generation reads. An absent member has its default:
empty text, `false`, no elements.
-/

namespace CacheGen.Proto

structure Message where
  name : String
  nested : List Message
  deriving Inhabited

structure Method where
  name : String := ""
  inputType : String := ""
  outputType : String := ""
  clientStreaming : Bool := false
  serverStreaming : Bool := false
  deriving DecidableEq, Inhabited

structure Service where
  name : String := ""
  methods : List Method := []
  deriving DecidableEq, Inhabited

/-- A span of the source: the element it belongs to, as a path of field numbers and indices, and
the comment in front of it. -/
structure Span where
  path : List Int := []
  leadingComment : String := ""
  deriving DecidableEq, Inhabited

structure File where
  name : String := ""
  package : String := ""
  /-- The `go_package` option. -/
  goPackage : String := ""
  messages : List Message := []
  services : List Service := []
  spans : List Span := []
  deriving Inhabited

end CacheGen.Proto
