/-!
# The descriptor model

What generation works on: files with their services, services with their methods, and methods with
references to the messages they take and return, each reference resolved to the file that declares
it.
-/

namespace CacheGen

structure MessageRef where
  /-- Package and nesting joined by dots, as in `shop.v1.Order.Line`. -/
  fullName : String
  /-- Nesting joined by underscores, as in `Order_Line`. -/
  localName : String
  /-- Nesting joined by dots, as in `Order.Line`. -/
  scopedName : String
  /-- The file that declares the message. -/
  file : String
  deriving DecidableEq, Inhabited, Repr

structure Method where
  name : String
  /-- The service that declares the method. -/
  parent : String
  input : MessageRef
  output : MessageRef
  /-- The comment in front, line feeds and leading spaces included. -/
  leadingComment : Option String
  clientStreaming : Bool
  serverStreaming : Bool
  deriving DecidableEq, Inhabited, Repr

def Method.isStreaming (m : Method) : Bool := m.clientStreaming || m.serverStreaming

structure Service where
  name : String
  methods : List Method
  leadingComment : Option String
  deriving DecidableEq, Inhabited, Repr

structure SourceFile where
  name : String
  package : String
  /-- Code was asked for; other files are only there to be referred to. -/
  isRequested : Bool
  /-- The name without its `.proto`. -/
  stem : String
  goPackageName : String
  goImportPath : String
  services : List Service
  deriving DecidableEq, Inhabited, Repr

end CacheGen
