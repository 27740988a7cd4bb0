import CacheGen.Descriptor.Proto

/-!
# Plugin requests
-/

namespace CacheGen.Plugin

/-- What the compiler hands over: all descriptors, imported files among them, the names of the
files that code is wanted for, and a parameter. -/
structure Request where
  requested : List String := []
  parameter : String := ""
  files : List Proto.File := []
  deriving Inhabited

end CacheGen.Plugin
