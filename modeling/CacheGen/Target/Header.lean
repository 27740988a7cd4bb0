/-!
# The generator's own name
-/

namespace CacheGen

def generatorName : String := "protoc-gen-cache-manager"

def generatorVersion : String := "v0.1.0"

/-- The first line of every generated file. -/
def generatedHeader : String := "// Code generated by " ++ generatorName ++ ". DO NOT EDIT."

end CacheGen
