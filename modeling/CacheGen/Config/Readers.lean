import CacheGen.Config.Discovery
import CacheGen.Yaml.Reader

/-!
# The readers of the program

The program reads config files in YAML with a reader of its own. It runs no scripts, and a project
that keeps its settings in one is refused.
-/

namespace CacheGen.Discovery

def Readers.builtin : Readers where
  yaml text :=
    match Yaml.parse? text with
    | some v => .ok v
    | none => .error "the text is not YAML"
  script _ _ := .error "scripts are not run"

end CacheGen.Discovery
