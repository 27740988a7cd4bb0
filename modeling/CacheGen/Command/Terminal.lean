/-!
# What a command prints
-/

namespace CacheGen

/-- The text on both channels of a terminal. -/
structure Terminal where
  out : String := ""
  err : String := ""
  deriving DecidableEq, Inhabited, Repr

namespace Terminal

instance : Append Terminal := ⟨fun a b => ⟨a.out ++ b.out, a.err ++ b.err⟩⟩

/-- A line of output. -/
def line (text : String) : Terminal := { out := text ++ "\n" }

/-- A line of diagnosis. -/
def errLine (text : String) : Terminal := { err := text ++ "\n" }

/-- Work begins. -/
def begun (text : String) : Terminal := errLine ("- " ++ text)

def succeeded (text : String) : Terminal := errLine ("✔ " ++ text)

def failed (text : String) : Terminal := errLine ("✖ " ++ text)

/-- Nothing, if `quiet`. -/
def hushed (quiet : Bool) (t : Terminal) : Terminal := if quiet then {} else t

end Terminal

end CacheGen
