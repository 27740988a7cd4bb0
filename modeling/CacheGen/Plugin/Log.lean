import CacheGen.Config.Basic

/-!
# The log of a plugin run

What a run reports about itself. Each event has a level; a reader asks for the events from one level
on.
-/

namespace CacheGen

inductive Level where
  | trace
  | debug
  | info
  | warn
  | error
  | fatal
  | silent
  deriving DecidableEq, Inhabited, Repr

namespace Level

def rank : Level → Nat
  | trace => 10
  | debug => 20
  | info => 30
  | warn => 40
  | error => 50
  | fatal => 60
  | silent => 70

def name : Level → String
  | trace => "trace"
  | debug => "debug"
  | info => "info"
  | warn => "warn"
  | error => "error"
  | fatal => "fatal"
  | silent => "silent"

def ofName? (name : String) : Option Level :=
  [trace, debug, info, warn, error, fatal, silent].find? (·.name = name)

/-- The level of a log that nobody set. -/
def default : Level := warn

end Level

inductive Event where
  | configResolved (parameter : String) (config : Config)
  /-- A streaming method is wrapped as if it were a unary one. -/
  | streamingMethod (file service method : String)
  /-- A file was generated, of so many 16-bit units. -/
  | generated (file : String) (size : Nat)
  | failed (error : GenError)
  deriving DecidableEq

namespace Event

def level : Event → Level
  | configResolved .. => .debug
  | streamingMethod .. => .warn
  | generated .. => .info
  | failed .. => .error

def message : Event → String
  | configResolved .. => "resolved config"
  | streamingMethod .. => "streaming method wrapped as a unary cache accessor"
  | generated .. => "generated cache manager"
  | failed .. => "cache manager generation failed"

end Event

abbrev Log := List Event

/-- The events at `level` and above. -/
def Log.from (level : Level) (log : Log) : Log := log.filter fun e => level.rank ≤ e.level.rank

end CacheGen
