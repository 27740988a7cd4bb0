/-!
# Name scopes

The names taken in one generated module. A name that is wanted but taken is bound under an alias:
the name with `$1`, `$2` and so on behind it, the first that is free. Of one alias more than there
are taken names, one is free, so the search is bounded.
-/

namespace CacheGen

structure Scope where
  taken : List String
  deriving Inhabited

namespace Scope

/-- The name itself, then its aliases. -/
def candidate (wanted : String) : Nat → String
  | 0 => wanted
  | n + 1 => wanted ++ "$" ++ toString (n + 1)

/-- The first candidate that is not taken. -/
def firstFree (s : Scope) (wanted : String) : String :=
  let free := (List.range (s.taken.length + 1)).find? fun n => candidate wanted n ∉ s.taken
  candidate wanted (free.getD 0)

def reserve (s : Scope) (name : String) : Scope := ⟨name :: s.taken⟩

/-- Take the first free candidate. -/
def claim (s : Scope) (wanted : String) : String × Scope :=
  let name := s.firstFree wanted
  (name, s.reserve name)

end Scope

end CacheGen
