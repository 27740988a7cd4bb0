/-!
# JSON values

The values that config files hold. An object has its members in the order read, each key once; a
number keeps its spelling, since no setting is a number.
-/

namespace CacheGen

inductive Json where
  | null
  | bool (value : Bool)
  | number (spelling : String)
  | string (value : String)
  | array (items : List Json)
  | object (members : List (String × Json))
  deriving Inhabited

namespace Json

/-- What kind of value it is, as messages say it. -/
def kind : Json → String
  | null => "null"
  | bool _ => "boolean"
  | number _ => "number"
  | string _ => "string"
  | array _ => "array"
  | object _ => "object"

/-- The member under `key`. -/
def member? (members : List (String × Json)) (key : String) : Option Json :=
  (members.find? (·.1 = key)).map Prod.snd

/-! ## Order of members -/

/-- The number that a key spells as an array index: digits without a leading zero, below
2^32 - 1. -/
def indexOf? (key : String) : Option Nat :=
  let n := key.toList.foldl (fun n c => 10 * n + (c.toNat - '0'.toNat)) 0
  if key ≠ "" ∧ key.toList.all Char.isDigit ∧ toString n = key ∧ n < 4294967295 then some n
  else none

/-- The members as they are gone through: first those under an index, by number, then the others in
the order read. -/
def enumerate (members : List (String × Json)) : List (String × Json) :=
  let indexed := members.filterMap fun m => (indexOf? m.1).map fun n => (n, m)
  (indexed.mergeSort fun a b => a.1 ≤ b.1).map Prod.snd ++
    members.filter fun m => (indexOf? m.1).isNone

end Json

end CacheGen
