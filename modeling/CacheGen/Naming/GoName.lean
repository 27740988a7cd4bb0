/-!
# Go names

The exported Go name of a protobuf name: `get_order` is `GetOrder`, `Order.Line` is `Order_Line`,
`_id` is `XId`. What a character becomes depends on its two neighbours only.

* A *dot* vanishes before a lower-case letter and is an underscore otherwise.
* An *underscore* becomes `X` where a name begins, at the start or after a dot. Elsewhere it
  vanishes before a lower-case letter and stays otherwise.
* A *lower-case letter* is capitalised where a word begins: at the start and after a dot, an
  underscore or a digit.
* Anything else stays.

Lower case and digits are those of ASCII.
-/

namespace CacheGen.Naming

def isLowerLetter (c : Char) : Bool := 'a' ≤ c && c ≤ 'z'

def isDecimal (c : Char) : Bool := '0' ≤ c && c ≤ '9'

/-- A word begins behind `before`. -/
def beginsWord (before : Option Char) : Bool :=
  match before with
  | none => true
  | some p => p = '.' || p = '_' || isDecimal p

/-- What `c` becomes between its neighbours. -/
def goNameStep (before : Option Char) (c : Char) (after : Option Char) : List Char :=
  if c = '.' then
    if after.any isLowerLetter then [] else ['_']
  else if c = '_' then
    if before = none ∨ before = some '.' then ['X']
    else if after.any isLowerLetter then [] else ['_']
  else if isLowerLetter c && beginsWord before then [c.toUpper]
  else [c]

def goNameFrom (before : Option Char) : List Char → List Char
  | [] => []
  | c :: cs => goNameStep before c cs.head? ++ goNameFrom (some c) cs

def goName (name : String) : String := String.ofList (goNameFrom none name.toList)

@[simp] theorem toList_goName (name : String) :
    (goName name).toList = goNameFrom none name.toList := by
  simp [goName]

end CacheGen.Naming
