import CacheGen.Json
import CacheGen.Text.Quoted

/-!
# Printing JSON

One member or item a line, two blanks of indentation a level, a blank behind the colon. An empty
object or array stays on its line.
-/

namespace CacheGen.Json

def indentation (level : Nat) : String := String.ofList (List.replicate (2 * level) ' ')

/-- Elements on lines of their own between brackets. -/
def bracketed (level : Nat) (opening closing : String) (elements : List String) : String :=
  if elements.isEmpty then opening ++ closing
  else
    opening ++ "\n" ++
      ",\n".intercalate (elements.map (indentation (level + 1) ++ ·)) ++
      "\n" ++ indentation level ++ closing

mutual

def print (level : Nat) : Json → String
  | null => "null"
  | bool b => if b then "true" else "false"
  | number s => s
  | string s => Text.quote s
  | array items => bracketed level "[" "]" (printItems (level + 1) items)
  | object members => bracketed level "\x7b" "\x7d" (printMembers (level + 1) members)

def printItems (level : Nat) : List Json → List String
  | [] => []
  | v :: vs => print level v :: printItems level vs

def printMembers (level : Nat) : List (String × Json) → List String
  | [] => []
  | (k, v) :: ms => (Text.quote k ++ ": " ++ print level v) :: printMembers level ms

end

/-- The text of a value on its own. -/
def pretty (j : Json) : String := print 0 j

end CacheGen.Json
