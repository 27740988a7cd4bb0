/-!
# Quoted literals

A string literal in double quotes. A quote and a backslash are escaped, the five controls with a
letter of their own are written by it, any other control below U+0020 by its four hexadecimal
digits, and everything else stands for itself.
-/

namespace CacheGen.Text

/-- One character as it stands between the quotes. -/
def escapeChar (c : Char) : List Char :=
  if c = '"' ∨ c = '\\' then ['\\', c]
  else if c = '\n' then ['\\', 'n']
  else if c = '\r' then ['\\', 'r']
  else if c = '\t' then ['\\', 't']
  else if c.toNat = 0x08 then ['\\', 'b']
  else if c.toNat = 0x0C then ['\\', 'f']
  else if c.toNat < 0x20 then
    ['\\', 'u', '0', '0', Nat.digitChar (c.toNat / 16), Nat.digitChar (c.toNat % 16)]
  else [c]

def escape (cs : List Char) : List Char := cs.flatMap escapeChar

def quote (s : String) : String := String.ofList ('"' :: escape s.toList ++ ['"'])

theorem escape_append (a b : List Char) : escape (a ++ b) = escape a ++ escape b := by
  simp [escape]

theorem toList_quote (s : String) : (quote s).toList = '"' :: escape s.toList ++ ['"'] := by
  simp [quote]

end CacheGen.Text
