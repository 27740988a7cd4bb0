import CacheGen.Text.Utf8

/-!
# Writing the wire format
-/

namespace CacheGen.Wire

/-- A number in base 128, low digits first; every byte but the last has its high bit set. -/
def putVarint (n : Nat) : Bytes :=
  if n < 0x80 then [UInt8.ofNat n]
  else UInt8.ofNat (n % 0x80 + 0x80) :: putVarint (n / 0x80)

def putTag (field wireType : Nat) : Bytes := putVarint (field * 8 + wireType)

/-- Bytes with their length in front. -/
def putBytes (field : Nat) (content : Bytes) : Bytes :=
  putTag field 2 ++ putVarint content.length ++ content

def putString (field : Nat) (s : String) : Bytes := putBytes field (Utf8.encode s)

def putBool (field : Nat) (b : Bool) : Bytes := putTag field 0 ++ [if b then 1 else 0]

/-- A 32-bit number; one below zero is written as its 64-bit two's complement. -/
def putInt32 (n : Int) : Bytes := putVarint (n % 0x10000000000000000).toNat

end CacheGen.Wire
