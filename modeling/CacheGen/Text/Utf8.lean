/-!
# Bytes of text

Text as UTF-8, and bytes read as text. Reading never fails: the longest part of a sequence that
could have become a character and did not reads as one U+FFFD, and so does a byte that begins none.
-/

namespace CacheGen

abbrev Bytes := List UInt8

namespace Utf8

def encode (s : String) : Bytes := s.toList.flatMap String.utf8EncodeChar

/-! ## Reading -/

/-- A character begun: how many bytes are missing, the bits so far, and the bounds of the next
byte. -/
structure Pending where
  missing : Nat
  bits : Nat
  low : Nat
  high : Nat

def replacement : Char := Char.ofNat 0xFFFD

/-- What a byte gives that begins a character: the character, or what it begins. -/
def lead (b : Nat) : List Char × Option Pending :=
  if b < 0x80 then ([Char.ofNat b], none)
  else if b < 0xC2 then ([replacement], none)
  else if b < 0xE0 then ([], some ⟨1, b % 0x20, 0x80, 0xBF⟩)
  else if b = 0xE0 then ([], some ⟨2, b % 0x10, 0xA0, 0xBF⟩)
  else if b = 0xED then ([], some ⟨2, b % 0x10, 0x80, 0x9F⟩)
  else if b < 0xF0 then ([], some ⟨2, b % 0x10, 0x80, 0xBF⟩)
  else if b = 0xF0 then ([], some ⟨3, b % 0x08, 0x90, 0xBF⟩)
  else if b = 0xF4 then ([], some ⟨3, b % 0x08, 0x80, 0x8F⟩)
  else if b < 0xF4 then ([], some ⟨3, b % 0x08, 0x80, 0xBF⟩)
  else ([replacement], none)

/-- What a byte gives behind `pending`. One that does not fit begins anew. -/
def next (pending : Option Pending) (b : Nat) : List Char × Option Pending :=
  match pending with
  | none => lead b
  | some p =>
    if p.low ≤ b ∧ b ≤ p.high then
      let bits := p.bits * 0x40 + b % 0x40
      if p.missing ≤ 1 then ([Char.ofNat bits], none)
      else ([], some ⟨p.missing - 1, bits, 0x80, 0xBF⟩)
    else
      let (cs, begun) := lead b
      (replacement :: cs, begun)

def decodeFrom (pending : Option Pending) : Bytes → List Char
  | [] => if pending.isSome then [replacement] else []
  | b :: bs =>
    let (cs, begun) := next pending b.toNat
    cs ++ decodeFrom begun bs

def decode (bs : Bytes) : String := String.ofList (decodeFrom none bs)

/-- As `decode`, a byte order mark in front left out. -/
def decodeUnmarked : Bytes → String
  | 0xEF :: 0xBB :: 0xBF :: bs => decode bs
  | bs => decode bs

end Utf8

end CacheGen
