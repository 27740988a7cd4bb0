import CacheGen.Text.Utf8

/-!
# Reading the wire format

A message in binary is a sequence of fields: a tag with the field number and the wire type, then
the value. The *number* decides how a value is read; the wire type matters for fields that are not
known, which are skipped, and tells packed lists from single elements.

A reader takes the bytes and gives its value with the bytes behind it, or fails: where the bytes end
too early, on field number zero, on a number of more than ten bytes, and on a group that is not
closed by its own tag. A message inside another is read up to its announced end.
-/

namespace CacheGen.Wire

abbrev Reader (α : Type) := Bytes → Option (α × Bytes)

/-! ## Numbers -/

/-- A number in base 128, low digits first, of at most `n` bytes. -/
def varint : Nat → Reader Nat
  | 0, _ => none
  | _, [] => none
  | n + 1, b :: bs =>
    if b < 0x80 then some (b.toNat, bs)
    else (varint n bs).map fun (high, rest) => (b.toNat % 0x80 + 0x80 * high, rest)

/-- The low 32 bits of a number. -/
def uint32 : Reader Nat := fun bs => (varint 10 bs).map fun (n, rest) => (n % 0x100000000, rest)

/-- The low 32 bits of a number, in two's complement. -/
def int32 : Reader Int := fun bs =>
  (uint32 bs).map fun (n, rest) => (if n < 0x80000000 then n else n - 0x100000000, rest)

/-- Any number but zero, of 64 bits, is true. -/
def bool : Reader Bool := fun bs =>
  (varint 10 bs).map fun (n, rest) => (n % 0x10000000000000000 ≠ 0, rest)

/-! ## Fields -/

structure Tag where
  field : Nat
  wireType : Nat
  deriving DecidableEq

def tag : Reader Tag := fun bs => do
  let (n, rest) ← uint32 bs
  if n / 8 = 0 ∨ 5 < n % 8 then none else some (⟨n / 8, n % 8⟩, rest)

/-- Step over `n` bytes. -/
def take (n : Nat) : Reader Bytes := fun bs =>
  if n ≤ bs.length then some (bs.take n, bs.drop n) else none

def bytes : Reader Bytes := fun bs => do
  let (n, rest) ← uint32 bs
  take n rest

def string : Reader String := fun bs =>
  (bytes bs).map fun (s, rest) => (Utf8.decodeUnmarked s, rest)

/-! ## Unknown fields -/

/-- Step over a number of any length. -/
def skipVarint (bs : Bytes) : Option Bytes :=
  match bs.dropWhile (0x80 ≤ ·) with
  | [] => none
  | _ :: rest => some rest

/-- Step over a value that is no group. -/
def skipValue (wireType : Nat) (bs : Bytes) : Option Bytes :=
  match wireType with
  | 0 => skipVarint bs
  | 1 => (take 8 bs).map Prod.snd
  | 2 => (bytes bs).map Prod.snd
  | 5 => (take 4 bs).map Prod.snd
  | _ => none

/-- Step over the rest of the groups in `opened`, the innermost first. -/
def skipGroups : Nat → List Nat → Bytes → Option Bytes
  | _, [], bs => some bs
  | 0, _, _ => none
  | n + 1, g :: gs, bs => do
    let (t, rest) ← tag bs
    match t.wireType with
    | 3 => skipGroups n (t.field :: g :: gs) rest
    | 4 => if t.field = g then skipGroups n gs rest else none
    | w =>
      let rest ← skipValue w rest
      skipGroups n (g :: gs) rest

/-- Step over the value behind a tag. -/
def skip (t : Tag) (bs : Bytes) : Option Bytes :=
  if t.wireType = 3 then skipGroups bs.length [t.field] bs else skipValue t.wireType bs

/-! ## Messages -/

/-- How a field changes the message read so far. -/
abbrev FieldReader (α : Type) := Tag → α → Reader α

/-- An unknown field changes nothing. -/
def unknown {α : Type} (t : Tag) (a : α) : Reader α := fun bs =>
  (skip t bs).map fun rest => (a, rest)

/-- Read fields until at most `stop` bytes are left. -/
def fields {α : Type} (read : FieldReader α) (stop : Nat) : Nat → α → Reader α
  | 0, a, bs => some (a, bs)
  | n + 1, a, bs =>
    if bs.length ≤ stop then some (a, bs)
    else do
      let (t, rest) ← tag bs
      let (a, rest) ← read t a rest
      fields read stop n a rest

/-- Read a message with its length in front, on top of `a`. -/
def submessage {α : Type} (read : FieldReader α) (a : α) : Reader α := fun bs => do
  let (n, rest) ← uint32 bs
  if n ≤ rest.length then fields read (rest.length - n) rest.length a rest else none

/-- Read a message that takes all the bytes. -/
def whole {α : Type} (read : FieldReader α) (a : α) (bs : Bytes) : Option α :=
  (fields read 0 bs.length a bs).map Prod.fst

/-- Elements of a packed list until at most `stop` bytes are left. -/
def packedUntil {α : Type} (read : Reader α) (stop : Nat) : Nat → Reader (List α)
  | 0, bs => some ([], bs)
  | n + 1, bs =>
    if bs.length ≤ stop then some ([], bs)
    else do
      let (a, rest) ← read bs
      let (as, rest) ← packedUntil read stop n rest
      return (a :: as, rest)

/-- The elements that one field gives a list of numbers: many if it is packed. -/
def elements {α : Type} (read : Reader α) (t : Tag) : Reader (List α) := fun bs =>
  if t.wireType = 2 then do
    let (n, rest) ← uint32 bs
    if n ≤ rest.length then packedUntil read (rest.length - n) rest.length rest else none
  else (read bs).map fun (a, rest) => ([a], rest)

end CacheGen.Wire
