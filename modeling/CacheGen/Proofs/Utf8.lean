import CacheGen.Text.Utf8
import Mathlib.Tactic.SplitIfs

/-!
# Text survives as bytes

Reading the bytes of a text gives the text back. A character of one byte is read at once. Any other
begins with a byte that leaves a `Pending` whose bounds hold for the second byte, since the
character is no surrogate and not written longer than needed; each byte behind it adds six bits, and
the last one completes the character.
-/

namespace CacheGen.Utf8

/-! ## Single bytes -/

theorem toNat_byte {n : Nat} (h : n < 0x100) : (UInt8.ofNat n).toNat = n := by
  rw [UInt8.toNat_ofNat', Nat.mod_eq_of_lt h]

/-- `next` may begin, and may not fit, but this byte fits and another is missing. -/
theorem decodeFrom_middle {m bits low high n : Nat} (bs : Bytes) (hn : n < 0x40)
    (hlow : low ≤ n + 0x80) (hhigh : n + 0x80 ≤ high) :
    decodeFrom (some ⟨m + 2, bits, low, high⟩) (UInt8.ofNat (n + 0x80) :: bs) =
      decodeFrom (some ⟨m + 1, bits * 0x40 + n, 0x80, 0xBF⟩) bs := by
  have hmod : (n + 0x80) % 0x40 = n := by omega
  rw [decodeFrom, toNat_byte (by omega)]
  simp only [next]
  rw [if_pos ⟨hlow, hhigh⟩, if_neg (by omega), hmod]
  rfl

theorem decodeFrom_last {bits low high n : Nat} (bs : Bytes) (hn : n < 0x40)
    (hlow : low ≤ n + 0x80) (hhigh : n + 0x80 ≤ high) :
    decodeFrom (some ⟨1, bits, low, high⟩) (UInt8.ofNat (n + 0x80) :: bs) =
      Char.ofNat (bits * 0x40 + n) :: decodeFrom none bs := by
  have hmod : (n + 0x80) % 0x40 = n := by omega
  rw [decodeFrom, toNat_byte (by omega)]
  simp only [next]
  rw [if_pos ⟨hlow, hhigh⟩, if_pos (by omega), hmod]
  rfl

theorem decodeFrom_lead {n : Nat} {begun : Pending} (bs : Bytes) (hn : n < 0x100)
    (h : lead n = ([], some begun)) :
    decodeFrom none (UInt8.ofNat n :: bs) = decodeFrom (some begun) bs := by
  rw [decodeFrom, toNat_byte hn]
  simp only [next, h]
  rfl

/-! ## First bytes -/

theorem lead_two {v : Nat} (h : 0x7F < v) (h' : v ≤ 0x7FF) :
    lead (v / 64 % 0x20 + 0xC0) = ([], some ⟨1, v / 64, 0x80, 0xBF⟩) := by
  have hbits : (v / 64 % 0x20 + 0xC0) % 0x20 = v / 64 := by omega
  unfold lead
  rw [if_neg (by omega), if_neg (by omega), if_pos (by omega), hbits]

/-- The bounds hold for the second byte of a character that needs three. -/
theorem lead_three {v : Nat} (h : 0x7FF < v) (h' : v ≤ 0xFFFF) (hs : v < 0xD800 ∨ 0xDFFF < v) :
    ∃ low high, lead (v / 4096 % 0x10 + 0xE0) = ([], some ⟨2, v / 4096, low, high⟩) ∧
      low ≤ v / 64 % 0x40 + 0x80 ∧ v / 64 % 0x40 + 0x80 ≤ high := by
  have hbits : (v / 4096 % 0x10 + 0xE0) % 0x10 = v / 4096 := by omega
  unfold lead
  rw [if_neg (by omega), if_neg (by omega), if_neg (by omega), hbits]
  by_cases hfirst : v / 4096 = 0
  · exact ⟨0xA0, 0xBF, by rw [if_pos (by omega)], by omega, by omega⟩
  rw [if_neg (by omega)]
  by_cases hlast : v / 4096 = 0xD
  · exact ⟨0x80, 0x9F, by rw [if_pos (by omega)], by omega, by omega⟩
  rw [if_neg (by omega), if_pos (by omega)]
  exact ⟨0x80, 0xBF, rfl, by omega, by omega⟩

/-- The bounds hold for the second byte of a character that needs four. -/
theorem lead_four {v : Nat} (h : 0xFFFF < v) (h' : v < 0x110000) :
    ∃ low high, lead (v / 262144 % 0x08 + 0xF0) = ([], some ⟨3, v / 262144, low, high⟩) ∧
      low ≤ v / 4096 % 0x40 + 0x80 ∧ v / 4096 % 0x40 + 0x80 ≤ high := by
  have hbits : (v / 262144 % 0x08 + 0xF0) % 0x08 = v / 262144 := by omega
  unfold lead
  rw [if_neg (by omega), if_neg (by omega), if_neg (by omega), if_neg (by omega),
    if_neg (by omega), if_neg (by omega), hbits]
  by_cases hfirst : v / 262144 = 0
  · exact ⟨0x90, 0xBF, by rw [if_pos (by omega)], by omega, by omega⟩
  rw [if_neg (by omega)]
  by_cases hlast : v / 262144 = 4
  · exact ⟨0x80, 0x8F, by rw [if_pos (by omega)], by omega, by omega⟩
  rw [if_neg (by omega), if_pos (by omega)]
  exact ⟨0x80, 0xBF, rfl, by omega, by omega⟩

/-! ## Characters -/

theorem toNat_range (c : Char) :
    c.val.toNat < 0x110000 ∧ (c.val.toNat < 0xD800 ∨ 0xDFFF < c.val.toNat) := by
  rcases c.valid with h | ⟨h, h'⟩
  · exact ⟨Nat.lt_trans h (by decide), Or.inl h⟩
  · exact ⟨h', Or.inr h⟩

theorem decodeFrom_encodeChar (c : Char) (bs : Bytes) :
    decodeFrom none (String.utf8EncodeChar c ++ bs) = c :: decodeFrom none bs := by
  obtain ⟨hmax, hsurrogate⟩ := toNat_range c
  have hback : Char.ofNat c.val.toNat = c := Char.ofNat_toNat c
  unfold String.utf8EncodeChar
  generalize c.val.toNat = v at *
  simp only
  split_ifs with h₁ h₂ h₃
  · rw [List.singleton_append, decodeFrom, toNat_byte (by omega)]
    simp only [next, lead]
    rw [if_pos (by omega), hback]
    rfl
  · rw [List.cons_append, List.singleton_append,
      decodeFrom_lead _ (by omega) (lead_two (by omega) h₂),
      decodeFrom_last _ (by omega) (by omega) (by omega)]
    rw [show v / 64 * 0x40 + v % 0x40 = v by omega, hback]
  · obtain ⟨low, high, hlead, hlow, hhigh⟩ := lead_three (by omega) h₃ hsurrogate
    rw [List.cons_append, List.cons_append, List.singleton_append,
      decodeFrom_lead _ (by omega) hlead, decodeFrom_middle _ (by omega) hlow hhigh,
      decodeFrom_last _ (by omega) (by omega) (by omega)]
    rw [show (v / 4096 * 0x40 + v / 64 % 0x40) * 0x40 + v % 0x40 = v by omega, hback]
  · obtain ⟨low, high, hlead, hlow, hhigh⟩ := lead_four (by omega) hmax
    rw [List.cons_append, List.cons_append, List.cons_append, List.singleton_append,
      decodeFrom_lead _ (by omega) hlead, decodeFrom_middle _ (by omega) hlow hhigh,
      decodeFrom_middle _ (by omega) (by omega) (by omega),
      decodeFrom_last _ (by omega) (by omega) (by omega)]
    rw [show ((v / 262144 * 0x40 + v / 4096 % 0x40) * 0x40 + v / 64 % 0x40) * 0x40 + v % 0x40 = v
      by omega, hback]

/-! ## Texts -/

theorem decodeFrom_encodeChars (cs : List Char) :
    decodeFrom none (cs.flatMap String.utf8EncodeChar) = cs := by
  induction cs with
  | nil => rfl
  | cons c cs ih => rw [List.flatMap_cons, decodeFrom_encodeChar, ih]

theorem decode_encode (s : String) : decode (encode s) = s := by
  unfold decode encode
  rw [decodeFrom_encodeChars, String.ofList_toList]

end CacheGen.Utf8
