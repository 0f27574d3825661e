/-!
# Words and bits as bytes

On the wire a word is two bytes, the high one first, and bits are packed eight to a byte, the first
one lowest, with zeros after the last.
-/

namespace Fieldbus

/-- The word of two bytes. -/
def wordOf (high low : UInt8) : UInt16 :=
  (high.toNat * 256 + low.toNat).toUInt16

/-- The two bytes of a word. -/
def wordBytes (w : UInt16) : List UInt8 :=
  [(w.toNat / 256).toUInt8, (w.toNat % 256).toUInt8]

@[simp] theorem length_wordBytes (w : UInt16) : (wordBytes w).length = 2 := rfl

/-- The bytes of neighbouring words. -/
def wordsBytes (words : List UInt16) : List UInt8 :=
  words.flatMap wordBytes

@[simp] theorem length_wordsBytes (words : List UInt16) :
    (wordsBytes words).length = 2 * words.length := by
  induction words with
  | nil => rfl
  | cons w ws ih =>
    simp only [wordsBytes, List.flatMap_cons, List.length_append, length_wordBytes] at ih ⊢
    rw [ih, List.length_cons]
    omega

/-- The number whose binary digits are `bits`, the lowest first. -/
def bitsNumber : List Bool → Nat
  | [] => 0
  | b :: bs => b.toNat + 2 * bitsNumber bs

/-- Bits eight to a byte, the first one lowest. -/
def packBits (bits : List Bool) : List UInt8 :=
  if bits = [] then []
  else (bitsNumber (bits.take 8)).toUInt8 :: packBits (bits.drop 8)
termination_by bits.length
decreasing_by
  have := List.length_pos_iff.2 ‹_›
  simp
  omega

/-- The eight bits of a byte, the lowest first. -/
def byteBits (byte : UInt8) : List Bool :=
  (List.range 8).map byte.toNat.testBit

/-- The bits of bytes, eight each. -/
def unpackBits (bytes : List UInt8) : List Bool :=
  bytes.flatMap byteBits

theorem length_packBits (bits : List Bool) : (packBits bits).length = (bits.length + 7) / 8 := by
  fun_induction packBits bits with
  | case1 => rfl
  | case2 bits h ih =>
    have := List.length_pos_iff.2 h
    rw [List.length_cons, ih, List.length_drop]
    omega

@[simp] theorem length_unpackBits (bytes : List UInt8) :
    (unpackBits bytes).length = 8 * bytes.length := by
  induction bytes with
  | nil => rfl
  | cons b bs ih =>
    simp only [unpackBits, List.flatMap_cons, List.length_append] at ih ⊢
    rw [ih]
    simp [byteBits]
    omega

end Fieldbus
