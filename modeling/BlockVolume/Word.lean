/-!
# `BlockVolume.Word` — little-endian words

Numbers of two and four bytes, the lowest byte first.

## Contents
- `byteOf32` and `ofBytes32`: the bytes of a 32-bit word and the word of four bytes; each undoes the other.
- `lowByte`, `highByte` and `ofBytes16`: the same for 16-bit words.
-/

namespace BlockVolume.Word

/-- Byte `k` of `w`, counted from the lowest. -/
def byteOf32 (w : UInt32) (k : Nat) : UInt8 :=
  UInt8.ofNat (w.toNat >>> (8 * k))

/-- The word with the bytes `b₀`, `b₁`, `b₂`, `b₃`, the lowest first. -/
def ofBytes32 (b₀ b₁ b₂ b₃ : UInt8) : UInt32 :=
  UInt32.ofNat (b₀.toNat + 256 * b₁.toNat + 65536 * b₂.toNat + 16777216 * b₃.toNat)

/-- The low byte of a 16-bit word. -/
def lowByte (w : UInt16) : UInt8 :=
  UInt8.ofNat w.toNat

/-- The high byte of a 16-bit word. -/
def highByte (w : UInt16) : UInt8 :=
  UInt8.ofNat (w.toNat / 256)

/-- The 16-bit word with the given low and high bytes. -/
def ofBytes16 (low high : UInt8) : UInt16 :=
  UInt16.ofNat (low.toNat + 256 * high.toNat)

/-! ## Each direction undoes the other -/

/-- A word is rebuilt from its bytes. -/
theorem ofBytes32_byteOf32 (w : UInt32) :
    ofBytes32 (byteOf32 w 0) (byteOf32 w 1) (byteOf32 w 2) (byteOf32 w 3) = w := by
  apply UInt32.toNat_inj.mp
  have h := w.toNat_lt
  simp only [ofBytes32, byteOf32, UInt32.toNat_ofNat', UInt8.toNat_ofNat', Nat.shiftRight_eq_div_pow]
  omega

/-- The bytes of a word built from four bytes are these. -/
theorem byteOf32_ofBytes32 (b₀ b₁ b₂ b₃ : UInt8) :
    byteOf32 (ofBytes32 b₀ b₁ b₂ b₃) 0 = b₀ ∧ byteOf32 (ofBytes32 b₀ b₁ b₂ b₃) 1 = b₁ ∧
      byteOf32 (ofBytes32 b₀ b₁ b₂ b₃) 2 = b₂ ∧ byteOf32 (ofBytes32 b₀ b₁ b₂ b₃) 3 = b₃ := by
  have h₀ := b₀.toNat_lt
  have h₁ := b₁.toNat_lt
  have h₂ := b₂.toNat_lt
  have h₃ := b₃.toNat_lt
  refine ⟨?_, ?_, ?_, ?_⟩ <;> apply UInt8.toNat_inj.mp <;>
    simp only [ofBytes32, byteOf32, UInt32.toNat_ofNat', UInt8.toNat_ofNat',
      Nat.shiftRight_eq_div_pow] <;> omega

/-- A 16-bit word is rebuilt from its two bytes. -/
theorem ofBytes16_lowByte_highByte (w : UInt16) : ofBytes16 (lowByte w) (highByte w) = w := by
  apply UInt16.toNat_inj.mp
  have h := w.toNat_lt
  simp only [ofBytes16, lowByte, highByte, UInt16.toNat_ofNat', UInt8.toNat_ofNat']
  omega

/-- The low byte of a word built from two bytes is the first. -/
theorem lowByte_ofBytes16 (low high : UInt8) : lowByte (ofBytes16 low high) = low := by
  apply UInt8.toNat_inj.mp
  have hl := low.toNat_lt
  have hh := high.toNat_lt
  simp only [ofBytes16, lowByte, UInt16.toNat_ofNat', UInt8.toNat_ofNat']
  omega

/-- The high byte of a word built from two bytes is the second. -/
theorem highByte_ofBytes16 (low high : UInt8) : highByte (ofBytes16 low high) = high := by
  apply UInt8.toNat_inj.mp
  have hl := low.toNat_lt
  have hh := high.toNat_lt
  simp only [ofBytes16, highByte, UInt16.toNat_ofNat', UInt8.toNat_ofNat']
  omega

end BlockVolume.Word
