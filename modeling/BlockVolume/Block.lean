import BlockVolume.Word

/-!
# `BlockVolume.Block` — blocks of 512 bytes

A block is the unit of every transfer. It is seen through `byte`, which gives the byte at an offset
and zero past the end; what each operation does is said in terms of it.

## Contents
- `byte`, `ofFn` and `ext_byte`: a block is its bytes.
- `overlay`: bytes laid over a block from an offset on; `ofBytes` lays them over zeros.
- `slice` and `word`: a run of bytes, and a little-endian word, read out of a block.
-/

namespace BlockVolume

/-- Bytes in a block. -/
abbrev blockSize : Nat := 512

/-- A block of bytes. -/
structure Block where
  bytes : Vector UInt8 blockSize
  deriving DecidableEq

namespace Block

/-- The byte at `offset`, or zero past the end. -/
def byte (b : Block) (offset : Nat) : UInt8 :=
  b.bytes[offset]?.getD 0

/-- The block whose byte at offset `i` is `f i`. -/
def ofFn (f : Nat → UInt8) : Block :=
  ⟨Vector.ofFn fun i => f i.val⟩

/-- The block of zeros. -/
def zero : Block :=
  ⟨Vector.replicate blockSize 0⟩

/-- `data` laid over `b` from `offset` on; what would come to lie past the end is dropped. -/
def overlay (b : Block) (offset : Nat) : List UInt8 → Block
  | [] => b
  | x :: rest => overlay ⟨b.bytes.setIfInBounds offset x⟩ (offset + 1) rest

/-- The block that begins with `data` and is zero from there on. -/
def ofBytes (data : List UInt8) : Block :=
  zero.overlay 0 data

/-- The `count` bytes from `offset` on. -/
def slice (b : Block) (offset count : Nat) : List UInt8 :=
  (List.range' offset count).map b.byte

/-- The bytes of a block, in order. -/
def toList (b : Block) : List UInt8 :=
  b.bytes.toList

/-- The little-endian word at `offset`. -/
def word (b : Block) (offset : Nat) : UInt32 :=
  Word.ofBytes32 (b.byte offset) (b.byte (offset + 1)) (b.byte (offset + 2)) (b.byte (offset + 3))

/-! ## Blocks as their bytes -/

/-- Past its end a block reads as zero. -/
theorem byte_of_ge (b : Block) {i : Nat} (h : blockSize ≤ i) : b.byte i = 0 := by
  simp only [byte, Vector.getElem?_eq_none h, Option.getD_none]

/-- Blocks with the same bytes are equal. -/
theorem ext_byte {a b : Block} (h : ∀ i < blockSize, a.byte i = b.byte i) : a = b := by
  cases a with
  | mk u =>
    cases b with
    | mk v =>
      congr 1
      apply Vector.ext
      intro i hi
      simpa [byte, hi] using h i hi

@[simp] theorem byte_ofFn (f : Nat → UInt8) {i : Nat} (h : i < blockSize) : (ofFn f).byte i = f i := by
  simp [byte, ofFn, h]

@[simp] theorem byte_zero (i : Nat) : zero.byte i = 0 := by
  by_cases h : i < blockSize
  · simp [byte, zero, h]
  · exact byte_of_ge _ (Nat.le_of_not_lt h)

/-- Laying bytes over a block changes exactly the offsets that they cover. -/
theorem byte_overlay (b : Block) (offset : Nat) (data : List UInt8) {i : Nat} (h : i < blockSize) :
    (b.overlay offset data).byte i =
      if offset ≤ i ∧ i < offset + data.length then data[i - offset]?.getD 0 else b.byte i := by
  induction data generalizing b offset with
  | nil => simp [overlay, show ¬(offset ≤ i ∧ i < offset) by omega]
  | cons x rest ih =>
    rw [overlay, ih]
    by_cases heq : offset = i
    · subst heq
      rw [if_neg (by omega), if_pos (by simp)]
      simp [byte, h]
    · by_cases hin : offset + 1 ≤ i ∧ i < offset + 1 + rest.length
      · rw [if_pos hin, if_pos (by simp only [List.length_cons]; omega),
          show i - offset = (i - (offset + 1)) + 1 by omega, List.getElem?_cons_succ]
      · rw [if_neg hin, if_neg (by simp only [List.length_cons]; omega)]
        simp [byte, h, heq]

@[simp] theorem length_slice (b : Block) (offset count : Nat) : (b.slice offset count).length = count := by
  simp [slice]

end Block

end BlockVolume
