import BlockVolume.Geometry

/-!
# `BlockVolume.Bitmap` — which blocks are in use

One bit for each block of a volume, the lowest bit of each byte first. A bitmap is seen through
`test`; `set` and `clear` change one bit.

## Contents
- `test`, `set` and `clear`, with `test_set` and `test_clear`.
- `countUsed`: how many of the first bits are set.
- `ofBlock` and `toBlock`: the form on the device.
-/

namespace BlockVolume

/-- The bits of a bitmap block. -/
structure Bitmap where
  block : Block
  deriving DecidableEq

namespace Bitmap

/-- The bitmap without a bit set. -/
def empty : Bitmap := ⟨Block.zero⟩

/-- The bits that a block holds. -/
def ofBlock (b : Block) : Bitmap := ⟨b⟩

/-- The form on the device. -/
def toBlock (m : Bitmap) : Block := m.block

/-- Whether bit `index` is set. Past its capacity a bitmap has no bits set. -/
def test (m : Bitmap) (index : Nat) : Bool :=
  (m.block.byte (index / 8)).toBitVec.getLsbD (index % 8)

/-- Changes the byte that holds bit `index`. -/
def updateByte (m : Bitmap) (index : Nat) (f : BitVec 8 → BitVec 8) : Bitmap :=
  ⟨⟨m.block.bytes.setIfInBounds (index / 8) ⟨f (m.block.byte (index / 8)).toBitVec⟩⟩⟩

/-- Sets bit `index`. -/
def set (m : Bitmap) (index : Nat) : Bitmap :=
  m.updateByte index fun x => x ||| BitVec.twoPow 8 (index % 8)

/-- Clears bit `index`. -/
def clear (m : Bitmap) (index : Nat) : Bitmap :=
  m.updateByte index fun x => x &&& ~~~BitVec.twoPow 8 (index % 8)

/-- The bitmap of a volume without files: the blocks that describe it are in use. -/
def reserveMetadata (m : Bitmap) : Bitmap :=
  (List.range firstDataBlock).foldl set m

/-- How many of the first `count` bits are set. -/
def countUsed (m : Bitmap) (count : Nat) : Nat :=
  (List.range count).countP m.test

/-! ## Bits after a change -/

/-- A change of one byte shows in its eight bits only. -/
theorem test_updateByte (m : Bitmap) (f : BitVec 8 → BitVec 8) {i j : Nat} (hi : i < bitmapCapacity) :
    (m.updateByte i f).test j =
      if j / 8 = i / 8 then (f (m.block.byte (i / 8)).toBitVec).getLsbD (j % 8) else m.test j := by
  have hb : i / 8 < blockSize := Nat.div_lt_of_lt_mul (by simpa [Nat.mul_comm] using hi)
  by_cases h : j / 8 = i / 8
  · rw [if_pos h]
    simp [test, updateByte, Block.byte, h, hb]
  · rw [if_neg h]
    have h' : i / 8 ≠ j / 8 := fun e => h e.symm
    simp [test, updateByte, Block.byte, h']

/-- Setting a bit sets it and leaves all others. -/
theorem test_set (m : Bitmap) {i : Nat} (hi : i < bitmapCapacity) (j : Nat) :
    (m.set i).test j = (decide (j = i) || m.test j) := by
  rw [set, test_updateByte m _ hi]
  by_cases h : j / 8 = i / 8
  · rw [if_pos h, BitVec.getLsbD_or, BitVec.getLsbD_twoPow]
    have hj : j % 8 < 8 := Nat.mod_lt _ (by decide)
    have hi8 : i % 8 < 8 := Nat.mod_lt _ (by decide)
    have heq : (i % 8 = j % 8) ↔ j = i := by omega
    simp [test, h, hj, hi8, heq, Bool.or_comm]
  · have hne : j ≠ i := fun e => h (by rw [e])
    simp [h, hne]

/-- Clearing a bit clears it and leaves all others. -/
theorem test_clear (m : Bitmap) {i : Nat} (hi : i < bitmapCapacity) (j : Nat) :
    (m.clear i).test j = (decide (j ≠ i) && m.test j) := by
  rw [clear, test_updateByte m _ hi]
  by_cases h : j / 8 = i / 8
  · rw [if_pos h, BitVec.getLsbD_and, BitVec.getLsbD_not, BitVec.getLsbD_twoPow]
    have hj : j % 8 < 8 := Nat.mod_lt _ (by decide)
    have hi8 : i % 8 < 8 := Nat.mod_lt _ (by decide)
    have heq : (i % 8 = j % 8) ↔ j = i := by omega
    simp [test, h, hj, hi8, heq, Bool.and_comm]
  · have hne : j ≠ i := fun e => h (by rw [e])
    simp [h, hne]

@[simp] theorem test_empty (i : Nat) : empty.test i = false := by
  simp [test, empty]

end Bitmap

end BlockVolume
