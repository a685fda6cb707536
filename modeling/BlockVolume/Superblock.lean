import BlockVolume.Geometry
import BlockVolume.Error

/-!
# `BlockVolume.Superblock` — what a volume says about itself

The first block of a volume: seven little-endian words and zeros. Before a volume is used its
superblock is checked against the format and against the device that it was read from.

## Contents
- `Superblock` and `fresh`: the seven words, and those of a new volume.
- `validate`: whether the words fit the format and the device.
- `toBlock` and `ofBlock`: the form on the device.
-/

namespace BlockVolume

/-- The words of a superblock. -/
structure Superblock where
  magic : UInt32
  blockSize : UInt32
  totalBlocks : UInt32
  freeBlocks : UInt32
  directoryBlock : UInt32
  bitmapBlock : UInt32
  firstDataBlock : UInt32
  deriving DecidableEq

namespace Superblock

/-- The superblock of a new volume: all data blocks are free. -/
def fresh : Superblock where
  magic := volumeMagic
  blockSize := UInt32.ofNat BlockVolume.blockSize
  totalBlocks := UInt32.ofNat volumeBlocks
  freeBlocks := UInt32.ofNat (volumeBlocks - BlockVolume.firstDataBlock)
  directoryBlock := UInt32.ofNat BlockVolume.directoryBlock
  bitmapBlock := UInt32.ofNat BlockVolume.bitmapBlock
  firstDataBlock := UInt32.ofNat BlockVolume.firstDataBlock

/-- Whether the words after the first fit the format and a device of `deviceBlocks` blocks. -/
def isSane (sb : Superblock) (deviceBlocks : Nat) : Bool :=
  sb.blockSize.toNat = BlockVolume.blockSize &&
  sb.totalBlocks.toNat ≤ bitmapCapacity &&
  sb.totalBlocks.toNat ≤ deviceBlocks &&
  BlockVolume.firstDataBlock < sb.totalBlocks.toNat &&
  sb.freeBlocks ≤ sb.totalBlocks &&
  sb.bitmapBlock.toNat = BlockVolume.bitmapBlock &&
  sb.directoryBlock.toNat = BlockVolume.directoryBlock &&
  sb.firstDataBlock.toNat = BlockVolume.firstDataBlock

/-- Accepts a superblock that fits the format and a device of `deviceBlocks` blocks. One that does
not begin as a superblock is told apart from one that is damaged. -/
def validate (sb : Superblock) (deviceBlocks : Nat) : Except Error Unit :=
  if sb.magic ≠ volumeMagic then .error .unformatted
  else if sb.isSane deviceBlocks then .ok ()
  else .error .corrupted

/-- The words, in the order in which they are stored. -/
def words (sb : Superblock) : List UInt32 :=
  [sb.magic, sb.blockSize, sb.totalBlocks, sb.freeBlocks, sb.directoryBlock, sb.bitmapBlock,
    sb.firstDataBlock]

/-- The form on the device. -/
def toBlock (sb : Superblock) : Block :=
  Block.ofFn fun i => Word.byteOf32 (sb.words[i / 4]?.getD 0) (i % 4)

/-- The words that a block begins with. -/
def ofBlock (b : Block) : Superblock where
  magic := b.word 0
  blockSize := b.word 4
  totalBlocks := b.word 8
  freeBlocks := b.word 12
  directoryBlock := b.word 16
  bitmapBlock := b.word 20
  firstDataBlock := b.word 24

end Superblock

end BlockVolume
