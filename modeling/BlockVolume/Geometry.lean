import BlockVolume.Block

/-!
# `BlockVolume.Geometry` — the fixed shape of a volume

Sizes, limits and places that every volume shares. They are part of the format: a volume written
under other numbers is rejected or misread.

## Contents
- The places on the device: superblock, bitmap, directory, data.
- The limits: entries, name lengths, handles.
-/

namespace BlockVolume

/-- What a superblock begins with: the letters `SFS0` as a number. -/
def volumeMagic : UInt32 := 0x53465330

/-- Blocks of a freshly formatted volume. -/
abbrev volumeBlocks : Nat := 1024

/-- The block of the superblock. -/
abbrev superblockBlock : Nat := 0

/-- The block of the bitmap. -/
abbrev bitmapBlock : Nat := 1

/-- The first block of the directory. -/
abbrev directoryBlock : Nat := 2

/-- Entries that a directory has room for. -/
abbrev entryCount : Nat := 128

/-- Bytes of an entry on the device. -/
abbrev entrySize : Nat := 64

/-- Entries in a block of the directory. -/
abbrev entriesPerBlock : Nat := blockSize / entrySize

/-- Blocks of the directory. -/
abbrev directoryBlocks : Nat := entryCount / entriesPerBlock

/-- The first block that may hold data; all below describe the volume. -/
abbrev firstDataBlock : Nat := directoryBlock + directoryBlocks

/-- Blocks that one bitmap block describes. -/
abbrev bitmapCapacity : Nat := blockSize * 8

/-- Bytes of the name field of an entry. -/
abbrev nameFieldSize : Nat := 32

/-- Bytes of the longest path; the name field ends with a zero. -/
abbrev maxPathBytes : Nat := nameFieldSize - 1

/-- Files that can be open at a time. -/
abbrev maxOpenFiles : Nat := 16

/-- The nominal size limit of a file. The blocks of a volume run out before it is reached. -/
abbrev maxFileSize : Nat := 1024 * 1024

/-- A place in the directory. -/
abbrev Slot := Fin entryCount

/-- One bitmap block describes a whole formatted volume, and some of it is left for data. -/
theorem volumeBlocks_le_bitmapCapacity : firstDataBlock < volumeBlocks ∧ volumeBlocks ≤ bitmapCapacity := by
  decide

end BlockVolume
