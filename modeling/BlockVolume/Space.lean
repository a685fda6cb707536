import BlockVolume.Bitmap
import BlockVolume.Entry
import BlockVolume.Superblock

/-!
# `BlockVolume.Space` — giving blocks to entries and taking them back

Every entry owns one run of blocks. An entry without blocks is given the lowest free data block; any
other grows only into the block right after its run, even if there is room elsewhere. Beside the
bitmap a counter of free blocks is kept.

## Contents
- `Space`: the bitmap and the superblock with the counter.
- `Refusal`: why an entry cannot grow, with the error and the record that it leads to.
- `grow`: one more block for an entry; `release`: all blocks of an entry back.
-/

namespace BlockVolume

/-- The blocks of a volume and which of them are in use. -/
structure Space where
  bitmap : Bitmap
  superblock : Superblock
  deriving DecidableEq

namespace Space

/-- Why an entry cannot be given a block. -/
inductive Refusal where
  /-- The entry has no blocks and no data block is free. -/
  | noFreeBlock
  /-- The run of the entry reaches the end of the volume. -/
  | endOfVolume
  /-- The block after the run is in use. -/
  | blockTaken
  /-- The block has no bit in the bitmap, or the counter has more than 32 bits. This stands for a panic, as
  `Error.outOfBounds` does. -/
  | outOfBounds
  deriving DecidableEq

namespace Refusal

/-- The error that a refusal leads to. -/
def error : Refusal → Error
  | noFreeBlock => .diskFull
  | endOfVolume => .diskFull
  | blockTaken => .fragmented
  | outOfBounds => .outOfBounds

/-- The records of a refusal to the entry called `name`. -/
def records (name : String) : Refusal → List Log.Record
  | noFreeBlock => [⟨.warn, "[sfs] No free blocks"⟩]
  | endOfVolume => [⟨.warn, "[sfs] Disk full"⟩]
  | blockTaken => [⟨.warn, "[sfs] Fragmentation prevents growth of " ++ name⟩]
  | outOfBounds => []

end Refusal

/-- The space of a new volume: all but the blocks that describe the volume is free. -/
def fresh : Space :=
  ⟨Bitmap.empty.reserveMetadata, Superblock.fresh⟩

/-- The number of blocks in the volume. -/
def total (s : Space) : Nat := s.superblock.totalBlocks.toNat

/-- The counter of free blocks. -/
def free (s : Space) : Nat := s.superblock.freeBlocks.toNat

/-- The number of blocks in use. -/
def used (s : Space) : Nat := s.bitmap.countUsed s.total

/-- The data blocks of the volume that have a bit in the bitmap, in ascending order. -/
def dataBlocks (s : Space) : List Nat :=
  List.range' firstDataBlock (min s.total bitmapCapacity - firstDataBlock)

/-- The lowest free data block. -/
def lowestFree? (s : Space) : Option Nat :=
  s.dataBlocks.find? fun block => !s.bitmap.test block

/-- The space with the counter set. -/
def withFree (s : Space) (free : Nat) : Space :=
  { s with superblock.freeBlocks := UInt32.ofNat free }

/-- The space with `block` in use. The counter stops at zero. -/
def take (s : Space) (block : Nat) : Space :=
  { s with bitmap := s.bitmap.set block }.withFree (s.free - 1)

/-- An entry that was given a block. -/
structure Grant where
  space : Space
  entry : Entry
  /-- The block that was given. -/
  block : Nat

/-- Gives one more block to an entry. To look for a bit past the bitmap is a panic. -/
def grow (s : Space) (e : Entry) : Except Refusal Grant :=
  if e.blocks = 0 then
    match s.lowestFree? with
    | some block =>
      .ok ⟨s.take block, { e with firstBlock := UInt32.ofNat block, blocks := 1 }, block⟩
    | none => .error (if bitmapCapacity < s.total then .outOfBounds else .noFreeBlock)
  else
    let next := e.firstBlock.toNat + e.blocks.toNat
    if s.total ≤ next then .error .endOfVolume
    else if bitmapCapacity ≤ next then .error .outOfBounds
    else if s.bitmap.test next then .error .blockTaken
    else .ok ⟨s.take next, { e with blocks := e.blocks + 1 }, next⟩

/-- Whether `block` lies in the run of an entry. -/
def owns (e : Entry) (block : Nat) : Bool :=
  e.firstBlock.toNat ≤ block && block < e.firstBlock.toNat + e.blocks.toNat

/-- The blocks that an entry gives back: those of its run that hold data, lie in the volume and are
in use. Whatever the entry says, the blocks that describe the volume are not among them. -/
def returned (s : Space) (e : Entry) : List Nat :=
  s.dataBlocks.filter fun block => owns e block && s.bitmap.test block

/-- An entry whose blocks were taken back. -/
structure Release where
  space : Space
  entry : Entry
  /-- How many blocks became free. -/
  freed : Nat

/-- Takes all blocks of an entry back and leaves it with none. To look for a bit past the bitmap is a panic, and where
arithmetic is checked a counter of more than 32 bits is one. Where it is not checked the counter wraps. -/
def release (s : Space) (e : Entry) : Except Refusal Release :=
  let blocks := s.returned e
  let free := s.free + blocks.length
  let past := min (e.firstBlock.toNat + e.blocks.toNat) s.total
  if max e.firstBlock.toNat bitmapCapacity < past ∨ UInt32.size ≤ free then .error .outOfBounds
  else
    .ok ⟨{ s with bitmap := blocks.foldl Bitmap.clear s.bitmap }.withFree free,
      { e with size := 0, firstBlock := 0, blocks := 0 }, blocks.length⟩

end Space

end BlockVolume
