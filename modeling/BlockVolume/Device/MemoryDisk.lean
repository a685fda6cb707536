import BlockVolume.Device

/-!
# `BlockVolume.Device.MemoryDisk` — a disk in memory

An array of blocks that counts the transfers it served. It can be marked read-only.

## Contents
- `MemoryDisk`: the blocks, the mark and the counters.
- `blank`, `ofBlocks`, `ofImage` and `writeProtect`: how a disk comes to be.
- `toList`: the flat contents.
-/

namespace BlockVolume

/-- How many transfers a disk has served. -/
structure Transfers where
  reads : Nat
  writes : Nat
  deriving DecidableEq

/-- A disk in memory. -/
structure MemoryDisk where
  blocks : Array Block
  readOnly : Bool
  transfers : Transfers

namespace MemoryDisk

/-- A writable disk with the given blocks that has served nothing yet. -/
def ofBlocks (blocks : Array Block) : MemoryDisk :=
  ⟨blocks, false, ⟨0, 0⟩⟩

/-- A disk of `count` blocks of zeros. -/
def blank (count : Nat) : MemoryDisk :=
  ofBlocks (Array.replicate count Block.zero)

/-- A disk with the contents of a flat image; an unfinished last block is filled up with zeros. -/
def ofImage (image : Array UInt8) : MemoryDisk :=
  ofBlocks (Array.ofFn fun k : Fin ((image.size + (blockSize - 1)) / blockSize) =>
    Block.ofFn fun i => image[k.val * blockSize + i]?.getD 0)

/-- The same disk, taking no writes. -/
def writeProtect (disk : MemoryDisk) : MemoryDisk :=
  { disk with readOnly := true }

/-- The flat contents. -/
def toList (disk : MemoryDisk) : List UInt8 :=
  disk.blocks.toList.flatMap Block.toList

/-- Reads a block and counts the transfer. -/
def read (index : Nat) : Action DeviceError MemoryDisk Block := do
  let disk ← Action.get
  match disk.blocks[index]? with
  | none => throw .outOfRange
  | some block =>
    Action.modify fun d => { d with transfers.reads := d.transfers.reads + 1 }
    pure block

/-- Writes a block and counts the transfer. A read-only disk refuses every index alike. -/
def write (index : Nat) (block : Block) : Action DeviceError MemoryDisk Unit := do
  let disk ← Action.get
  if disk.readOnly then
    throw .writeProtected
  else if index < disk.blocks.size then
    Action.modify fun d =>
      { d with blocks := d.blocks.setIfInBounds index block, transfers.writes := d.transfers.writes + 1 }
  else
    throw .outOfRange

instance : BlockDevice MemoryDisk where
  info disk := DeviceInfo.ofModel disk.blocks.size disk.readOnly "RAM DISK"
  read := read
  write := write
  flush := pure ()

end MemoryDisk

end BlockVolume
