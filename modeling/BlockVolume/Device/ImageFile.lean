import BlockVolume.Device

/-!
# `BlockVolume.Device.ImageFile` — a disk image in a file

A file taken as a device: block `n` lies at byte `n * 512`. Bytes after the last whole block belong
to no block; they stay in the file as they are.

## Contents
- `ImageFile`: the whole blocks and the bytes after them.
- `ofBytes` and `toBytes`: from and to the contents of a file.
- `extend`: a file lengthened with zeros.
-/

namespace BlockVolume

/-- The contents of an image file. -/
structure ImageFile where
  blocks : Array Block
  /-- What comes after the last whole block. -/
  tail : List UInt8

namespace ImageFile

/-- The file without any byte. -/
def empty : ImageFile := ⟨#[], []⟩

/-- The contents of a file. -/
def ofBytes (bytes : Array UInt8) : ImageFile :=
  let count := bytes.size / blockSize
  { blocks := Array.ofFn fun k : Fin count => Block.ofFn fun i => bytes[k.val * blockSize + i]?.getD 0
    tail := (bytes.extract (count * blockSize) bytes.size).toList }

/-- The bytes of the file, in order. -/
def toList (file : ImageFile) : List UInt8 :=
  file.blocks.toList.flatMap Block.toList ++ file.tail

/-- The number of bytes in the file. -/
def size (file : ImageFile) : Nat :=
  file.blocks.size * blockSize + file.tail.length

/-- The file lengthened with zeros to `count` blocks. -/
def extend (file : ImageFile) (count : Nat) : ImageFile :=
  if file.size < count * blockSize then
    { blocks := (file.blocks.push (Block.ofBytes file.tail)) ++
        Array.replicate (count - (file.blocks.size + 1)) Block.zero
      tail := [] }
  else file

/-- Reads a block of the file. -/
def read (index : Nat) : Action DeviceError ImageFile Block := do
  let file ← Action.get
  match file.blocks[index]? with
  | none => throw .outOfRange
  | some block => pure block

/-- Writes a block of the file. -/
def write (index : Nat) (block : Block) : Action DeviceError ImageFile Unit := do
  let file ← Action.get
  if index < file.blocks.size then
    Action.modify fun f => { f with blocks := f.blocks.setIfInBounds index block }
  else
    throw .outOfRange

instance : BlockDevice ImageFile where
  info file := DeviceInfo.ofModel file.blocks.size false "SFS image file"
  read := read
  write := write
  flush := pure ()

end ImageFile

end BlockVolume
