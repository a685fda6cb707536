import BlockVolume.Directory
import BlockVolume.Handle.Pool
import BlockVolume.Space

/-!
# `BlockVolume.Volume.Basic` — a volume and what can be asked of it

A volume is a device together with all that was loaded from it: the space, the directory and the
open files. The questions here change nothing, which their types say.

## Contents
- `Volume` and `Volume.ofDevice`; `VolumeAction`, an operation on a volume, and `onDevice`.
- `EntryInfo` and `Stats`: what a caller learns of an entry and of the volume.
- `stat`, `list`, `hasEntry`, `isDirectory`, `stats` and `tell`.
-/

namespace BlockVolume

/-- A device and what was loaded from it. -/
structure Volume (δ : Type) where
  device : δ
  space : Space
  directory : Directory
  handles : Pool
  mounted : Bool

/-- An operation on a volume. -/
abbrev VolumeAction (δ α : Type) := Action Error (Volume δ) α

/-- What a caller learns of an entry. -/
structure EntryInfo where
  /-- The path as it is stored. -/
  path : String
  kind : EntryKind
  size : Nat
  firstBlock : Nat
  blocks : Nat
  deriving DecidableEq

namespace EntryInfo

/-- What is told of an entry. -/
def ofEntry (e : Entry) : EntryInfo :=
  ⟨e.name, e.kind, e.size.toNat, e.firstBlock.toNat, e.blocks.toNat⟩

/-- What is told of the root, which has no entry. -/
def root : EntryInfo := ⟨"/", .directory, 0, 0, 0⟩

/-- The last segment of the path. -/
def name (info : EntryInfo) : String := Path.basename info.path

end EntryInfo

/-- What a caller learns of a volume. -/
structure Stats where
  totalBlocks : Nat
  /-- The counter of free blocks. -/
  freeBlocks : Nat
  /-- The number of bits set in the bitmap. -/
  usedBlocks : Nat
  entriesUsed : Nat
  openHandles : Nat
  deriving DecidableEq

namespace Volume

variable {δ α : Type}

/-- A volume over a device from which nothing has been read. -/
def ofDevice (device : δ) : Volume δ where
  device := device
  space := ⟨Bitmap.empty, Superblock.fresh⟩
  directory := Directory.empty
  handles := Pool.empty
  mounted := false

/-- Runs an operation on the device of a volume. -/
def onDevice (x : Action DeviceError δ α) : VolumeAction δ α :=
  Action.focus Volume.device (fun d v => { v with device := d }) Error.io x

/-- Accepts a volume that is mounted. -/
def ensureMounted (v : Volume δ) : Except Error Unit :=
  if v.mounted then .ok () else .error .notMounted

/-- The path that a text names. -/
def resolve (path : String) : Except Error Path :=
  match Path.ofString? path with
  | some p => .ok p
  | none => .error .pathTooLong

/-- The slot of the entry at a path. -/
def lookup (v : Volume δ) (path : Path) : Except Error Slot :=
  match v.directory.find? path.text with
  | some slot => .ok slot
  | none => .error .notFound

/-- The open file that a handle stands for. -/
def openFile (v : Volume δ) (h : Handle) : Except Error OpenFile :=
  match v.handles.file? h with
  | some file => .ok file
  | none => .error .invalidHandle

/-! ## Questions -/

/-- What is known of the entry at a path. -/
def stat (v : Volume δ) (path : String) : Except Error EntryInfo := do
  v.ensureMounted
  let p ← resolve path
  if p.isRoot then
    return .root
  else
    let slot ← v.lookup p
    return .ofEntry (v.directory.get slot)

/-- What is known of the entries directly below a directory, in the order of their slots. -/
def list (v : Volume δ) (path : String) : Except Error (List EntryInfo) := do
  v.ensureMounted
  let dir ← resolve path
  unless dir.isRoot do
    let slot ← v.lookup dir
    unless (v.directory.get slot).isDirectory do
      throw .notADirectory
  return (v.directory.children dir.text).map fun p => .ofEntry p.2

/-- Whether there is an entry at a path. -/
def hasEntry (v : Volume δ) (path : String) : Bool :=
  match v.stat path with
  | .ok _ => true
  | .error _ => false

/-- Whether there is a directory at a path. -/
def isDirectory (v : Volume δ) (path : String) : Bool :=
  match v.stat path with
  | .ok info => info.kind = .directory
  | .error _ => false

/-- How full the volume is. -/
def stats (v : Volume δ) : Except Error Stats := do
  v.ensureMounted
  return ⟨v.space.total, v.space.free, v.space.used, v.directory.used, v.handles.openCount⟩

/-- The position of an open file. -/
def tell (v : Volume δ) (h : Handle) : Except Error Nat := do
  let file ← v.openFile h
  return file.position

end Volume

end BlockVolume
