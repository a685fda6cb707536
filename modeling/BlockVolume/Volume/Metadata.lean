import BlockVolume.Volume.Basic

/-!
# `BlockVolume.Volume.Metadata` — the blocks that describe a volume

Superblock, bitmap and directory are held in memory and written out as a whole. Mounting reads them
back; formatting writes those of an empty volume.

## Contents
- `metadataBlocks` and `storeMetadata`: what is written, and writing it.
- `format`, `mount`, `flush` and `unmount`.
-/

namespace BlockVolume

namespace Volume

variable {δ : Type} [BlockDevice δ]

/-! ## Writing -/

/-- The blocks that describe a volume, each under its index, in the order in which they are written. -/
def metadataBlocks (v : Volume δ) : List (Nat × Block) :=
  (superblockBlock, v.space.superblock.toBlock) :: (bitmapBlock, v.space.bitmap.toBlock) ::
    (List.finRange directoryBlocks).map fun i => (directoryBlock + i.val, v.directory.encode i)

/-- Writes blocks in order, up to the first that the device refuses. -/
def writeBlocks : List (Nat × Block) → Action DeviceError δ Unit
  | [] => pure ()
  | (index, block) :: rest => do
    BlockDevice.write index block
    writeBlocks rest

/-- The record of metadata that could not be written. -/
def metadataFailed (e : DeviceError) : Log.Record :=
  ⟨.error, "[sfs] Metadata write failed: " ++ e.name⟩

/-- Writes the blocks that describe the volume and flushes the device. -/
def storeMetadata : VolumeAction δ Unit := do
  let v ← Action.get
  onDevice (Action.reporting metadataFailed do
    writeBlocks v.metadataBlocks
    BlockDevice.flush)

/-- Writes the blocks that describe a mounted volume. -/
def flush : VolumeAction δ Unit := do
  (← Action.get).ensureMounted
  storeMetadata

/-- Writes an empty volume to the device. Open files are dropped; a volume that is mounted stays so. -/
def format : VolumeAction δ Unit := do
  let deviceBlocks := (BlockDevice.info (← Action.get).device).totalBlocks
  if deviceBlocks < volumeBlocks then
    Action.note .error s!"[sfs] Device has {deviceBlocks} blocks, need {volumeBlocks}"
    throw (.io .outOfRange)
  Action.note .info s!"[sfs] Formatting {volumeBlocks} blocks..."
  Action.modify fun v =>
    { v with handles := v.handles.reset, space := Space.fresh, directory := Directory.empty }
  storeMetadata
  let free := Space.fresh.free
  Action.note .info
    s!"[sfs] Format complete: {entryCount} entries, first data block {firstDataBlock}, {free} blocks free"

/-! ## Reading -/

/-- Reads the superblock. A device that does not begin with one is formatted; one that begins with a
damaged one is refused. -/
def loadSuperblock : VolumeAction δ Superblock := do
  let found := Superblock.ofBlock (← onDevice (BlockDevice.read superblockBlock))
  match found.validate (BlockDevice.info (← Action.get).device).totalBlocks with
  | .ok () => pure found
  | .error .unformatted =>
    Action.note .warn ("[sfs] Bad magic 0x" ++ Text.hex 8 found.magic.toNat ++ ", formatting")
    format
    pure (← Action.get).space.superblock
  | .error e =>
    Action.note .error ("[sfs] Rejecting superblock: " ++ e.message)
    throw e

/-- Reads the given blocks of the directory into a table. -/
def readDirectory (d : Directory) : List (Fin directoryBlocks) → Action DeviceError δ Directory
  | [] => pure d
  | i :: rest => do
    let block ← BlockDevice.read (directoryBlock + i.val)
    readDirectory (d.decode i block) rest

/-- Records each name that lacks its slash for good, gives the others one, and writes the volume if
a name has changed. -/
def migrateNames : VolumeAction δ Unit := do
  let directory := (← Action.get).directory
  let count := directory.migrationCount
  Action.emit directory.migrationWarnings
  Action.modify fun v => { v with directory := directory.migrate }
  if 0 < count then
    Action.note .info s!"[sfs] Migrated {count} legacy entry names"
    storeMetadata

/-- Loads the volume from its device, and formats the device first if it holds none. A counter of
free blocks that disagrees with the bitmap is recorded and kept. -/
def mount : VolumeAction δ Unit := do
  Action.modify fun v => { v with mounted := false, handles := v.handles.reset }
  let superblock ← loadSuperblock
  let bitmap := Bitmap.ofBlock (← onDevice (BlockDevice.read bitmapBlock))
  let directory ← onDevice (readDirectory Directory.empty (List.finRange directoryBlocks))
  let space : Space := ⟨bitmap, superblock⟩
  Action.modify fun v => { v with space := space, directory := directory }
  let total := space.total
  let free := space.free
  let used := space.used
  if free + used ≠ total then
    Action.note .warn s!"[sfs] Free counter {free} disagrees with bitmap ({used} used of {total})"
  migrateNames
  Action.modify fun v => { v with mounted := true }
  let entries := (← Action.get).directory.used
  Action.note .info s!"[sfs] Mounted: {total} blocks, {free} free, {entries} entries"

/-! ## Leaving -/

/-- Writes the cache of the file at a place back to the device. -/
def writeBackAt (place : Place) : VolumeAction δ Unit := do
  match (← Action.get).handles.fileAt? place with
  | none => pure ()
  | some file =>
    let cache ← onDevice file.cache.writeBack
    Action.modify fun v =>
      { v with handles := v.handles.modifyFile place fun f => { f with cache := cache } }

/-- Writes the caches of the files at the given places back, up to the first that fails. -/
def writeBackAll : List Place → VolumeAction δ Unit
  | [] => pure ()
  | place :: rest => do
    writeBackAt place
    writeBackAll rest

/-- Writes everything that the device lacks, closes all files and leaves the volume. -/
def unmount : VolumeAction δ Unit := do
  (← Action.get).ensureMounted
  writeBackAll (List.finRange maxOpenFiles)
  storeMetadata
  Action.modify fun v => { v with handles := v.handles.reset, mounted := false }
  Action.note .info "[sfs] Unmounted"

end Volume

end BlockVolume
