import BlockVolume.Volume.Namespace

/-!
# `BlockVolume.Volume.Contents` — reading and writing files

A transfer is cut at the block boundaries of the file, and the pieces are moved one after the other
through the cache of the handle. A failure ends the transfer; the pieces before it have been moved.

## Contents
- `stretches` and `pieces`: how a transfer is cut, with `flatten_pieces`.
- `openPath`, `close` and `seek`.
- `read` and `write`, by `readStretch` and `writePiece`.
-/

namespace BlockVolume

/-! ## Cutting a transfer -/

/-- The bytes from `position` to the end of its block. -/
def roomInBlock (position : Nat) : Nat := blockSize - position % blockSize

theorem roomInBlock_pos (position : Nat) : 0 < roomInBlock position :=
  Nat.sub_pos_of_lt (Nat.mod_lt _ (by decide))

/-- The lengths of the parts into which block boundaries divide `count` bytes from `position` on. -/
def stretches (position count : Nat) : List Nat :=
  if count = 0 then []
  else
    let n := min (roomInBlock position) count
    n :: stretches (position + n) (count - n)
termination_by count
decreasing_by
  have := roomInBlock_pos position
  omega

/-- `data` cut where it crosses a block boundary when it is laid down from `position` on. -/
def pieces (position : Nat) (data : List UInt8) : List (List UInt8) :=
  if data.isEmpty then []
  else
    let n := roomInBlock position
    data.take n :: pieces (position + n) (data.drop n)
termination_by data.length
decreasing_by
  have := roomInBlock_pos position
  have : data ≠ [] := by simpa using ‹¬data.isEmpty = true›
  have : 0 < data.length := List.length_pos_iff.mpr this
  simp only [List.length_drop]
  omega

/-- Nothing is lost or added when data are cut. -/
theorem flatten_pieces (position : Nat) (data : List UInt8) : (pieces position data).flatten = data := by
  fun_induction pieces position data with
  | case1 _ data h => simp_all
  | case2 position data _ n ih => rw [List.flatten_cons, ih, List.take_append_drop]

namespace Volume

variable {δ : Type} [BlockDevice δ]

/-! ## Handles -/

/-- Opens the file at a path. For reading it has to exist; for writing it is created where there is
nothing, and is otherwise kept as it is. A writer shares the file with no other handle. -/
def openPath (path : String) (mode : Mode) : VolumeAction δ Handle := do
  let v ← Action.get
  v.ensureMounted
  if v.handles.isFull then
    Action.note .warn "[sfs] No free file handles"
    throw .noFreeHandles
  let p ← resolve path
  if p.isRoot then
    throw .notAFile
  let slot ← match v.directory.find? p.text, mode with
    | some slot, _ => pure slot
    | none, .read => throw .notFound
    | none, .write => createEntry p .file
  let v ← Action.get
  let name := p.text
  let modeName := mode.name
  unless (v.directory.get slot).isFile do
    throw .notAFile
  if v.handles.conflicts slot mode then
    Action.note .debug s!"[sfs] {name} is open elsewhere, refusing {modeName} open"
    throw .entryBusy
  match v.handles.acquire? (OpenFile.start slot mode) with
  | none => throw .noFreeHandles
  | some (handle, handles) =>
    Action.modify fun v => { v with handles := handles }
    let place := handle.place.val
    Action.note .debug s!"[sfs] Opened {name} ({modeName}) as handle {place}"
    pure handle

/-- Closes a handle. What it has written reaches the device, and so does the metadata; the handle is
closed even if the device refuses. -/
def close (h : Handle) : VolumeAction δ Unit := do
  let v ← Action.get
  v.ensureMounted
  match v.handles.release? h with
  | none => throw .invalidHandle
  | some (file, handles) =>
    Action.modify fun v => { v with handles := handles }
    let cached ← Action.attempt (do
      if file.mode = .write then
        let _ ← onDevice file.cache.writeBack : VolumeAction δ Unit)
    let flushed ← Action.attempt (flush : VolumeAction δ Unit)
    cached
    flushed

/-- Moves the position of an open file, at most to its end, and yields the new position. -/
def seek (h : Handle) (offset : Nat) : VolumeAction δ Nat := do
  let v ← Action.get
  v.ensureMounted
  let file ← v.openFile h
  let position := min offset (v.directory.get file.slot).size.toNat
  Action.modify fun v =>
    { v with handles := v.handles.modifyFile h.place fun f => { f with position := position } }
  pure position

/-! ## The cache of a handle -/

/-- The file at a place that a handle was checked to stand for. -/
def fileAt (v : Volume δ) (place : Place) : Except Error OpenFile :=
  match v.handles.fileAt? place with
  | some file => .ok file
  | none => .error .invalidHandle

/-- Replaces the cache of the file at a place. -/
def setCache (place : Place) (cache : Cache) : VolumeAction δ Unit :=
  Action.modify fun v =>
    { v with handles := v.handles.modifyFile place fun f => { f with cache := cache } }

/-- Makes the cache at a place a copy of `block`, reading it unless it is one already. While the
block is being read the cache is the copy of none, so a failure leaves no stale copy behind. -/
def loadBlock (place : Place) (block : Nat) : VolumeAction δ Unit := do
  let file ← (← Action.get).fileAt place
  unless file.cache.block = some block do
    setCache place { file.cache with block := none }
    let data ← onDevice (BlockDevice.read block)
    setCache place ⟨some block, false, data⟩

/-- The block on the device that holds the block `logical` of a file. A number of more than 32 bits is a panic where
arithmetic is checked, and wraps where it is not. -/
def blockOf (e : Entry) (logical : Nat) : Except Error Nat :=
  let block := e.firstBlock.toNat + logical
  if block < UInt32.size then .ok block else .error .outOfBounds

/-! ## Reading -/

/-- Reads `count` bytes that lie in one block at the position of a file and moves past them. -/
def readStretch (place : Place) (count : Nat) : VolumeAction δ (List UInt8) := do
  let v ← Action.get
  let file ← v.fileAt place
  let entry := v.directory.get file.slot
  let logical := file.position / blockSize
  if entry.blocks.toNat ≤ logical then
    Action.note .error ("[sfs] " ++ entry.name ++ " is larger than its blocks")
    throw .corrupted
  let block ← blockOf entry logical
  loadBlock place block
  let cache := (← (← Action.get).fileAt place).cache
  Action.modify fun v =>
    { v with handles := v.handles.modifyFile place fun f => { f with position := f.position + count } }
  pure (cache.data.slice (file.position % blockSize) count)

/-- Reads parts of the given lengths one after the other. -/
def readStretches (place : Place) : List Nat → VolumeAction δ (List UInt8)
  | [] => pure []
  | count :: rest => do
    let bytes ← readStretch place count
    let more ← readStretches place rest
    pure (bytes ++ more)

/-- Reads up to `length` bytes from the position on; none means the end of the file. -/
def read (h : Handle) (length : Nat) : VolumeAction δ (List UInt8) := do
  let v ← Action.get
  v.ensureMounted
  let file ← v.openFile h
  unless file.mode = .read do
    throw .wrongMode
  let remaining := (v.directory.get file.slot).size.toNat - file.position
  readStretches h.place (stretches file.position (min length remaining))

/-! ## Writing -/

/-- Gives one more block to the entry in a slot. -/
def growEntry (slot : Slot) : VolumeAction δ Unit := do
  let v ← Action.get
  let entry := v.directory.get slot
  match v.space.grow entry with
  | .ok grant =>
    Action.modify fun v =>
      { v with space := grant.space, directory := v.directory.set slot grant.entry }
  | .error refusal =>
    Action.emit (refusal.records entry.name)
    throw refusal.error

/-- Makes the cache at a place the copy of `block` before bytes are written into it. A new block
starts as zeros, and one that is about to be overwritten whole is not read. -/
def targetBlock (place : Place) (block : Nat) (fresh whole : Bool) : VolumeAction δ Unit := do
  let file ← (← Action.get).fileAt place
  if fresh || file.cache.block ≠ some block then
    writeBackAt place
    if fresh then
      setCache place ⟨some block, false, Block.zero⟩
    else if whole then
      setCache place ⟨some block, false, file.cache.data⟩
    else
      loadBlock place block

/-- Writes bytes that lie in one block at the position of a file and moves past them. A position of more than 32 bits is a
panic where arithmetic is checked, and wraps where it is not. -/
def writePiece (place : Place) (bytes : List UInt8) : VolumeAction δ Unit := do
  let v ← Action.get
  let file ← v.fileAt place
  let logical := file.position / blockSize
  let fresh := (v.directory.get file.slot).blocks.toNat ≤ logical
  if fresh then
    growEntry file.slot
  let block ← blockOf ((← Action.get).directory.get file.slot) logical
  targetBlock place block fresh (bytes.length = blockSize)
  let cache := (← (← Action.get).fileAt place).cache
  let position := file.position + bytes.length
  if UInt32.size ≤ position then
    throw .outOfBounds
  Action.modify fun v =>
    let entry := v.directory.get file.slot
    { v with
      handles := v.handles.modifyFile place fun f =>
        { f with
          position := position
          cache := ⟨cache.block, true, cache.data.overlay (file.position % blockSize) bytes⟩ }
      directory := v.directory.set file.slot
        { entry with size := UInt32.ofNat (max entry.size.toNat position) } }

/-- Writes pieces one after the other. -/
def writePieces (place : Place) : List (List UInt8) → VolumeAction δ Unit
  | [] => pure ()
  | bytes :: rest => do
    writePiece place bytes
    writePieces place rest

/-- Writes `data` at the position, giving the file blocks as it grows, and yields the number of
bytes. Bytes written before a failure stay in the file. -/
def write (h : Handle) (data : List UInt8) : VolumeAction δ Nat := do
  let v ← Action.get
  v.ensureMounted
  let file ← v.openFile h
  unless file.mode = .write do
    throw .wrongMode
  writePieces h.place (pieces file.position data)
  pure data.length

end Volume

end BlockVolume
