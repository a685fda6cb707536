import BlockVolume.Volume.Metadata

/-!
# `BlockVolume.Volume.Namespace` — creating and deleting entries

Each change of the namespace is written out before the operation ends.

## Contents
- `createEntry` and `create`: a new entry below an existing directory.
- `delete`: an entry that nothing depends on is removed and its blocks become free.
-/

namespace BlockVolume

namespace Volume

variable {δ : Type} [BlockDevice δ]

/-- Accepts a path whose parent is the root or a directory. -/
def ensureParent (v : Volume δ) (path : Path) : Except Error Unit :=
  let parent := Path.parentOf path.text
  if parent = "/" then .ok ()
  else
    match v.directory.find? parent with
    | none => .error .parentNotFound
    | some slot => if (v.directory.get slot).isDirectory then .ok () else .error .notADirectory

/-- Adds an entry at a path where there is none and yields its slot. -/
def createEntry (path : Path) (kind : EntryKind) : VolumeAction δ Slot := do
  let v ← Action.get
  if path.isRoot then
    throw .invalidPath
  if (v.directory.find? path.text).isSome then
    throw .alreadyExists
  v.ensureParent path
  match v.directory.insert? path.text kind with
  | none =>
    Action.note .warn "[sfs] No free directory entries"
    throw .noFreeEntries
  | some (slot, directory) =>
    Action.modify fun v => { v with directory := directory }
    storeMetadata
    pure slot

/-- Creates an empty file or a directory. -/
def create (path : String) (kind : EntryKind) : VolumeAction δ Unit := do
  (← Action.get).ensureMounted
  if kind = .empty then
    throw .invalidPath
  let p ← resolve path
  let _ ← createEntry p kind

/-- Removes a file, or a directory without children, and frees its blocks. -/
def delete (path : String) : VolumeAction δ Unit := do
  let v ← Action.get
  v.ensureMounted
  let p ← resolve path
  if p.isRoot then
    throw .invalidPath
  let slot ← v.lookup p
  let entry := v.directory.get slot
  if entry.isDirectory && v.directory.hasChildren p.text then
    throw .directoryNotEmpty
  if v.handles.references slot then
    throw .entryBusy
  match v.space.release entry with
  | .error refusal => throw refusal.error
  | .ok released =>
    Action.modify fun v =>
      { v with space := released.space, directory := v.directory.set slot Entry.unused }
    let name := p.text
    let freed := released.freed
    Action.note .debug s!"[sfs] Deleted {name} ({freed} blocks freed)"
    storeMetadata

end Volume

end BlockVolume
