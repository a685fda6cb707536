import BlockVolume.Device

/-!
# `BlockVolume.Error` — why a volume refuses an operation

## Contents
- `Error`: the causes; `Error.message`: how a user is told.
-/

namespace BlockVolume

/-- Why a volume refused an operation. -/
inductive Error where
  /-- The volume is not mounted. -/
  | notMounted
  /-- The superblock does not begin as one. -/
  | unformatted
  /-- The superblock, or an entry, states what cannot be. -/
  | corrupted
  /-- The path does not fit a name field. -/
  | pathTooLong
  /-- The root can be neither created nor deleted. -/
  | invalidPath
  /-- There is no entry at the path. -/
  | notFound
  /-- There is an entry at the path. -/
  | alreadyExists
  /-- The entry is no regular file. -/
  | notAFile
  /-- The entry is no directory. -/
  | notADirectory
  /-- There is no entry at the parent of the path. -/
  | parentNotFound
  /-- The directory has children. -/
  | directoryNotEmpty
  /-- An open handle refers to the entry. -/
  | entryBusy
  /-- Every slot of the directory is taken. -/
  | noFreeEntries
  /-- Every handle is in use. -/
  | noFreeHandles
  /-- The handle has been closed. -/
  | invalidHandle
  /-- The handle was opened in the other mode. -/
  | wrongMode
  /-- No block is left within the volume. -/
  | diskFull
  /-- The block after the last one of the file is taken. -/
  | fragmented
  /-- The device refused a transfer. -/
  | io (cause : DeviceError)
  /-- A block number, a size or a bit index left its range. This stands for a panic, which ends the program: a bit
  index past the bitmap always does, and a number of more than 32 bits does where arithmetic is checked. Where it is not
  checked the number wraps and the program goes on, which is not described here. -/
  | outOfBounds
  deriving DecidableEq

namespace Error

/-- What a user is told. -/
def message : Error → String
  | notMounted => "file system not mounted"
  | unformatted => "volume is not formatted"
  | corrupted => "superblock geometry is invalid"
  | pathTooLong => "path too long"
  | invalidPath => "invalid path"
  | notFound => "no such file or directory"
  | alreadyExists => "file already exists"
  | notAFile => "not a file"
  | notADirectory => "not a directory"
  | parentNotFound => "parent directory not found"
  | directoryNotEmpty => "directory not empty"
  | entryBusy => "file is open"
  | noFreeEntries => "no free directory entries"
  | noFreeHandles => "no free file handles"
  | invalidHandle => "invalid file handle"
  | wrongMode => "file not opened in this mode"
  | diskFull => "disk full"
  | fragmented => "fragmentation prevents file growth"
  | io cause => "I/O error: " ++ cause.name
  | outOfBounds => "number out of bounds"

end Error

end BlockVolume
