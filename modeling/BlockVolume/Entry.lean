import BlockVolume.Geometry
import BlockVolume.Path

/-!
# `BlockVolume.Entry` — directory entries

An entry names a file or a directory and, for a file, says how long it is and which run of blocks it
owns. On the device it takes 64 bytes: 32 of name, one of kind, three words and 19 zeros.

## Contents
- `EntryKind` and `Entry`: an entry as it is held in memory, the name as the bytes of its field.
- `name` and `setName`: the stored path as a text. Bytes that are not UTF-8 read as the empty text.
- `byte` and `ofBlock`: the form on the device.
-/

namespace BlockVolume

/-- What an entry stands for. -/
inductive EntryKind where
  | empty
  | file
  | directory
  deriving DecidableEq

namespace EntryKind

/-- The byte that stands for a kind. -/
def code : EntryKind → UInt8
  | empty => 0
  | file => 1
  | directory => 2

/-- The kind that a byte stands for; all but two bytes stand for an empty entry. -/
def ofCode (c : UInt8) : EntryKind :=
  if c = 1 then file else if c = 2 then directory else empty

theorem ofCode_code (k : EntryKind) : ofCode k.code = k := by
  cases k <;> decide

end EntryKind

/-- A directory entry. -/
structure Entry where
  nameField : Vector UInt8 nameFieldSize
  kind : EntryKind
  /-- Bytes in the file. -/
  size : UInt32
  /-- The first block of the run that the entry owns. -/
  firstBlock : UInt32
  /-- The number of blocks that the entry owns. -/
  blocks : UInt32
  deriving DecidableEq

namespace Entry

/-- An unused slot. -/
def unused : Entry :=
  ⟨Vector.replicate nameFieldSize 0, .empty, 0, 0, 0⟩

/-! ## Names -/

/-- The bytes of the name: those of the field before its first zero. -/
def nameBytes (e : Entry) : List UInt8 :=
  e.nameField.toList.takeWhile (· ≠ 0)

/-- The stored path. A field that is no UTF-8 reads as the empty text. -/
def name (e : Entry) : String :=
  (String.fromUTF8? ⟨e.nameBytes.toArray⟩).getD ""

/-- The field that holds the first bytes of a text and ends with a zero. -/
def fieldOf (text : String) : Vector UInt8 nameFieldSize :=
  Vector.ofFn fun i => if i.val < maxPathBytes then text.toUTF8.data[i.val]?.getD 0 else 0

/-- The entry under another path, cut to what the field can hold. -/
def setName (e : Entry) (text : String) : Entry :=
  { e with nameField := fieldOf text }

/-- A new entry that owns no blocks. -/
def ofName (text : String) (kind : EntryKind) : Entry :=
  { unused.setName text with kind := kind }

/-! ## Kinds -/

def isEmpty (e : Entry) : Bool := e.kind = .empty

def isFile (e : Entry) : Bool := e.kind = .file

def isDirectory (e : Entry) : Bool := e.kind = .directory

/-- Whether the slot is in use and its name lacks the slash at the beginning. -/
def isLegacy (e : Entry) : Bool :=
  !e.isEmpty && !Path.isAbsolute e.name

/-- Whether the field has room for a slash in front of the name. -/
def hasRoomForSlash (e : Entry) : Bool :=
  e.name.utf8ByteSize + 1 ≤ maxPathBytes

/-- The entry with a slash in front of its name, where one is missing and there is room for it. -/
def migrate (e : Entry) : Entry :=
  if e.isLegacy && e.hasRoomForSlash then e.setName ("/" ++ e.name) else e

/-! ## Form on the device -/

/-- The byte at `offset` of the form on the device. -/
def byte (e : Entry) (offset : Nat) : UInt8 :=
  if h : offset < nameFieldSize then e.nameField[offset]
  else if offset = 32 then e.kind.code
  else if offset < 37 then Word.byteOf32 e.size (offset - 33)
  else if offset < 41 then Word.byteOf32 e.firstBlock (offset - 37)
  else if offset < 45 then Word.byteOf32 e.blocks (offset - 41)
  else 0

/-- The form on the device. -/
def toList (e : Entry) : List UInt8 :=
  (List.range entrySize).map e.byte

/-- The entry whose form begins at `offset` of a block. -/
def ofBlock (b : Block) (offset : Nat) : Entry where
  nameField := Vector.ofFn fun i => b.byte (offset + i.val)
  kind := .ofCode (b.byte (offset + 32))
  size := b.word (offset + 33)
  firstBlock := b.word (offset + 37)
  blocks := b.word (offset + 41)

end Entry

end BlockVolume
