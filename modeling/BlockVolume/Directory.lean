import BlockVolume.Entry
import BlockVolume.Log

/-!
# `BlockVolume.Directory` — the table of all entries

A volume has one table of 128 slots, and it is the whole namespace. Slots are searched from the
first on, so of two entries that answer to a path the one in the lower slot is found.

## Contents
- `get` and `set`, with `get_set`, `set_get` and `set_set`: the entry in a slot.
- `find?`, `freeSlot?`, `insert?`, `hasChildren` and `used`: looking entries up and adding them.
- `migrate`: names without a slash at the beginning gain one.
- `encode` and `decode`: the sixteen blocks that hold the table on the device.
-/

namespace BlockVolume

/-- The table of all entries. -/
structure Directory where
  entries : Vector Entry entryCount
  deriving DecidableEq

namespace Directory

/-- The table without entries. -/
def empty : Directory :=
  ⟨Vector.replicate entryCount Entry.unused⟩

/-- The entry in a slot. -/
def get (d : Directory) (slot : Slot) : Entry :=
  d.entries[slot]

/-- Replaces the entry in a slot. -/
def set (d : Directory) (slot : Slot) (e : Entry) : Directory :=
  ⟨d.entries.set slot e⟩

@[simp] theorem get_empty (slot : Slot) : empty.get slot = Entry.unused := by
  simp [get, empty]

/-- Replacing the entry in one slot leaves those in all others. -/
theorem get_set (d : Directory) (i j : Slot) (e : Entry) : (d.set i e).get j = if j = i then e else d.get j := by
  by_cases h : j = i
  · subst h
    simp [get, set]
  · have hv : i.val ≠ j.val := fun hij => h (Fin.ext hij.symm)
    simp [get, set, h, hv]

/-- Replacing an entry by itself changes nothing. -/
theorem set_get (d : Directory) (slot : Slot) : d.set slot (d.get slot) = d := by
  simp [set, get]

/-- Of two entries for one slot the later one stays. -/
theorem set_set (d : Directory) (slot : Slot) (e e' : Entry) : (d.set slot e).set slot e' = d.set slot e' := by
  simp [set]

/-! ## Looking up -/

/-- Whether an entry answers to `path`: by its name, or by its name without the slash at the
beginning of `path` if it has none itself. -/
def answers (e : Entry) (path : String) : Bool :=
  !e.isEmpty &&
    (e.name = path || (!Path.isAbsolute e.name && path.toList = '/' :: e.name.toList))

/-- The first slot whose entry satisfies `p`. -/
def findSlot? (d : Directory) (p : Entry → Bool) : Option Slot :=
  (List.finRange entryCount).find? fun slot => p (d.get slot)

/-- The slot of the entry at a path. -/
def find? (d : Directory) (path : String) : Option Slot :=
  d.findSlot? fun e => answers e path

/-- The first unused slot. -/
def freeSlot? (d : Directory) : Option Slot :=
  d.findSlot? Entry.isEmpty

/-- Puts a new entry into the first unused slot. -/
def insert? (d : Directory) (path : String) (kind : EntryKind) : Option (Slot × Directory) :=
  d.freeSlot?.map fun slot => (slot, d.set slot (Entry.ofName path kind))

/-- The entries in use, in the order of their slots. -/
def occupied (d : Directory) : List (Slot × Entry) :=
  ((List.finRange entryCount).map fun slot => (slot, d.get slot)).filter fun p => !p.2.isEmpty

/-- The entries one segment below `dir`, in the order of their slots. -/
def children (d : Directory) (dir : String) : List (Slot × Entry) :=
  d.occupied.filter fun p => Path.isDirectChild dir p.2.name

/-- Whether some entry lies one segment below `dir`. -/
def hasChildren (d : Directory) (dir : String) : Bool :=
  d.entries.any fun e => !e.isEmpty && Path.isDirectChild dir e.name

/-- The number of entries in use. -/
def used (d : Directory) : Nat :=
  d.entries.countP fun e => !e.isEmpty

/-! ## Names without a slash at the beginning -/

/-- The table with a slash in front of every name that lacks one and has room for it. -/
def migrate (d : Directory) : Directory :=
  ⟨d.entries.map Entry.migrate⟩

/-- The number of names that `migrate` changes. -/
def migrationCount (d : Directory) : Nat :=
  d.entries.countP fun e => e.isLegacy && e.hasRoomForSlash

/-- A warning for each name that lacks the slash and has no room for it, in the order of the slots. -/
def migrationWarnings (d : Directory) : List Log.Record :=
  (d.entries.toList.filter fun e => e.isLegacy && !e.hasRoomForSlash).map fun e =>
    ⟨.warn, "[sfs] Cannot migrate legacy name " ++ e.name⟩

/-! ## Form on the device -/

/-- The byte at `offset` of the whole table. -/
def byte (d : Directory) (offset : Nat) : UInt8 :=
  (d.entries[offset / entrySize]?.getD Entry.unused).byte (offset % entrySize)

/-- Block `index` of the table. -/
def encode (d : Directory) (index : Fin directoryBlocks) : Block :=
  Block.ofFn fun i => d.byte (index.val * blockSize + i)

/-- The table with the entries of block `index` read from `b`. -/
def decode (d : Directory) (index : Fin directoryBlocks) (b : Block) : Directory :=
  ⟨Vector.ofFn fun slot =>
    if slot.val / entriesPerBlock = index.val then
      Entry.ofBlock b (slot.val % entriesPerBlock * entrySize)
    else d.get slot⟩

end Directory

end BlockVolume
