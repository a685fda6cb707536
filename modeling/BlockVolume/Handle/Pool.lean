import BlockVolume.Geometry
import BlockVolume.Handle.Cache

/-!
# `BlockVolume.Handle.Pool` — open files and the handles to them

The pool has sixteen places for open files. A handle names a place and the generation of the place
at the time of opening. A place changes its generation whenever it is emptied, so a handle that has
been closed reaches no file that takes the place later.

## Contents
- `Mode`, `Handle` and `OpenFile`: what a handle is and what it stands for.
- `file?`, `acquire?`, `release?` and `reset`: the life of a handle.
- `references` and `conflicts`: a writer shares its entry with no other handle.
-/

namespace BlockVolume

/-- What an open file is open for. -/
inductive Mode where
  | read
  | write
  deriving DecidableEq

/-- The name of a mode, as records print it. -/
def Mode.name : Mode → String
  | .read => "Read"
  | .write => "Write"

/-- A place in the pool. -/
abbrev Place := Fin maxOpenFiles

/-- What a caller holds of an open file. -/
structure Handle where
  place : Place
  generation : UInt32
  deriving DecidableEq

/-- An open file. -/
structure OpenFile where
  /-- The slot of its entry. -/
  slot : Slot
  mode : Mode
  /-- The offset of the next byte that is read or written. -/
  position : Nat
  cache : Cache
  deriving DecidableEq

/-- A file opened just now. -/
def OpenFile.start (slot : Slot) (mode : Mode) : OpenFile :=
  ⟨slot, mode, 0, Cache.empty⟩

/-- A place of the pool. -/
structure PoolPlace where
  generation : UInt32
  file : Option OpenFile
  deriving DecidableEq

/-- The places for open files. -/
structure Pool where
  places : Vector PoolPlace maxOpenFiles
  deriving DecidableEq

namespace Pool

/-- A pool that was never used. -/
def empty : Pool := ⟨Vector.replicate maxOpenFiles ⟨0, none⟩⟩

/-- The file at a place. -/
def fileAt? (p : Pool) (place : Place) : Option OpenFile :=
  p.places[place].file

/-- The file that a handle stands for, unless the handle is closed. -/
def file? (p : Pool) (h : Handle) : Option OpenFile :=
  if p.places[h.place].generation = h.generation then p.fileAt? h.place else none

/-- The open files, in the order of their places. -/
def files (p : Pool) : List OpenFile :=
  p.places.toList.filterMap PoolPlace.file

/-- Whether every place is taken. -/
def isFull (p : Pool) : Bool :=
  p.places.all fun s => s.file.isSome

/-- The number of open files. -/
def openCount (p : Pool) : Nat :=
  p.places.countP fun s => s.file.isSome

/-- Replaces what is at a place. -/
def setPlace (p : Pool) (place : Place) (s : PoolPlace) : Pool :=
  ⟨p.places.set place s⟩

/-- Changes the file at a place. -/
def modifyFile (p : Pool) (place : Place) (f : OpenFile → OpenFile) : Pool :=
  let s := p.places[place]
  p.setPlace place { s with file := s.file.map f }

/-- Changing the file at one place leaves those at all others. -/
theorem fileAt?_modifyFile (p : Pool) (i j : Place) (f : OpenFile → OpenFile) :
    (p.modifyFile i f).fileAt? j = if j = i then (p.fileAt? j).map f else p.fileAt? j := by
  by_cases h : j = i
  · subst h
    simp [fileAt?, modifyFile, setPlace]
  · have hv : i.val ≠ j.val := fun hij => h (Fin.ext hij.symm)
    simp [fileAt?, modifyFile, setPlace, h, hv]

/-- Puts a file into the first empty place and yields the handle to it. -/
def acquire? (p : Pool) (file : OpenFile) : Option (Handle × Pool) :=
  ((List.finRange maxOpenFiles).find? fun i => (p.fileAt? i).isNone).map fun i =>
    let s := p.places[i]
    (⟨i, s.generation⟩, p.setPlace i { s with file := some file })

/-- A place that has been emptied. -/
def emptied (s : PoolPlace) : PoolPlace :=
  ⟨s.generation + 1, none⟩

/-- Takes the file of a handle out of the pool and closes the handle. -/
def release? (p : Pool) (h : Handle) : Option (OpenFile × Pool) :=
  (p.file? h).map fun file => (file, p.setPlace h.place (emptied p.places[h.place]))

/-- Empties every place. Files that are open are dropped with their caches. -/
def reset (p : Pool) : Pool :=
  ⟨p.places.map emptied⟩

/-- Whether an open file is that of the entry in `slot`. -/
def references (p : Pool) (slot : Slot) : Bool :=
  p.files.any fun file => file.slot = slot

/-- Whether opening the entry in `slot` would let a writer share it. -/
def conflicts (p : Pool) (slot : Slot) : Mode → Bool
  | .write => p.references slot
  | .read => p.files.any fun file => file.slot = slot && file.mode = .write

end Pool

end BlockVolume
