import BlockVolume.Path

/-!
# `BlockVolume.Tool.Host` — files beside the image

A command may read a file of the host. A host is anything that says what a name stands for; here is
also one whose files lie in a single directory, in which the tool works.

## Contents
- `HostError`, `HostFile` and `HostFiles`: what the name of a host file leads to.
- `WorkingDirectory`: the files in one directory, one of them the image.
- `enter` and `locate`: following a name, segment by segment, to a `Place`.
- `find`: the host of one directory; `find_of_file?` says that a file answers to its own name.
-/

namespace BlockVolume.Tool

/-- Why a host file could not be read. -/
inductive HostError where
  /-- There is nothing under the name. -/
  | missing
  /-- The name goes on after a file. -/
  | notADirectory
  /-- The name stands for a directory. -/
  | isADirectory
  /-- The name, or a segment of it, is longer than the host allows. -/
  | nameTooLong
  deriving DecidableEq

namespace HostError

/-- The number of a cause, as hosts count them. -/
def code : HostError → Nat
  | missing => 2
  | notADirectory => 20
  | isADirectory => 21
  | nameTooLong => 36

/-- What hosts call a cause. -/
def description : HostError → String
  | missing => "No such file or directory"
  | notADirectory => "Not a directory"
  | isADirectory => "Is a directory"
  | nameTooLong => "File name too long"

/-- What a user is told. -/
def message (e : HostError) : String :=
  e.description ++ " (os error " ++ toString e.code ++ ")"

/-- The cause with a number. -/
def ofCode? (n : Nat) : Option HostError :=
  [missing, notADirectory, isADirectory, nameTooLong].find? fun e => e.code = n

theorem ofCode?_code (e : HostError) : ofCode? e.code = some e := by
  cases e <;> rfl

end HostError

/-- A file of the host. -/
inductive HostFile where
  /-- The image that is being worked on. -/
  | image
  /-- Any other file. -/
  | other (bytes : List UInt8)
  deriving DecidableEq

/-- What the names of a host stand for. -/
abbrev HostFiles := String → Except HostError HostFile

/-! ## One directory -/

/-- The files in the directory in which the tool works. -/
structure WorkingDirectory where
  /-- The name of the image. -/
  image : String
  /-- The other files. -/
  files : String → Option (List UInt8)

namespace WorkingDirectory

/-- Where a name leads. -/
inductive Place where
  /-- The directory itself. -/
  | working
  /-- A directory around it, in which nothing else is known. -/
  | around
  /-- The root of the host. -/
  | root
  /-- The directory of devices, of which every host has the empty one. -/
  | devices
  | file (file : HostFile)
  deriving DecidableEq

/-- The longest segment of a name, in bytes. -/
abbrev maxSegmentBytes : Nat := 255

/-- The longest name, in bytes. -/
abbrev maxNameBytes : Nat := 4095

/-- The file under a name without slashes. -/
def file? (d : WorkingDirectory) (name : String) : Option HostFile :=
  if name = d.image then some .image else (d.files name).map .other

/-- The directory in which a place lies. -/
def Place.outer : Place → Place
  | working | around => around
  | root | devices => root
  | file f => file f

/-- What is called `name` at a place. -/
def Place.inner? (d : WorkingDirectory) : Place → String → Option Place
  | working, name => (d.file? name).map file
  | root, name => if name = "dev" then some devices else none
  | devices, name => if name = "null" then some (file (.other [])) else none
  | _, _ => none

/-- Follows one segment of a name. Files cannot be entered, not even to stay there. -/
def enter (d : WorkingDirectory) (place : Place) (segment : String) : Except HostError Place :=
  match place with
  | .file _ => .error .notADirectory
  | place =>
    if segment = "" ∨ segment = "." then .ok place
    else if segment = ".." then .ok place.outer
    else if maxSegmentBytes < segment.utf8ByteSize then .error .nameTooLong
    else
      match place.inner? d segment with
      | some inside => .ok inside
      | none => .error .missing

/-- The parts of a name between its slashes. -/
def segments (name : String) : List String :=
  (name.toList.splitOn '/').map String.ofList

/-- Follows a name. One that begins with a slash is followed from the root. -/
def locate (d : WorkingDirectory) (name : String) : Except HostError Place :=
  if name = "" then .error .missing
  else if maxNameBytes < name.utf8ByteSize then .error .nameTooLong
  else (segments name).foldlM d.enter (if Path.isAbsolute name then .root else .working)

/-- The file that a name stands for. -/
def find (d : WorkingDirectory) : HostFiles := fun name => do
  match ← d.locate name with
  | .file f => return f
  | _ => throw .isADirectory

/-- A file answers to its own name, if hosts can spell the name. -/
theorem find_of_file? {d : WorkingDirectory} {name : String} {f : HostFile} (hslash : '/' ∉ name.toList)
    (hempty : name ≠ "") (hhere : name ≠ ".") (hup : name ≠ "..")
    (hshort : name.utf8ByteSize ≤ maxSegmentBytes) (hf : d.file? name = some f) : d.find name = .ok f := by
  have hseg : segments name = [name] := by
    simp [segments, List.splitOn_eq_singleton hslash]
  have habs : Path.isAbsolute name = false := by
    rw [Path.isAbsolute, decide_eq_false_iff_not]
    exact fun h => hslash (List.mem_of_mem_head? h)
  have henter : d.enter .working name = .ok (.file f) := by
    simp [enter, hempty, hhere, hup, Nat.not_lt.mpr hshort, Place.inner?, hf]
  have hloc : d.locate name = .ok (.file f) := by
    have hlong : ¬maxNameBytes < name.utf8ByteSize := by
      have : maxSegmentBytes < maxNameBytes := by decide
      omega
    rw [locate, if_neg hempty, if_neg hlong, hseg, habs]
    change (d.enter .working name >>= pure) = _
    rw [henter]
    rfl
  rw [find, hloc]
  rfl

end WorkingDirectory

end BlockVolume.Tool
