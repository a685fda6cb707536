import BlockVolume.Device.ImageFile
import BlockVolume.Text.Lossy
import BlockVolume.Tool.Command
import BlockVolume.Tool.Host
import BlockVolume.Tool.Report
import BlockVolume.Volume.Contents

/-!
# `BlockVolume.Tool.Session` — running one command on an image

An image is lengthened to the size of a volume, mounted, worked on and left again; a command that
fails leaves it too. Formatting alone does not mount, so that it also works on images that mounting
refuses.

## Contents
- `Failure`: why a command failed, and the message.
- `readAll` and `replace`: whole files.
- `execute`, `session` and `run`: from a command line to what is printed and the image left behind.
-/

namespace BlockVolume.Tool

/-- Why a command failed. -/
inductive Failure where
  /-- The volume refused. -/
  | volume (cause : Error)
  /-- A host file could not be read. -/
  | host (text : String)
  deriving DecidableEq

/-- What a user is told. -/
def Failure.message : Failure → String
  | volume cause => cause.message
  | host text => text

/-- An operation on a mounted image. -/
abbrev ToolAction (α : Type) := Action Failure (Volume ImageFile) α

/-- Does something with the volume. -/
def onVolume {α : Type} (x : VolumeAction ImageFile α) : ToolAction α :=
  Action.mapError Failure.volume x

/-- Asks the volume something. -/
def ask {α : Type} (f : Volume ImageFile → Except Error α) : ToolAction α :=
  onVolume do
    let v ← Action.get
    f v

/-! ## Whole files -/

/-- Reads to the end of a file, a block's worth at a time and that often at most. -/
def readUpTo (h : Handle) : Nat → VolumeAction ImageFile (List UInt8)
  | 0 => pure []
  | n + 1 => do
    let bytes ← Volume.read h blockSize
    if bytes.isEmpty then
      pure []
    else
      let more ← readUpTo h n
      pure (bytes ++ more)

/-- The contents of a file. -/
def readAll (path : String) : VolumeAction ImageFile (List UInt8) := do
  let h ← Volume.openPath path .read
  let file ← (← Action.get).openFile h
  let size := ((← Action.get).directory.get file.slot).size.toNat
  let bytes ← Action.attempt (readUpTo h (size / blockSize + 1))
  let closed ← Action.attempt (Volume.close h : VolumeAction ImageFile Unit)
  let bytes ← bytes
  closed
  pure bytes

/-- Whether there is a file at a path. -/
def isFile (v : Volume ImageFile) (path : String) : Bool :=
  match v.stat path with
  | .ok info => info.kind = .file
  | .error _ => false

/-- Makes `data` the contents of a file and yields the number of bytes. A file that is there is
deleted first, since opening it for writing would keep what lies past the new end. -/
def replace (path : String) (data : List UInt8) : VolumeAction ImageFile Nat := do
  if isFile (← Action.get) path then
    Volume.delete path
  let h ← Volume.openPath path .write
  let written ← Action.attempt (Volume.write h data : VolumeAction ImageFile Nat)
  let closed ← Action.attempt (Volume.close h : VolumeAction ImageFile Unit)
  let count ← written
  closed
  pure count

/-! ## Commands -/

/-- The contents of a host file. The image reads as it is at the moment. -/
def readHostFile (files : HostFiles) (name : String) : ToolAction (List UInt8) := do
  match files name with
  | .ok .image => return (← Action.get).device.toList
  | .ok (.other bytes) => pure bytes
  | .error e => throw (.host (name ++ ": " ++ e.message))

/-- Writes an empty volume. -/
def formatImage : ToolAction String := do
  onVolume Volume.format
  pure Report.formatted

/-- Runs a command and yields what it prints. -/
def execute (command : Command) (files : HostFiles) : ToolAction String :=
  match command with
  | .format => formatImage
  | .list path => do
    let entries ← ask fun v => v.list path
    pure (Report.listing entries)
  | .print path => do
    let bytes ← onVolume (readAll path)
    pure (Text.Lossy.decode bytes)
  | .touch path => do
    unless (← Action.get).hasEntry path do
      onVolume (Volume.create path .file)
    pure ""
  | .makeDirectory path => do
    onVolume (Volume.create path .directory)
    pure ""
  | .remove path => do
    onVolume (Volume.delete path)
    pure ""
  | .write path words => do
    let count ← onVolume (replace path (" ".intercalate words).toUTF8.data.toList)
    pure (Report.written count)
  | .put path hostFile => do
    let data ← readHostFile files hostFile
    let count ← onVolume (replace path data)
    pure (Report.written count)
  | .describe path => do
    let info ← ask fun v => v.stat path
    pure (Report.description info)
  | .usage => do
    let stats ← ask fun v => v.stats
    pure (Report.usage stats)

/-- Lengthens an image that is shorter than a volume. -/
def openImage (name : String) : ToolAction Unit := do
  let file := (← Action.get).device
  if file.size < volumeBlocks * blockSize then
    Action.note .info s!"[filedisk] Extending {name} to {volumeBlocks} blocks"
    Action.modify fun v => { v with device := v.device.extend volumeBlocks }
  let blocks := (← Action.get).device.blocks.size
  Action.note .debug s!"[filedisk] {name}: {blocks} blocks"

/-- Opens the image, mounts it, runs the command and leaves the volume. An error of the command goes
before one of leaving. -/
def session (inv : Invocation) (files : HostFiles) : ToolAction String := do
  openImage inv.image
  if inv.command = .format then
    formatImage
  else
    onVolume Volume.mount
    let output ← Action.attempt (execute inv.command files)
    let left ← Action.attempt (onVolume Volume.unmount)
    let text ← output
    left
    pure text

/-! ## Whole runs -/

/-- What a run of the tool leaves behind. -/
structure Finished where
  /-- Zero after a success, two after a wrong command line. -/
  status : Nat
  output : String
  diagnostics : String
  /-- The image file, if there is one. -/
  image : Option ImageFile

/-- What is printed for a wrong command line. -/
def usageText : String :=
  "usage: sfs IMAGE format|ls|cat|touch|mkdir|rm|write|put|stat|df [ARGUMENT]...\n"

/-- Runs an understood command line on an image; one that is missing is created. -/
def runInvocation (inv : Invocation) (threshold : Log.Threshold) (files : HostFiles)
    (image : Option ImageFile) : Finished :=
  let outcome := session inv files (Volume.ofDevice (image.getD .empty))
  let records := Log.render threshold outcome.log
  let left := some outcome.state.device
  match outcome.result with
  | .ok text => ⟨0, text, records, left⟩
  | .error failure => ⟨1, "", records ++ "sfs: " ++ failure.message ++ "\n", left⟩

/-- Runs a command line on an image. A wrong one does not touch the image. -/
def run (args : List String) (setting : Option String) (files : HostFiles) (image : Option ImageFile) :
    Finished :=
  match Invocation.parse? args with
  | none => ⟨2, "", usageText, image⟩
  | some inv => runInvocation inv (.ofSetting setting) files image

end BlockVolume.Tool
