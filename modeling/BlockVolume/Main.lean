import BlockVolume.Tool.Session

/-!
# `BlockVolume.Main` — the image tool as a program

Reads the files that a command line names, runs it, writes the image back and prints. Nothing is
decided here.
-/

namespace BlockVolume.Tool

/-- The bytes of a file; one that is missing is created. -/
def readOrCreate (name : String) : IO (Array UInt8) := do
  try
    return (← IO.FS.readBinFile name).data
  catch
    | .noFileOrDirectory .. =>
      IO.FS.writeBinFile name ByteArray.empty
      return #[]
    | e => throw e

/-- The number of an error; hosts give it with either sign. -/
def errorNumber (code : UInt32) : Nat :=
  code.toInt32.toInt.natAbs

/-- The file that a name stands for on this host, seen from beside an image. -/
def findHostFile (image name : String) : IO (Except HostError HostFile) := do
  try
    let bytes := (← IO.FS.readBinFile name).data
    if (← IO.FS.realPath name) == (← IO.FS.realPath image) then
      return .ok .image
    else
      return .ok (.other bytes.toList)
  catch e =>
    let cause? := match e with
      | .noFileOrDirectory _ code _ => HostError.ofCode? (errorNumber code)
      | .inappropriateType _ code _ => HostError.ofCode? (errorNumber code)
      | .invalidArgument _ code _ => HostError.ofCode? (errorNumber code)
      | _ => none
    match cause? with
    | some cause => return .error cause
    | none => throw e

/-- Runs a command line against the files that it names. -/
def runOnHost (args : List String) : IO UInt32 := do
  let setting ← IO.getEnv "SFS_LOG"
  let inv? := Invocation.parse? args
  let image ← match inv? with
    | some inv => pure (some (ImageFile.ofBytes (← readOrCreate inv.image)))
    | none => pure none
  let hostFile ← match inv?, inv?.bind Invocation.hostFile? with
    | some inv, some name => findHostFile inv.image name
    | _, _ => pure (.error .missing)
  let finished := run args setting (fun _ => hostFile) image
  if let (some inv, some file) := (inv?, finished.image) then
    IO.FS.writeBinFile inv.image ⟨file.toList.toArray⟩
  IO.print finished.output
  IO.eprint finished.diagnostics
  return UInt32.ofNat finished.status

end BlockVolume.Tool

/-- The image tool. -/
def main (args : List String) : IO UInt32 :=
  BlockVolume.Tool.runOnHost args
