import BlockVolume.Action
import BlockVolume.Block

/-!
# `BlockVolume.Device` — block devices

A device holds blocks under absolute indices and transfers them whole. What kind of device it is, is
open: memory, an image file and a disk drive are instances.

## Contents
- `DeviceError`: why a transfer was refused.
- `DeviceInfo`: what a device says about itself.
- `BlockDevice`: the operations that every device has.
-/

namespace BlockVolume

/-- Why a device refused an operation. -/
inductive DeviceError where
  /-- There is no device. -/
  | notFound
  /-- The medium failed. -/
  | ioError
  /-- The block index lies past the end. -/
  | outOfRange
  /-- The device cannot serve requests yet. -/
  | notReady
  /-- The device takes no writes. -/
  | writeProtected
  /-- The device did not become ready in time. -/
  | timeout
  /-- The device reported an error or a drive fault. -/
  | deviceFault
  deriving DecidableEq

namespace DeviceError

/-- The name of a cause, as records and messages print it. -/
def name : DeviceError → String
  | notFound => "NotFound"
  | ioError => "IoError"
  | outOfRange => "OutOfRange"
  | notReady => "NotReady"
  | writeProtected => "WriteProtected"
  | timeout => "Timeout"
  | deviceFault => "DeviceFault"

end DeviceError

/-- Bytes in the model field of a device. -/
abbrev modelFieldSize : Nat := 40

/-- What a device says about itself. -/
structure DeviceInfo where
  totalBlocks : Nat
  readOnly : Bool
  /-- The name of the model, filled up with spaces. -/
  modelField : Vector UInt8 modelFieldSize
  deriving DecidableEq

namespace DeviceInfo

/-- The field that holds the first bytes of `model`, filled up with spaces. -/
def fieldOf (model : String) : Vector UInt8 modelFieldSize :=
  Vector.ofFn fun i => model.toUTF8.data[i.val]?.getD 0x20

/-- The information of a device of `totalBlocks` blocks whose model is `model`. -/
def ofModel (totalBlocks : Nat) (readOnly : Bool) (model : String) : DeviceInfo :=
  ⟨totalBlocks, readOnly, fieldOf model⟩

/-- The name of the model without what fills the field; a question mark if the field is no text. -/
def model (info : DeviceInfo) : String :=
  let text := (String.fromUTF8? ⟨info.modelField.toArray⟩).getD "?"
  String.ofList ((text.toList.reverse.dropWhile fun c => c = ' ' ∨ c = '\x00').reverse)

/-- The capacity in bytes. -/
def sizeInBytes (info : DeviceInfo) : Nat :=
  info.totalBlocks * blockSize

end DeviceInfo

/-- Devices whose state is a `δ`. -/
class BlockDevice (δ : Type) where
  /-- What the device says about itself. -/
  info : δ → DeviceInfo
  /-- The contents of a block. -/
  read : Nat → Action DeviceError δ Block
  /-- Replaces the contents of a block. -/
  write : Nat → Block → Action DeviceError δ Unit
  /-- Makes sure that what was written stays. -/
  flush : Action DeviceError δ Unit

end BlockVolume
