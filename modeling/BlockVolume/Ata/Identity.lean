import BlockVolume.Device
import BlockVolume.Text.Blank

/-!
# `BlockVolume.Ata.Identity` — how a drive describes itself

A drive answers the identify command with 256 words. Its texts are stored with the first character
of each pair in the high byte of the word.

## Contents
- `Identity`: the size, the model and the serial number of a drive.
- `ofWords`: reading them out of the answer.
-/

namespace BlockVolume.Ata

/-- Bytes in the serial number of a drive. -/
abbrev serialFieldSize : Nat := 20

/-- What a drive says about itself. -/
structure Identity where
  info : DeviceInfo
  /-- The serial number, filled up with spaces. -/
  serialField : Vector UInt8 serialFieldSize
  deriving DecidableEq

namespace Identity

/-- Byte `i` of the text that begins at word `start`. -/
def textByte (words : Array UInt16) (start i : Nat) : UInt8 :=
  let word := words[start + i / 2]?.getD 0
  if i % 2 = 0 then Word.highByte word else Word.lowByte word

/-- Reads the answer to the identify command. -/
def ofWords (words : Array UInt16) : Identity where
  info :=
    { totalBlocks := (words[61]?.getD 0).toNat * 65536 + (words[60]?.getD 0).toNat
      readOnly := false
      modelField := Vector.ofFn fun i => textByte words 27 i.val }
  serialField := Vector.ofFn fun i => textByte words 10 i.val

/-- The serial number without what fills the field; a question mark if the field is no text. -/
def serial (identity : Identity) : String :=
  Text.trim ((String.fromUTF8? ⟨identity.serialField.toArray⟩).getD "?")

end Identity

end BlockVolume.Ata
