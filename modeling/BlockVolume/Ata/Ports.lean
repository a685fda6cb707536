import BlockVolume.Device
import BlockVolume.Text.Blank

/-!
# `BlockVolume.Ata.Ports` — the registers of an ATA channel

A drive is reached through the ports of its channel. What the ports answer, and how they change when
they are read or written, is open; a controller is anything that has these four operations.

## Contents
- `Ports`: reading and writing ports, by bytes and by words.
- `Channel` and `Position`: where a drive sits, and the port numbers that follow from it.
- `Register`, `Status` and `Command`: offsets, status bits and command codes.
-/

namespace BlockVolume.Ata

/-- Controllers whose state is a `π`. -/
class Ports (π : Type) where
  readByte : UInt16 → π → UInt8 × π
  writeByte : UInt16 → UInt8 → π → π
  readWord : UInt16 → π → UInt16 × π
  writeWord : UInt16 → UInt16 → π → π

/-- One of the two channels of a controller. -/
inductive Channel where
  | primary
  | secondary
  deriving DecidableEq

namespace Channel

/-- The name of a channel, as records print it. -/
def name : Channel → String
  | primary => "Primary"
  | secondary => "Secondary"

/-- The first port of the command block. -/
def commandBase : Channel → UInt16
  | primary => 0x1F0
  | secondary => 0x170

/-- The first port of the control block. -/
def controlBase : Channel → UInt16
  | primary => 0x3F6
  | secondary => 0x376

end Channel

/-- One of the two drives of a channel. -/
inductive Position where
  | master
  | slave
  deriving DecidableEq

namespace Position

/-- The name of a position, as records print it. -/
def name : Position → String
  | master => "Master"
  | slave => "Slave"

/-- The value of the drive register that selects the drive for block addressing. -/
def select : Position → UInt8
  | master => 0xE0
  | slave => 0xF0

end Position

/-! ## Offsets in the command block -/

namespace Register

def data : UInt16 := 0

def error : UInt16 := 1

def sectorCount : UInt16 := 2

def addressLow : UInt16 := 3

def addressMid : UInt16 := 4

def addressHigh : UInt16 := 5

def drive : UInt16 := 6

/-- Read, the status of the drive; written, a command to it. -/
def status : UInt16 := 7

/-- Written, a command to the drive; read, its status. -/
def command : UInt16 := 7

end Register

/-! ## Status bits -/

namespace Status

/-- The drive is busy and the other bits mean nothing. -/
def isBusy (status : UInt8) : Bool := status &&& 0x80 ≠ 0

/-- The drive wants to transfer data. -/
def requestsData (status : UInt8) : Bool := status &&& 0x08 ≠ 0

/-- The last command ended with an error. -/
def hasError (status : UInt8) : Bool := status &&& 0x01 ≠ 0

/-- The last command ended with an error or the drive has a fault. -/
def hasFault (status : UInt8) : Bool := status &&& 0x21 ≠ 0

end Status

/-! ## Commands -/

namespace Command

def readSector : UInt8 := 0x20

def writeSector : UInt8 := 0x30

def flushCache : UInt8 := 0xE7

def identify : UInt8 := 0xEC

end Command

end BlockVolume.Ata
