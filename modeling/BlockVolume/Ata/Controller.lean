import BlockVolume.Ata.Drive

/-!
# `BlockVolume.Ata.Controller` — a disk behind the ports of the primary channel

The other side of the ports: a controller that takes commands for its disk and moves the data of a
sector word by word. A transfer is a phase of the controller, and the last word ends it. Which of the
two drives is selected makes no difference to the disk; the low half of the drive register is the top
of the address.

## Contents
- `Phase`: what the data port carries; `Phase.during`: where a transfer is.
- `Controller`: the disk, the registers and what may be wrong with them.
- `status`, `address` and `identifyWord`: what the controller answers.
- Its `Ports`.
-/

namespace BlockVolume.Ata

/-- What the data port of a controller carries. -/
inductive Phase where
  | idle
  /-- The given word of the description of the drive comes next. -/
  | identify (word : Nat)
  /-- The given word of a sector comes next. -/
  | reading (sector word : Nat)
  /-- The given word of a sector is taken next. -/
  | writing (sector word : Nat)
  deriving DecidableEq

/-- The phase of a transfer when the given word comes next; past the last word the transfer is over. -/
def Phase.during (transfer : Nat → Phase) (word : Nat) : Phase :=
  if word = Target.sectorWords then idle else transfer word

/-- A controller on the primary channel, with one disk. -/
structure Controller where
  disk : Array Block
  drive : UInt8
  addressLow : UInt8
  addressMid : UInt8
  addressHigh : UInt8
  phase : Phase
  /-- No drive answers. -/
  absent : Bool
  /-- The drive never stops being busy. -/
  stuckBusy : Bool
  /-- Every transfer fails. -/
  fault : Bool
  /-- Looks at the alternate status so far. -/
  alternateReads : Nat
  deriving DecidableEq

namespace Controller

/-- A controller that was just switched on. -/
def ofDisk (disk : Array Block) : Controller :=
  ⟨disk, 0, 0, 0, 0, .idle, false, false, false, 0⟩

/-- The status register. -/
def status (c : Controller) : UInt8 :=
  if c.absent then 0
  else if c.stuckBusy then 0x80
  else if c.fault ∧ c.phase ≠ .idle then 0x41
  else if c.phase = .idle then 0x40
  else 0x48

/-- The address that the registers hold. -/
def address (c : Controller) : Nat :=
  (Word.ofBytes32 c.addressLow c.addressMid c.addressHigh (c.drive &&& 0x0F)).toNat

/-- The block of a sector, or zeros past the end of the disk. -/
def sector (c : Controller) (i : Nat) : Block := c.disk[i]?.getD Block.zero

/-- The word of a text whose first character is at `i`, filled up with spaces. -/
def textWord (text : String) (i : Nat) : UInt16 :=
  Word.ofBytes16 (text.toUTF8.data[i + 1]?.getD 0x20) (text.toUTF8.data[i]?.getD 0x20)

/-- A word of the description of a drive with the given number of blocks. -/
def identifyWord (blocks word : Nat) : UInt16 :=
  if 10 ≤ word ∧ word ≤ 19 then textWord "SN0001" ((word - 10) * 2)
  else if 27 ≤ word ∧ word ≤ 46 then textWord "FAKE ATA DISK" ((word - 27) * 2)
  else if word = 60 then UInt16.ofNat blocks
  else if word = 61 then UInt16.ofNat (blocks >>> 16)
  else 0

/-- Begins what a command asks for. -/
def begin (c : Controller) (command : UInt8) : Controller :=
  { c with phase :=
      if command = Command.identify then .identify 0
      else if command = Command.readSector then .reading c.address 0
      else if command = Command.writeSector then .writing c.address 0
      else .idle }

/-- The next word from the data port. -/
def giveWord (c : Controller) : UInt16 × Controller :=
  match c.phase with
  | .identify i => (identifyWord c.disk.size i, { c with phase := Phase.during .identify (i + 1) })
  | .reading s i =>
    (Word.ofBytes16 ((c.sector s).byte (2 * i)) ((c.sector s).byte (2 * i + 1)),
      { c with phase := Phase.during (.reading s) (i + 1) })
  | _ => (0, c)

/-- Takes a word from the data port. -/
def takeWord (c : Controller) (word : UInt16) : Controller :=
  match c.phase with
  | .writing s i =>
    { c with
      disk := c.disk.modify s fun b => b.overlay (2 * i) [Word.lowByte word, Word.highByte word]
      phase := Phase.during (.writing s) (i + 1) }
  | _ => c

instance : Ports Controller where
  readByte port c :=
    if port = Channel.primary.controlBase then (0, { c with alternateReads := c.alternateReads + 1 })
    else if port = Channel.primary.commandBase + Register.status then (c.status, c)
    else (0, c)
  writeByte port value c :=
    if port = Channel.primary.commandBase + Register.drive then { c with drive := value }
    else if port = Channel.primary.commandBase + Register.addressLow then { c with addressLow := value }
    else if port = Channel.primary.commandBase + Register.addressMid then { c with addressMid := value }
    else if port = Channel.primary.commandBase + Register.addressHigh then { c with addressHigh := value }
    else if port = Channel.primary.commandBase + Register.command then c.begin value
    else c
  readWord _ c := c.giveWord
  writeWord _ word c := c.takeWord word

end Controller

end BlockVolume.Ata
