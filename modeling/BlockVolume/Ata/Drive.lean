import BlockVolume.Ata.Identity
import BlockVolume.Ata.Ports

/-!
# `BlockVolume.Ata.Drive` — a disk drive on an ATA channel

Sectors of 512 bytes, moved word by word through the data port, under addresses of 28 bits. Every
wait for the drive is a bounded number of looks at its status, so a drive that hangs makes an
operation fail and not last.

## Contents
- `Target`: where a drive sits and how patient its waits are.
- `poll`, `waitNotBusy` and `waitForData`: looking at the status.
- `probe`: finding a drive; `readSector`, `writeSector` and `flushCache`: using it.
- `Drive`: an identified drive as a block device.
-/

namespace BlockVolume.Ata

/-- Sectors that an address of 28 bits tells apart. -/
abbrev addressableSectors : Nat := 0x10000000

/-- Where a drive sits and how often a wait looks at its status. -/
structure Target where
  channel : Channel
  position : Position
  pollLimit : Nat

/-- How often a wait looks at the status where nothing else is asked for. -/
def defaultPollLimit : Nat := 100000

namespace Target

variable {π : Type} [Ports π]

/-- The port of a register of the command block. -/
def port (t : Target) (register : UInt16) : UInt16 := t.channel.commandBase + register

/-- How records name a drive. -/
def label (t : Target) : String :=
  "drive 0x" ++ Text.hex 1 t.channel.commandBase.toNat ++ "/0x" ++ Text.hex 1 t.position.select.toNat

/-! ## Ports -/

/-- Reads a register of the command block. -/
def readRegister (t : Target) (register : UInt16) : Action DeviceError π UInt8 := fun p =>
  let (value, p') := Ports.readByte (t.port register) p
  ⟨.ok value, p', []⟩

/-- Writes a register of the command block. -/
def writeRegister (t : Target) (register : UInt16) (value : UInt8) : Action DeviceError π Unit :=
  Action.modify (Ports.writeByte (t.port register) value)

/-- Lets the drive settle: four looks at the alternate status, which has no side effects. -/
def settle (t : Target) : Action DeviceError π Unit :=
  Action.modify fun p => (List.range 4).foldl (fun p _ => (Ports.readByte t.channel.controlBase p).2) p

/-- The given number of words from the data port. -/
def readWords (t : Target) : Nat → π → List UInt16 × π
  | 0, p => ([], p)
  | n + 1, p =>
    let (word, p') := Ports.readWord (t.port Register.data) p
    let (words, p'') := readWords t n p'
    (word :: words, p'')

/-- Hands words to the data port. -/
def writeWords (t : Target) (words : List UInt16) (p : π) : π :=
  words.foldl (fun p word => Ports.writeWord (t.port Register.data) word p) p

/-- Looks at the status at most the given number of times, up to the first value that `accept` takes. -/
def poll (t : Target) (accept : UInt8 → Bool) : Nat → π → Option UInt8 × π
  | 0, p => (none, p)
  | n + 1, p =>
    let (status, p') := Ports.readByte (t.port Register.status) p
    if accept status then (some status, p') else poll t accept n p'

/-! ## Waiting -/

/-- Waits for a status that `accept` takes; if none comes, records the drive and what it did. -/
def await (t : Target) (accept : UInt8 → Bool) (complaint : String) : Action DeviceError π UInt8 := fun p =>
  match t.poll accept t.pollLimit p with
  | (some status, p') => ⟨.ok status, p', []⟩
  | (none, p') => ⟨.error .timeout, p', [⟨.warn, "[ata] " ++ t.label ++ " " ++ complaint⟩]⟩

/-- Waits until the drive is not busy and yields its status. -/
def waitNotBusy (t : Target) : Action DeviceError π UInt8 :=
  t.await (fun status => !Status.isBusy status) "stuck busy"

/-- Waits until the drive, no longer busy, has a fault or wants to transfer data. -/
def waitForData (t : Target) : Action DeviceError π Unit := do
  let status ← t.await
    (fun status => !Status.isBusy status && (Status.hasFault status || Status.requestsData status))
    "never requested data"
  if Status.hasFault status then
    let error ← t.readRegister Register.error
    Action.note .error ("[ata] device fault: status 0x" ++ Text.hex 2 status.toNat ++
      " error 0x" ++ Text.hex 2 error.toNat)
    throw .deviceFault

/-! ## Commands -/

/-- Words in a sector. -/
abbrev sectorWords : Nat := blockSize / 2

/-- Asks for a drive and reads how it describes itself. Drives that refuse the question, as those
that are no disks do, count as absent. -/
def probe (t : Target) : Action DeviceError π Identity := do
  t.writeRegister Register.drive t.position.select
  t.settle
  t.writeRegister Register.command Command.identify
  t.settle
  if (← t.readRegister Register.status) = 0 then
    throw .notFound
  if Status.hasError (← t.waitNotBusy) then
    throw .notFound
  t.waitForData
  let words ← (fun p =>
    let (words, p') := t.readWords sectorWords p
    ⟨.ok words, p', []⟩ : Action DeviceError π (List UInt16))
  let identity := Identity.ofWords words.toArray
  let channel := t.channel.name
  let position := t.position.name
  let model := identity.info.model
  let blocks := identity.info.totalBlocks
  let megabytes := identity.info.sizeInBytes / (1024 * 1024)
  Action.note .info s!"[ata] {channel}/{position}: {model} ({blocks} blocks, {megabytes} MB)"
  pure identity

/-- Sends a command for one sector. The four highest bits of its address go beside the bit that
selects the drive. -/
def sendCommand (t : Target) (index : Nat) (command : UInt8) : Action DeviceError π Unit := do
  let _ ← t.waitNotBusy
  let address := UInt32.ofNat index
  t.writeRegister Register.drive (t.position.select ||| Word.byteOf32 address 3 &&& 0x0F)
  t.settle
  t.writeRegister Register.sectorCount 1
  t.writeRegister Register.addressLow (Word.byteOf32 address 0)
  t.writeRegister Register.addressMid (Word.byteOf32 address 1)
  t.writeRegister Register.addressHigh (Word.byteOf32 address 2)
  t.writeRegister Register.command command

/-- The block that words from the data port make up, the low byte of each first. -/
def blockOfWords (words : Array UInt16) : Block :=
  Block.ofFn fun i =>
    let word := words[i / 2]?.getD 0
    if i % 2 = 0 then Word.lowByte word else Word.highByte word

/-- The words for the data port that a block makes up. -/
def wordsOfBlock (b : Block) : List UInt16 :=
  (List.range sectorWords).map fun i => Word.ofBytes16 (b.byte (2 * i)) (b.byte (2 * i + 1))

/-- Reads a sector. -/
def readSector (t : Target) (index : Nat) : Action DeviceError π Block := do
  t.sendCommand index Command.readSector
  t.waitForData
  fun p =>
    let (words, p') := t.readWords sectorWords p
    ⟨.ok (blockOfWords words.toArray), p', []⟩

/-- Writes a sector and has the drive put it on the medium. -/
def writeSector (t : Target) (index : Nat) (block : Block) : Action DeviceError π Unit := do
  t.sendCommand index Command.writeSector
  t.waitForData
  Action.modify (t.writeWords (wordsOfBlock block))
  t.writeRegister Register.command Command.flushCache
  let _ ← t.waitNotBusy

/-- Has the drive put all that was written on the medium. -/
def flushCache (t : Target) : Action DeviceError π Unit := do
  let _ ← t.waitNotBusy
  t.writeRegister Register.command Command.flushCache
  let _ ← t.waitNotBusy

end Target

/-- An identified drive. -/
structure Drive (π : Type) where
  ports : π
  target : Target
  identity : Identity

namespace Drive

variable {π α : Type} [Ports π]

/-- Runs an operation on the ports of a drive. -/
def onPorts (x : Target → Action DeviceError π α) : Action DeviceError (Drive π) α := do
  let drive ← Action.get
  Action.focus Drive.ports (fun p d => { d with ports := p }) id (x drive.target)

/-- Accepts the index of a sector that the drive has and that 28 bits can address. -/
def ensureInRange (drive : Drive π) (index : Nat) : Except DeviceError Unit :=
  if index < drive.identity.info.totalBlocks ∧ index < addressableSectors then .ok ()
  else .error .outOfRange

instance : BlockDevice (Drive π) where
  info drive := drive.identity.info
  read index := do
    (← Action.get).ensureInRange index
    onPorts fun t => t.readSector index
  write index block := do
    (← Action.get).ensureInRange index
    onPorts fun t => t.writeSector index block
  flush := onPorts fun t => t.flushCache

end Drive

end BlockVolume.Ata
