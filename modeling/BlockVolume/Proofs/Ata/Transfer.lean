import BlockVolume.Ata.Controller
import BlockVolume.Ata.Trace
import BlockVolume.Proofs.Action.Ensures

/-!
# `Proofs.Ata.Transfer` — one command to a controller

What the steps of a drive do to the controller behind its ports, from a look at a register to the transfer
of a sector. Each step is specified by the phase and the disk that it leaves; the registers are followed
only as far as they hold an address.

## Contents
- **`Controlled`**: ports that answer as a controller does, whatever else they keep.
- **`Controller.Holds`**: a working controller with a given disk, in a given phase.
- `address_begin`: the 28 bits of an index arrive, although four of them share a register with the
  selection of the drive.
- `readWords_of_transfer` and `writeWords_of_writing`: all the words of a sector, by induction.
- **`probe_ensures`**, **`readSector_ensures`**, **`writeSector_ensures`** and **`flushCache_ensures`**: from
  an idle controller to an idle one.
-/

namespace BlockVolume.Ata

open BlockVolume.Action

/-! ## Ports in front of a controller -/

/-- Ports that answer and change as those of a controller do. What else they keep, such as a record of the
accesses, is left open. -/
class Controlled (π : Type) [Ports π] where
  controller : π → Controller
  readByte (port : UInt16) (p : π) :
    (Ports.readByte port p).1 = (Ports.readByte port (controller p)).1 ∧
      controller (Ports.readByte port p).2 = (Ports.readByte port (controller p)).2
  writeByte (port : UInt16) (value : UInt8) (p : π) :
    controller (Ports.writeByte port value p) = Ports.writeByte port value (controller p)
  readWord (port : UInt16) (p : π) :
    (Ports.readWord port p).1 = (Ports.readWord port (controller p)).1 ∧
      controller (Ports.readWord port p).2 = (Ports.readWord port (controller p)).2
  writeWord (port word : UInt16) (p : π) :
    controller (Ports.writeWord port word p) = Ports.writeWord port word (controller p)

export Controlled (controller)

instance : Controlled Controller where
  controller c := c
  readByte _ _ := ⟨rfl, rfl⟩
  writeByte _ _ _ := rfl
  readWord _ _ := ⟨rfl, rfl⟩
  writeWord _ _ _ := rfl

instance {π : Type} [Ports π] [Controlled π] : Controlled (Traced π) where
  controller p := controller p.inner
  readByte port p := Controlled.readByte port p.inner
  writeByte port value p := Controlled.writeByte port value p.inner
  readWord port p := Controlled.readWord port p.inner
  writeWord port word p := Controlled.writeWord port word p.inner

/-! ## Working controllers -/

/-- A drive that is there, is not stuck and has no fault, with the given disk and in the given phase. -/
structure Controller.Holds (blocks : Array Block) (phase : Phase) (c : Controller) : Prop where
  present : c.absent = false
  responsive : c.stuckBusy = false
  faultless : c.fault = false
  disk : c.disk = blocks
  phase : c.phase = phase

variable {blocks : Array Block} {phase : Phase} {c : Controller}

/-- Between transfers a working drive says that it is ready, in one also that it wants data. -/
theorem Controller.Holds.status (h : c.Holds blocks phase) :
    c.status = if phase = .idle then 0x40 else 0x48 := by
  simp [Controller.status, h.present, h.responsive, h.faultless, h.phase]

/-- A working drive is never busy and reports neither an error nor a fault. -/
theorem Controller.Holds.status_sound (h : c.Holds blocks phase) :
    c.status ≠ 0 ∧ Status.isBusy c.status = false ∧ Status.hasError c.status = false ∧
      Status.hasFault c.status = false := by
  rw [h.status]
  split <;> decide

/-- In a transfer a working drive wants data. -/
theorem Controller.Holds.requestsData (h : c.Holds blocks phase) (hphase : phase ≠ .idle) :
    Status.requestsData c.status = true := by
  rw [h.status, if_neg hphase]
  decide

/-- In the middle of a sector the data port gives the words of the block. -/
theorem Controller.giveWord_of_reading {s i : Nat} (h : c.Holds blocks (.reading s i)) (hs : s < blocks.size) :
    c.giveWord = (Word.ofBytes16 (blocks[s].byte (2 * i)) (blocks[s].byte (2 * i + 1)),
      { c with phase := Phase.during (.reading s) (i + 1) }) := by
  have hsector : c.sector s = blocks[s] := by simp [Controller.sector, h.disk, hs]
  simp only [Controller.giveWord, h.phase, hsector]

/-- In the description of a drive the data port gives its words. -/
theorem Controller.giveWord_of_identify {i : Nat} (h : c.Holds blocks (.identify i)) :
    c.giveWord =
      (identifyWord blocks.size i, { c with phase := Phase.during .identify (i + 1) }) := by
  simp only [Controller.giveWord, h.phase, h.disk]

/-- In the middle of a sector that is written, a word goes into the block. -/
theorem Controller.takeWord_of_writing {s i : Nat} (h : c.phase = .writing s i) (word : UInt16) :
    c.takeWord word =
      { c with
        disk := c.disk.modify s fun b => b.overlay (2 * i) [Word.lowByte word, Word.highByte word]
        phase := Phase.during (.writing s) (i + 1) } := by
  simp only [Controller.takeWord, h]

/-- A command leads to the phase that it asks for. -/
theorem Controller.Holds.begin (h : c.Holds blocks phase) (command : UInt8) :
    (c.begin command).Holds blocks (c.begin command).phase :=
  ⟨h.present, h.responsive, h.faultless, h.disk, rfl⟩

/-- The low half of the drive register is what was put beside the selection. -/
theorem select_or_and (position : Position) {b : UInt8} (h : b.toNat < 16) :
    (position.select ||| b &&& 0x0F) &&& 0x0F = b := by
  apply UInt8.toNat_inj.mp
  have hselect : position.select.toNat &&& 15 = 0 := by cases position <;> rfl
  have hb : b.toNat &&& 15 = b.toNat :=
    (Nat.and_two_pow_sub_one_eq_mod b.toNat 4).trans (Nat.mod_eq_of_lt h)
  change (position.select.toNat ||| (b.toNat &&& 15)) &&& 15 = b.toNat
  rw [hb, Nat.and_or_distrib_right, hselect, hb, Nat.zero_or]

/-- The address that the registers hold is the index whose bytes were put there, if 28 bits can say it. -/
theorem address_of_registers {position : Position} {i : Nat} (hi : i < addressableSectors)
    (hlow : c.addressLow = Word.byteOf32 (UInt32.ofNat i) 0)
    (hmid : c.addressMid = Word.byteOf32 (UInt32.ofNat i) 1)
    (hhigh : c.addressHigh = Word.byteOf32 (UInt32.ofNat i) 2)
    (hdrive : c.drive = (position.select ||| Word.byteOf32 (UInt32.ofNat i) 3 &&& 0x0F)) :
    c.address = i := by
  have hi' : i < 0x10000000 := hi
  have hword : (UInt32.ofNat i).toNat = i := by
    rw [UInt32.toNat_ofNat', Nat.mod_eq_of_lt (by omega)]
  have htop : (Word.byteOf32 (UInt32.ofNat i) 3).toNat < 16 := by
    simp only [Word.byteOf32, hword, UInt8.toNat_ofNat', Nat.shiftRight_eq_div_pow]
    omega
  rw [Controller.address, hlow, hmid, hhigh, hdrive, select_or_and position htop, Word.ofBytes32_byteOf32, hword]

/-! ## Registers -/

variable {π : Type} [Ports π] [Controlled π] {t : Target} {p : π} {i : Nat}

/-- A look at the status shows it and changes nothing. -/
theorem readStatus_apply (ht : t.channel = .primary) (p : π) :
    (Ports.readByte (t.port Register.status) p).1 = (controller p).status ∧
      controller (Ports.readByte (t.port Register.status) p).2 = controller p := by
  obtain ⟨hvalue, hstate⟩ := Controlled.readByte (t.port Register.status) p
  have hport : t.port Register.status = 0x1F7 := by rw [Target.port, ht]; rfl
  rw [hport] at hvalue hstate ⊢
  exact ⟨hvalue, hstate⟩

/-- Reading the status shows it and changes nothing. -/
theorem readStatus_ensures (ht : t.channel = .primary) (p : π) :
    (t.readRegister (π := π) Register.status).Ensures p fun r p' =>
      r = .ok (controller p).status ∧ controller p' = controller p := by
  obtain ⟨hvalue, hstate⟩ := readStatus_apply ht p
  exact ⟨congrArg Except.ok hvalue, hstate⟩

/-- Letting the drive settle only counts looks at the alternate status. -/
theorem settle_ensures (ht : t.channel = .primary) (p : π) : (t.settle (π := π)).Ensures p fun r p' =>
    r = .ok () ∧
      controller p' = { controller p with alternateReads := (controller p).alternateReads + 4 } := by
  have hlook (p : π) : controller (Ports.readByte t.channel.controlBase p).2 =
      { controller p with alternateReads := (controller p).alternateReads + 1 } := by
    rw [(Controlled.readByte _ p).2, ht]
    rfl
  refine ⟨rfl, ?_⟩
  simp only [Target.settle, modify_apply, List.range, List.range.loop, List.foldl_cons, List.foldl_nil, hlook]

/-- A value for a register arrives at the controller. -/
theorem writeRegister_ensures (ht : t.channel = .primary) (register : UInt16) (value : UInt8) (p : π) :
    (t.writeRegister register value).Ensures p fun r p' =>
      r = .ok () ∧
        controller p' = Ports.writeByte (Channel.primary.commandBase + register) value (controller p) := by
  refine ⟨rfl, ?_⟩
  rw [Target.writeRegister, modify_apply, Controlled.writeByte, Target.port, ht]

/-! ## Waiting -/

/-- A wait ends at its first look, if that look is good enough and the patience is not zero. -/
theorem await_ensures (ht : t.channel = .primary) (hpoll : 0 < t.pollLimit) {accept : UInt8 → Bool}
    (complaint : String) (haccept : accept (controller p).status = true) :
    (t.await (π := π) accept complaint).Ensures p fun r p' =>
      r = .ok (controller p).status ∧ controller p' = controller p := by
  obtain ⟨hvalue, hstate⟩ := readStatus_apply ht p
  obtain ⟨n, hn⟩ := Nat.exists_eq_add_one.mpr hpoll
  have hlook : t.poll accept t.pollLimit p =
      (some (controller p).status, (Ports.readByte (t.port Register.status) p).2) := by
    simp only [hn, Target.poll, hvalue, haccept, ↓reduceIte]
  unfold Ensures Target.await
  rw [hlook]
  exact ⟨rfl, hstate⟩

/-- A working drive is found not to be busy. -/
theorem waitNotBusy_ensures (ht : t.channel = .primary) (hpoll : 0 < t.pollLimit)
    (h : (controller p).Holds blocks phase) : (t.waitNotBusy (π := π)).Ensures p fun r p' =>
      r = .ok (controller p).status ∧ controller p' = controller p := by
  apply await_ensures ht hpoll
  simp [h.status_sound.2.1]

/-- In a transfer a working drive is found to want data. -/
theorem waitForData_ensures (ht : t.channel = .primary) (hpoll : 0 < t.pollLimit)
    (h : (controller p).Holds blocks phase) (hphase : phase ≠ .idle) :
    (t.waitForData (π := π)).Ensures p fun r p' => r = .ok () ∧ controller p' = controller p := by
  obtain ⟨-, hbusy, -, hfault⟩ := h.status_sound
  rw [Target.waitForData, ensures_bind]
  apply (await_ensures ht hpoll "never requested data" (by simp [hbusy, h.requestsData hphase])).mono
  rintro r p' ⟨rfl, hp'⟩
  simp only [hfault, Bool.false_eq_true, ↓reduceIte, ensures_pure]
  exact ⟨trivial, hp'⟩

/-! ## Commands -/

/-- A command finds the index in the registers, all of it. -/
theorem sendCommand_ensures (ht : t.channel = .primary) (hpoll : 0 < t.pollLimit)
    (h : (controller p).Holds blocks phase) (hi : i < addressableSectors) (command : UInt8) :
    (t.sendCommand (π := π) i command).Ensures p fun r p' =>
      r = .ok () ∧ ∃ c : Controller, c.Holds blocks phase ∧ c.address = i ∧ controller p' = c.begin command := by
  rw [Target.sendCommand]
  apply (waitNotBusy_ensures ht hpoll h).andThen
  intro p₁ hp₁
  apply (writeRegister_ensures ht _ _ p₁).andThen
  intro p₂ hp₂
  apply (settle_ensures ht p₂).andThen
  intro p₃ hp₃
  apply (writeRegister_ensures ht _ _ p₃).andThen
  intro p₄ hp₄
  apply (writeRegister_ensures ht _ _ p₄).andThen
  intro p₅ hp₅
  apply (writeRegister_ensures ht _ _ p₅).andThen
  intro p₆ hp₆
  apply (writeRegister_ensures ht _ _ p₆).andThen
  intro p₇ hp₇
  apply (writeRegister_ensures ht _ _ p₇).mono
  rintro r p₈ ⟨rfl, hp₈⟩
  refine ⟨rfl, controller p₇, ?_, ?_, hp₈⟩
  · rw [hp₇, hp₆, hp₅, hp₄, hp₃, hp₂, hp₁]
    exact ⟨h.present, h.responsive, h.faultless, h.disk, h.phase⟩
  · rw [hp₇, hp₆, hp₅, hp₄, hp₃, hp₂]
    exact address_of_registers hi rfl rfl rfl rfl

/-! ## The words of a sector -/

/-- All the words from `word i` on, while the controller goes through a transfer that gives them. -/
theorem readWords_of_transfer (transfer : Nat → Phase) (word : Nat → UInt16)
    (hgive : ∀ (i : Nat) (c : Controller), c.Holds blocks (transfer i) →
      c.giveWord = (word i, { c with phase := Phase.during transfer (i + 1) }))
    (n : Nat) {i : Nat} (hn : i + n = Target.sectorWords)
    (h : (controller p).Holds blocks (Phase.during transfer i)) :
    (t.readWords n p).1 = (List.range' i n).map word ∧ (controller (t.readWords n p).2).Holds blocks .idle := by
  induction n generalizing i p with
  | zero =>
    rw [Phase.during, if_pos (show i = _ from hn)] at h
    exact ⟨rfl, h⟩
  | succ n ih =>
    rw [Phase.during, if_neg (by omega)] at h
    obtain ⟨hvalue, hstate⟩ := Controlled.readWord (t.port Register.data) p
    have hword : Ports.readWord (t.port Register.data) (controller p) = _ := hgive i _ h
    rw [hword] at hvalue hstate
    have hnext : (controller (Ports.readWord (t.port Register.data) p).2).Holds blocks
        (Phase.during transfer (i + 1)) := by
      rw [hstate]
      exact ⟨h.present, h.responsive, h.faultless, h.disk, rfl⟩
    obtain ⟨hwords, hidle⟩ := ih (by omega) hnext
    rw [Target.readWords]
    simp only [hvalue]
    exact ⟨by rw [hwords, List.range'_succ, List.map_cons], hidle⟩

/-- The bytes of words, the low byte of each first. -/
def bytesOfWords : List UInt16 → List UInt8
  | [] => []
  | word :: words => Word.lowByte word :: Word.highByte word :: bytesOfWords words

/-- Words made of the bytes that `f` gives have these bytes. -/
theorem bytesOfWords_map (f : Nat → UInt8) (k n : Nat) :
    bytesOfWords ((List.range' k n).map fun i => Word.ofBytes16 (f (2 * i)) (f (2 * i + 1))) =
      (List.range' (2 * k) (2 * n)).map f := by
  induction n generalizing k with
  | zero => rfl
  | succ n ih =>
    rw [List.range'_succ, List.map_cons, bytesOfWords, ih, Word.lowByte_ofBytes16, Word.highByte_ofBytes16,
      show 2 * (n + 1) = 2 * n + 1 + 1 by omega, List.range'_succ, List.range'_succ]
    rfl

/-- Laid over a block, the bytes of the words of another one make it that one. -/
theorem overlay_wordsOfBlock (a b : Block) : a.overlay 0 (bytesOfWords (Target.wordsOfBlock b)) = b := by
  have hbytes : bytesOfWords (Target.wordsOfBlock b) = b.slice 0 blockSize := by
    rw [Target.wordsOfBlock, List.range_eq_range', bytesOfWords_map]
    rfl
  apply Block.ext_byte
  intro i hi
  rw [hbytes, Block.byte_overlay _ _ _ hi, if_pos (by simpa using hi)]
  simp [Block.slice, hi]

/-- The block that is made of the words of a block is that block. -/
theorem blockOfWords_wordsOfBlock (b : Block) : Target.blockOfWords (Target.wordsOfBlock b).toArray = b := by
  apply Block.ext_byte
  intro i hi
  have hword : (Target.wordsOfBlock b).toArray[i / 2]? =
      some (Word.ofBytes16 (b.byte (2 * (i / 2))) (b.byte (2 * (i / 2) + 1))) := by
    have hi' : i / 2 < Target.sectorWords := Nat.div_lt_of_lt_mul hi
    simp only [Target.wordsOfBlock, List.getElem?_toArray, List.getElem?_map, List.getElem?_range hi',
      Option.map_some]
  rw [Target.blockOfWords, Block.byte_ofFn _ hi]
  simp only [hword, Option.getD_some, Word.lowByte_ofBytes16, Word.highByte_ofBytes16]
  split
  · rw [show 2 * (i / 2) = i by omega]
  · rw [show 2 * (i / 2) + 1 = i by omega]

/-- Changing the block that was just stored is storing the changed block. -/
theorem modify_setIfInBounds (blocks : Array Block) (s : Nat) (x : Block) (f : Block → Block) :
    (blocks.setIfInBounds s x).modify s f = blocks.setIfInBounds s (f x) := by
  apply Array.ext
  · simp
  · intro j hj hj'
    have hj : j < blocks.size := by simpa using hj'
    rw [Array.getElem_modify, Array.getElem_setIfInBounds hj, Array.getElem_setIfInBounds hj]
    split <;> rfl

/-- All the words from word `i` on, handed over while the controller takes a sector of which it has `x` so far. -/
theorem writeWords_of_writing {s : Nat} (words : List UInt16) {x : Block} {p : π} {i : Nat}
    (hi : i + words.length = Target.sectorWords)
    (h : (controller p).Holds (blocks.setIfInBounds s x) (Phase.during (.writing s) i)) :
    (controller (t.writeWords words p)).Holds
      (blocks.setIfInBounds s (x.overlay (2 * i) (bytesOfWords words))) .idle := by
  induction words generalizing x p i with
  | nil =>
    rw [Phase.during, if_pos (show i = _ from hi)] at h
    exact h
  | cons word words ih =>
    rw [Phase.during, if_neg (by rw [List.length_cons] at hi; omega)] at h
    have hstate : controller (Ports.writeWord (t.port Register.data) word p) =
        { controller p with
          disk := blocks.setIfInBounds s (x.overlay (2 * i) [Word.lowByte word, Word.highByte word])
          phase := Phase.during (.writing s) (i + 1) } := by
      have htake : Ports.writeWord (t.port Register.data) word (controller p) = _ :=
        Controller.takeWord_of_writing h.phase word
      rw [Controlled.writeWord, htake, h.disk, modify_setIfInBounds]
    have hnext : (controller (Ports.writeWord (t.port Register.data) word p)).Holds
        (blocks.setIfInBounds s (x.overlay (2 * i) [Word.lowByte word, Word.highByte word]))
        (Phase.during (.writing s) (i + 1)) := by
      rw [hstate]
      exact ⟨h.present, h.responsive, h.faultless, rfl, rfl⟩
    exact ih (by rw [List.length_cons] at hi; omega) hnext

/-! ## From idle to idle -/

/-- A sector that is asked for is the block that the disk has there. -/
theorem readSector_ensures (ht : t.channel = .primary) (hpoll : 0 < t.pollLimit)
    (h : (controller p).Holds blocks .idle) (hi : i < blocks.size) (haddress : i < addressableSectors) :
    (t.readSector (π := π) i).Ensures p fun r p' => r = .ok blocks[i] ∧ (controller p').Holds blocks .idle := by
  rw [Target.readSector]
  apply (sendCommand_ensures ht hpoll h haddress Command.readSector).andThen
  rintro p₁ ⟨c, hc, rfl, hp₁⟩
  have hp₁ : (controller p₁).Holds blocks (.reading c.address 0) := hp₁ ▸ hc.begin Command.readSector
  apply (waitForData_ensures ht hpoll hp₁ nofun).andThen
  intro p₂ hp₂
  rw [← hp₂] at hp₁
  obtain ⟨hwords, hidle⟩ := readWords_of_transfer (t := t) (.reading c.address)
    (fun i => Word.ofBytes16 (blocks[c.address].byte (2 * i)) (blocks[c.address].byte (2 * i + 1)))
    (fun i c' hc' => Controller.giveWord_of_reading hc' hi) Target.sectorWords (Nat.zero_add _) hp₁
  have hblock : (t.readWords Target.sectorWords p₂).1 = Target.wordsOfBlock blocks[c.address] := by
    rw [hwords, Target.wordsOfBlock, List.range_eq_range']
  -- with the number left open, nothing is tempted to read the words one by one
  generalize Target.sectorWords = n at hblock hidle ⊢
  refine ⟨?_, hidle⟩
  change Except.ok (Target.blockOfWords (t.readWords n p₂).1.toArray) = _
  rw [hblock, blockOfWords_wordsOfBlock]

/-- A sector that is handed over takes the place of the block that the disk has there. -/
theorem writeSector_ensures (ht : t.channel = .primary) (hpoll : 0 < t.pollLimit)
    (h : (controller p).Holds blocks .idle) (hi : i < blocks.size) (haddress : i < addressableSectors) (b : Block) :
    (t.writeSector (π := π) i b).Ensures p fun r p' =>
      r = .ok () ∧ (controller p').Holds (blocks.setIfInBounds i b) .idle := by
  rw [Target.writeSector]
  apply (sendCommand_ensures ht hpoll h haddress Command.writeSector).andThen
  rintro p₁ ⟨c, hc, rfl, hp₁⟩
  have hp₁ : (controller p₁).Holds blocks (.writing c.address 0) := hp₁ ▸ hc.begin Command.writeSector
  apply (waitForData_ensures ht hpoll hp₁ nofun).andThen
  intro p₂ hp₂
  have hsame : blocks.setIfInBounds c.address blocks[c.address] = blocks := by
    rw [Array.setIfInBounds_def, dif_pos hi, Array.set_getElem_self]
  rw [← hp₂, ← hsame] at hp₁
  have hwritten := writeWords_of_writing (t := t) (i := 0) (Target.wordsOfBlock b) (by simp [Target.wordsOfBlock]) hp₁
  rw [overlay_wordsOfBlock] at hwritten
  rw [ensures_bind, ensures_modify]
  apply (writeRegister_ensures ht _ _ _).andThen
  intro p₃ hp₃
  have hp₃ : (controller p₃).Holds (blocks.setIfInBounds c.address b) .idle :=
    hp₃ ▸ hwritten.begin Command.flushCache
  apply (waitNotBusy_ensures ht hpoll hp₃).andThen
  intro p₄ hp₄
  exact ⟨rfl, hp₄ ▸ hp₃⟩

/-- A flush leaves the disk as it is. -/
theorem flushCache_ensures (ht : t.channel = .primary) (hpoll : 0 < t.pollLimit)
    (h : (controller p).Holds blocks .idle) : (t.flushCache (π := π)).Ensures p fun r p' =>
      r = .ok () ∧ (controller p').Holds blocks .idle := by
  rw [Target.flushCache]
  apply (waitNotBusy_ensures ht hpoll h).andThen
  intro p₁ hp₁
  apply (writeRegister_ensures ht _ _ p₁).andThen
  intro p₂ hp₂
  have hp₂ : (controller p₂).Holds blocks .idle := hp₂ ▸ hp₁ ▸ h.begin Command.flushCache
  apply (waitNotBusy_ensures ht hpoll hp₂).andThen
  intro p₃ hp₃
  exact ⟨rfl, hp₃ ▸ hp₂⟩

/-- The description of a drive says how many blocks it has, in two words. -/
theorem totalBlocks_ofWords {n : Nat} (hn : n < UInt32.size) {words : List UInt16}
    (hwords : words = (List.range' 0 Target.sectorWords).map (Controller.identifyWord n)) :
    (Identity.ofWords words.toArray).info.totalBlocks = n := by
  have hword {i : Nat} (hi : i < Target.sectorWords) : words.toArray[i]?.getD 0 = Controller.identifyWord n i := by
    rw [hwords, List.getElem?_toArray, List.getElem?_map, List.getElem?_range' hi]
    simp
  have hlow : Controller.identifyWord n 60 = UInt16.ofNat n := rfl
  have hhigh : Controller.identifyWord n 61 = UInt16.ofNat (n >>> 16) := rfl
  simp only [Identity.ofWords, hword (show 61 < _ by decide), hword (show 60 < _ by decide), hlow, hhigh,
    UInt16.toNat_ofNat', Nat.shiftRight_eq_div_pow]
  have hn : n < 0x100000000 := hn
  omega

/-- A working drive is found, whatever it was doing, and says how many blocks it has. -/
theorem probe_ensures (ht : t.channel = .primary) (hpoll : 0 < t.pollLimit)
    (h : (controller p).Holds blocks phase) (hsize : blocks.size < UInt32.size) :
    (t.probe (π := π)).Ensures p fun r p' =>
      (∃ identity, r = .ok identity ∧ identity.info.totalBlocks = blocks.size) ∧
        (controller p').Holds blocks .idle := by
  rw [Target.probe]
  apply (writeRegister_ensures ht _ _ p).andThen
  intro p₁ hp₁
  apply (settle_ensures ht p₁).andThen
  intro p₂ hp₂
  have hp₂ : (controller p₂).Holds blocks phase := by
    rw [hp₂, hp₁]
    exact ⟨h.present, h.responsive, h.faultless, h.disk, h.phase⟩
  apply (writeRegister_ensures ht _ _ p₂).andThen
  intro p₃ hp₃
  have hp₃ : (controller p₃).Holds blocks (.identify 0) := hp₃ ▸ hp₂.begin Command.identify
  apply (settle_ensures ht p₃).andThen
  intro p₄ hp₄
  have hp₄ : (controller p₄).Holds blocks (.identify 0) := by
    rw [hp₄]
    exact ⟨hp₃.present, hp₃.responsive, hp₃.faultless, hp₃.disk, hp₃.phase⟩
  apply (readStatus_ensures ht p₄).andThen
  intro p₅ hp₅
  rw [← hp₅] at hp₄ ⊢
  obtain ⟨hpresent, -, herror, -⟩ := hp₄.status_sound
  rw [if_neg hpresent]
  apply (waitNotBusy_ensures ht hpoll hp₄).andThen
  intro p₆ hp₆
  rw [herror]
  rw [← hp₆] at hp₄
  apply (waitForData_ensures ht hpoll hp₄ nofun).andThen
  intro p₇ hp₇
  rw [← hp₇] at hp₄
  obtain ⟨hwords, hidle⟩ := readWords_of_transfer (t := t) (i := 0) .identify _
    (fun i c hc => Controller.giveWord_of_identify hc) Target.sectorWords (Nat.zero_add _) hp₄
  have htotal := totalBlocks_ofWords hsize hwords
  generalize Target.sectorWords = n at htotal hidle ⊢
  exact ⟨⟨_, rfl, htotal⟩, hidle⟩

end BlockVolume.Ata
