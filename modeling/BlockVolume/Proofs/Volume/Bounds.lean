import BlockVolume.Proofs.Space.Conserved
import BlockVolume.Proofs.Volume.Damage
import BlockVolume.Proofs.Volume.Requests

/-!
# `Proofs.Volume.Bounds` — numbers that stay in range

Block numbers, sizes and positions are kept in 32 bits, a bitmap has so many bits and a block so many bytes. In a
sound volume every number that an operation forms from them stays below its limit, in each turn of the loops that
read and write as well, where the file may have grown in the turn before and the device may refuse in any of them.
The caches ask for data blocks of the volume only, so no request of an operation is past its end.

## Contents
- **`Space.Growable`**, **`Space.Releasable`**: what giving and taking blocks comes to without leaving a range.
- **`OpenFile.Fits`**: block number, position and part of a block, for some bytes of an open file.
- **`Operation.InRange`**: the numbers of an operation, in each turn of its loop; `Sound.inRange`.
- `Sound.cacheAsks`: what the caches ask is a data block; `Sound.asks`: so nothing is asked past the end.
- **`Operation.Bounded`**, and **`Begun.bounded`** for all operations of all runs.
-/

namespace BlockVolume

open BlockVolume.Action Space

/-! ## Giving and taking blocks -/

namespace Space

/-- The numbers that a block for an entry is looked for, counted and recorded with. -/
structure Growable (s : Space) (e : Entry) : Prop where
  total_le : s.total ≤ bitmapCapacity
  next_lt : e.firstBlock.toNat + e.blocks.toNat < UInt32.size
  refused {refusal : Refusal} : s.grow e = .error refusal → refusal ≠ .outOfBounds
  block_lt {g : Grant} : s.grow e = .ok g → g.block < s.total
  blocks_eq {g : Grant} : s.grow e = .ok g → g.entry.blocks.toNat = e.blocks.toNat + 1
  free_eq {g : Grant} : s.grow e = .ok g → g.space.free + 1 = s.free

/-- The numbers that the blocks of an entry are taken back with. -/
structure Releasable (s : Space) (e : Entry) : Prop where
  total_le : s.total ≤ bitmapCapacity
  past_lt : e.firstBlock.toNat + e.blocks.toNat < UInt32.size
  released : ∃ r, s.release e = .ok r ∧ r.space.free = s.free + r.freed

end Space

namespace Allocated

variable {s : Space} {d : Directory}

theorem total_le (h : Allocated s d) : s.total ≤ bitmapCapacity := by
  rw [h.total_eq]
  exact volumeBlocks_le_bitmapCapacity.2

theorem past_lt (h : Allocated s d) (slot : Slot) :
    (d.get slot).firstBlock.toNat + (d.get slot).blocks.toNat < UInt32.size := by
  by_cases h0 : (d.get slot).blocks.toNat = 0
  · rw [h0]
    exact (d.get slot).firstBlock.toNat_lt
  · exact Nat.lt_of_le_of_lt (h.run_bounds slot h0).2 (by decide)

/-- The counter is not zero if a block is free, so it does not stop there. -/
theorem growable (h : Allocated s d) (slot : Slot) : s.Growable (d.get slot) where
  total_le := h.total_le
  next_lt := h.past_lt slot
  refused hg := by
    rintro rfl
    rcases error_of_grow_eq_error hg h.total_le with he | he <;> cases he
  block_lt hg := (grow_eq_ok hg).2.1
  blocks_eq hg := (grow_eq_ok hg).2.2.2.2.blocks
  free_eq {g} hg := by
    obtain ⟨hsuperblock, hfree, hused⟩ := grow_counts h.total_le hg
    have htotal := total_eq_of_superblock hsuperblock
    have hle := g.space.used_le
    have hsum : s.free + s.used = s.total := by
      rw [used, h.total_eq]
      exact h.free_add_used
    omega

theorem releasable (h : Allocated s d) (slot : Slot) : s.Releasable (d.get slot) where
  total_le := h.total_le
  past_lt := h.past_lt slot
  released := by
    obtain ⟨r, hr, -⟩ := h.release slot
    exact ⟨r, hr, (release_counts h.total_le hr).2.1⟩

end Allocated

/-! ## The numbers of operations -/

/-- The numbers that `count` bytes at the position of an open file are found with: the block that they lie in, the
position behind them, and their part of the block. -/
structure OpenFile.Fits (e : Entry) (f : OpenFile) (count : Nat) : Prop where
  block_lt : e.firstBlock.toNat + f.position / blockSize < UInt32.size
  position_lt : f.position + count < UInt32.size
  part_le : f.position % blockSize + count ≤ blockSize

namespace Volume

variable {δ : Type} {v w : Volume δ} {p : Place} {f : OpenFile}

/-- A stretch is in the run of its file, and its numbers are in range. -/
def StretchFits (p : Place) (count : Nat) (v : Volume δ) : Prop :=
  ∀ f, v.handles.fileAt? p = some f →
    f.position / blockSize < (v.directory.get f.slot).blocks.toNat ∧ f.Fits (v.directory.get f.slot) count

/-- The numbers of a piece are in range, and those of the block that the file is given first if it needs one. -/
def PieceFits (p : Place) (bytes : List UInt8) (v : Volume δ) : Prop :=
  ∀ f, v.handles.fileAt? p = some f →
    if (v.directory.get f.slot).blocks.toNat ≤ f.position / blockSize then
      v.space.Growable (v.directory.get f.slot) ∧
        ∀ g, v.space.grow (v.directory.get f.slot) = .ok g → f.Fits g.entry bytes.length
    else f.Fits (v.directory.get f.slot) bytes.length

end Volume

open Volume

/-- Every number that an operation forms is in range: in each turn while bytes are read or written, the buffers of
which are just as long as all turns together; and when the blocks of an entry are taken back. The other operations
form none. -/
def Operation.InRange {δ : Type} [BlockDevice δ] (op : Operation) (v : Volume δ) : Prop :=
  match op with
  | .read hd length => ∀ f, v.handles.file? hd = some f → f.mode = .read →
      let parts := stretches f.position (min length ((v.directory.get f.slot).size.toNat - f.position))
      parts.sum ≤ length ∧ Each (readStretch hd.place) (StretchFits hd.place) parts v
  | .write hd data => ∀ f, v.handles.file? hd = some f → f.mode = .write →
      let parts := pieces f.position data
      parts.flatten = data ∧ Each (writePiece hd.place) (PieceFits hd.place) parts v
  | .delete path => ∀ slot, v.slotOf? path = some slot → v.space.Releasable (v.directory.get slot)
  | _ => True

namespace Volume

variable {δ : Type} [BlockDevice δ] [LawfulDevice δ] {v w : Volume δ} {p : Place} {f : OpenFile}

/-! ## Turns of the loops -/

/-- Bytes in a block of a file have their numbers in range. -/
theorem Sound.fits (h : v.Sound) {slot : Slot} {f : OpenFile} {count : Nat}
    (hlogical : f.position / blockSize < (v.directory.get slot).blocks.toNat)
    (hfit : f.position % blockSize + count ≤ blockSize) : f.Fits (v.directory.get slot) count := by
  have hown := owns_iff.mpr ⟨Nat.le_add_right _ _, Nat.add_lt_add_left hlogical
    (v.directory.get slot).firstBlock.toNat⟩
  refine ⟨Nat.lt_trans (h.allocated.owned_bounds hown).2 (by decide), ?_, hfit⟩
  exact Nat.lt_of_le_of_lt (Sound.end_le_run hown hfit) (h.run_size_lt slot)

/-- The position is at most at the end of the run. -/
theorem Sound.logical_le (h : v.Sound) (hp : v.handles.fileAt? p = some f) :
    f.position / blockSize ≤ (v.directory.get f.slot).blocks.toNat := by
  have hposition := (h.coherent hp).position_le
  have hsize : (v.directory.get f.slot).size.toNat ≤ 512 * (v.directory.get f.slot).blocks.toNat :=
    h.allocated.size_le f.slot
  show f.position / 512 ≤ _
  omega

/-- What is left to read from the file at a place begins at its position, and all of it is there. -/
structure ReadTurn (p : Place) (parts : List Nat) (v : Volume δ) : Prop where
  sound : v.Sound
  file : ∃ f count, v.handles.fileAt? p = some f ∧ f.mode = .read ∧
    f.position + count ≤ (v.directory.get f.slot).size.toNat ∧ parts = stretches f.position count

/-- What is left to write to the file at a place begins at its position. -/
structure WriteTurn (p : Place) (parts : List (List UInt8)) (v : Volume δ) : Prop where
  sound : v.Sound
  file : ∃ f data, v.handles.fileAt? p = some f ∧ f.mode = .write ∧ parts = pieces f.position data

namespace ReadTurn

variable {n : Nat} {rest : List Nat}

/-- The stretch whose turn it is lies in the run. -/
theorem stretch (h : ReadTurn p (n :: rest) v) (hp : v.handles.fileAt? p = some f) :
    f.position / blockSize < (v.directory.get f.slot).blocks.toNat ∧ f.position % blockSize + n ≤ blockSize := by
  obtain ⟨f', count, hp', -, hin, hparts⟩ := h.file
  obtain rfl := Option.some.inj (hp.symm.trans hp')
  obtain ⟨hpos, hfit, hle, -⟩ := stretches_eq_cons hparts.symm
  have hsize : (v.directory.get f.slot).size.toNat ≤ 512 * (v.directory.get f.slot).blocks.toNat :=
    h.sound.allocated.size_le f.slot
  refine ⟨?_, hfit⟩
  show f.position / 512 < _
  omega

/-- After a stretch the next one is in turn. -/
theorem next (h : ReadTurn p (n :: rest) v) :
    (readStretch p n).Ensures v fun r w => ∀ a, r = .ok a → ReadTurn p rest w := by
  obtain ⟨f, count, hp, hmode, hin, hparts⟩ := h.file
  obtain ⟨hpos, hfit, hle, rfl⟩ := stretches_eq_cons hparts.symm
  apply (readStretch_cases h.sound hp hmode hpos (by omega) hfit).mono
  rintro r w ⟨hwalk, ⟨rfl, cache, hp'⟩ | ⟨d, rfl⟩⟩ a ha
  · obtain ⟨hdirectory, -⟩ := hwalk.unnoticed h.sound (by simp [reading, Change.isQuiet]) (by simp [Change.isQuiet])
    refine ⟨hwalk.sound h.sound, _, count - n, hp', hmode, ?_, rfl⟩
    rw [hdirectory]
    show f.position + n + (count - n) ≤ (v.directory.get f.slot).size.toNat
    omega
  · cases ha

end ReadTurn

namespace WriteTurn

variable {bytes : List UInt8} {rest : List (List UInt8)}

/-- The piece whose turn it is fits into the block at the position. -/
theorem piece (h : WriteTurn p (bytes :: rest) v) (hp : v.handles.fileAt? p = some f) :
    f.mode = .write ∧ f.position % blockSize + bytes.length ≤ blockSize := by
  obtain ⟨f', data, hp', hmode, hparts⟩ := h.file
  obtain rfl := Option.some.inj (hp.symm.trans hp')
  exact ⟨hmode, (pieces_eq_cons hparts.symm).2.1⟩

/-- A file that was given a block for the piece has the block that the piece lies in. -/
theorem grown (h : WriteTurn p (bytes :: rest) v) (hp : v.handles.fileAt? p = some f) :
    (growEntry f.slot : VolumeAction δ Unit).Ensures v fun r w => r = .ok () → w.Sound ∧
      w.handles.fileAt? p = some f ∧ f.position / blockSize < (w.directory.get f.slot).blocks.toNat := by
  have hlogical := h.sound.logical_le hp
  apply (growEntry_cases h.sound hp (h.piece hp).1).mono
  rintro r w (⟨rfl, hstep, hhandles, b, he⟩ | ⟨hr | hr, -⟩) ha
  · have hblocks := he.blocks
    exact ⟨hstep.sound h.sound, by rw [hhandles, hp], by omega⟩
  · cases hr.symm.trans ha
  · cases hr.symm.trans ha

/-- After a piece the next one is in turn. -/
theorem next (h : WriteTurn p (bytes :: rest) v) :
    (writePiece p bytes).Ensures v fun r w => ∀ a, r = .ok a → WriteTurn p rest w := by
  obtain ⟨f, data, hp, hmode, hparts⟩ := h.file
  obtain ⟨hne, hfit, data', rfl⟩ := pieces_eq_cons hparts.symm
  apply (writePiece_cases h.sound hp hmode (List.length_pos_iff.mpr hne) hfit).mono
  rintro r w ⟨hwalk, hends⟩ a rfl
  cases hends with
  | done hw =>
    obtain ⟨cache, hp'⟩ := hw.file
    exact ⟨hwalk.sound h.sound, _, data', hp', hmode, rfl⟩

end WriteTurn

namespace Sound

variable {hd : Handle}

/-- The loop that reads is in its first turn. -/
theorem readTurn (h : v.Sound) (hf : v.handles.file? hd = some f) (hmode : f.mode = .read) (length : Nat) :
    ReadTurn hd.place (stretches f.position (min length ((v.directory.get f.slot).size.toNat - f.position))) v := by
  have hp := Pool.fileAt?_of_file? hf
  have hposition := (h.coherent hp).position_le
  exact ⟨h, f, _, hp, hmode, by omega, rfl⟩

/-- The loop that writes is in its first turn. -/
theorem writeTurn (h : v.Sound) (hf : v.handles.file? hd = some f) (hmode : f.mode = .write) (data : List UInt8) :
    WriteTurn hd.place (pieces f.position data) v :=
  ⟨h, f, data, Pool.fileAt?_of_file? hf, hmode, rfl⟩

/-- **The numbers of an operation are in range.** -/
theorem inRange (h : v.Sound) (op : Operation) : op.InRange v := by
  cases op with
  | read hd length =>
    intro f hf hmode
    refine ⟨?_, Each.of_invariant (I := ReadTurn hd.place) ?_ (fun _ _ _ hturn => hturn.next)
      (h.readTurn hf hmode length)⟩
    · rw [sum_stretches]
      exact Nat.min_le_left _ _
    · intro n rest w hturn g hp
      obtain ⟨hlogical, hfit⟩ := hturn.stretch hp
      exact ⟨hlogical, hturn.sound.fits hlogical hfit⟩
  | write hd data =>
    intro f hf hmode
    refine ⟨flatten_pieces f.position data, Each.of_invariant (I := WriteTurn hd.place) ?_
      (fun _ _ _ hturn => hturn.next) (h.writeTurn hf hmode data)⟩
    intro bytes rest w hturn g hp
    have hfit := (hturn.piece hp).2
    split
    · refine ⟨hturn.sound.allocated.growable g.slot, fun grant hg => ?_⟩
      have hgrown := hturn.grown hp
      unfold growEntry at hgrown
      simp only [ensures_bind, ensures_get, hg, ensures_modify] at hgrown
      obtain ⟨hsound, -, hlogical⟩ := hgrown trivial
      have hget : (w.directory.set g.slot grant.entry).get g.slot = grant.entry := by rw [Directory.get_set, if_pos rfl]
      have hfits : g.Fits ((w.directory.set g.slot grant.entry).get g.slot) bytes.length :=
        hsound.fits hlogical hfit
      rwa [hget] at hfits
    · exact hturn.sound.fits (Nat.lt_of_not_le ‹_›) hfit
  | delete path => exact fun slot _ => h.allocated.releasable slot
  | _ => exact trivial

end Sound

end Volume

/-! ## Requests -/

/-- A request that is about no block but data blocks of the volume. -/
def Request.InData (q : Request) : Prop := ∀ b, q.block? = some b → firstDataBlock ≤ b ∧ b < volumeBlocks

namespace Volume

variable {δ : Type} [BlockDevice δ] [LawfulDevice δ] {v w : Volume (Metered δ)} {p : Place} {f : OpenFile}

namespace Sound

/-- The blocks of a file are data blocks. -/
theorem inData (h : v.Sound) {slot : Slot} {b : Nat} (hown : owns (v.directory.get slot) b = true) {q : Request}
    (hq : q = .read b ∨ q = .write b) : q.InData := by
  have hbounds := h.allocated.owned_bounds hown
  rcases hq with rfl | rfl <;> rintro b' hb' <;> obtain rfl := Option.some.inj hb' <;> exact hbounds

/-- What a cache has to write back is a data block. -/
theorem returns (h : v.Sound) (hp : v.handles.fileAt? p = some f) (q : Request) (hq : f.cache.Returns q) :
    q.InData := by
  obtain ⟨b, hb, rfl⟩ := hq
  exact h.inData ((h.coherent hp).owned_of_pending hb) (Or.inr rfl)

/-- So is what a cache is to hold. -/
theorem loads (h : v.Sound) {slot : Slot} {logical : Nat} (hlogical : logical < (v.directory.get slot).blocks.toNat)
    (b : Nat) (hb : blockOf (v.directory.get slot) logical = .ok b) : Request.InData (.read b) := by
  unfold blockOf at hb
  dsimp only at hb
  split at hb
  · obtain rfl := Except.ok.inj hb
    exact h.inData (owns_iff.mpr ⟨Nat.le_add_right _ _, Nat.add_lt_add_left hlogical _⟩) (Or.inl rfl)
  · cases hb

/-- **The caches ask for data blocks of the volume.** -/
theorem cacheAsks (h : v.Sound) (op : Operation) : op.CacheAsks (fun _ _ => Request.InData) v := by
  cases op with
  | read hd length =>
    intro f hf hmode
    refine Each.of_invariant (I := ReadTurn hd.place) ?_ (fun _ _ _ hturn => hturn.next) (h.readTurn hf hmode length)
    exact fun n rest w hturn g hp => readStretch_asks hp fun b hlogical hb => hturn.sound.loads hlogical b hb
  | write hd data =>
    intro f hf hmode
    refine Each.of_invariant (I := WriteTurn hd.place) ?_ (fun _ _ _ hturn => hturn.next) (h.writeTurn hf hmode data)
    intro bytes rest w hturn g hp
    split
    · apply (hturn.grown hp).mono
      intro r u hgrown hr
      obtain ⟨hsound, hp', hlogical⟩ := hgrown hr
      exact fillPiece_asks hp' (hsound.returns hp') (hsound.loads hlogical)
    · exact fillPiece_asks hp (hturn.sound.returns hp) (hturn.sound.loads (Nat.lt_of_not_le ‹_›))
  | close hd =>
    intro f handles hr
    exact writeBack_asks (h.returns (Pool.fileAt?_of_file? (Pool.release?_eq_some hr).1))
  | unmount =>
    refine Each.of_invariant (I := fun _ w => w.Sound) (fun q _ w hw g hq => ?_) (fun q _ w hw => ?_) h
    · refine writeBackAt_asks fun g' hq' => ?_
      exact hw.returns hq'
    · cases hq : w.handles.fileAt? q with
      | none =>
        unfold writeBackAt
        simp only [ensures_bind, ensures_get, hq, ensures_pure]
        exact fun _ _ => hw
      | some g => exact (writeBackAt_cases hw hq).mono fun _ _ hr _ _ => hr.1.sound hw
  | _ => exact trivial

/-- The description and the data blocks are on the device. -/
theorem request_lt (h : v.Sound) {q : Request} (hq : q.Describes ∨ q.InData) {b : Nat} (hb : q.block? = some b) :
    b < deviceSize v.device := by
  refine Nat.lt_of_lt_of_le ?_ h.size_le
  rcases hq with hq | hq
  · exact Nat.lt_trans (hq b hb) (by decide)
  · exact (hq b hb).2

/-- Nothing else is asked. -/
theorem asks (h : v.Sound) {op : Operation} (hop : op ≠ .mount) :
    Asks (fun q => q.Describes ∨ q.InData) (op.perform : VolumeAction (Metered δ) Unit) v :=
  Operation.asks hop h.size_le (Operation.CacheAsks.mono (fun _ _ _ => Or.inr) (h.cacheAsks op)) fun _ => Or.inl

end Sound

end Volume

/-! ## All operations -/

/-- What an operation keeps to. It finds no damage. Its caches ask for data blocks of the volume, the description is
stored below them, and so nothing that it asks is past the end of the device. Positions stay within their files and
files within their runs, every block of the volume has a bit, and all numbers are in range. -/
structure Operation.Bounded {δ : Type} [BlockDevice δ] (op : Operation) (v : Volume (Metered δ)) : Prop where
  noDamage : NoDamage (op.perform v).result
  caches : op.CacheAsks (fun _ _ => Request.InData) v
  description (w : Volume (Metered δ)) : Asks Request.Describes (storeMetadata : VolumeAction (Metered δ) Unit) w
  asks : Asks (fun q => q.Describes ∨ q.InData) (op.perform : VolumeAction (Metered δ) Unit) v
  answers {q : Request} {m : Metered δ} : v.device.Honest → q.Describes ∨ q.InData →
    BlockDevice.info m = BlockDevice.info v.device → ¬m.Fails .outOfRange q
  result : v.device.Honest → (op.perform v).result ≠ .error (.io .outOfRange)
  position_le {p : Place} {f : OpenFile} : v.handles.fileAt? p = some f →
    f.position ≤ (v.directory.get f.slot).size.toNat
  size_le (slot : Slot) : (v.directory.get slot).size.toNat ≤ blockSize * (v.directory.get slot).blocks.toNat
  total_le : v.space.total ≤ bitmapCapacity
  inRange : op.InRange v

namespace Volume

section

variable {δ : Type} [BlockDevice δ] [LawfulDevice δ] {u v : Volume (Metered δ)}

theorem bounded_of_sound (h : v.Sound) {op : Operation} (hop : op ≠ .mount) : op.Bounded v where
  noDamage := h.noDamage hop
  caches := h.cacheAsks op
  description _ := storeMetadata_asks fun _ => id
  asks := h.asks hop
  answers hd hq := hd.not_fails fun _ => h.request_lt hq
  result hd he := by
    have hjournal : Metered.Journal _ v.device (deviceError? (op.perform v).result) (op.perform v).state.device :=
      h.asks hop
    exact hjournal.ne_outOfRange hd (fun _ hq _ => h.request_lt hq) (by rw [he]; rfl)
  position_le hp := (h.coherent hp).position_le
  size_le := h.allocated.size_le
  total_le := h.allocated.total_le
  inRange := h.inRange op

/-- **No operation on a well-formed volume leaves a range**, however often the device has failed before, and
whichever of its own requests fails. -/
theorem Begun.bounded (h : Begun u) {ops : List Operation} (hops : .mount ∉ ops) {op : Operation} (hop : op ≠ .mount) :
    op.Bounded (run ops u) :=
  bounded_of_sound (Reached.sound ⟨u, ops, h, orderly_of_not_mem hops, rfl⟩) hop

end

/-- Bytes are written to a file that was created. -/
theorem bounded_write_of_created :
    let u := formatted (Metered.ofDevice (MemoryDisk.blank 1024))
    ∃ hd f, (run [.openPath "/a" .write] u).handles.file? hd = some f ∧ f.mode = .write ∧
      (Operation.write hd [0x58]).Bounded (run [.openPath "/a" .write] u) ∧
      (run [.openPath "/a" .write] u).device.Honest := by
  have hr : Reliable (Metered.ofDevice (MemoryDisk.blank 1024)) :=
    Metered.reliable_of_unlimited rfl (MemoryDisk.reliable_of_writable rfl)
  have hn : volumeBlocks ≤ deviceSize (Metered.ofDevice (MemoryDisk.blank 1024)) :=
    Nat.le_of_eq (MemoryDisk.deviceSize_blank 1024).symm
  have hp : Path.ofString? "/a" = some ⟨"/a", by decide, by decide⟩ := by decide
  obtain ⟨-, -, hd, slot, hf⟩ := reached_with_file hn hr hp (by decide) (by decide)
  obtain ⟨hbegun, -⟩ := begun_of_reliable hn hr
  exact ⟨hd, _, hf, rfl, hbegun.bounded (by decide) (by simp), Metered.honest_memoryDisk _⟩

end Volume

end BlockVolume
