import BlockVolume.Proofs.Device.RunDry
import BlockVolume.Proofs.Volume.Append
import BlockVolume.Proofs.Volume.Ledger
import BlockVolume.Proofs.Volume.Mountable
import BlockVolume.Proofs.Volume.Refusal

/-!
# `Proofs.Volume.Stale` — what is read was accepted, unless it is lost

A file is written, and the device refuses the cache when its handle is closed. The file has its size and its
block all the same, and what is read from it then is what the block held before the volume was formatted. This
is the one way to read what was not written.

## Contents
- `storeMetadata_allows`, `begun_of_allows`, `openPath_allows`: a device that serves just so many writes.
- `write_unsaved`, `close_refused`, `openPath_shut`, `read_stored`: what becomes of a new file on it.
- **`stale_of_allows`**: the bytes of the file are lost.
- **`Begun.bytes_read`**, with the run in which a byte is lost.
-/

namespace BlockVolume.Volume

open BlockVolume.Action Space Metered

variable {δ : Type} [BlockDevice δ] [LawfulDevice δ] {u v w : Volume (Metered δ)} {n : Nat}

/-! ## Storing -/

omit [LawfulDevice δ] in
theorem writeBlocks_allows {l : List (Nat × Block)} {m : Metered δ} (h : m.Allows (n + l.length))
    (hl : ∀ p ∈ l, p.1 < deviceSize m) [LawfulDevice δ] :
    (writeBlocks l).Ensures m fun r m' => r = .ok () ∧ m'.Allows n := by
  induction l generalizing m with
  | nil => exact ⟨rfl, h⟩
  | cons p rest ih =>
    unfold writeBlocks
    have hlength : n + (p :: rest).length = n + rest.length + 1 := by
      rw [List.length_cons, Nat.add_assoc]
    rw [hlength] at h
    have hinfo := (LawfulDevice.write_ensures p.1 p.2 m).mono fun _ _ hr => hr.1
    rw [ensures_bind]
    apply ((h.write p.2 (hl p List.mem_cons_self)).and hinfo).mono
    rintro r m' ⟨⟨rfl, hm'⟩, hinfo⟩
    refine ih hm' fun q hq => ?_
    rw [deviceSize_congr hinfo]
    exact hl q (List.mem_cons_of_mem _ hq)

/-- Storing takes a write for each block that describes the volume. -/
theorem storeMetadata_allows (h : v.device.Allows (n + firstDataBlock)) (hn : firstDataBlock ≤ deviceSize v.device) :
    (storeMetadata : VolumeAction (Metered δ) Unit).Ensures v fun r w =>
      r = .ok () ∧ Step .store v w ∧ w.device.Allows n := by
  have hlength : v.metadataBlocks.length = firstDataBlock := by
    rw [← List.length_map (f := Prod.fst), map_fst_metadataBlocks, List.length_range]
  have hserved : (storeMetadata : VolumeAction (Metered δ) Unit).Ensures v fun r w =>
      r = .ok () ∧ w.device.Allows n := by
    unfold storeMetadata
    rw [ensures_bind, ensures_get]
    show (onDevice (reporting metadataFailed
      (writeBlocks v.metadataBlocks >>= fun _ => BlockDevice.flush))).Ensures v _
    rw [ensures_onDevice, ensures_reporting, ensures_bind]
    rw [← hlength] at h
    apply (writeBlocks_allows h fun p hp => Nat.lt_of_lt_of_le (v.metadataBlocks_lt p hp) hn).mono
    rintro r m ⟨rfl, hm⟩
    apply hm.flush.mono
    rintro r m' ⟨rfl, hm'⟩
    exact ⟨rfl, hm'⟩
  apply (hserved.and (storeMetadata_cases hn)).mono
  rintro r w ⟨⟨rfl, hw⟩, ⟨-, hs⟩ | ⟨hio, -⟩⟩
  · exact ⟨rfl, hs, hw⟩
  · exact absurd hio (not_isIo_ok _)

/-- Formatting stores once, and mounting what was formatted only reads. -/
theorem begun_of_allows {d : Metered δ} (hn : volumeBlocks ≤ deviceSize d) (h : d.Allows (n + firstDataBlock)) :
    Begun (formatted d) ∧ (formatted d).device.Allows n ∧
      ∀ b, firstDataBlock ≤ b → content (formatted d).device b = content d b := by
  have hformat : (format : VolumeAction (Metered δ) Unit).Ensures (ofDevice d) fun r w =>
      r = .ok () ∧ Step .store (ofDevice d).cleared w ∧ w.device.Allows n := by
    unfold format
    have hn' : ¬(BlockDevice.info (ofDevice d).device).totalBlocks < volumeBlocks := Nat.not_lt.mpr hn
    simp only [ensures_bind, ensures_get, if_neg hn', ensures_note, ensures_modify]
    apply (storeMetadata_allows (v := (ofDevice d).cleared) h (firstDataBlock_le hn)).mono
    rintro r w ⟨rfl, hw⟩
    exact ⟨trivial, hw⟩
  obtain ⟨hok, hs, hallows⟩ := hformat
  have hp := hs.persisted_of_store
  have hsize := (hs.sound (sound_cleared hn)).size_le
  have hdata : ∀ b, firstDataBlock ≤ b → content (format (ofDevice d)).state.device b = content d b := by
    generalize (format (ofDevice d)).state = w at hs
    cases hs with
    | store _ _ hdata => exact hdata
  obtain ⟨hspace, hdirectory⟩ := hp.read
  have hvalid : (Space.read (content (format (ofDevice d)).state.device)).superblock.validate
      (deviceSize (format (ofDevice d)).state.device) = .ok () := by
    rw [hspace]
    exact Allocated.fresh.validate hsize
  have hnames : (Directory.read (content (format (ofDevice d)).state.device)).migrationCount = 0 := by
    rw [hdirectory]
    exact Directory.migrationCount_empty
  have hin (i : Nat) (hi : i ∈ List.range firstDataBlock) : i < deviceSize (format (ofDevice d)).state.device :=
    Nat.lt_of_lt_of_le (List.mem_range.mp hi) (firstDataBlock_le hsize)
  obtain ⟨hserved, hallows'⟩ := hallows.servesReads hin
  obtain ⟨hmount, hw⟩ := mount_reads hvalid hnames hserved
  refine ⟨.formatted hok hmount, ?_, fun b hb => ?_⟩ <;> unfold formatted <;> rw [hw]
  · exact hallows'
  · rw [(content_readOut _ _).1]
    exact hdata b hb

/-! ## A new file -/

/-- A mounted volume with one entry and one open file, which the handle stands for. -/
structure Alone (v : Volume δ) (hd : Handle) (f : OpenFile) (e : Entry) : Prop where
  mounted : v.mounted = true
  file : v.handles.file? hd = some f
  others (p : Place) : p ≠ hd.place → v.handles.fileAt? p = none
  directory : v.directory = Directory.empty.set firstSlot e

/-- A volume with a new file that is open for writing, and the handle to it. -/
structure NewFile (v : Volume (Metered δ)) (hd : Handle) (n : Nat) : Prop where
  alone : v.Alone hd (OpenFile.start firstSlot .write) (Entry.ofName "/a" .file)
  sound : v.Sound
  space : v.space = Space.fresh
  allows : v.device.Allows n

/-- Creating a file takes as many writes as storing. -/
theorem openPath_allows (h : Begun u) (ha : u.device.Allows (n + firstDataBlock)) :
    (openPath "/a" .write).Ensures u fun r w => ∃ hd, r = .ok hd ∧ NewFile w hd n ∧
      ∀ b, firstDataBlock ≤ b → content w.device b = content u.device b := by
  have hp : Path.ofString? "/a" = some ⟨"/a", by decide, by decide⟩ := by decide
  generalize hpath : (⟨"/a", by decide, by decide⟩ : Path) = p at hp
  have hroot : p.isRoot = false := by rw [← hpath]; decide
  have hfind : u.directory.find? p.text = none := by rw [h.directory, Directory.find?_empty]
  have hfree : u.directory.freeSlot? = some firstSlot := by rw [h.directory]; exact Directory.freeSlot?_empty
  have hparent : u.ensureParent p = .ok () := ensureParent_eq_ok (by rw [← hpath]; decide)
  have hfull : u.handles.isFull = false := Pool.isFull_eq_false (h.fileAt? 0)
  have hcreate : (createEntry p .file).Ensures u fun r w => r = .ok firstSlot ∧
      Step .store (u.withEntry firstSlot p .file) w ∧ w.device.Allows n := by
    unfold createEntry
    simp only [ensures_bind (x := get), ensures_get, hroot, hfind, Bool.false_eq_true, if_false,
      Option.isSome_none, ensures_bind (x := liftM _), ensures_liftM, hparent, Directory.insert?, hfree,
      Option.map_some, ensures_bind (x := modify _), ensures_modify, ensures_bind (x := storeMetadata), ensures_pure]
    apply (storeMetadata_allows (v := u.withEntry firstSlot p .file) ha h.sound.firstDataBlock_le).mono
    rintro r w ⟨rfl, hw⟩
    exact ⟨trivial, hw⟩
  have hinsert : Step (.insert p) u (u.withEntry firstSlot p .file) := .insert hroot (by decide) hfind hparent hfree
  unfold openPath
  refine ensures_whenMounted.mpr ⟨fun _ => ?_, fun hno => by cases hno.symm.trans h.mounted⟩
  simp only [hfull, Bool.false_eq_true, if_false, ensures_bind (x := liftM _), ensures_liftM, resolve, hp,
    hroot, hfind]
  show (createEntry p .file >>= fun slot => acquireFile p.text slot .write).Ensures u _
  rw [ensures_bind]
  apply hcreate.mono
  rintro r w ⟨rfl, hs, hallows⟩
  have hsound := hs.sound (hinsert.sound h.sound)
  cases hs with
  | @store _ d _ _ hdata =>
    have hopened := openCreated_ok (p := p) (d := d) h.sound.guarded hfull hfree
    apply (hopened.and (acquireFile_cases (v := { u.withEntry firstSlot p .file with device := d }) h.mounted
      p.text firstSlot .write)).mono
    rintro r w ⟨⟨hd, rfl⟩, ⟨hd', handles, hr, rfl, ha', hacquire⟩ | ⟨⟨e, -, hr, -⟩, -⟩⟩
    · obtain rfl := Except.ok.inj hr
      refine ⟨hd, rfl, ⟨⟨h.mounted, Pool.file?_of_acquire? ha', fun q hq => ?_, ?_⟩, hacquire.sound hsound, h.space,
        hallows⟩, hdata⟩
      · rw [(Pool.acquire?_places ha' q).1, if_neg hq]
        exact h.fileAt? q
      · show u.directory.set firstSlot (Entry.ofName p.text .file) = _
        rw [h.directory, ← hpath]
    · cases hr

/-- So a device that takes the writes of formatting it and of creating a file comes to have a new file, takes no more
then, and holds what it held in the data blocks. -/
theorem newFile_of_allows {d : Metered δ} (hn : volumeBlocks ≤ deviceSize d)
    (ha : d.Allows (firstDataBlock + firstDataBlock)) : Begun (formatted d) ∧ ∃ hd,
      (openPath "/a" .write (formatted d)).result = .ok hd ∧
      NewFile (run [.openPath "/a" .write] (formatted d)) hd 0 ∧
      ∀ b, firstDataBlock ≤ b → content (run [.openPath "/a" .write] (formatted d)).device b = content d b := by
  obtain ⟨hbegun, hallows, hdata⟩ := begun_of_allows hn ha
  rw [← Nat.zero_add firstDataBlock] at hallows
  obtain ⟨hd, hopened, hnew, hdata'⟩ := openPath_allows hbegun hallows
  rw [← Operation.after_openPath] at hnew hdata'
  exact ⟨hbegun, hd, hopened, hnew, fun b hb => (hdata' b hb).trans (hdata b hb)⟩

/-! ## Writing to it -/

/-- The entry of the file when it has `n` bytes in its first block. -/
def newEntry (n : Nat) : Entry :=
  { Entry.ofName "/a" .file with firstBlock := UInt32.ofNat firstDataBlock, blocks := 1, size := UInt32.ofNat n }

theorem putEntry_newEntry (n : Nat) : putEntry (newEntry 0) n = newEntry n := by
  have hsize : (newEntry 0).size.toNat = 0 := rfl
  rw [putEntry, hsize, Nat.zero_max]
  rfl

/-- The open file when its first bytes are in the cache of its handle. -/
def unsavedFile (data : List UInt8) : OpenFile :=
  ⟨firstSlot, .write, data.length, ⟨some firstDataBlock, true, Block.zero.overlay 0 data⟩⟩

namespace Alone

variable {v w : Volume δ} {hd : Handle} {f : OpenFile} {e : Entry}

omit [BlockDevice δ] [LawfulDevice δ]

theorem entry (h : v.Alone hd f e) : v.directory.get firstSlot = e := by
  rw [h.directory, Directory.get_set, if_pos rfl]

/-- Another entry takes the place of the one. -/
theorem set (h : v.Alone hd f e) (e' : Entry) :
    v.directory.set firstSlot e' = Directory.empty.set firstSlot e' := by
  rw [h.directory, Directory.set_set]

theorem with_entry (h : v.Alone hd f e) (e' : Entry) (s : Space) :
    Alone { v with space := s, directory := v.directory.set firstSlot e' } hd f e' :=
  ⟨h.mounted, h.file, h.others, h.set e'⟩

/-- The file and its entry change, and nothing else is there. -/
theorem edit (h : v.Alone hd f e) {g : OpenFile → OpenFile} {f' : OpenFile} {e' : Entry}
    (hm : w.mounted = v.mounted) (hh : w.handles = v.handles.modifyFile hd.place g) (hg : g f = f')
    (hd' : w.directory = Directory.empty.set firstSlot e') : w.Alone hd f' e' where
  mounted := hm.trans h.mounted
  file := by rw [hh, Pool.file?_modifyFile, if_pos rfl, h.file, Option.map_some, hg]
  others p hp := by rw [hh, Pool.fileAt?_modifyFile, if_neg hp, h.others p hp]
  directory := hd'

end Alone

/-- Bytes that fit into the first block of a new file are taken without a request to the device. -/
theorem write_unsaved {hd : Handle} {data : List UInt8} (h : NewFile v hd n) (hne : data ≠ [])
    (hlen : data.length ≤ blockSize) : (write hd data).Ensures v fun r w =>
      r = .ok data.length ∧ w.device = v.device ∧ w.space = Space.fresh.take firstDataBlock ∧
        w.Alone hd (unsavedFile data) (newEntry data.length) := by
  have hend : 0 + data.length = data.length := Nat.zero_add _
  have hempty := h.alone.entry
  have hwrite := write_first h.alone.mounted h.alone.file h.space (by rw [hempty]; rfl) hne hlen
  rw [hempty] at hwrite
  apply hwrite.mono
  rintro r w ⟨rfl, rfl⟩
  generalize Space.fresh.take firstDataBlock = space
  have hgrown := h.alone.with_entry (newEntry 0) space
  have hfile : putFile (OpenFile.start firstSlot .write) firstDataBlock Block.zero data = unsavedFile data := by
    show (⟨_, _, 0 + data.length, _⟩ : OpenFile) = _
    rw [hend]
    rfl
  refine ⟨rfl, rfl, rfl, hgrown.edit rfl rfl hfile ?_⟩
  show ((v.directory.set firstSlot (newEntry 0)).set firstSlot (putEntry ((v.directory.set firstSlot (newEntry 0)).get
    firstSlot) (0 + data.length))) = _
  rw [Directory.get_set, if_pos rfl, hend, putEntry_newEntry]
  exact hgrown.set _

/-- On a device that takes no more writes no dirty cache is written back. -/
theorem writeBackAt_refused {p : Place} {f : OpenFile} {b : Nat} (hp : v.handles.fileAt? p = some f)
    (hpending : f.cache.pending? = some b) (ha : v.device.Allows 0) :
    (writeBackAt p).Ensures v fun r w => r = .error (.io .ioError) ∧ w.device.Allows 0 := by
  rw [ensures_writeBackAt hp]
  unfold Cache.writeBack
  simp only [hpending, ensures_bind, ensures_onDevice, ensures_reporting]
  apply (ha.write_refused _ _).mono
  rintro r d ⟨rfl, hd, -, -⟩
  exact ⟨rfl, hd⟩

/-- So a new block does not take its place. -/
theorem targetBlock_refused {p : Place} {f : OpenFile} {b b' : Nat} {whole : Bool}
    (hp : v.handles.fileAt? p = some f) (hpending : f.cache.pending? = some b') (ha : v.device.Allows 0) :
    (targetBlock p b true whole).Ensures v fun r w => r = .error (.io .ioError) ∧ w.device.Allows 0 := by
  unfold targetBlock
  simp only [ensures_bind (x := get), ensures_get, ensures_bind (x := liftM _), ensures_liftM, fileAt_eq_ok hp,
    Bool.true_or, if_true]
  rw [ensures_bind]
  apply (writeBackAt_refused hp hpending ha).mono
  rintro r w ⟨rfl, hw⟩
  exact ⟨rfl, hw⟩

/-- And a piece that begins the block is not written, although the file has the block then. -/
theorem writePiece_refused {p : Place} {f : OpenFile} {g : Space.Grant} {b b' : Nat} {bytes : List UInt8}
    (hp : v.handles.fileAt? p = some f) (hpending : f.cache.pending? = some b')
    (hlack : (v.directory.get f.slot).blocks.toNat ≤ f.position / blockSize)
    (hg : v.space.grow (v.directory.get f.slot) = .ok g) (hb : blockOf g.entry (f.position / blockSize) = .ok b)
    (ha : v.device.Allows 0) : (writePiece p bytes).Ensures v fun r w => IsIo r ∧ w.device.Allows 0 := by
  have hget : (v.directory.set f.slot g.entry).get f.slot = g.entry := by rw [Directory.get_set, if_pos rfl]
  rw [ensures_writePiece hp, if_pos hlack, ensures_bind, ensures_growEntry, hg]
  unfold fillPiece
  simp only [ensures_bind (x := get), ensures_get, hget, hb, ensures_bind (x := liftM _), ensures_liftM]
  rw [ensures_bind]
  apply (targetBlock_refused (v := { v with space := g.space, directory := v.directory.set f.slot g.entry }) hp hpending
    ha).mono
  rintro r w ⟨rfl, hw⟩
  exact ⟨isIo_io _, hw⟩

/-! ## Losing the bytes -/

/-- A mounted volume with one entry and no open file. -/
structure Shut (v : Volume δ) (e : Entry) : Prop where
  mounted : v.mounted = true
  files (p : Place) : v.handles.fileAt? p = none
  directory : v.directory = Directory.empty.set firstSlot e

/-- A device that takes no more writes takes no description either. -/
theorem storeMetadata_refused (h : v.device.Allows 0) :
    (storeMetadata : VolumeAction (Metered δ) Unit).Ensures v fun r w => r = .error (.io .ioError) ∧
      ∃ d, w = { v with device := d } ∧ content d = content v.device ∧ d.Allows 0 ∧
        deviceSize d = deviceSize v.device := by
  unfold storeMetadata metadataBlocks writeBlocks
  simp only [ensures_bind, ensures_get, ensures_onDevice, ensures_reporting]
  apply (h.write_refused _ _).mono
  rintro r d ⟨rfl, hd, hcontent, hsize⟩
  exact ⟨rfl, d, rfl, hcontent, hd, hsize⟩

theorem flush_refused (hm : v.mounted = true) (h : v.device.Allows 0) :
    (flush : VolumeAction (Metered δ) Unit).Ensures v fun r w => r = .error (.io .ioError) ∧
      ∃ d, w = { v with device := d } ∧ content d = content v.device ∧ d.Allows 0 ∧
        deviceSize d = deviceSize v.device := by
  unfold flush
  exact ensures_whenMounted.mpr ⟨fun _ => storeMetadata_refused h, fun hno => by cases hno.symm.trans hm⟩

/-- The handle is closed, and what was in its cache is nowhere any more. -/
theorem close_refused {hd : Handle} {data : List UInt8} {e : Entry} (h : v.Alone hd (unsavedFile data) e)
    (ha : v.device.Allows 0) : (close hd : VolumeAction (Metered δ) Unit).Ensures v fun _ w =>
      w.Shut e ∧ content w.device = content v.device ∧ w.device.Allows 0 ∧
        deviceSize w.device = deviceSize v.device := by
  have hr := Pool.release?_of_file? h.file
  generalize v.handles.setPlace hd.place (Pool.emptied (v.handles.atPlace hd.place)) = handles at hr
  have hmode : (unsavedFile data).mode = .write := rfl
  have hpending : (unsavedFile data).cache.pending? = some firstDataBlock := rfl
  have hshut (d : Metered δ) : Shut { v with device := d, handles := handles } e := by
    refine ⟨h.mounted, fun p => ?_, h.directory⟩
    rw [(Pool.release?_places hr p).1]
    by_cases hp : p = hd.place
    · rw [if_pos hp]
    · rw [if_neg hp, h.others p hp]
  unfold close
  refine ensures_whenMounted.mpr ⟨fun _ => ?_, fun hno => by cases hno.symm.trans h.mounted⟩
  simp only [hr, ensures_bind, ensures_modify, ensures_attempt, ensures_liftM, if_pos hmode, ensures_onDevice,
    Cache.writeBack, hpending, ensures_reporting, ensures_pure]
  apply (ha.write_refused _ _).mono
  rintro r d ⟨rfl, hd, hcontent, hsize⟩
  apply (flush_refused (v := { v with device := d, handles := handles }) h.mounted hd).mono
  rintro r w ⟨-, d', rfl, hcontent', hd', hsize'⟩
  exact ⟨hshut d', hcontent'.trans hcontent, hd', hsize'.trans hsize⟩

theorem find?_newEntry (n : Nat) : (Directory.empty.set firstSlot (newEntry n)).find? "/a" = some firstSlot := by
  apply Directory.find?_set (Directory.find?_empty _)
  show Directory.answers (Entry.ofName "/a" .file) "/a" = true
  decide +kernel

omit [LawfulDevice δ] in
/-- The file is there still and can be opened. -/
theorem openPath_shut {count : Nat} (h : v.Shut (newEntry count)) :
    (openPath "/a" .read).Ensures v fun r w => ∃ g, r = .ok g ∧ w.device = v.device ∧
      w.Alone g (OpenFile.start firstSlot .read) (newEntry count) := by
  have hp : Path.ofString? "/a" = some ⟨"/a", by decide, by decide⟩ := by decide
  have hfull : v.handles.isFull = false := Pool.isFull_eq_false (h.files 0)
  have hfind : v.directory.find? "/a" = some firstSlot := by rw [h.directory, find?_newEntry]
  have hfile : (v.directory.get firstSlot).isFile = true := by
    rw [h.directory, Directory.get_set, if_pos rfl]
    rfl
  have hconf : v.handles.conflicts firstSlot .read = false := by
    apply Pool.conflicts_eq_false.mpr
    intro p f hf
    cases (h.files p).symm.trans hf
  apply (openPath_found h.mounted hfull hp (by decide) hfind hfile hconf).mono
  rintro r w ⟨g, handles, rfl, ha, rfl⟩
  refine ⟨g, rfl, rfl, h.mounted, Pool.file?_of_acquire? ha, fun p hp => ?_, h.directory⟩
  rw [(Pool.acquire?_places ha p).1, if_neg hp, h.files p]

/-- A range in one block is read in one go. -/
theorem stretches_zero {count : Nat} (hcount : 0 < count) (hle : count ≤ blockSize) : stretches 0 count = [count] := by
  have hroom : min (roomInBlock 0) count = count := Nat.min_eq_right hle
  rw [stretches, if_neg (Nat.ne_of_gt hcount)]
  simp only [hroom, Nat.sub_self]
  rw [stretches, if_pos rfl]

/-- A block of the device fills a cache that holds none. -/
theorem loadBlock_stored {p : Place} {f : OpenFile} {b : Nat} (hp : v.handles.fileAt? p = some f)
    (hnone : f.cache.block = none) (ha : v.device.Allows n) (hb : b < deviceSize v.device) :
    (loadBlock p b).Ensures v fun r w => r = .ok () ∧
      w.handles.fileAt? p = some { f with cache := ⟨some b, false, content v.device b⟩ } := by
  have hne : f.cache.block ≠ some b := by rw [hnone]; simp
  have hp' := fileAt?_editFile (g := fun f' => { f' with cache := { f.cache with block := none } }) hp
  unfold loadBlock
  simp only [ensures_bind, ensures_get, ensures_liftM, fileAt_eq_ok hp, if_neg hne, ensures_setCache, ensures_onDevice]
  apply (ha.read hb).mono
  rintro r d ⟨rfl, -⟩
  exact ⟨trivial, (fileAt?_editFile hp' :)⟩

/-- What is read is what the device holds. -/
theorem readStretch_stored {p : Place} {count : Nat} (hp : v.handles.fileAt? p = some (OpenFile.start firstSlot .read))
    (hentry : v.directory.get firstSlot = newEntry count) (ha : v.device.Allows n)
    (hb : firstDataBlock < deviceSize v.device) : (readStretch p count).Ensures v fun r _ =>
      r = .ok ((content v.device firstDataBlock).slice 0 count) := by
  have hlogical : ¬(v.directory.get (OpenFile.start firstSlot .read).slot).blocks.toNat ≤
      (OpenFile.start firstSlot .read).position / blockSize := by
    show ¬(v.directory.get firstSlot).blocks.toNat ≤ _
    rw [hentry]
    show ¬(1 : UInt32).toNat ≤ 0
    decide
  have hblock : blockOf (v.directory.get (OpenFile.start firstSlot .read).slot)
      ((OpenFile.start firstSlot .read).position / blockSize) = .ok firstDataBlock := by
    show blockOf (v.directory.get firstSlot) _ = _
    rw [hentry]
    exact blockOf_first rfl
  unfold readStretch
  simp only [ensures_bind, ensures_get, ensures_liftM, fileAt_eq_ok hp, if_neg hlogical, hblock]
  apply (loadBlock_stored hp rfl ha hb).mono
  rintro r w ⟨rfl, hp'⟩
  simp only [fileAt_eq_ok hp', ensures_modify, ensures_pure]
  rfl

/-- What is read of the file is what the device holds. -/
theorem read_stored {g : Handle} {count : Nat} (h : v.Alone g (OpenFile.start firstSlot .read) (newEntry count))
    (hcount : 0 < count) (hle : count ≤ blockSize) (ha : v.device.Allows n)
    (hb : firstDataBlock < deviceSize v.device) :
    (read g count).Ensures v fun r _ => r = .ok ((content v.device firstDataBlock).slice 0 count) := by
  have hopen : v.openFile g = .ok (OpenFile.start firstSlot .read) := by simp only [openFile, h.file]
  have hmode : (OpenFile.start firstSlot .read).mode = .read := rfl
  unfold read
  refine ensures_whenMounted.mpr ⟨fun _ => ?_, fun hno => by cases hno.symm.trans h.mounted⟩
  simp only [ensures_bind (x := liftM _), ensures_liftM, hopen, if_pos hmode]
  show (readStretches g.place (stretches 0 (min count ((v.directory.get firstSlot).size.toNat - 0)))).Ensures v _
  have hremaining : min count ((v.directory.get firstSlot).size.toNat - 0) = count := by
    rw [h.entry]
    show min count (UInt32.ofNat count).toNat = count
    rw [UInt32.toNat_ofNat_of_lt' (Nat.lt_of_le_of_lt hle (by decide)), Nat.min_self]
  rw [hremaining, stretches_zero hcount hle]
  unfold readStretches readStretches
  simp only [ensures_bind, ensures_pure]
  apply (readStretch_stored (Pool.fileAt?_of_file? h.file) h.entry ha hb).mono
  rintro r w rfl
  simp

/-- The operations that lose the bytes of a file, and open it again. -/
def losing (hd : Handle) (data : List UInt8) : List Operation :=
  [.openPath "/a" .write, .write hd data, .close hd, .openPath "/a" .read]

/-- All the bytes were accepted, at the offsets at which they were written. -/
theorem accepted_losing {hd g : Handle} {data : List UInt8}
    (h₁ : Alone (run [.openPath "/a" .write] u) hd (OpenFile.start firstSlot .write) (Entry.ofName "/a" .file))
    (h₂ : Alone (run [.openPath "/a" .write, .write hd data] u) hd (unsavedFile data) (newEntry data.length))
    (h₃ : Shut (run [.openPath "/a" .write, .write hd data, .close hd] u) (newEntry data.length))
    (h₄ : Alone (run (losing hd data) u) g (OpenFile.start firstSlot .read) (newEntry data.length)) (i : Nat) :
    (Ledger.run (losing hd data) u .blank).accepted firstSlot i = data[i]? := by
  have hused (n : Nat) : (newEntry n).isEmpty = false := rfl
  have hwrite : (Operation.write hd data).accepts (run [.openPath "/a" .write] u) firstSlot i = data[i]? := by
    rw [accepts_write h₁.file (Pool.fileAt?_of_file? h₂.file)]
    show (if firstSlot = firstSlot ∧ 0 ≤ i ∧ i < data.length then data[i - 0]? else none) = _
    by_cases hi : i < data.length
    · rw [if_pos ⟨rfl, Nat.zero_le i, hi⟩, Nat.sub_zero]
    · rw [if_neg fun h => hi h.2.2, List.getElem?_eq_none (Nat.le_of_not_lt hi)]
  have he₂ : ((run [.openPath "/a" .write, .write hd data] u).directory.get firstSlot).isEmpty = false := by
    rw [h₂.entry, hused]
  have he₃ : ((run [.openPath "/a" .write, .write hd data, .close hd] u).directory.get firstSlot).isEmpty = false := by
    rw [h₃.directory, Directory.get_set, if_pos rfl, hused]
  have he₄ : ((run (losing hd data) u).directory.get firstSlot).isEmpty = false := by
    rw [h₄.entry, hused]
  -- the other operations accept nothing, and the file is there from the first on
  have hnone (op : Operation) (v : Volume (Metered δ)) (hop : op.accepts v firstSlot i = none) :
      (Ledger.blank.after op v).accepted firstSlot i = none := by
    simp [Ledger.after, hop, Ledger.blank]
  show (Ledger.after (Ledger.after (Ledger.after (Ledger.blank.after _ u) _ _) _ _) _ _).accepted firstSlot i = _
  rw [Ledger.accepted_after he₄, Ledger.accepted_after he₃, Ledger.accepted_after he₂, hnone _ _ rfl]
  show none.or (none.or (Option.or ((Operation.write hd data).accepts _ firstSlot i) none)) = _
  rw [Option.or_none]
  exact hwrite

theorem slice_ofFn_const (x : UInt8) {count : Nat} (h : count ≤ blockSize) :
    (Block.ofFn fun _ => x).slice 0 count = List.replicate count x := by
  refine List.eq_replicate_iff.mpr ⟨Block.length_slice _ _ _, fun y hy => ?_⟩
  obtain ⟨i, hi, rfl⟩ := List.mem_map.mp hy
  have hlt := (List.mem_range'_1.mp hi).2
  exact Block.byte_ofFn _ (by omega)

/-- **Bytes that the device refuses when their handle is closed are lost, and what was on the device before the
volume was formatted is read in their place.** -/
theorem stale_of_allows {d : Metered δ} (hn : volumeBlocks ≤ deviceSize d)
    (ha : d.Allows (firstDataBlock + firstDataBlock)) {x : UInt8}
    (hd : content d firstDataBlock = Block.ofFn fun _ => x) {data : List UInt8} (hne : data ≠ [])
    (hlen : data.length ≤ blockSize) :
    Begun (formatted d) ∧ ∃ hd g, (openPath "/a" .write (formatted d)).result = .ok hd ∧
      (write hd data (run [.openPath "/a" .write] (formatted d))).result = .ok data.length ∧
      (run (losing hd data) (formatted d)).handles.file? g = some (OpenFile.start firstSlot .read) ∧
      (read g data.length (run (losing hd data) (formatted d))).result = .ok (List.replicate data.length x) ∧
      ∀ i, (Ledger.run (losing hd data) (formatted d) .blank).accepted firstSlot i = data[i]? := by
  -- the state after each operation in turn, as it is reached by running them
  obtain ⟨hbegun, hd, hopened, hnew, hdata⟩ := newFile_of_allows hn ha
  obtain ⟨hwritten, hdevice₂, -, halone₂⟩ := write_unsaved hnew hne hlen
  have hallows₂ := hnew.allows
  rw [← hdevice₂] at hallows₂
  obtain ⟨hshut, hcontent₃, hallows₃, hsize₃⟩ := close_refused halone₂ hallows₂
  obtain ⟨g, -, hdevice₄, halone₄⟩ := openPath_shut hshut
  rw [← after_write] at hdevice₂ halone₂ hcontent₃ hsize₃ hallows₃ hshut hdevice₄ halone₄
  rw [← Operation.after_openPath] at hdevice₄ halone₄
  rw [← hdevice₄] at hallows₃ hcontent₃ hsize₃
  have hsize := Nat.lt_of_lt_of_le (by decide : firstDataBlock < volumeBlocks) hnew.sound.size_le
  rw [← hdevice₂, ← hsize₃] at hsize
  have hread := read_stored halone₄ (List.length_pos_iff.mpr hne) hlen hallows₃ hsize
  -- the block has not changed since before the volume was formatted
  rw [hcontent₃, hdevice₂, hdata _ (Nat.le_refl _), ‹content d _ = _›, slice_ofFn_const x hlen] at hread
  exact ⟨hbegun, hd, g, hopened, hwritten, halone₄.file, hread, accepted_losing hnew.alone halone₂ hshut halone₄⟩

/-! ## What is read -/

/-- A disk with old contents, behind a meter that lets through as many writes as it takes to format the disk and
to create a file. -/
def wornDisk : Metered MemoryDisk where
  inner := MemoryDisk.ofBlocks (Array.replicate volumeBlocks (Block.ofFn fun _ => 0xAA))
  budget := ⟨none, some (firstDataBlock + firstDataBlock), none⟩
  requests := #[]

theorem deviceSize_wornDisk : deviceSize wornDisk = volumeBlocks :=
  Array.size_replicate

theorem allows_wornDisk : wornDisk.Allows (firstDataBlock + firstDataBlock) :=
  ⟨rfl, MemoryDisk.reliable_of_writable rfl⟩

theorem content_wornDisk : content wornDisk firstDataBlock = Block.ofFn fun _ => 0xAA := by
  have hdisk : content wornDisk = wornDisk.inner.blockAt := rfl
  rw [hdisk, MemoryDisk.blockAt, wornDisk, MemoryDisk.ofBlocks, Array.getElem?_replicate, if_pos (by decide),
    Option.getD_some]

/-- **What is read was accepted**: in a run that neither mounts nor formats again, and wherever the device fails,
each byte that is read at an offset is the one that a write moved past there last, unless this one is lost.
Nothing is lost if the device takes what is written back to it when handles are closed. -/
theorem Begun.bytes_read {u : Volume δ} (h : Begun u) {ops : List Operation} (hmount : .mount ∉ ops)
    (hformat : .format ∉ ops) (hd : Handle) (length : Nat) :
    let v := run ops u
    let l := Ledger.run ops u .blank
    ((read hd length : VolumeAction δ (List UInt8)).Ensures v fun r _ => ∀ bytes, r = .ok bytes →
      ∃ f, v.handles.file? hd = some f ∧ ∀ k x, bytes[k]? = some x →
        ∃ a, l.accepted f.slot (f.position + k) = some a ∧ (x = a ↔ ¬l.lost f.slot (f.position + k))) ∧
    (Ledger.Whole ops u → ∀ slot i, ¬l.lost slot i) := by
  have hsound : (run ops u).Sound := Reached.sound ⟨u, ops, h, orderly_of_not_mem hmount, rfl⟩
  have hcovers := h.blank_covers.run h.sound hmount hformat
  exact ⟨hcovers.read hsound hd length, fun hwhole => Ledger.run_lost hwhole fun _ _ hlost => hlost⟩

/-- When a handle is closed that the device is not done with, a byte that is read is not the one that was accepted
in its place, which is lost. -/
theorem bytes_read_of_refused_close : ∃ hd g, Begun (formatted wornDisk) ∧
    .mount ∉ losing hd [0x64, 0x61, 0x74, 0x61] ∧ .format ∉ losing hd [0x64, 0x61, 0x74, 0x61] ∧
    (read g 4 (run (losing hd [0x64, 0x61, 0x74, 0x61]) (formatted wornDisk))).result = .ok (List.replicate 4 0xAA) ∧
    (Ledger.run (losing hd [0x64, 0x61, 0x74, 0x61]) (formatted wornDisk) .blank).lost firstSlot 0 ∧
    ¬Ledger.Whole (losing hd [0x64, 0x61, 0x74, 0x61]) (formatted wornDisk) := by
  have hlen : [0x64, 0x61, 0x74, (0x61 : UInt8)].length ≤ blockSize := by decide
  obtain ⟨hbegun, hd, g, -, -, hfile, hread, haccepted⟩ :=
    stale_of_allows (Nat.le_of_eq deviceSize_wornDisk.symm) allows_wornDisk content_wornDisk (by simp) hlen
  have hmount : .mount ∉ losing hd [0x64, 0x61, 0x74, 0x61] := by simp [losing]
  have hformat : .format ∉ losing hd [0x64, 0x61, 0x74, 0x61] := by simp [losing]
  obtain ⟨hbytes, hwhole⟩ := hbegun.bytes_read hmount hformat g 4
  obtain ⟨f, hf, hbytes⟩ := hbytes _ hread
  obtain rfl := Option.some.inj (hfile.symm.trans hf)
  obtain ⟨a, ha, hlost⟩ := hbytes 0 0xAA rfl
  obtain rfl := Option.some.inj ((haccepted 0).symm.trans ha)
  have hlost : (Ledger.run (losing hd [0x64, 0x61, 0x74, 0x61]) (formatted wornDisk) .blank).lost firstSlot 0 :=
    not_not.mp fun hno => absurd (hlost.mpr hno) (by decide)
  exact ⟨hd, g, hbegun, hmount, hformat, hread, hlost, fun hno => hwhole hno firstSlot 0 hlost⟩

/-- **Not every byte that is read was accepted**: four bytes are written and accepted, the device refuses them when
their handle is closed, and four bytes of the time before the volume was formatted are read in their place. -/
theorem stale_read_of_refused_close :
    Begun (formatted wornDisk) ∧ ∃ hd g, (openPath "/a" .write (formatted wornDisk)).result = .ok hd ∧
      (write hd [0x64, 0x61, 0x74, 0x61] (run [.openPath "/a" .write] (formatted wornDisk))).result = .ok 4 ∧
      (run (losing hd [0x64, 0x61, 0x74, 0x61]) (formatted wornDisk)).handles.file? g =
        some (OpenFile.start firstSlot .read) ∧
      (read g 4 (run (losing hd [0x64, 0x61, 0x74, 0x61]) (formatted wornDisk))).result =
        .ok (List.replicate 4 0xAA) ∧
      (Ledger.run (losing hd [0x64, 0x61, 0x74, 0x61]) (formatted wornDisk) .blank).accepted firstSlot 0 =
        some 0x64 := by
  have hlen : [0x64, 0x61, 0x74, (0x61 : UInt8)].length ≤ blockSize := by decide
  obtain ⟨hbegun, hd, g, hopened, hwritten, hfile, hread, haccepted⟩ :=
    stale_of_allows (Nat.le_of_eq deviceSize_wornDisk.symm) allows_wornDisk content_wornDisk (by simp) hlen
  exact ⟨hbegun, hd, g, hopened, hwritten, hfile, hread, haccepted 0⟩

end BlockVolume.Volume
