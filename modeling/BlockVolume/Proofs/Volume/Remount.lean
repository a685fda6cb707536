import BlockVolume.Proofs.Device.Reading
import BlockVolume.Proofs.Volume.Crash

/-!
# `Proofs.Volume.Remount` — leaving a volume and mounting it again

A device with a superblock that is accepted, and with no name to migrate, is mounted by reading the blocks
of the description, once each and in order; nothing else is asked of it. So what was stored when a volume
was left comes back, and the device is none the worse for it.

## Contents
- `readDirectory_reads` and its like: the parts of mounting as reads; **`mount_reads`**.
- `unmount_stored`: what leaving a volume stores.
- **`Reached.remount`**: nothing is lost between leaving a volume and mounting it.
-/

namespace BlockVolume

open BlockVolume.Action

namespace Volume

variable {δ : Type} [BlockDevice δ] [LawfulDevice δ] {v w : Volume δ}

/-! ## Mounting by reading -/

/-- The blocks of the directory are read in order. -/
theorem readDirectory_reads {d : δ} {is : List (Fin directoryBlocks)} (t : Directory)
    (hs : ServesReads (is.map fun i => directoryBlock + i.val) d) :
    (readDirectory t is).Ensures d fun r d' =>
      r = .ok (is.foldl (fun t i => t.decode i (content d (directoryBlock + i.val))) t) ∧
        d' = readOut (is.map fun i => directoryBlock + i.val) d := by
  induction is generalizing d t with
  | nil => exact ⟨rfl, rfl⟩
  | cons i rest ih =>
    unfold readDirectory
    rw [ensures_bind]
    apply hs.read.mono
    rintro r d₁ ⟨rfl, rfl, hc, -, hrest⟩
    apply (ih (t.decode i (content d (directoryBlock + i.val))) hrest).mono
    rintro r d₂ ⟨rfl, rfl⟩
    refine ⟨?_, rfl⟩
    rw [hc, List.foldl_cons]

/-- A superblock that is accepted is all that is read to find one. -/
theorem loadSuperblock_reads {is : List Nat}
    (hvalid : (Space.read (content v.device)).superblock.validate (deviceSize v.device) = .ok ())
    (hs : ServesReads (superblockBlock :: is) v.device) :
    (loadSuperblock : VolumeAction δ Superblock).Ensures v fun r w =>
      r = .ok (Space.read (content v.device)).superblock ∧
        w = { v with device := readOut [superblockBlock] v.device } := by
  unfold loadSuperblock
  rw [ensures_bind, ensures_onDevice]
  apply hs.read.mono
  rintro r d ⟨rfl, rfl, -, hinfo, -⟩
  have hvalid' : (Superblock.ofBlock (content v.device superblockBlock)).validate
      (BlockDevice.info (readOut [superblockBlock] v.device)).totalBlocks = .ok () := by
    rw [hinfo]
    exact hvalid
  simp only [Except.mapError, ensures_bind, ensures_get, hvalid', ensures_pure]
  exact ⟨rfl, trivial⟩

omit [LawfulDevice δ] in
/-- Without names to migrate the end of mounting asks nothing of the device. -/
theorem finishMount_reads (space : Space) (hnames : v.directory.migrationCount = 0) :
    (finishMount space : VolumeAction δ Unit).Ensures v fun r w => r = .ok () ∧ w = { v with mounted := true } := by
  unfold finishMount migrateNames
  simp only [ensures_bind, ensures_get, ensures_emit, ensures_modify, hnames, Nat.lt_irrefl, if_false,
    ensures_pure, ensures_note, Directory.migrate_eq_self hnames, true_and]

/-- The blocks that describe the directory, in the order in which they are read. -/
def directoryIndices : List Nat :=
  (List.finRange directoryBlocks).map fun i => directoryBlock + i.val

/-- After the superblock the rest of the description is read; what is left to do is the end of mounting. -/
theorem loadRest_served (superblock : Superblock) {post : Except Error Unit → Volume δ → Prop}
    (hs : ServesReads (bitmapBlock :: directoryIndices) v.device)
    (hfinish : (finishMount ⟨(Space.read (content v.device)).bitmap, superblock⟩).Ensures
      { v with
        device := readOut (bitmapBlock :: directoryIndices) v.device
        space := ⟨(Space.read (content v.device)).bitmap, superblock⟩
        directory := Directory.read (content v.device) } post) : (loadRest superblock).Ensures v post := by
  unfold loadRest
  rw [ensures_bind, ensures_onDevice]
  apply hs.read.mono
  rintro r d₁ ⟨rfl, rfl, hc₁, -, hs₁⟩
  simp only [Except.mapError, ensures_bind, ensures_onDevice]
  apply (readDirectory_reads Directory.empty hs₁).mono
  rintro r d₂ ⟨rfl, rfl⟩
  have hread : (List.finRange directoryBlocks).foldl (fun t i => t.decode i
      (content (readOut [bitmapBlock] v.device) (directoryBlock + i.val))) Directory.empty =
        Directory.read (content v.device) := by rw [hc₁]; rfl
  simp only [ensures_modify]
  rw [hread]
  -- whether the counter disagrees with the bitmap makes a difference for the records only
  split
  · rw [ensures_bind, ensures_note]
    exact hfinish
  · exact hfinish

/-- Without names to migrate nothing but reading is done. -/
theorem loadRest_reads (superblock : Superblock) (hnames : (Directory.read (content v.device)).migrationCount = 0)
    (hs : ServesReads (bitmapBlock :: directoryIndices) v.device) :
    (loadRest superblock).Ensures v fun r w => r = .ok () ∧
      w = { v with
        device := readOut (bitmapBlock :: directoryIndices) v.device
        space := ⟨(Space.read (content v.device)).bitmap, superblock⟩
        directory := Directory.read (content v.device)
        mounted := true } :=
  loadRest_served superblock hs (finishMount_reads _ hnames)

theorem range_firstDataBlock :
    List.range firstDataBlock = superblockBlock :: bitmapBlock :: directoryIndices := by
  decide

/-- **A volume whose superblock is accepted and whose names need no migration is mounted by reading its
description.** -/
theorem mount_reads
    (hvalid : (Space.read (content v.device)).superblock.validate (deviceSize v.device) = .ok ())
    (hnames : (Directory.read (content v.device)).migrationCount = 0)
    (hs : ServesReads (List.range firstDataBlock) v.device) :
    (mount : VolumeAction δ Unit).Ensures v fun r w => r = .ok () ∧
      w = { device := readOut (List.range firstDataBlock) v.device
            space := Space.read (content v.device)
            directory := Directory.read (content v.device)
            handles := v.handles.reset
            mounted := true } := by
  rw [range_firstDataBlock] at hs ⊢
  rw [ensures_mount, ensures_bind]
  apply (loadSuperblock_reads (v := v.left) hvalid hs).mono
  rintro r w ⟨rfl, rfl⟩
  have hc : content (readOut [superblockBlock] v.device) = content v.device := (content_readOut _ _).1
  have hnames' : (Directory.read (content (readOut [superblockBlock] v.device))).migrationCount = 0 := by
    rw [hc]
    exact hnames
  apply (loadRest_reads (v := { v.left with device := readOut [superblockBlock] v.device }) _ hnames' hs.2).mono
  rintro r w ⟨rfl, rfl⟩
  simp only [hc]
  exact ⟨trivial, rfl⟩

/-! ## Leaving -/

/-- Leaving a volume stores it as it is, and with it what was in the caches. -/
theorem unmount_stored (h : v.Sound) (hok : (unmount v).result = .ok ()) :
    (unmount : VolumeAction δ Unit).Ensures v fun _ w => w.Sound ∧ w.mounted = false ∧ w.Synced ∧
      w.space = v.space ∧ w.directory = v.directory ∧ ∀ slot, w.contents slot = v.contents slot := by
  rcases unmount_cases h with ⟨hwalk, ⟨-, hm, hs⟩ | hio⟩ | ⟨-, e, -, hr, -⟩
  · have htrace := hwalk.trace_of_not_isIo (hok ▸ not_isIo_ok _)
    obtain ⟨hspace, hdirectory⟩ := htrace.description_eq (by simp [Change.describes])
    refine ⟨hwalk.sound h, hm, hs, hspace, hdirectory, fun slot => htrace.contents_eq h ?_⟩
    simp [Change.alters]
  · rw [hok] at hio
    exact absurd hio (not_isIo_ok _)
  · cases hok.symm.trans hr

/-- A mounted volume can be left if the device is reliable. -/
theorem unmount_reliable (h : v.Sound) (hm : v.mounted = true) (hr : Reliable v.device) :
    (unmount : VolumeAction δ Unit).Ensures v fun r w => r = .ok () ∧ Reliable w.device := by
  rcases unmount_cases h with ⟨hwalk, ⟨hok, -⟩ | hio⟩ | ⟨hno, -⟩
  · exact ⟨hok, hwalk.reliable hr⟩
  · exact absurd hr (hwalk.unreliable hio)
  · cases hm.symm.trans hno

/-- The names of a volume that was reached need no migration. -/
theorem Reached.absolute (h : Reached v) : v.directory.Absolute := by
  obtain ⟨u, ops, hb, ho, rfl⟩ := h
  exact (hb.run_kept absoluteInvariant (fun _ _ _ _ _ _ => trivial) ho).2

/-- What was stored of a sound volume without open files comes back. -/
theorem mount_of_synced (h : w.Sound) (hm : w.mounted = false) (ha : w.directory.Absolute) (hsynced : w.Synced)
    {x : Volume δ} (hx : x.device = w.device) (hs : ServesReads (List.range firstDataBlock) x.device) :
    (mount : VolumeAction δ Unit).Ensures x fun r y =>
      r = .ok () ∧ y.mounted = true ∧ y.device = readOut (List.range firstDataBlock) x.device ∧
        y.space = w.space ∧ y.directory = w.directory ∧ ∀ slot, y.contents slot = w.contents slot := by
  obtain ⟨hspace, hdirectory⟩ : Space.read (content x.device) = w.space ∧
      Directory.read (content x.device) = w.directory := by
    rw [hx]
    exact hsynced.read
  have hvalid : (Space.read (content x.device)).superblock.validate (deviceSize x.device) = .ok () := by
    rw [hspace, hx]
    exact h.allocated.validate h.size_le
  have hnames : (Directory.read (content x.device)).migrationCount = 0 := by
    rw [hdirectory]
    exact ha.migrationCount_eq
  apply (mount_reads hvalid hnames hs).mono
  rintro r y ⟨rfl, rfl⟩
  obtain ⟨hcontent, hinfo⟩ := content_readOut (List.range firstDataBlock) x.device
  refine ⟨rfl, rfl, rfl, hspace, hdirectory, fun slot => ?_⟩
  have hsound : Sound { device := readOut (List.range firstDataBlock) x.device
                        space := Space.read (content x.device)
                        directory := Directory.read (content x.device)
                        handles := x.handles.reset
                        mounted := true } := by
    refine .of_no_files ?_ ?_ fun p => Pool.fileAt?_reset _ p
    · show Allocated (Space.read (content x.device)) (Directory.read (content x.device))
      rw [hspace, hdirectory]
      exact h.allocated
    · exact le_deviceSize (hinfo.trans (congrArg _ hx)) h.size_le
  apply contents_eq_of_noWriter h hsound
  · exact noWriter_of_no_files (h.closed hm) slot
  · exact noWriter_of_no_files (fun p => Pool.fileAt?_reset _ p) slot
  · exact fun b _ => congrFun (hcontent.trans (congrArg _ hx)) b
  · exact congrArg (Directory.get · slot) hdirectory

/-- **Leaving a volume and mounting it again loses nothing, and mounting writes nothing.** -/
theorem Reached.remount (h : Reached v) (hok : (unmount v).result = .ok ()) (x : Volume δ)
    (hx : x.device = (unmount v).state.device) (hs : ServesReads (List.range firstDataBlock) x.device) :
    (mount : VolumeAction δ Unit).Ensures x fun r y =>
      r = .ok () ∧ y.mounted = true ∧ y.device = readOut (List.range firstDataBlock) x.device ∧
        y.space = v.space ∧ y.directory = v.directory ∧ ∀ slot, y.contents slot = v.contents slot := by
  obtain ⟨hsound, hm, hsynced, hspace, hdirectory, hcontents⟩ := unmount_stored h.sound hok
  have ha : (unmount v).state.directory.Absolute := by
    rw [hdirectory]
    exact h.absolute
  apply (mount_of_synced hsound hm ha hsynced hx hs).mono
  rintro r y ⟨rfl, hy, hd, hs', hd', hc⟩
  exact ⟨rfl, hy, hd, hs'.trans hspace, hd'.trans hdirectory, fun slot => (hc slot).trans (hcontents slot)⟩

/-- On a reliable device every run can be followed by leaving the volume and mounting it. -/
theorem leavable_of_reliable {d : δ} (hn : volumeBlocks ≤ deviceSize d) (hr : Reliable d) (ops : List Operation)
    (hmount : .mount ∉ ops) (hunmount : .unmount ∉ ops) :
    Reached (run ops (formatted d)) ∧ (unmount (run ops (formatted d))).result = .ok () ∧
      ServesReads (List.range firstDataBlock) (unmount (run ops (formatted d))).state.device := by
  have hreached := reached_of_reliable hn hr ops
  obtain ⟨hbegun, hrel⟩ := begun_of_reliable hn hr
  have hmounted := (run_mounted hbegun.sound hmount hunmount).trans hbegun.mounted
  obtain ⟨hok, hserving⟩ := unmount_reliable hreached.sound hmounted (hbegun.run_reliable hrel ops).2
  have hsize := (unmount_stored hreached.sound hok).1.firstDataBlock_le
  exact ⟨hreached, hok, (hserving.servesReads fun i hi => Nat.lt_of_lt_of_le (List.mem_range.mp hi) hsize).1⟩

omit [BlockDevice δ] [LawfulDevice δ] in
theorem device_ofDevice (d : δ) : (ofDevice d).device = d := rfl

/-- A file is still open for writing when the volume is left, and a new volume is mounted from the device. -/
theorem remount_of_run :
    let v := run [.openPath "/a" .write, .write ⟨0, 2⟩ [1, 2, 3]] (formatted (MemoryDisk.blank 1024))
    (mount : VolumeAction MemoryDisk Unit).Ensures (ofDevice (unmount v).state.device) fun r y =>
      r = .ok () ∧ y.directory = v.directory ∧ ∀ slot, y.contents slot = v.contents slot := by
  obtain ⟨hreached, hok, hs⟩ := leavable_of_reliable (d := MemoryDisk.blank 1024)
    (Nat.le_of_eq (MemoryDisk.deviceSize_blank 1024).symm) (MemoryDisk.reliable_of_writable rfl)
    [.openPath "/a" .write, .write ⟨0, 2⟩ [1, 2, 3]] (by simp) (by simp)
  rw [← device_ofDevice (unmount _).state.device] at hs
  apply (Reached.remount hreached hok (ofDevice _) (device_ofDevice _) hs).mono
  rintro r y ⟨hr, -, -, -, hd, hc⟩
  exact ⟨hr, hd, hc⟩

end Volume

end BlockVolume
