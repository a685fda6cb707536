import BlockVolume.Proofs.Namespace.Migration
import BlockVolume.Proofs.Volume.Calls

/-!
# `Proofs.Volume.Mount` — from the device into memory

Mounting takes space and directory from the blocks that describe them, gives names without a slash
one, and stores what it has changed. From a device that was stored to before it reads back what was
stored; a device without a superblock it formats first.

## Contents
- **`Space.read`** and **`Directory.read`**: what blocks describe, with `Persisted.read`.
- **`Mounted`**: what mounting leaves; **`Restored`**: and what it leaves of a device that was stored to.
- **`loadRest_cases`**, **`mount_of_persisted`**, **`mount_of_unformatted`**.
-/

namespace BlockVolume

open BlockVolume.Action

/-! ## What blocks describe -/

/-- The space that blocks describe. -/
def Space.read (blocks : Nat → Block) : Space :=
  ⟨Bitmap.ofBlock (blocks bitmapBlock), Superblock.ofBlock (blocks superblockBlock)⟩

/-- The directory that blocks describe. -/
def Directory.read (blocks : Nat → Block) : Directory :=
  (List.finRange directoryBlocks).foldl (fun t i => t.decode i (blocks (directoryBlock + i.val))) Directory.empty

/-- What was stored is read back. -/
theorem Persisted.read {blocks : Nat → Block} {s : Space} {d : Directory} (h : Persisted blocks s d) :
    Space.read blocks = s ∧ Directory.read blocks = d := by
  constructor
  · unfold Space.read
    rw [h.bitmap, h.superblock, Superblock.ofBlock_toBlock]
    rfl
  · unfold Directory.read
    simp only [h.directory]
    exact Directory.foldl_decode_encode List.mem_finRange _ _

namespace Directory

/-- An entry is read from the block of its slot. -/
theorem get_read (blocks : Nat → Block) (slot : Slot) : (read blocks).get slot =
    Entry.ofBlock (blocks (directoryBlock + (blockOf slot).val)) (slot.val % entriesPerBlock * entrySize) :=
  get_foldl_decode_of_mem List.mem_finRange _ _ slot

end Directory

theorem Allocated.migrate {s : Space} {d : Directory} (h : Allocated s d) : Allocated s d.migrate := by
  apply h.congr
  intro slot
  rw [Directory.get_migrate]
  exact Entry.migrate_fields _

/-- A superblock that goes with its directory is accepted on every large enough device. -/
theorem Allocated.validate {s : Space} {d : Directory} (h : Allocated s d) {n : Nat} (hn : volumeBlocks ≤ n) :
    s.superblock.validate n = .ok () := by
  -- the counter is the one word that differs from volume to volume
  have hfree : s.superblock.freeBlocks ≤ UInt32.ofNat volumeBlocks := by
    rw [UInt32.le_iff_toNat_le]
    have := h.free_add_used
    have hle : s.free ≤ volumeBlocks := by omega
    exact hle
  have hn' : 1024 ≤ n := hn
  rw [Superblock.validate, h.superblock]
  have hsane : ({ Superblock.fresh with freeBlocks := s.superblock.freeBlocks } : Superblock).isSane n = true := by
    simp only [Superblock.isSane, Bool.and_eq_true, decide_eq_true_eq]
    refine ⟨⟨⟨⟨⟨⟨⟨rfl, ?_⟩, hn'⟩, ?_⟩, hfree⟩, rfl⟩, rfl⟩, rfl⟩
    · exact volumeBlocks_le_bitmapCapacity.2
    · exact volumeBlocks_le_bitmapCapacity.1
  rw [if_neg (fun hne => hne rfl), if_pos hsane]

/-! ## Mounting -/

namespace Volume

variable {δ : Type} [BlockDevice δ] [LawfulDevice δ] {v w : Volume δ}

/-- Reading the directory reads its blocks, and nothing changes. -/
theorem readDirectory_cases {d : δ} {is : List (Fin directoryBlocks)} (t : Directory)
    (hn : firstDataBlock ≤ deviceSize d) :
    (readDirectory t is).Ensures d fun r d' => content d' = content d ∧
      ((r = .ok (is.foldl (fun t i => t.decode i (content d (directoryBlock + i.val))) t) ∧ Served d d') ∨
        ∃ e, r = .error e ∧ Refused d d') := by
  induction is generalizing d t with
  | nil => exact ⟨rfl, Or.inl ⟨rfl, rfl, fun h => h⟩⟩
  | cons i rest ih =>
    unfold readDirectory
    rw [ensures_bind]
    apply (LawfulDevice.read_cases (Nat.lt_of_lt_of_le (directoryBlock_add_lt i) hn)).mono
    rintro r d₁ ⟨hc, ⟨rfl, hs⟩ | ⟨e, rfl, hr⟩⟩
    · apply (ih _ (le_deviceSize hs.info hn)).mono
      rintro r d₂ ⟨hc', ⟨rfl, hs'⟩ | ⟨e, rfl, hr⟩⟩
      · exact ⟨hc'.trans hc, Or.inl ⟨by simp only [hc, List.foldl_cons], hs.trans hs'⟩⟩
      · exact ⟨hc'.trans hc, Or.inr ⟨e, rfl, Refused.after hs hr⟩⟩
    · exact ⟨hc, Or.inr ⟨e, rfl, hr⟩⟩

/-- What mounting leaves of `v` when the blocks of its device describe `s` and `d`. -/
structure Mounted (v w : Volume δ) (s : Space) (d : Directory) : Prop where
  space : w.space = s
  directory : w.directory = d.migrate
  handles : w.handles = v.handles
  mounted : w.mounted = true
  stored : Persisted (content w.device) s d.migrate ∨ (content w.device = content v.device ∧ d.migrate = d)
  data (b : Nat) : firstDataBlock ≤ b → content w.device b = content v.device b
  served : Served v.device w.device

/-- What mounting leaves of `v` when the device refuses a request: it was about to load `s` and `d`, and
has loaded both or neither. -/
structure Halted (v w : Volume δ) (s : Space) (d : Directory) : Prop where
  handles : w.handles = v.handles
  mounted : w.mounted = v.mounted
  info : BlockDevice.info w.device = BlockDevice.info v.device
  loaded : (w.space = v.space ∧ w.directory = v.directory) ∨ (w.space = s ∧ w.directory = d)
  unreliable : ¬Reliable v.device

omit [LawfulDevice δ] in
/-- Nothing but the device has changed when the request was refused. -/
theorem Halted.of_refused {d' : δ} (h : Refused v.device d') (s : Space) (d : Directory) :
    Halted v { v with device := d' } s d :=
  ⟨rfl, rfl, h.info, Or.inl ⟨rfl, rfl⟩, h.unreliable⟩

omit [LawfulDevice δ] in
/-- Requests that were served before make no difference. -/
theorem Halted.after {d' : δ} {s : Space} {d : Directory} (hd : Served v.device d')
    (h : Halted { v with device := d' } w s d) : Halted v w s d :=
  ⟨h.handles, h.mounted, h.info.trans hd.info, h.loaded, fun hv => h.unreliable (hd.reliable hv)⟩

/-- Names are migrated, and stored if there were any to migrate. -/
theorem migrateNames_cases (hn : firstDataBlock ≤ deviceSize v.device) :
    (migrateNames : VolumeAction δ Unit).Ensures v fun r w =>
      (r = .ok () ∧ ∃ d, w = { v with device := d, directory := v.directory.migrate } ∧ Served v.device d ∧
        (Persisted (content d) v.space v.directory.migrate ∨
          (content d = content v.device ∧ v.directory.migrate = v.directory)) ∧
        ∀ b, firstDataBlock ≤ b → content d b = content v.device b) ∨
      (IsIo r ∧ ∃ d, w = { v with device := d, directory := v.directory.migrate } ∧ Refused v.device d) := by
  unfold migrateNames
  simp only [ensures_bind, ensures_get, ensures_emit, ensures_modify]
  by_cases hcount : 0 < v.directory.migrationCount
  · simp only [if_pos hcount, ensures_bind, ensures_note]
    apply (storeMetadata_cases (v := { v with directory := v.directory.migrate }) hn).mono
    rintro r w (⟨rfl, hs⟩ | ⟨hio, hs⟩)
    · cases hs with
      | store hd hp hdata => exact Or.inl ⟨rfl, _, rfl, hd, Or.inl hp, hdata⟩
    · cases hs with
      | fault hd _ => exact Or.inr ⟨hio, _, rfl, hd⟩
  · simp only [if_neg hcount, ensures_pure]
    have hself := Directory.migrate_eq_self (Nat.eq_zero_of_not_pos hcount)
    exact Or.inl ⟨trivial, v.device, rfl, ⟨rfl, id⟩, Or.inr ⟨rfl, hself⟩, fun _ _ => rfl⟩

/-- The end of mounting: names are migrated, and the volume is mounted. -/
def finishMount (space : Space) : VolumeAction δ Unit := do
  let total := space.total
  let free := space.free
  migrateNames
  Action.modify fun v => { v with mounted := true }
  let entries := (← Action.get).directory.used
  Action.note .info s!"[sfs] Mounted: {total} blocks, {free} free, {entries} entries"

/-- What mounting does after it has found a superblock. -/
def loadRest (superblock : Superblock) : VolumeAction δ Unit := do
  let bitmap := Bitmap.ofBlock (← onDevice (BlockDevice.read bitmapBlock))
  let directory ← onDevice (readDirectory Directory.empty (List.finRange directoryBlocks))
  let space : Space := ⟨bitmap, superblock⟩
  Action.modify fun v => { v with space := space, directory := directory }
  let total := space.total
  let free := space.free
  let used := space.used
  if free + used ≠ total then
    Action.note .warn s!"[sfs] Free counter {free} disagrees with bitmap ({used} used of {total})"
  finishMount space

omit [LawfulDevice δ] in
theorem mount_eq : (mount : VolumeAction δ Unit) =
    Action.modify (fun v => { v with mounted := false, handles := v.handles.reset }) >>= fun _ =>
      loadSuperblock >>= loadRest := rfl

theorem finishMount_cases (space : Space) (hn : firstDataBlock ≤ deviceSize v.device) :
    (finishMount space : VolumeAction δ Unit).Ensures v fun r w =>
      (r = .ok () ∧ ∃ d, w = { v with device := d, directory := v.directory.migrate, mounted := true } ∧
        Served v.device d ∧ (Persisted (content d) v.space v.directory.migrate ∨
          (content d = content v.device ∧ v.directory.migrate = v.directory)) ∧
        ∀ b, firstDataBlock ≤ b → content d b = content v.device b) ∨
      (IsIo r ∧ ∃ d, w = { v with device := d, directory := v.directory.migrate } ∧ Refused v.device d) := by
  unfold finishMount
  simp only [ensures_bind, ensures_modify, ensures_get, ensures_note]
  apply (migrateNames_cases hn).mono
  rintro r w (⟨rfl, d, rfl, h⟩ | ⟨⟨e, rfl⟩, h⟩)
  · exact Or.inl ⟨trivial, d, rfl, h⟩
  · exact Or.inr ⟨isIo_io e, h⟩

/-- How mounting a device that describes `s` and `d` ends. -/
def LoadEnds (v w : Volume δ) (s : Space) (d : Directory) (r : Except Error Unit) : Prop :=
  (r = .ok () ∧ Mounted v w s d) ∨ (IsIo r ∧ Halted v w s d.migrate)

/-- The rest of the description is loaded as the blocks have it. -/
theorem loadRest_cases (superblock : Superblock) (hn : firstDataBlock ≤ deviceSize v.device) :
    (loadRest superblock).Ensures v fun r w => LoadEnds v w
      ⟨(Space.read (content v.device)).bitmap, superblock⟩ (Directory.read (content v.device)) r := by
  unfold loadRest
  simp only [ensures_bind]
  have hbitmap : bitmapBlock < deviceSize v.device := Nat.lt_of_lt_of_le (by decide) hn
  apply (ensures_onDevice_read hbitmap).mono
  rintro r w ⟨d₁, rfl, hc₁, ⟨rfl, hs₁⟩ | ⟨e, rfl, hs₁⟩⟩
  · have hn₁ : firstDataBlock ≤ deviceSize d₁ := le_deviceSize hs₁.info hn
    apply ensures_onDevice.mpr
    apply (readDirectory_cases _ hn₁).mono
    rintro r d₂ ⟨hc₂, ⟨rfl, hs₂⟩ | ⟨e, rfl, hs₂⟩⟩
    · have hs := hs₁.trans hs₂
      have hc : content d₂ = content v.device := hc₂.trans hc₁
      have hn₂ : firstDataBlock ≤ deviceSize d₂ := le_deviceSize hs.info hn
      have hdir : (List.finRange directoryBlocks).foldl
          (fun t i => t.decode i (content d₁ (directoryBlock + i.val))) Directory.empty =
            Directory.read (content v.device) := by rw [hc₁]; rfl
      simp only [Except.mapError, ensures_modify]
      rw [hdir]
      have hfinish : (finishMount ⟨(Space.read (content v.device)).bitmap, superblock⟩).Ensures
          { v with
            device := d₂
            space := ⟨(Space.read (content v.device)).bitmap, superblock⟩
            directory := Directory.read (content v.device) }
          fun r w => LoadEnds v w
            ⟨(Space.read (content v.device)).bitmap, superblock⟩ (Directory.read (content v.device)) r := by
        apply (finishMount_cases _ hn₂).mono
        rintro r w (⟨rfl, d₃, rfl, hs₃, hstored, hdata⟩ | ⟨hio, d₃, rfl, hs₃⟩)
        · refine Or.inl ⟨rfl, rfl, rfl, rfl, rfl, hstored.imp id fun h => ⟨h.1.trans hc, h.2⟩, ?_, hs.trans hs₃⟩
          intro b hb
          exact (hdata b hb).trans (congrFun hc b)
        · exact Or.inr ⟨hio, rfl, rfl, hs₃.info.trans hs.info, Or.inr ⟨rfl, rfl⟩,
            fun h => hs₃.unreliable (hs.reliable h)⟩
      -- whether the counter disagrees with the bitmap makes a difference for the records only
      split
      · rw [ensures_bind, ensures_note]
        exact hfinish
      · exact hfinish
    · exact Or.inr ⟨isIo_io e, Halted.after hs₁ (.of_refused (v := { v with device := d₁ }) hs₂ _ _)⟩
  · exact Or.inr ⟨isIo_io e, .of_refused hs₁ _ _⟩

/-- A superblock that fits the format and the device is taken as it is. -/
theorem loadSuperblock_valid (hn : firstDataBlock ≤ deviceSize v.device)
    (hvalid : (Space.read (content v.device)).superblock.validate (deviceSize v.device) = .ok ()) :
    (loadSuperblock : VolumeAction δ Superblock).Ensures v fun r w =>
      (r = .ok (Space.read (content v.device)).superblock ∧ ∃ d, w = { v with device := d } ∧
        content d = content v.device ∧ Served v.device d) ∨
      (IsIo r ∧ ∃ d, w = { v with device := d } ∧ Refused v.device d) := by
  unfold loadSuperblock
  rw [ensures_bind]
  apply (ensures_onDevice_read (Nat.lt_of_lt_of_le (by decide) hn)).mono
  rintro r w ⟨d, rfl, hc, ⟨rfl, hs⟩ | ⟨e, rfl, hs⟩⟩
  · have hvalid' : (Superblock.ofBlock (content v.device superblockBlock)).validate
        (BlockDevice.info d).totalBlocks = .ok () := by
      rw [hs.info]
      exact hvalid
    simp only [ensures_bind, ensures_get, hvalid', ensures_pure]
    exact Or.inl ⟨rfl, d, rfl, hc, hs⟩
  · exact Or.inr ⟨isIo_io e, d, rfl, hs⟩

/-- A device that does not begin with a superblock is formatted. -/
theorem loadSuperblock_unformatted (hn : volumeBlocks ≤ deviceSize v.device)
    (hmagic : (Space.read (content v.device)).superblock.magic ≠ volumeMagic) :
    (loadSuperblock : VolumeAction δ Superblock).Ensures v fun r w =>
      (r = .ok Superblock.fresh ∧ ∃ d, w = { v.cleared with device := d } ∧
        Persisted (content d) Space.fresh Directory.empty ∧
        (∀ b, firstDataBlock ≤ b → content d b = content v.device b) ∧ Served v.device d) ∨
      (IsIo r ∧ ¬Reliable v.device) := by
  have hzero : superblockBlock < deviceSize v.device := Nat.lt_of_lt_of_le (by decide) hn
  unfold loadSuperblock
  rw [ensures_bind]
  apply (ensures_onDevice_read hzero).mono
  rintro r w ⟨d, rfl, hc, ⟨rfl, hs⟩ | ⟨e, rfl, hs⟩⟩
  · have hunformatted : (Superblock.ofBlock (content v.device superblockBlock)).validate
        (BlockDevice.info d).totalBlocks = .error .unformatted := if_pos hmagic
    simp only [ensures_bind, ensures_get, hunformatted, ensures_note]
    apply (format_cases { v with device := d }).mono
    rintro r w (⟨hlt, -⟩ | ⟨-, ⟨rfl, hs'⟩ | ⟨⟨e, rfl⟩, hs'⟩⟩)
    · exact absurd (le_deviceSize hs.info hn) (Nat.not_le.mpr hlt)
    · cases hs' with
      | store hd hp hdata =>
        exact Or.inl ⟨rfl, _, rfl, hp, fun b hb => (hdata b hb).trans (congrFun hc b), hs.trans hd⟩
    · cases hs' with
      | fault hd _ => exact Or.inr ⟨isIo_io e, fun h => hd.unreliable (hs.reliable h)⟩
  · exact Or.inr ⟨isIo_io e, hs.unreliable⟩

/-- The volume when its mounting begins. -/
def left (v : Volume δ) : Volume δ := { v with mounted := false, handles := v.handles.reset }

omit [LawfulDevice δ] in
/-- Mounting is loading, once the volume is left. -/
theorem ensures_mount {post : Except Error Unit → Volume δ → Prop} :
    (mount : VolumeAction δ Unit).Ensures v post ↔
      (loadSuperblock >>= loadRest : VolumeAction δ Unit).Ensures v.left post := by
  rw [mount_eq, ensures_bind, ensures_modify]
  exact Iff.rfl

/-- What mounting leaves of `v` when its device was stored to with `s` and `d`. -/
structure Restored (v w : Volume δ) (s : Space) (d : Directory) : Prop where
  space : w.space = s
  directory : w.directory = d.migrate
  files (p : Place) : w.handles.fileAt? p = none
  mounted : w.mounted = true
  persisted : Persisted (content w.device) s d.migrate
  data (b : Nat) : firstDataBlock ≤ b → content w.device b = content v.device b
  served : Served v.device w.device

/-- What is loaded from a device that describes `s` and `d` is `s` and `d`. -/
theorem loadRest_of_persisted {s : Space} {d : Directory} (hn : firstDataBlock ≤ deviceSize v.device)
    (hp : Persisted (content v.device) s d) (hfiles : ∀ p, v.handles.fileAt? p = none) :
    (loadRest s.superblock).Ensures v fun r w =>
      (r = .ok () ∧ Restored v w s d) ∨ (IsIo r ∧ Halted v w s d.migrate) := by
  obtain ⟨hs, hd⟩ := hp.read
  apply (loadRest_cases s.superblock hn).mono
  intro r w hr
  rw [hs, hd] at hr
  rcases hr with ⟨rfl, hm⟩ | hio
  · refine Or.inl ⟨rfl, hm.space, hm.directory, ?_, hm.mounted, ?_, hm.data, hm.served⟩
    · intro p
      rw [hm.handles]
      exact hfiles p
    · -- nothing was stored just if there was no name to migrate
      rcases hm.stored with h | ⟨hc, hself⟩
      · exact h
      · rw [hc, hself]
        exact hp
  · exact Or.inr hio

/-- **Mounting a device that was stored to reads back what was stored.** -/
theorem mount_of_persisted {s : Space} {d : Directory} (hn : volumeBlocks ≤ deviceSize v.device)
    (hp : Persisted (content v.device) s d) (hall : Allocated s d) :
    (mount : VolumeAction δ Unit).Ensures v fun r w =>
      (r = .ok () ∧ Restored v w s d) ∨ (IsIo r ∧ Halted v.left w s d.migrate) := by
  have hn' : firstDataBlock ≤ deviceSize v.device := firstDataBlock_le hn
  have hs := hp.read.1
  rw [ensures_mount, ensures_bind]
  have hvalid : (Space.read (content v.device)).superblock.validate (deviceSize v.device) = .ok () := by
    rw [hs]
    exact hall.validate hn
  apply (loadSuperblock_valid (v := v.left) hn' hvalid).mono
  rintro r w (⟨rfl, d', rfl, hc, hserved⟩ | ⟨⟨e, rfl⟩, d', rfl, hrefused⟩)
  · have hc' : content d' = content v.device := hc
    have hsb : (Space.read (content v.left.device)).superblock = s.superblock := congrArg Space.superblock hs
    rw [hsb]
    refine (loadRest_of_persisted (v := { v.left with device := d' }) (le_deviceSize hserved.info hn')
      (hc' ▸ hp) fun p => Pool.fileAt?_reset _ _).mono ?_
    rintro r w (⟨rfl, hm⟩ | ⟨hio, hrel⟩)
    · exact Or.inl ⟨rfl, hm.space, hm.directory, hm.files, hm.mounted, hm.persisted,
        fun b hb => (hm.data b hb).trans (congrFun hc b), hserved.trans hm.served⟩
    · exact Or.inr ⟨hio, hrel.after hserved⟩
  · exact Or.inr ⟨isIo_io e, .of_refused hrefused _ _⟩

/-- **Mounting a device without a superblock formats it.** -/
theorem mount_of_unformatted (hn : volumeBlocks ≤ deviceSize v.device)
    (hmagic : (Space.read (content v.device)).superblock.magic ≠ volumeMagic) :
    (mount : VolumeAction δ Unit).Ensures v fun r w =>
      (r = .ok () ∧ Restored v w Space.fresh Directory.empty) ∨ (IsIo r ∧ ¬Reliable v.device) := by
  have hn' : firstDataBlock ≤ deviceSize v.device := firstDataBlock_le hn
  rw [ensures_mount, ensures_bind]
  apply (loadSuperblock_unformatted (v := v.left) hn hmagic).mono
  rintro r w (⟨rfl, d', rfl, hp, hdata, hserved⟩ | ⟨⟨e, rfl⟩, hrel⟩)
  · refine (loadRest_of_persisted (v := { v.left.cleared with device := d' }) (le_deviceSize hserved.info hn')
      hp v.left.cleared_fileAt?).mono ?_
    rintro r w (⟨rfl, hm⟩ | ⟨hio, hrel⟩)
    · exact Or.inl ⟨rfl, hm.space, hm.directory, hm.files, hm.mounted, hm.persisted,
        fun b hb => (hm.data b hb).trans (hdata b hb), hserved.trans hm.served⟩
    · exact Or.inr ⟨hio, fun h => hrel.unreliable (hserved.reliable h)⟩
  · exact Or.inr ⟨isIo_io e, hrel⟩

end Volume

end BlockVolume
