import BlockVolume.Proofs.Format.Accepted
import BlockVolume.Proofs.Volume.Remount

/-!
# `Proofs.Volume.Reload` — mounting twice

A mount that succeeds leaves a device that describes exactly what was loaded from it: a superblock that
is accepted there, and a directory with no name left to migrate. The blocks found at first may have been
anything. Nothing remains to be done by a second mount, so it only reads, and loads the same.

## Contents
- **`Loaded`**: what mounting leaves, with **`mount_cases`** and `mount_directory`.
- `Loaded.reload`, and **`mount_idempotent`** for whatever was mounted.
- `described`: devices to which a description was written, with `restored_of_described`.
-/

namespace BlockVolume

open BlockVolume.Action

namespace Volume

variable {δ : Type} [BlockDevice δ] [LawfulDevice δ] {v w : Volume δ}

/-! ## The first mount -/

/-- What a mount leaves behind: the device describes what was loaded, and is fit to be loaded again. -/
structure Loaded (w : Volume δ) : Prop where
  space : Space.read (content w.device) = w.space
  directory : Directory.read (content w.device) = w.directory
  valid : w.space.superblock.validate (deviceSize w.device) = .ok ()
  names : w.directory.migrationCount = 0
  files (p : Place) : w.handles.fileAt? p = none
  mounted : w.mounted = true

/-- Whatever superblock is loaded, the device begins with it then, and accepts it. The directory there is the one
that was there before, or an empty one if the device did not begin as a volume. -/
theorem loadSuperblock_accepted (hfiles : ∀ p, v.handles.fileAt? p = none) :
    (loadSuperblock : VolumeAction δ Superblock).Ensures v fun r w => w.mounted = v.mounted ∧
      ∀ superblock, r = .ok superblock → (Space.read (content w.device)).superblock = superblock ∧
        superblock.validate (deviceSize w.device) = .ok () ∧ (∀ p, w.handles.fileAt? p = none) ∧
        (content w.device = content v.device ∨
          ((Superblock.ofBlock (content v.device superblockBlock)).magic ≠ volumeMagic ∧
            Directory.read (content w.device) = Directory.empty)) := by
  unfold loadSuperblock
  rw [ensures_bind, ensures_onDevice]
  apply (LawfulDevice.read_ensures superblockBlock v.device).mono
  rintro r d ⟨hinfo, hcontent, hvalue⟩
  cases r with
  | error e => exact ⟨rfl, fun _ hr => by cases hr⟩
  | ok b =>
    obtain rfl := hvalue b rfl
    simp only [Except.mapError, ensures_bind, ensures_get]
    split
    · rename_i hvalid
      refine ⟨rfl, ?_⟩
      rintro _ ⟨⟩
      refine ⟨?_, hvalid, hfiles, Or.inl hcontent⟩
      show Superblock.ofBlock (content d superblockBlock) = _
      rw [hcontent]
    · -- formatting writes the superblock that is yielded
      rename_i hunformatted
      have hmagic := Superblock.validate_eq_unformatted_iff.mp hunformatted
      rw [ensures_bind, ensures_note, ensures_bind]
      apply (format_cases { v with device := d }).mono
      rintro r w (⟨-, ⟨e, rfl⟩, rfl⟩ | ⟨hn, ⟨rfl, hs⟩ | ⟨⟨e, rfl⟩, hs⟩⟩)
      · exact ⟨rfl, fun _ hr => by cases hr⟩
      · simp only [ensures_bind, ensures_get, ensures_pure]
        have hw := hs.eq_of_store
        have hsize : volumeBlocks ≤ deviceSize w.device := (hs.sound (sound_cleared hn)).size_le
        have hspace : w.space = Space.fresh := by rw [hw]; rfl
        refine ⟨by rw [hw]; rfl, ?_⟩
        rintro _ ⟨⟩
        refine ⟨?_, ?_, fun p => ?_, Or.inr ⟨hmagic, ?_⟩⟩
        · rw [hs.persisted_of_store.read.1, hspace]
          rfl
        · rw [hspace]
          exact Allocated.fresh.validate hsize
        · rw [hw]
          exact cleared_fileAt? _ p
        · exact hs.persisted_of_store.read.2
      · refine ⟨?_, fun _ hr => by cases hr⟩
        cases hs with
        | fault _ _ => rfl
    · exact ⟨rfl, fun _ hr => by cases hr⟩

/-- What follows an accepted superblock is loaded as the device has it, or as it is stored there. -/
theorem loadRest_loaded {superblock : Superblock}
    (hsuperblock : (Space.read (content v.device)).superblock = superblock)
    (hvalid : superblock.validate (deviceSize v.device) = .ok ()) (hfiles : ∀ p, v.handles.fileAt? p = none) :
    (loadRest superblock).Ensures v fun r w =>
      (r = .ok () ∧ w.Loaded) ∨ ((∃ e, r = .error e) ∧ w.mounted = v.mounted) := by
  apply (loadRest_cases superblock (Nat.le_of_lt (Superblock.fits_of_validate hvalid).firstDataBlock_lt)).mono
  rintro r w (⟨rfl, hm⟩ | ⟨⟨e, rfl⟩, hh⟩)
  · have hspace : w.space = Space.read (content v.device) := by
      rw [hm.space, ← hsuperblock]
    obtain ⟨hread, hread'⟩ : Space.read (content w.device) = w.space ∧
        Directory.read (content w.device) = w.directory := by
      rcases hm.stored with hp | ⟨hc, hself⟩
      · rw [hm.space, hm.directory]
        exact hp.read
      · rw [hspace, hm.directory, hc, hself]
        exact ⟨rfl, rfl⟩
    refine Or.inl ⟨rfl, hread, hread', ?_, ?_, ?_, hm.mounted⟩
    · rw [hm.space, deviceSize_congr hm.served.info]
      exact hvalid
    · rw [hm.directory]
      exact Directory.migrationCount_migrate _
    · rw [hm.handles]
      exact hfiles
  · exact Or.inr ⟨⟨_, rfl⟩, hh.mounted⟩

/-- **Whatever a device held, a mount of it that succeeds leaves there what it has loaded.** One that fails
leaves a volume that is not mounted. -/
theorem mount_cases (v : Volume δ) : (mount : VolumeAction δ Unit).Ensures v fun r w =>
    (r = .ok () ∧ w.Loaded) ∨ ((∃ e, r = .error e) ∧ w.mounted = false) := by
  rw [ensures_mount, ensures_bind]
  apply (loadSuperblock_accepted (v := v.left) fun p => Pool.fileAt?_reset _ p).mono
  rintro r u ⟨hleft, h⟩
  cases r with
  | ok superblock =>
    obtain ⟨hsuperblock, hvalid, hfiles, -⟩ := h superblock rfl
    exact (loadRest_loaded hsuperblock hvalid hfiles).mono fun _ _ => Or.imp id fun he => ⟨he.1, he.2.trans hleft⟩
  | error e => exact Or.inr ⟨⟨e, rfl⟩, hleft⟩

theorem loaded_of_mount (hok : (mount v).result = .ok ()) : (mount v).state.Loaded := by
  rcases mount_cases v with ⟨-, hloaded⟩ | ⟨⟨e, he⟩, -⟩
  · exact hloaded
  · cases hok.symm.trans he

/-- A mount that succeeds has migrated the directory of the device, or has made an empty one if the device did not begin
as a volume. -/
theorem mount_directory (v : Volume δ) : (mount : VolumeAction δ Unit).Ensures v fun r w => r = .ok () →
    w.directory = (Directory.read (content v.device)).migrate ∨
      ((Superblock.ofBlock (content v.device superblockBlock)).magic ≠ volumeMagic ∧
        w.directory = Directory.empty) := by
  rw [ensures_mount, ensures_bind]
  apply (loadSuperblock_accepted (v := v.left) fun p => Pool.fileAt?_reset _ p).mono
  rintro r u ⟨-, h⟩
  cases r with
  | ok superblock =>
    obtain ⟨-, hvalid, -, hcontent⟩ := h superblock rfl
    apply (loadRest_cases superblock (Nat.le_of_lt (Superblock.fits_of_validate hvalid).firstDataBlock_lt)).mono
    rintro r w (⟨-, hm⟩ | ⟨⟨e, rfl⟩, -⟩) hok
    · rw [hm.directory]
      rcases hcontent with hsame | ⟨hmagic, hempty⟩
      · exact Or.inl (congrArg (fun blocks => (Directory.read blocks).migrate) hsame)
      · exact Or.inr ⟨hmagic, by rw [hempty, Directory.migrate_empty]⟩
    · cases hok
  | error e => exact nofun

/-! ## The second mount -/

omit [BlockDevice δ] [LawfulDevice δ] in
/-- What a volume tells of itself and its entries was loaded with it, the files that are open apart. -/
theorem answers_congr {y : Volume δ} (hmounted : y.mounted = w.mounted) (hspace : y.space = w.space)
    (hdirectory : y.directory = w.directory) (hfiles : y.handles.openCount = w.handles.openCount) :
    y.stats = w.stats ∧ (∀ path, y.list path = w.list path) ∧ ∀ path, y.stat path = w.stat path := by
  have hensure : y.ensureMounted = w.ensureMounted := by rw [ensureMounted, ensureMounted, hmounted]
  have hlookup : y.lookup = w.lookup := by
    funext p
    rw [lookup, lookup, hdirectory]
  refine ⟨?_, fun path => ?_, fun path => ?_⟩
  · rw [stats, stats, hensure, hspace, hdirectory, hfiles]
  · rw [list, list, hensure, hlookup, hdirectory]
  · rw [stat, stat, hensure, hlookup, hdirectory]

/-- What was loaded is loaded once more by reading the description, whoever mounts the device. -/
theorem Loaded.reload (h : w.Loaded) {x : Volume δ} (hx : x.device = w.device)
    (hs : ServesReads (List.range firstDataBlock) x.device) :
    (mount : VolumeAction δ Unit).Ensures x fun r y =>
      r = .ok () ∧ y.Loaded ∧ y.device = readOut (List.range firstDataBlock) x.device ∧
        y.space = w.space ∧ y.directory = w.directory := by
  have hspace : Space.read (content x.device) = w.space := by
    rw [hx]
    exact h.space
  have hdirectory : Directory.read (content x.device) = w.directory := by
    rw [hx]
    exact h.directory
  have hvalid : (Space.read (content x.device)).superblock.validate (deviceSize x.device) = .ok () := by
    rw [hspace, hx]
    exact h.valid
  have hnames : (Directory.read (content x.device)).migrationCount = 0 := by
    rw [hdirectory]
    exact h.names
  apply ((mount_reads hvalid hnames hs).and (mount_cases x)).mono
  rintro r y ⟨⟨rfl, rfl⟩, ⟨-, hloaded⟩ | ⟨⟨e, he⟩, -⟩⟩
  · exact ⟨rfl, hloaded, rfl, hspace, hdirectory⟩
  · cases he

/-- **A second mount finds what the first one has loaded, and only reads.** -/
theorem mount_idempotent {v : Volume δ} (hok : (mount v).result = .ok ()) (x : Volume δ)
    (hx : x.device = (mount v).state.device) (hs : ServesReads (List.range firstDataBlock) x.device) :
    (mount : VolumeAction δ Unit).Ensures x fun r y =>
      r = .ok () ∧ y.mounted = true ∧ y.device = readOut (List.range firstDataBlock) x.device ∧
        y.space = (mount v).state.space ∧ y.directory = (mount v).state.directory ∧
        y.stats = (mount v).state.stats ∧ (∀ path, y.list path = (mount v).state.list path) ∧
        ∀ path, y.stat path = (mount v).state.stat path := by
  have hloaded := loaded_of_mount hok
  apply (hloaded.reload hx hs).mono
  rintro r y ⟨rfl, hy, hdevice, hspace, hdirectory⟩
  have hfiles : y.handles.openCount = (mount v).state.handles.openCount :=
    (Pool.openCount_eq_zero hy.files).trans (Pool.openCount_eq_zero hloaded.files).symm
  exact ⟨rfl, hy.mounted, hdevice, hspace, hdirectory,
    answers_congr (hy.mounted.trans hloaded.mounted.symm) hspace hdirectory hfiles⟩

/-! ## Devices with a given description -/

/-- A device after a description was written to it. -/
def described (d : δ) (s : Space) (t : Directory) : δ :=
  (storeMetadata { ofDevice d with space := s, directory := t }).state.device

/-- A reliable device takes any description. -/
theorem storeMetadata_reliable (hn : firstDataBlock ≤ deviceSize v.device) (hr : Reliable v.device) :
    (storeMetadata : VolumeAction δ Unit).Ensures v fun r w => r = .ok () ∧ w = { v with device := w.device } ∧
      Persisted (content w.device) v.space v.directory ∧ Served v.device w.device := by
  apply (storeMetadata_cases hn).mono
  rintro r w (⟨rfl, hs⟩ | ⟨-, hs⟩)
  · refine ⟨rfl, hs.eq_of_store, hs.persisted_of_store, ?_⟩
    cases hs with
    | store hd _ _ => exact hd
  · cases hs with
    | fault hd _ => exact absurd hr hd.unreliable

theorem described_of_reliable {d : δ} (hn : firstDataBlock ≤ deviceSize d) (hr : Reliable d) (s : Space)
    (t : Directory) : Persisted (content (described d s t)) s t ∧ Served d (described d s t) := by
  obtain ⟨-, -, hdescribed⟩ := storeMetadata_reliable (v := { ofDevice d with space := s, directory := t }) hn hr
  exact hdescribed

/-- A reliable device on which a new volume with a directory of its own is described is mounted. -/
theorem restored_of_described {t : Directory} (hall : Allocated Space.fresh t) :
    let u := ofDevice (described (MemoryDisk.blank 1024) Space.fresh t)
    Persisted (content u.device) Space.fresh t ∧ (mount u).result = .ok () ∧
      Restored u (mount u).state Space.fresh t ∧ Reliable (mount u).state.device := by
  have hsize : volumeBlocks ≤ deviceSize (MemoryDisk.blank 1024) :=
    Nat.le_of_eq (MemoryDisk.deviceSize_blank 1024).symm
  have hr : Reliable (MemoryDisk.blank 1024) := MemoryDisk.reliable_of_writable rfl
  obtain ⟨hp, hd⟩ := described_of_reliable (firstDataBlock_le hsize) hr Space.fresh t
  generalize described (MemoryDisk.blank 1024) Space.fresh t = d at hp hd
  rcases mount_of_persisted (v := ofDevice d) (le_deviceSize hd.info hsize) hp hall with ⟨hok, hm⟩ | ⟨-, hh⟩
  · exact ⟨hp, hok, hm, hm.served.reliable (hd.reliable hr)⟩
  · exact absurd (hd.reliable hr) hh.unreliable

/-- The slot that is searched first. -/
def firstSlot : Slot := ⟨0, by decide⟩

/-- A table with one name that lacks its slash. -/
def legacyTable : Directory :=
  Directory.empty.set firstSlot (Entry.ofName "a" .file)

theorem migrationCount_legacyTable : legacyTable.migrationCount ≠ 0 := by
  intro h
  have hdone := Directory.migrationCount_eq_zero_iff.mp h firstSlot
  rw [legacyTable, Directory.get_set, if_pos rfl, Entry.isLegacy, Entry.name_ofName (by decide),
    Text.untilNul_eq_self (by decide)] at hdone
  revert hdone
  decide +kernel

/-- On a reliable device a mount that has succeeded can be repeated. -/
theorem servesReads_of_mount {v : Volume δ} (hok : (mount v).result = .ok ())
    (hr : Reliable (mount v).state.device) :
    ServesReads (List.range firstDataBlock) (mount v).state.device := by
  have hsize := (Superblock.fits_of_validate (loaded_of_mount hok).valid).firstDataBlock_lt
  exact (hr.servesReads fun i hi => Nat.lt_trans (List.mem_range.mp hi) hsize).1

/-- The name is there to be migrated by the first mount, and the second one finds it so. -/
theorem mount_idempotent_of_legacy :
    let u := ofDevice (described (MemoryDisk.blank 1024) Space.fresh legacyTable)
    legacyTable.migrationCount ≠ 0 ∧ (mount u).result = .ok () ∧
      (mount : VolumeAction MemoryDisk Unit).Ensures (ofDevice (mount u).state.device) fun r y =>
        r = .ok () ∧ y.directory = legacyTable.migrate := by
  have hall : Allocated Space.fresh legacyTable := Allocated.fresh.replace rfl (by decide) (by decide) (by decide)
  obtain ⟨-, hok, hm, hr⟩ := restored_of_described hall
  generalize ofDevice (described (MemoryDisk.blank 1024) Space.fresh legacyTable) = u at hok hm hr
  have hs := servesReads_of_mount hok hr
  rw [← device_ofDevice (mount u).state.device] at hs
  refine ⟨migrationCount_legacyTable, hok, ?_⟩
  apply (mount_idempotent hok (ofDevice (mount u).state.device) (device_ofDevice _) hs).mono
  rintro r y ⟨hr, -, -, -, hdirectory, -⟩
  exact ⟨hr, hdirectory.trans hm.directory⟩

end Volume

end BlockVolume
