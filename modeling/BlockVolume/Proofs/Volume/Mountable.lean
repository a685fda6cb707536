import BlockVolume.Proofs.Space.Growth
import BlockVolume.Proofs.Volume.Move
import BlockVolume.Proofs.Volume.Reload

/-!
# `Proofs.Volume.Mountable` — whether a volume that was left can be mounted again

What a superblock is checked for when a volume is mounted stays as it is while the volume is in use, the
counter of free blocks apart. Mounting accepts a counter that disagrees with the bitmap; taking blocks back
adds to it without a bound, and so it may come to exceed the number of blocks. The volume is left all the
same, and is rejected when it is next to be mounted.

Nothing is asked here of the entries, nor of the bitmap.

## Contents
- **`Fit`**: a volume that is accepted if its counter is. **`Keeps`**: what changes leave of it.
- **`Operation.fate`**: what an operation makes of any volume; `run_fit` and `run_covered`.
- `unmount_stores`: leaving stores the volume as it is. **`mountable`**, with counters that disagree with the bitmap.
-/

namespace BlockVolume

open BlockVolume.Action Relation

/-! ## Names -/

theorem Directory.migrationCount_set {d : Directory} (h : d.migrationCount = 0) (slot : Slot) {e : Entry}
    (he : (e.isLegacy && e.hasRoomForSlash) = false) : (d.set slot e).migrationCount = 0 := by
  rw [migrationCount_eq_zero_iff] at h ⊢
  intro i
  rw [get_set]
  split
  · exact he
  · exact h i

/-- Whether a name is to be migrated is a matter of name and kind. -/
theorem Entry.legacy_congr {e e' : Entry} (hname : e'.nameField = e.nameField) (hkind : e'.kind = e.kind) :
    (e'.isLegacy && e'.hasRoomForSlash) = (e.isLegacy && e.hasRoomForSlash) := by
  rw [isLegacy, isLegacy, hasRoomForSlash, hasRoomForSlash, name_congr hname, isEmpty_congr hkind]

/-- The name of a new entry begins with a slash. -/
theorem Entry.not_legacy_ofName (path : Path) (kind : EntryKind) :
    ((ofName path.text kind).isLegacy && (ofName path.text kind).hasRoomForSlash) = false := by
  rw [isLegacy, name_ofName path.short, path.isAbsolute_untilNul, Bool.not_true, Bool.and_false, Bool.false_and]

namespace Volume

variable {δ : Type} [BlockDevice δ] [LawfulDevice δ] {u v w : Volume δ} {touched : Place → Prop}

/-! ## What changes leave -/

/-- All that mounting checks is in order, the counter apart, and nothing is left to migrate. -/
structure Fit (v : Volume δ) : Prop where
  superblock : v.space.superblock.Fits (deviceSize v.device)
  names : v.directory.migrationCount = 0

theorem Loaded.fit (h : w.Loaded) : w.Fit :=
  ⟨Superblock.fits_of_validate h.valid, h.names⟩

/-- What is in order in `v` is in order in `w`. -/
structure Keeps (v w : Volume δ) : Prop where
  mounted : w.mounted = v.mounted
  fit : v.Fit → w.Fit
  covered : v.Fit → v.space.Covered → w.space.Covered

omit [LawfulDevice δ] in
instance : IsPreorder (Volume δ) Keeps where
  refl _ := ⟨rfl, id, fun _ => id⟩
  trans _ _ _ h h' := ⟨h'.mounted.trans h.mounted, fun hf => h'.fit (h.fit hf),
    fun hf hc => h'.covered (h.fit hf) (h.covered hf hc)⟩

omit [LawfulDevice δ] in
/-- A superblock is changed in its counter at most, and no name that is new is to be migrated. -/
theorem Keeps.of_counter (hm : w.mounted = v.mounted) (hsize : deviceSize w.device = deviceSize v.device)
    (hspace : v.space.total ≤ bitmapCapacity →
      w.space.superblock = { v.space.superblock with freeBlocks := w.space.superblock.freeBlocks } ∧
        (v.space.Covered → w.space.Covered))
    (hnames : v.directory.migrationCount = 0 → w.directory.migrationCount = 0) : Keeps v w where
  mounted := hm
  fit h := by
    refine ⟨?_, hnames h.names⟩
    rw [hsize, (hspace h.superblock.total_le).1]
    exact h.superblock
  covered h := (hspace h.superblock.total_le).2

omit [LawfulDevice δ] in
/-- The space is as it was. -/
theorem Keeps.of_space (hm : w.mounted = v.mounted) (hsize : deviceSize w.device = deviceSize v.device)
    (hspace : w.space = v.space) (hnames : v.directory.migrationCount = 0 → w.directory.migrationCount = 0) :
    Keeps v w :=
  .of_counter hm hsize (fun _ => by rw [hspace]; exact ⟨rfl, id⟩) hnames

theorem Move.keeps (h : Move touched v w) : Keeps v w := by
  cases h with
  | request hd => exact .of_space rfl (deviceSize_congr hd.info) rfl id
  | edit _ _ => exact .of_space rfl rfl rfl id
  | @grow slot grant hg =>
    obtain ⟨-, -, -, -, he⟩ := Space.grow_eq_ok hg
    refine .of_counter rfl rfl (fun hcap => ⟨(Space.grow_counts hcap hg).1, fun hc => hc.grow hcap hg⟩) ?_
    intro h
    apply Directory.migrationCount_set h
    rw [Entry.legacy_congr he.nameField he.kind]
    exact Directory.migrationCount_eq_zero_iff.mp h slot
  | @resize slot size =>
    refine .of_space rfl rfl rfl fun h => ?_
    apply Directory.migrationCount_set h
    exact Directory.migrationCount_eq_zero_iff.mp h slot
  | insert _ _ _ _ _ =>
    exact .of_space rfl rfl rfl fun h => Directory.migrationCount_set h _ (Entry.not_legacy_ofName _ _)
  | remove _ _ _ _ hr =>
    refine .of_counter rfl rfl (fun hcap => ⟨(Space.release_counts hcap hr).1, fun hc => hc.release hcap hr⟩) ?_
    exact fun h => Directory.migrationCount_set h _ rfl
  | acquire _ _ _ _ => exact .of_space rfl rfl rfl id

theorem Moved.keeps (h : Moved touched v w) : Keeps v w := by
  induction h with
  | refl => exact refl v
  | tail _ hm ih => exact IsTrans.trans _ _ _ ih hm.keeps

/-! ## What operations leave -/

/-- What an operation may make of a volume, on any lawful device and whatever the description says. -/
inductive Fate (op : Operation) (v w : Volume δ) : Prop
  | keeps : Keeps v w → Fate op v w
  | left : w.mounted = false → Fate op v w
  | formatted : w.Fit → w.space = Space.fresh → Fate op v w
  | loaded : op = .mount → w.Loaded → Fate op v w

/-- A volume that was cleared fits its device. -/
theorem fate_of_cleared {op : Operation} {d : δ} (hn : volumeBlocks ≤ deviceSize v.device)
    (hd : Served v.cleared.device d ∨ Refused v.cleared.device d) : Fate op v { v.cleared with device := d } := by
  have hinfo : BlockDevice.info d = BlockDevice.info v.device := by
    unfold cleared at hd
    exact hd.elim Served.info Refused.info
  have hvalid := Allocated.fresh.validate (le_deviceSize hinfo hn)
  exact .formatted ⟨Superblock.fits_of_validate hvalid, Directory.migrationCount_empty⟩ rfl

theorem format_fate (v : Volume δ) : (format : VolumeAction δ Unit).Ensures v fun _ w => Fate .format v w := by
  apply (format_cases v).mono
  rintro r w (⟨-, -, rfl⟩ | ⟨hn, ⟨-, hs⟩ | ⟨-, hs⟩⟩)
  · exact .keeps (refl w)
  · cases hs with
    | store hd _ _ => exact fate_of_cleared hn (Or.inl hd)
  · cases hs with
    | fault hd _ => exact fate_of_cleared hn (Or.inr hd)

end Volume

open Volume

variable {δ : Type} [BlockDevice δ] [LawfulDevice δ] {v : Volume δ}

/-- **Every operation keeps what is in order, or leaves, formats or loads the volume.** -/
theorem Operation.fate (op : Operation) (v : Volume δ) :
    (op.perform : VolumeAction δ Unit).Ensures v fun _ w => Fate op v w := by
  have hquiet (hop : op.emptiesPlaces = false) :
      (op.perform : VolumeAction δ Unit).Ensures v fun _ w => Fate op v w :=
    (Operation.moved hop).mono fun _ _ hw => .keeps hw.keeps
  cases op with
  | close hd =>
    apply (close_moved (fun _ => True) hd).mono
    rintro r w (⟨-, rfl⟩ | ⟨f, handles, -, -, hw⟩)
    · exact .keeps (refl w)
    · have hrelease : Keeps v { v with handles := handles } := .of_space rfl rfl rfl id
      exact .keeps (IsTrans.trans _ _ _ hrelease hw.keeps)
  | unmount =>
    apply (unmount_moved (fun _ => True) fun _ => trivial).mono
    rintro r w (⟨-, hw⟩ | ⟨-, u, -, rfl⟩)
    · exact .keeps hw.keeps
    · exact .left rfl
  | format => exact format_fate v
  | mount =>
    apply (mount_cases v).mono
    rintro r w (⟨-, hw⟩ | ⟨-, hw⟩)
    · exact .loaded rfl hw
    · exact .left hw
  | _ => exact hquiet rfl

namespace Volume

/-- A volume that is mounted fits its device, whatever was done to it. -/
theorem run_fit {ops : List Operation} (h : v.mounted = true → v.Fit) :
    (run ops v).mounted = true → (run ops v).Fit := by
  induction ops generalizing v with
  | nil => exact h
  | cons op ops ih =>
    refine ih fun hm => ?_
    have hfate : Fate op v (op.after v) := op.fate v
    cases hfate with
    | keeps hk => exact hk.fit (h (hk.mounted.symm.trans hm))
    | left hno => cases hno.symm.trans hm
    | formatted hfit _ => exact hfit
    | loaded _ hl => exact hl.fit

/-- The counters that are loaded in the course of a run claim no more than the blocks that are not in use. -/
def MountsCovered : List Operation → Volume δ → Prop
  | [], _ => True
  | op :: ops, v => (op = .mount → (op.after v).mounted = true → (op.after v).space.Covered) ∧
      MountsCovered ops (op.after v)

/-- Then the counter never claims more. -/
theorem run_covered {ops : List Operation} (hops : MountsCovered ops v)
    (h : v.mounted = true → v.Fit ∧ v.space.Covered) :
    (run ops v).mounted = true → (run ops v).Fit ∧ (run ops v).space.Covered := by
  induction ops generalizing v with
  | nil => exact h
  | cons op ops ih =>
    refine ih hops.2 fun hm => ?_
    have hfate : Fate op v (op.after v) := op.fate v
    cases hfate with
    | keeps hk =>
      obtain ⟨hfit, hcovered⟩ := h (hk.mounted.symm.trans hm)
      exact ⟨hk.fit hfit, hk.covered hfit hcovered⟩
    | left hno => cases hno.symm.trans hm
    | formatted hfit hspace =>
      rw [hspace]
      exact ⟨hfit, Space.covered_of_allocated .fresh⟩
    | loaded hop hl => exact ⟨hl.fit, hops.1 hop hm⟩

/-! ## Leaving and mounting -/

/-- Nothing was changed of what describes the volume, in memory and in size. -/
structure SameDescription (v w : Volume δ) : Prop where
  space : w.space = v.space
  directory : w.directory = v.directory
  info : BlockDevice.info w.device = BlockDevice.info v.device

omit [LawfulDevice δ] in
instance : IsPreorder (Volume δ) SameDescription where
  refl _ := ⟨rfl, rfl, rfl⟩
  trans _ _ _ h h' := ⟨h'.space.trans h.space, h'.directory.trans h.directory, h'.info.trans h.info⟩

theorem Asked.info_of_reflTransGen {d d' : δ} (h : ReflTransGen Asked d d') :
    BlockDevice.info d' = BlockDevice.info d := by
  induction h with
  | refl => rfl
  | tail _ ha ih => exact ha.info.trans ih

theorem writeBackAll_sameDescription (places : List Place) :
    (writeBackAll places : VolumeAction δ Unit).Respects SameDescription := by
  induction places with
  | nil => exact respects_pure _
  | cons p rest ih =>
    refine Respects.bind ?_ fun _ => ih
    unfold writeBackAt
    refine respects_get.bind fun v => ?_
    split
    · exact respects_pure _
    · refine Respects.bind (fun v => ensures_onDevice.mpr ?_) fun _ => respects_modify fun _ => ⟨rfl, rfl, rfl⟩
      exact (writeBack_asked _ v.device).mono fun _ _ h => ⟨rfl, rfl, Asked.info_of_reflTransGen h⟩

omit [LawfulDevice δ] in
theorem mounted_of_unmount (hok : (unmount v).result = .ok ()) : v.mounted = true := by
  cases hm : v.mounted with
  | true => rfl
  | false =>
    have hno : (unmount : VolumeAction δ Unit).Ensures v fun r _ => r = .error .notMounted := by
      unfold unmount
      exact ensures_whenMounted.mpr ⟨fun hm' => (by cases hm.symm.trans hm'), fun _ => rfl⟩
    cases hok.symm.trans hno

/-- Leaving a volume stores it as it is. -/
theorem unmount_stores (hn : firstDataBlock ≤ deviceSize v.device) :
    (unmount : VolumeAction δ Unit).Ensures v fun r w => r = .ok () →
      deviceSize w.device = deviceSize v.device ∧ Persisted (content w.device) v.space v.directory := by
  unfold unmount
  refine ensures_whenMounted.mpr ⟨fun _ => ?_, fun _ hr => by cases hr⟩
  simp only [ensures_bind, ensures_modify, ensures_note]
  apply (writeBackAll_sameDescription _ v).mono
  intro r u hu
  cases r with
  | error e =>
    intro hr
    cases hr
  | ok _ =>
    apply (storeMetadata_cases (le_deviceSize hu.info hn)).mono
    rintro r w (⟨rfl, hs⟩ | ⟨⟨e, rfl⟩, -⟩) hr
    · refine ⟨?_, ?_⟩
      · cases hs with
        | store hd _ _ => exact deviceSize_congr (hd.info.trans hu.info)
      · rw [← hu.space, ← hu.directory]
        exact hs.persisted_of_store
    · cases hr

/-- A device with a damaged superblock is not mounted. -/
theorem mount_rejects {is : List Nat} (hs : ServesReads (superblockBlock :: is) v.device)
    (hvalid : (Space.read (content v.device)).superblock.validate (deviceSize v.device) = .error .corrupted) :
    (mount : VolumeAction δ Unit).Ensures v fun r _ => r = .error .corrupted := by
  rw [ensures_mount, ensures_bind]
  unfold loadSuperblock
  rw [ensures_bind, ensures_onDevice]
  apply hs.read.mono
  rintro r d ⟨rfl, rfl, -, hinfo, -⟩
  have hvalid' : (Superblock.ofBlock (content v.device superblockBlock)).validate
      (BlockDevice.info (readOut [superblockBlock] v.device)).totalBlocks = .error .corrupted := by
    rw [hinfo]
    exact hvalid
  simp only [Except.mapError, ensures_bind, ensures_get, hvalid', ensures_note, ensures_throw]

/-- What was left in order is mounted just if its counter does not exceed the number of blocks. -/
theorem Fit.remounted (h : v.Fit) (hok : (unmount v).result = .ok ()) {x : Volume δ}
    (hx : x.device = (unmount v).state.device) (hs : ServesReads (List.range firstDataBlock) x.device) :
    (mount x).result = if v.space.free ≤ v.space.total then .ok () else .error .corrupted := by
  obtain ⟨hsize, hp⟩ := unmount_stores (Nat.le_of_lt h.superblock.firstDataBlock_lt) hok
  rw [← hx] at hsize hp
  obtain ⟨hspace, hdirectory⟩ := hp.read
  have hvalid : (Space.read (content x.device)).superblock.validate (deviceSize x.device) =
      if v.space.free ≤ v.space.total then .ok () else .error .corrupted := by
    rw [hspace, hsize, h.superblock.validate_eq]
    rfl
  by_cases hcounter : v.space.free ≤ v.space.total
  · rw [if_pos hcounter] at hvalid ⊢
    have hnames : (Directory.read (content x.device)).migrationCount = 0 := by
      rw [hdirectory]
      exact h.names
    exact (mount_reads hvalid hnames hs).1
  · rw [if_neg hcounter] at hvalid ⊢
    rw [range_firstDataBlock] at hs
    exact mount_rejects hs hvalid

/-- **A volume that was left is mounted again just if its counter does not exceed the number of blocks**,
whatever its device held at first, and never exceeds it if no counter that was loaded claims blocks in use. -/
theorem mountable {d : δ} {ops : List Operation} (hok : (unmount (run ops (ofDevice d))).result = .ok ())
    (x : Volume δ) (hx : x.device = (unmount (run ops (ofDevice d))).state.device)
    (hs : ServesReads (List.range firstDataBlock) x.device) :
    ((mount x).result = if (run ops (ofDevice d)).space.free ≤ (run ops (ofDevice d)).space.total then .ok ()
      else .error .corrupted) ∧
    (MountsCovered ops (ofDevice d) → (mount x).result = .ok ()) := by
  have hmounted : (run ops (ofDevice d)).mounted = true := mounted_of_unmount hok
  have hfit : (run ops (ofDevice d)).Fit := run_fit (fun hm => by cases hm) hmounted
  refine ⟨hfit.remounted hok hx hs, fun hops => ?_⟩
  have hcovered := (run_covered hops (fun hm => by cases hm) hmounted).2
  rw [hfit.remounted hok hx hs, if_pos (Nat.le_trans (Nat.le_add_right _ _) hcovered)]

/-! ## A counter that claims blocks in use -/

/-- A mounted volume with no files open, on a device that serves every request. -/
structure Idle (v : Volume δ) : Prop where
  mounted : v.mounted = true
  files (p : Place) : v.handles.fileAt? p = none
  size : firstDataBlock < deviceSize v.device
  reliable : Reliable v.device

/-- A description that is accepted and has no names to migrate is loaded from a reliable device. -/
theorem mount_idle {s : Space} {t : Directory} (hp : Persisted (content v.device) s t)
    (hvalid : s.superblock.validate (deviceSize v.device) = .ok ()) (hnames : t.migrationCount = 0)
    (hr : Reliable v.device) : (mount : VolumeAction δ Unit).Ensures v fun r w =>
      r = .ok () ∧ w.space = s ∧ w.directory = t ∧ w.Idle := by
  obtain ⟨hspace, hdirectory⟩ := hp.read
  have hsize := (Superblock.fits_of_validate hvalid).firstDataBlock_lt
  obtain ⟨hs, hreliable⟩ := hr.servesReads fun i hi => Nat.lt_trans (List.mem_range.mp hi) hsize
  rw [← hspace] at hvalid
  rw [← hdirectory] at hnames
  apply (mount_reads hvalid hnames hs).mono
  rintro r w ⟨rfl, rfl⟩
  refine ⟨rfl, hspace, hdirectory, rfl, fun p => Pool.fileAt?_reset _ p, ?_, hreliable⟩
  show firstDataBlock < deviceSize (readOut (List.range firstDataBlock) v.device)
  rw [deviceSize_congr (content_readOut _ _).2]
  exact hsize

/-- So is one that was written to the device before. -/
theorem mount_described {d : δ} {s : Space} {t : Directory} (hvalid : s.superblock.validate (deviceSize d) = .ok ())
    (hnames : t.migrationCount = 0) (hr : Reliable d) :
    let u := ofDevice (described d s t)
    (mount u).result = .ok () ∧ (run [.mount] u).space = s ∧ (run [.mount] u).directory = t ∧ (run [.mount] u).Idle := by
  have hsize := (Superblock.fits_of_validate hvalid).firstDataBlock_lt
  obtain ⟨hp, hd⟩ := described_of_reliable (Nat.le_of_lt hsize) hr s t
  rw [← deviceSize_congr hd.info] at hvalid
  exact mount_idle (v := ofDevice (described d s t)) hp hvalid hnames (hd.reliable hr)

/-- Storing the description of an idle volume leaves it idle. -/
theorem Idle.store (h : v.Idle) : (storeMetadata : VolumeAction δ Unit).Ensures v fun r w =>
    r = .ok () ∧ w.space = v.space ∧ w.Idle := by
  apply (storeMetadata_reliable (Nat.le_of_lt h.size) h.reliable).mono
  rintro r w ⟨rfl, hw, -, hd⟩
  have hsize : firstDataBlock < deviceSize w.device := by
    rw [deviceSize_congr hd.info]
    exact h.size
  have hreliable := hd.reliable h.reliable
  generalize w.device = d at hw hsize hreliable
  subst hw
  exact ⟨rfl, rfl, h.mounted, h.files, hsize, hreliable⟩

/-- An entry of an idle volume is removed if nothing lies below it and its blocks can be taken back. -/
theorem Idle.delete (h : v.Idle) {path : String} {p : Path} {slot : Slot} {released : Space.Release}
    (hp : Path.ofString? path = some p) (hroot : p.isRoot = false) (hfind : v.directory.find? p.text = some slot)
    (hchildren : ((v.directory.get slot).isDirectory && v.directory.hasChildren p.text) = false)
    (hrel : v.space.release (v.directory.get slot) = .ok released) :
    (delete path).Ensures v fun r w => r = .ok () ∧ w.space = released.space ∧ w.Idle := by
  have href : v.handles.references slot = false := by
    apply Pool.references_eq_false.mpr
    intro q f hq
    cases hq.symm.trans (h.files q)
  rw [ensures_delete_removed h.mounted hp hroot hfind hchildren href hrel]
  exact Idle.store ⟨h.mounted, h.files, h.size, h.reliable⟩

omit [LawfulDevice δ] in
/-- Without open files there is nothing to write back. -/
theorem writeBackAll_of_no_files (hfiles : ∀ p, v.handles.fileAt? p = none) (places : List Place) :
    (writeBackAll places : VolumeAction δ Unit).Ensures v fun r w => r = .ok () ∧ w = v := by
  induction places with
  | nil => exact ⟨rfl, rfl⟩
  | cons p rest ih =>
    have hp : (writeBackAt p : VolumeAction δ Unit).Ensures v fun r w => r = .ok () ∧ w = v := by
      unfold writeBackAt
      simp only [ensures_bind, ensures_get, hfiles p, ensures_pure, and_self]
    refine Ensures.bind hp ?_ fun e _ he => by cases he.1
    rintro _ _ ⟨-, rfl⟩
    exact ih

/-- An idle volume can be left. -/
theorem Idle.unmount (h : v.Idle) : (unmount : VolumeAction δ Unit).Ensures v fun r w =>
    r = .ok () ∧ ServesReads (List.range firstDataBlock) w.device := by
  unfold Volume.unmount
  refine ensures_whenMounted.mpr ⟨fun _ => ?_, fun hno => by cases hno.symm.trans h.mounted⟩
  simp only [ensures_bind, ensures_modify, ensures_note]
  apply (writeBackAll_of_no_files h.files _).mono
  rintro r w ⟨rfl, rfl⟩
  apply h.store.mono
  rintro r w ⟨rfl, -, hw⟩
  exact ⟨trivial, (hw.reliable.servesReads fun i hi => Nat.lt_trans (List.mem_range.mp hi) hw.size).1⟩

/-- The space of a volume with one block in use whose counter claims that there is none. -/
def overcounted : Space :=
  ⟨Space.fresh.bitmap.set firstDataBlock, { Superblock.fresh with freeBlocks := Superblock.fresh.totalBlocks }⟩

/-- The file that has the block. -/
def ownedFile : Entry :=
  { Entry.ofName "/a" .file with firstBlock := UInt32.ofNat firstDataBlock, blocks := 1 }

/-- The table of that volume. -/
def oneFile : Directory := Directory.empty.set firstSlot ownedFile

theorem get_oneFile : oneFile.get firstSlot = ownedFile := by
  rw [oneFile, Directory.get_set, if_pos rfl]

theorem migrationCount_oneFile : oneFile.migrationCount = 0 := by
  apply Directory.migrationCount_set Directory.migrationCount_empty
  decide +kernel

/-- Taking the block back makes the counter exceed the number of blocks. -/
theorem release_overcounted : ∃ released, overcounted.release ownedFile = .ok released ∧
    ¬released.space.free ≤ released.space.total := by
  have h : (overcounted.release ownedFile).map (fun r => decide (r.space.free ≤ r.space.total)) = .ok false := by
    decide +kernel
  cases hr : overcounted.release ownedFile with
  | ok released =>
    rw [hr] at h
    exact ⟨released, rfl, of_decide_eq_false (Except.ok.inj h)⟩
  | error e =>
    rw [hr] at h
    cases h

/-- The space of that volume when its counter claims that no block is free. -/
def undercounted : Space :=
  ⟨Space.fresh.bitmap.set firstDataBlock, { Superblock.fresh with freeBlocks := 0 }⟩

theorem covered_undercounted : undercounted.Covered := by
  have hfree : undercounted.free = 0 := by decide
  rw [Space.Covered, hfree, Nat.zero_add]
  exact undercounted.used_le

/-- Mounting accepts any such counter. -/
theorem mount_oneFile {s : Space} (hvalid : s.superblock.validate 1024 = .ok ()) :
    let u := ofDevice (described (MemoryDisk.blank 1024) s oneFile)
    (mount u).result = .ok () ∧ (run [.mount] u).space = s ∧ (run [.mount] u).directory = oneFile ∧
      (run [.mount] u).Idle := by
  refine mount_described ?_ migrationCount_oneFile (MemoryDisk.reliable_of_writable rfl)
  rw [MemoryDisk.deviceSize_blank 1024]
  exact hvalid

/-- The file of such a volume is deleted. -/
theorem delete_oneFile {u : Volume δ} {released : Space.Release} (hdirectory : (run [.mount] u).directory = oneFile)
    (hidle : (run [.mount] u).Idle) (hrel : (run [.mount] u).space.release ownedFile = .ok released) :
    (delete "/a" (run [.mount] u)).result = .ok () ∧ (run [.mount, .delete "/a"] u).space = released.space ∧
      (run [.mount, .delete "/a"] u).Idle := by
  rw [← get_oneFile, ← hdirectory] at hrel
  have hfind : (run [.mount] u).directory.find? "/a" = some firstSlot := by
    rw [hdirectory]
    decide +kernel
  have hchildren : (((run [.mount] u).directory.get firstSlot).isDirectory &&
      (run [.mount] u).directory.hasChildren "/a") = false := by
    rw [hdirectory, get_oneFile]
    rfl
  have hp : Path.ofString? "/a" = some ⟨"/a", by decide, by decide⟩ := by decide
  obtain ⟨hok, hspace, hidle'⟩ := hidle.delete hp (by decide) hfind hchildren hrel
  exact ⟨hok, hspace, hidle'⟩

/-- With the one counter the file is deleted in a run that loads no counter which claims blocks in use. -/
theorem delete_undercounted {u : Volume δ} (hspace : (run [.mount] u).space = undercounted)
    (hdirectory : (run [.mount] u).directory = oneFile) (hidle : (run [.mount] u).Idle) :
    MountsCovered [.mount, .delete "/a"] u ∧ (delete "/a" (run [.mount] u)).result = .ok () ∧
      (run [.mount, .delete "/a"] u).Idle := by
  have hroom : undercounted.free + undercounted.used < UInt32.size :=
    Nat.lt_of_le_of_lt covered_undercounted (by decide)
  obtain ⟨released, hrel⟩ := Space.exists_release (by decide) hroom ownedFile
  have hcovered : (run [.mount] u).space.Covered := by
    rw [hspace]
    exact covered_undercounted
  rw [← hspace] at hrel
  obtain ⟨hdeleted, -, hidle'⟩ := delete_oneFile hdirectory hidle hrel
  exact ⟨⟨fun _ _ => hcovered, nofun, trivial⟩, hdeleted, hidle'⟩

/-- With the other one the counter exceeds the number of blocks then. -/
theorem delete_overcounted {u : Volume δ} (hmount : (mount u).result = .ok ())
    (hspace : (run [.mount] u).space = overcounted) (hdirectory : (run [.mount] u).directory = oneFile)
    (hidle : (run [.mount] u).Idle) : AllServed [.mount, .delete "/a"] u ∧
      ¬(run [.mount, .delete "/a"] u).space.free ≤ (run [.mount, .delete "/a"] u).space.total ∧
      (run [.mount, .delete "/a"] u).Idle := by
  obtain ⟨released, hrel, hcounter⟩ := release_overcounted
  rw [← hspace] at hrel
  obtain ⟨hdeleted, hreleased, hidle'⟩ := delete_oneFile hdirectory hidle hrel
  rw [← hreleased] at hcounter
  have hserved : ¬IsIo (delete "/a" (run [.mount] u)).result := by
    rw [hdeleted]
    exact not_isIo_ok _
  have hmounted : ¬IsIo (mount u).result := by
    rw [hmount]
    exact not_isIo_ok _
  exact ⟨⟨hmounted, hserved, trivial⟩, hcounter, hidle'⟩

/-- A counter that disagrees with the bitmap does not by itself keep a volume from being mounted again. One that takes
a block in use for a free one does not if nothing is deleted, and one that falls short never does. -/
theorem mountable_of_miscounted :
    let d := described (MemoryDisk.blank 1024) overcounted oneFile
    let d' := described (MemoryDisk.blank 1024) undercounted oneFile
    (mount (ofDevice (unmount (run [.mount] (ofDevice d))).state.device)).result = .ok () ∧
      MountsCovered [.mount, .delete "/a"] (ofDevice d') ∧ (delete "/a" (run [.mount] (ofDevice d'))).result = .ok () ∧
        (mount (ofDevice (unmount (run [.mount, .delete "/a"] (ofDevice d'))).state.device)).result = .ok () := by
  constructor
  · obtain ⟨-, hspace, -, hidle⟩ := mount_oneFile (s := overcounted) (by decide)
    generalize described (MemoryDisk.blank 1024) overcounted oneFile = d at hspace hidle
    obtain ⟨hok, hs⟩ := hidle.unmount
    rw [← device_ofDevice (unmount (run [.mount] (ofDevice d))).state.device] at hs
    have hagain := (mountable hok (ofDevice (unmount (run [.mount] (ofDevice d))).state.device)
      (device_ofDevice _) hs).1
    rw [hspace, if_pos (by decide)] at hagain
    exact hagain
  · obtain ⟨-, hspace, hdirectory, hidle⟩ := mount_oneFile (s := undercounted) (by decide)
    generalize described (MemoryDisk.blank 1024) undercounted oneFile = d at hspace hdirectory hidle
    obtain ⟨hcovered, hdeleted, hidle'⟩ := delete_undercounted hspace hdirectory hidle
    obtain ⟨hok, hs⟩ := hidle'.unmount
    rw [← device_ofDevice (unmount (run [.mount, .delete "/a"] (ofDevice d))).state.device] at hs
    exact ⟨hcovered, hdeleted, (mountable hok _ (device_ofDevice _) hs).2 hcovered⟩

/-- **Deleting a file makes the counter exceed the number of blocks, and the volume that is left then is not
mounted again**, although every request was served. -/
theorem unmountable_of_overcounted :
    let d := described (MemoryDisk.blank 1024) overcounted oneFile
    let v := run [.mount, .delete "/a"] (ofDevice d)
    (mount (ofDevice d)).result = .ok () ∧ AllServed [.mount, .delete "/a"] (ofDevice d) ∧
      (unmount v).result = .ok () ∧ ServesReads (List.range firstDataBlock) (unmount v).state.device ∧
      (mount (ofDevice (unmount v).state.device)).result = .error .corrupted := by
  obtain ⟨hmount, hspace, hdirectory, hidle⟩ := mount_oneFile (s := overcounted) (by decide)
  generalize described (MemoryDisk.blank 1024) overcounted oneFile = d at hmount hspace hdirectory hidle
  obtain ⟨hserved, hcounter, hidle'⟩ := delete_overcounted hmount hspace hdirectory hidle
  have hfit : (run [.mount, .delete "/a"] (ofDevice d)).Fit := run_fit (fun hm => by cases hm) hidle'.mounted
  refine ⟨hmount, hserved, ?_⟩
  show (unmount (run [.mount, .delete "/a"] (ofDevice d))).result = .ok () ∧
    ServesReads (List.range firstDataBlock) (unmount (run [.mount, .delete "/a"] (ofDevice d))).state.device ∧
    (mount (ofDevice (unmount (run [.mount, .delete "/a"] (ofDevice d))).state.device)).result = .error .corrupted
  generalize run [.mount, .delete "/a"] (ofDevice d) = v at hcounter hidle' hfit
  obtain ⟨hok, hs⟩ := hidle'.unmount
  refine ⟨hok, hs, ?_⟩
  rw [← device_ofDevice (unmount v).state.device] at hs
  rw [hfit.remounted hok (device_ofDevice (unmount v).state.device) hs, if_neg hcounter]

end Volume

end BlockVolume
