import BlockVolume.Proofs.Device.Interrupted
import BlockVolume.Proofs.Volume.Reload
import BlockVolume.Proofs.Volume.Turnover

/-!
# `Proofs.Volume.Spared` — what mounting leaves alone

A mount writes in two cases: it formats a device that does not begin as a volume, and it stores names that it
has migrated. Either way it writes what describes some volume, and may be broken off in the middle; then each block is as
it was or as it should have become. All else is reading. So it is enough to know in which order these things happen,
wherever the device refuses a request.

## Contents
- `loadRest_refused`, `storeMetadata_wrote` and their like: the parts of mounting, each broken off anywhere.
- **`MountEnds`**: how mounting ends, with **`mount_ends`**.
- `MountEnds.reads`, `MountEnds.writes`: in which order the device is read and written.
- **`SameVolume`**: what is left of a volume that is recognised, on `MountEnds.recognised` and `get_of_migrated`.
- **`Formats`**, with `formats_iff_blank`; **`mount_destroys_nothing`**.
-/

namespace BlockVolume

open BlockVolume.Action Metered

namespace Volume

variable {δ : Type} [BlockDevice δ]

/-! ## Reading that is broken off -/

/-- The directory is read up to the block that is refused. -/
theorem readDirectory_refused {d : δ} {is : List (Fin directoryBlocks)} (t : Directory) {before : List Nat} {i : Nat}
    {e : DeviceError} (hbefore : before ++ [i] <+: is.map fun j => directoryBlock + j.val)
    (h : RefusesRead before i e d) :
    (readDirectory t is).Ensures d fun r d' => r = .error e ∧ d' = readOut (before ++ [i]) d := by
  induction is generalizing before d t with
  | nil => simp at hbefore
  | cons j rest ih =>
    unfold readDirectory
    rw [ensures_bind]
    cases before with
    | nil =>
      obtain ⟨rfl, -⟩ := List.cons_prefix_cons.mp hbefore
      apply (ensures_self _ d).mono
      rintro r d' ⟨rfl, rfl⟩
      have hrefused : (BlockDevice.read (directoryBlock + j.val) d).result = .error e := h.refused
      rw [hrefused]
      exact ⟨rfl, rfl⟩
    | cons k before =>
      obtain ⟨rfl, hrest⟩ := List.cons_prefix_cons.mp hbefore
      obtain ⟨⟨b, hb⟩, hserved⟩ := h.served
      apply (ensures_self _ d).mono
      rintro r d' ⟨rfl, rfl⟩
      rw [hb]
      exact ih _ hrest ⟨hserved, h.refused⟩

/-- After the superblock the description is read up to the block that is refused. -/
theorem loadRest_refused {v : Volume δ} (superblock : Superblock) {before : List Nat} {i : Nat} {e : DeviceError}
    (hbefore : before ++ [i] <+: bitmapBlock :: directoryIndices) (h : RefusesRead before i e v.device) :
    (loadRest superblock).Ensures v fun r w => r = .error (.io e) ∧ w.device = readOut (before ++ [i]) v.device := by
  unfold loadRest
  rw [ensures_bind, ensures_onDevice]
  apply (ensures_self _ v.device).mono
  rintro r d ⟨rfl, rfl⟩
  cases before with
  | nil =>
    obtain ⟨rfl, -⟩ := List.cons_prefix_cons.mp hbefore
    have hrefused : (BlockDevice.read bitmapBlock v.device).result = .error e := h.refused
    rw [hrefused]
    exact ⟨rfl, rfl⟩
  | cons k before =>
    obtain ⟨rfl, hrest⟩ := List.cons_prefix_cons.mp hbefore
    obtain ⟨⟨b, hb⟩, hserved⟩ := h.served
    rw [hb]
    simp only [Except.mapError, ensures_bind, ensures_onDevice]
    apply (readDirectory_refused Directory.empty hrest ⟨hserved, h.refused⟩).mono
    rintro r d ⟨rfl, rfl⟩
    exact ⟨rfl, rfl⟩

/-! ## Writing that is broken off -/

variable [LawfulDevice δ] {v : Volume (Metered δ)}

/-- What describes a volume is stored up to the block that is refused. -/
theorem storeMetadata_wrote : (storeMetadata : VolumeAction (Metered δ) Unit).Ensures v fun r w =>
    (r = .ok () ∨ IsIo r) ∧ w = { v with device := w.device } ∧ PartlyWrote v.metadataBlocks v.device w.device ∧
      ∃ asked, w.device.requests.toList = v.device.requests.toList ++ .write superblockBlock :: asked := by
  unfold storeMetadata
  rw [ensures_bind, ensures_get]
  show (onDevice (reporting metadataFailed
    (writeBlocks v.metadataBlocks >>= fun _ => BlockDevice.flush))).Ensures v _
  rw [ensures_onDevice, ensures_reporting]
  apply ((writeBlocks_wrote v.metadataBlocks v.device).and
    (writeBlocks_begins superblockBlock v.space.superblock.toBlock _ v.device)).mono
  rintro r d ⟨hwrote, hbegins⟩
  refine ⟨?_, rfl, hwrote, hbegins⟩
  cases r with
  | ok u => exact Or.inl rfl
  | error e => exact Or.inr (isIo_io e)

/-- Names that are migrated are stored. -/
theorem finishMount_wrote (space : Space) : (finishMount space : VolumeAction (Metered δ) Unit).Ensures v fun r w =>
    (r = .ok () ∨ IsIo r) ∧ (w.device = v.device ∨
      PartlyWrote { v with directory := v.directory.migrate }.metadataBlocks v.device w.device) := by
  unfold finishMount migrateNames
  simp only [ensures_bind, ensures_get, ensures_emit, ensures_modify]
  by_cases hcount : 0 < v.directory.migrationCount
  · simp only [if_pos hcount, ensures_bind, ensures_note]
    apply (storeMetadata_wrote (v := { v with directory := v.directory.migrate })).mono
    rintro r w ⟨hr, -, hwrote, -⟩
    rcases hr with rfl | ⟨e, rfl⟩
    · exact ⟨Or.inl trivial, Or.inr hwrote⟩
    · exact ⟨Or.inr (isIo_io e), Or.inr hwrote⟩
  · simp only [if_neg hcount, ensures_pure]
    exact ⟨Or.inl rfl, Or.inl rfl⟩

/-- Formatting writes the blocks of an empty volume. -/
theorem format_wrote (hn : volumeBlocks ≤ deviceSize v.device) :
    (format : VolumeAction (Metered δ) Unit).Ensures v fun r w =>
      (r = .ok () ∨ IsIo r) ∧ w = { v.cleared with device := w.device } ∧
        PartlyWrote v.cleared.metadataBlocks v.device w.device ∧
        ∃ asked, w.device.requests.toList = v.device.requests.toList ++ .write superblockBlock :: asked := by
  have hn' : ¬(BlockDevice.info v.device).totalBlocks < volumeBlocks := Nat.not_lt.mpr hn
  unfold format
  simp only [ensures_bind, ensures_get, if_neg hn', ensures_note, ensures_modify]
  apply (storeMetadata_wrote (v := v.cleared)).mono
  rw [show v.cleared.device = v.device by unfold cleared; rfl]
  rintro r w ⟨hr, hw, hwrote, hbegins⟩
  rcases hr with rfl | ⟨e, rfl⟩
  · exact ⟨Or.inl trivial, hw, hwrote, hbegins⟩
  · exact ⟨Or.inr (isIo_io e), hw, hwrote, hbegins⟩

/-! ## How mounting ends -/

/-- The space and the directory that are loaded from blocks, the names migrated, as the blocks that describe them. -/
def migratedBlocks (blocks : Nat → Block) (v : Volume δ) : List (Nat × Block) :=
  metadataBlocks { v with space := Space.read blocks, directory := (Directory.read blocks).migrate }

/-- Block 0 was read and begins as no superblock does, and the device has room for a volume. -/
def Blank (d : Metered δ) : Prop :=
  ∃ b, (BlockDevice.read superblockBlock d).result = .ok b ∧ (Superblock.ofBlock b).magic ≠ volumeMagic ∧
    volumeBlocks ≤ deviceSize d

/-- How mounting ends, by what was asked of the device. -/
inductive MountEnds (v w : Volume (Metered δ)) : Except Error Unit → Prop
  /-- A block of the description is refused when nothing has been written. -/
  | refused {before : List Nat} {i : Nat} {e : DeviceError} (hbefore : before ++ [i] <+: List.range firstDataBlock)
      (hrefused : RefusesRead before i e v.device) (hblank : ¬Blank v.device)
      (hw : w.device = readOut (before ++ [i]) v.device) : MountEnds v w (.error (.io e))
  /-- The superblock is read and not accepted, and nothing more is asked. -/
  | rejected {e : Error} (hserved : ServesReads [superblockBlock] v.device) (hblank : ¬Blank v.device)
      (hw : w.device = readOut [superblockBlock] v.device) : MountEnds v w (.error e)
  /-- The device is formatted and, where that succeeds, read. -/
  | formatted {r : Except Error Unit} {m : Metered δ} {is : List Nat} (hblank : Blank v.device)
      (hwrote : PartlyWrote v.cleared.metadataBlocks (readOut [superblockBlock] v.device) m)
      (hbegins : ∃ asked, m.requests.toList =
        (readOut [superblockBlock] v.device).requests.toList ++ .write superblockBlock :: asked)
      (hw : w.device = readOut is m) (hr : r = .ok () ∨ IsIo r) : MountEnds v w r
  /-- The description is read, and stored if a name was migrated. -/
  | loaded {r : Except Error Unit} (hserved : ServesReads (List.range firstDataBlock) v.device)
      (hblank : ¬Blank v.device)
      (hw : w.device = readOut (List.range firstDataBlock) v.device ∨
        PartlyWrote (migratedBlocks (content v.device) v) (readOut (List.range firstDataBlock) v.device) w.device)
      (hr : r = .ok () ∨ IsIo r) : MountEnds v w r

omit [LawfulDevice δ] in
/-- A device whose superblock is not told apart as foreign is not blank. -/
theorem not_blank {d : Metered δ} {b : Block} (hb : (BlockDevice.read superblockBlock d).result = .ok b) {n : Nat}
    (hvalid : (Superblock.ofBlock b).validate n ≠ .error .unformatted) : ¬Blank d := by
  rintro ⟨b', hb', hmagic, -⟩
  obtain rfl : b = b' := Except.ok.inj (hb.symm.trans hb')
  exact hvalid (Superblock.validate_eq_unformatted_iff.mpr hmagic)

/-- With a superblock that is accepted the rest of the description is read, and stored if a name was migrated. -/
theorem loadRest_ends {b : Block} (hb : (BlockDevice.read superblockBlock v.device).result = .ok b)
    (hblank : ¬Blank v.device) {u : Volume (Metered δ)} (hu : u.device = readOut [superblockBlock] v.device) :
    (loadRest (Superblock.ofBlock b)).Ensures u fun r w => MountEnds v w r := by
  obtain ⟨-, hcontent, hvalue⟩ := LawfulDevice.read_ensures superblockBlock v.device
  have hcontent : content u.device = content v.device := by
    rw [hu]
    exact hcontent
  obtain rfl := hvalue b hb
  have hspace : (⟨(Space.read (content u.device)).bitmap, Superblock.ofBlock (content v.device superblockBlock)⟩ : Space) =
      Space.read (content v.device) := by
    rw [hcontent]
    rfl
  rcases serves_or_refuses (bitmapBlock :: directoryIndices) u.device with hs | ⟨before, i, e, hbefore, hrefused⟩
  · apply loadRest_served _ hs
    rw [hspace, hcontent]
    apply (finishMount_wrote (Space.read (content v.device))).mono
    have hout : readOut (bitmapBlock :: directoryIndices) u.device = readOut (List.range firstDataBlock) v.device := by
      rw [range_firstDataBlock, hu]
      simp only [readOut, List.foldl_cons, List.foldl_nil]
    rw [hu] at hs
    rintro r w ⟨hr, hw⟩
    simp only [hout] at hw
    refine .loaded ?_ hblank hw hr
    rw [range_firstDataBlock]
    exact ⟨⟨_, hb⟩, hs⟩
  · apply (loadRest_refused _ hbefore hrefused).mono
    rintro r w ⟨rfl, hw⟩
    rw [hu] at hw hrefused
    refine .refused ?_ (hrefused.cons hb) hblank hw
    rw [range_firstDataBlock]
    exact List.cons_prefix_cons.mpr ⟨rfl, hbefore⟩

/-- A blank device is formatted, and read if that succeeds. -/
theorem format_ends (hblank : Blank v.device) {u : Volume (Metered δ)}
    (hu : u.device = readOut [superblockBlock] v.device) :
    ((format >>= fun _ => Action.get >>= fun w => loadRest w.space.superblock) : VolumeAction (Metered δ) Unit).Ensures
      u fun r w => MountEnds v w r := by
  have hn : volumeBlocks ≤ deviceSize u.device := by
    obtain ⟨-, -, -, hn⟩ := hblank
    rw [hu]
    exact le_deviceSize (content_readOut _ _).2 hn
  have hblocks : u.cleared.metadataBlocks = v.cleared.metadataBlocks := rfl
  rw [ensures_bind]
  apply ((format_wrote hn).and (format_cases u)).mono
  rintro r w ⟨⟨hr, hw, hwrote, hbegins⟩, hcases⟩
  rw [hu, hblocks] at hwrote
  rw [hu] at hbegins
  rcases hr with rfl | ⟨e, rfl⟩
  · have hpersisted : Persisted (content w.device) Space.fresh Directory.empty := by
      rcases hcases with ⟨hlt, -⟩ | ⟨-, ⟨-, hs⟩ | ⟨⟨e, he⟩, -⟩⟩
      · exact absurd hn (Nat.not_le.mpr hlt)
      · have hp := hs.persisted_of_store
        rw [hw] at hp ⊢
        exact hp
      · cases he
    have hnames : (Directory.read (content w.device)).migrationCount = 0 := by
      rw [hpersisted.read.2]
      exact Directory.migrationCount_empty
    simp only [ensures_bind, ensures_get]
    rcases serves_or_refuses (bitmapBlock :: directoryIndices) w.device with hs | ⟨before, i, e, hbefore, hrefused⟩
    · apply (loadRest_reads _ hnames hs).mono
      rintro r w' ⟨rfl, rfl⟩
      exact .formatted hblank hwrote hbegins rfl (Or.inl rfl)
    · apply (loadRest_refused _ hbefore hrefused).mono
      rintro r w' ⟨rfl, hw'⟩
      exact .formatted hblank hwrote hbegins hw' (Or.inr (isIo_io e))
  · have hw : w.device = readOut [] w.device := rfl
    exact .formatted hblank hwrote hbegins hw (Or.inr (isIo_io e))

/-- **How mounting ends, whatever the device holds and wherever it refuses a request.** -/
theorem mount_ends (v : Volume (Metered δ)) :
    (mount : VolumeAction (Metered δ) Unit).Ensures v fun r w => MountEnds v w r := by
  rw [ensures_mount, loadSuperblock, bind_assoc, ensures_bind, ensures_onDevice]
  apply (ensures_self (BlockDevice.read superblockBlock) v.device).mono
  rintro r d ⟨rfl, rfl⟩
  generalize hu : ({ v.left with device := (BlockDevice.read superblockBlock v.device).state } : Volume (Metered δ)) = u
  have hdevice : u.device = readOut [superblockBlock] v.device := hu ▸ rfl
  cases hread : (BlockDevice.read superblockBlock v.device).result with
  | error e =>
    refine @MountEnds.refused _ _ _ v _ [] _ _ ?_ (.of_first hread) ?_ hdevice
    · rw [range_firstDataBlock]
      exact List.cons_prefix_cons.mpr ⟨rfl, List.nil_prefix⟩
    · rintro ⟨b, hb, -⟩
      cases hread.symm.trans hb
  | ok b =>
    have hserved : ServesReads [superblockBlock] v.device := ⟨⟨b, hread⟩, trivial⟩
    simp only [Except.mapError, bind_assoc, ensures_bind, ensures_get]
    split
    · rename_i hvalid
      have hblank : ¬Blank v.device := not_blank hread fun hno => by cases hvalid.symm.trans hno
      exact loadRest_ends hread hblank hdevice
    · rename_i hunformatted
      rw [ensures_bind, ensures_note]
      by_cases hn : volumeBlocks ≤ deviceSize v.device
      · have hmagic := Superblock.validate_eq_unformatted_iff.mp hunformatted
        simpa only [ensures_bind, ensures_get, ensures_pure] using format_ends ⟨b, hread, hmagic, hn⟩ hdevice
      · -- the device is too small, and nothing is written
        have hblank : ¬Blank v.device := fun hblank => hn hblank.choose_spec.2.2
        rw [ensures_bind]
        apply (format_cases u).mono
        rintro r w (⟨-, ⟨e, rfl⟩, rfl⟩ | ⟨hn', -⟩)
        · exact .rejected hserved hblank hdevice
        · rw [hdevice, deviceSize_congr (content_readOut _ _).2] at hn'
          exact absurd hn' hn
    · rename_i e hne hrejected
      have hblank : ¬Blank v.device := not_blank hread fun hno => hne (Except.error.inj (hrejected.symm.trans hno))
      rw [ensures_bind, ensures_note]
      exact .rejected hserved hblank hdevice

/-! ## What was asked -/

/-- Mounting begins with reads. All of them are served, or one is refused and ends it. -/
theorem MountEnds.reads {w : Volume (Metered δ)} {r : Except Error Unit} (h : MountEnds v w r) :
    ∃ (is : List Nat) (tail : List Request),
      w.device.requests.toList = v.device.requests.toList ++ (is.map Request.read ++ tail) ∧
        (∀ q ∈ tail.head?, ∀ j, q ≠ .read j) ∧
        (ServesReads is v.device ∨ ∃ before i e, is = before ++ [i] ∧ RefusesRead before i e v.device ∧ tail = [] ∧
          r = .error (.io e) ∧ content w.device = content v.device) := by
  have hreads (is : List Nat) (hw : w.device = readOut is v.device) :
      w.device.requests.toList = v.device.requests.toList ++ (is.map Request.read ++ []) := by
    rw [hw, requests_readOut, List.append_nil]
  cases h with
  | @refused before i e _ hrefused _ hw =>
    exact ⟨before ++ [i], [], hreads _ hw, nofun, Or.inr ⟨before, i, e, rfl, hrefused, rfl, rfl,
      by rw [hw, (content_readOut _ _).1]⟩⟩
  | rejected hserved _ hw => exact ⟨[superblockBlock], [], hreads _ hw, nofun, Or.inl hserved⟩
  | @formatted _ m is hblank _ hbegins hw _ =>
    obtain ⟨b, hb, -⟩ := hblank
    obtain ⟨asked, hasked⟩ := hbegins
    refine ⟨[superblockBlock], .write superblockBlock :: (asked ++ is.map Request.read), ?_, ?_, Or.inl ⟨⟨b, hb⟩, trivial⟩⟩
    · rw [hw, requests_readOut, hasked, requests_readOut]
      simp
    · rintro q ⟨⟩ j hj
      cases hj
  | loaded hserved _ hw _ =>
    rcases hw with hw | hwrote
    · exact ⟨_, [], hreads _ hw, nofun, Or.inl hserved⟩
    · obtain ⟨asked, hasked, hwrites⟩ := hwrote.requests
      refine ⟨_, asked, ?_, ?_, Or.inl hserved⟩
      · rw [hasked, requests_readOut, List.append_assoc]
      · intro q hq j hj
        rcases hwrites q (List.mem_of_mem_head? hq) with rfl | ⟨i, -, rfl⟩ <;> cases hj

/-- What describes some volume is all that is written, between reads. -/
theorem MountEnds.parts {w : Volume (Metered δ)} {r : Except Error Unit} (h : MountEnds v w r) :
    ∃ (u : Volume (Metered δ)) (is js : List Nat) (m : Metered δ),
      PartlyWrote u.metadataBlocks (readOut is v.device) m ∧ w.device = readOut js m := by
  have hreads {is : List Nat} (hw : w.device = readOut is v.device) : ∃ (u : Volume (Metered δ)) (is js : List Nat)
      (m : Metered δ), PartlyWrote u.metadataBlocks (readOut is v.device) m ∧ w.device = readOut js m :=
    ⟨v, is, [], _, .refl _ _, hw⟩
  cases h with
  | refused _ _ _ hw => exact hreads hw
  | rejected _ _ hw => exact hreads hw
  | formatted _ hwrote _ hw _ => exact ⟨_, _, _, _, hwrote, hw⟩
  | loaded _ _ hw _ =>
    rcases hw with hw | hwrote
    · exact hreads hw
    · exact ⟨_, _, [], _, hwrote, rfl⟩

/-- No block past the description is written. -/
theorem MountEnds.writes {w : Volume (Metered δ)} {r : Except Error Unit} (h : MountEnds v w r) :
    (∃ asked, w.device.requests.toList = v.device.requests.toList ++ asked ∧
      ∀ i, .write i ∈ asked → i < firstDataBlock) ∧
      ∀ b, firstDataBlock ≤ b → content w.device b = content v.device b := by
  obtain ⟨u, is, js, m, hwrote, hw⟩ := h.parts
  obtain ⟨asked, hasked, hwrites⟩ := hwrote.requests
  rw [hw]
  constructor
  · refine ⟨is.map Request.read ++ asked ++ js.map Request.read, ?_, ?_⟩
    · rw [requests_readOut, hasked, requests_readOut]
      simp only [List.append_assoc]
    · intro i hi
      simp only [List.mem_append, List.mem_map, reduceCtorEq, and_false, exists_false, or_false, false_or] at hi
      rcases hwrites _ hi with hflush | ⟨j, hj, hwrite⟩
      · cases hflush
      · cases hwrite
        rwa [map_fst_metadataBlocks, List.mem_range] at hj
  · intro b hb
    rw [(content_readOut _ _).1]
    rcases hwrote.content b with hsame | hnew
    · rw [hsame, (content_readOut _ _).1]
    · exact absurd hb (Nat.not_le.mpr (u.metadataBlocks_lt _ hnew))

/-! ## What is recognised -/

omit [BlockDevice δ] [LawfulDevice δ] in
/-- The blocks that describe a volume. -/
theorem mem_metadataBlocks {u : Volume δ} {b : Nat} {x : Block} (h : (b, x) ∈ u.metadataBlocks) :
    (b = superblockBlock ∧ x = u.space.superblock.toBlock) ∨ (b = bitmapBlock ∧ x = u.space.bitmap.toBlock) ∨
      ∃ i : Fin directoryBlocks, b = directoryBlock + i.val ∧ x = u.directory.encode i := by
  rcases List.mem_cons.mp h with h | h
  · exact Or.inl (Prod.mk.inj h)
  · rcases List.mem_cons.mp h with h | h
    · exact Or.inr (Or.inl (Prod.mk.inj h))
    · obtain ⟨i, -, hi⟩ := List.mem_map.mp h
      obtain ⟨rfl, rfl⟩ := Prod.mk.inj hi
      exact Or.inr (Or.inr ⟨i, rfl, rfl⟩)

/-- The blocks `after` describe what the blocks `before` describe, up to names. -/
structure SameVolume (before after : Nat → Block) : Prop where
  bitmap : after bitmapBlock = before bitmapBlock
  superblock : Superblock.ofBlock (after superblockBlock) = Superblock.ofBlock (before superblockBlock)
  entries (slot : Slot) :
    ((Directory.read after).get slot).kind = ((Directory.read before).get slot).kind ∧
      ((Directory.read after).get slot).size = ((Directory.read before).get slot).size ∧
      ((Directory.read after).get slot).firstBlock = ((Directory.read before).get slot).firstBlock ∧
      ((Directory.read after).get slot).blocks = ((Directory.read before).get slot).blocks

omit [BlockDevice δ] [LawfulDevice δ] in
/-- A migration that is broken off anywhere has migrated each entry, or has left it. -/
theorem get_of_migrated {before after : Nat → Block} {u : Volume δ}
    (h : ∀ b, after b = before b ∨ (b, after b) ∈ migratedBlocks before u) (slot : Slot) :
    (Directory.read after).get slot = (Directory.read before).get slot ∨
      (Directory.read after).get slot = ((Directory.read before).get slot).migrate := by
  rcases h (directoryBlock + (Directory.blockOf slot).val) with hsame | hnew
  · rw [Directory.get_read, Directory.get_read, hsame]
    exact Or.inl rfl
  · have hpast : bitmapBlock < directoryBlock + (Directory.blockOf slot).val := Nat.lt_add_right _ (by decide)
    rcases mem_metadataBlocks hnew with ⟨hb, -⟩ | ⟨hb, -⟩ | ⟨i, hb, hx⟩
    · exact absurd hpast (by rw [hb]; decide)
    · exact absurd hpast (by rw [hb]; decide)
    · obtain rfl : Directory.blockOf slot = i := Fin.ext (Nat.add_left_cancel hb)
      rw [Directory.get_read, hx, Directory.ofBlock_encode _ slot _ rfl, ← Directory.get_migrate]
      exact Or.inr rfl

omit [BlockDevice δ] [LawfulDevice δ] in
/-- A migration that is broken off anywhere changes names only. -/
theorem SameVolume.of_migrated {before after : Nat → Block} {u : Volume δ}
    (h : ∀ b, after b = before b ∨ (b, after b) ∈ migratedBlocks before u) : SameVolume before after where
  bitmap := by
    rcases h bitmapBlock with hsame | hnew
    · exact hsame
    · rcases mem_metadataBlocks hnew with ⟨hb, -⟩ | ⟨-, hx⟩ | ⟨i, hb, -⟩
      · exact absurd hb (by decide)
      · exact hx
      · have hlt : bitmapBlock < directoryBlock + i.val := Nat.lt_add_right _ (by decide)
        omega
  superblock := by
    rcases h superblockBlock with hsame | hnew
    · rw [hsame]
    · rcases mem_metadataBlocks hnew with ⟨-, hx⟩ | ⟨hb, -⟩ | ⟨i, hb, -⟩
      · rw [hx, Superblock.ofBlock_toBlock]
        rfl
      · exact absurd hb (by decide)
      · have hlt : superblockBlock < directoryBlock + i.val := Nat.lt_add_right _ (by decide)
        omega
  entries slot := by
    rcases get_of_migrated h slot with hsame | hmigrated
    · rw [hsame]
      exact ⟨rfl, rfl, rfl, rfl⟩
    · rw [hmigrated]
      exact Entry.migrate_fields _

/-- Where a volume is recognised each block stays, or is written by the migration. -/
theorem MountEnds.recognised {w : Volume (Metered δ)} {r : Except Error Unit} (h : MountEnds v w r)
    (hmagic : (Superblock.ofBlock (content v.device superblockBlock)).magic = volumeMagic) (b : Nat) :
    content w.device b = content v.device b ∨ (b, content w.device b) ∈ migratedBlocks (content v.device) v := by
  have hreads {is : List Nat} (hw : w.device = readOut is v.device) : content w.device b = content v.device b := by
    rw [hw, (content_readOut _ _).1]
  cases h with
  | refused _ _ _ hw => exact Or.inl (hreads hw)
  | rejected _ _ hw => exact Or.inl (hreads hw)
  | formatted hblank _ _ _ _ =>
    obtain ⟨x, hx, hne, -⟩ := hblank
    obtain rfl := (LawfulDevice.read_ensures superblockBlock v.device).2.2 x hx
    exact absurd hmagic hne
  | loaded _ _ hw _ =>
    rcases hw with hw | hwrote
    · exact Or.inl (hreads hw)
    · have hcontent := congrFun (content_readOut (List.range firstDataBlock) v.device).1 b
      exact (hwrote.content b).imp (fun hsame => hsame.trans hcontent) id

/-- What is recognised as a volume stays the same volume. -/
theorem MountEnds.sameVolume {w : Volume (Metered δ)} {r : Except Error Unit} (h : MountEnds v w r)
    (hmagic : (Superblock.ofBlock (content v.device superblockBlock)).magic = volumeMagic) :
    SameVolume (content v.device) (content w.device) :=
  .of_migrated (h.recognised hmagic)

/-! ## What is formatted -/

/-- Mounting formats the device: right after the look at its first block it turns to writing there, and all that
it writes describes an empty volume. -/
structure Formats (v : Volume (Metered δ)) : Prop where
  begins : ∃ asked, (mount v).state.device.requests.toList =
    v.device.requests.toList ++ .read superblockBlock :: .write superblockBlock :: asked
  empties (b : Nat) : content (mount v).state.device b = content v.device b ∨
    (b, content (mount v).state.device b) ∈ v.cleared.metadataBlocks

/-- **Blank devices are formatted, and no others.** -/
theorem formats_iff_blank (v : Volume (Metered δ)) : v.Formats ↔ Blank v.device := by
  have hends : MountEnds v (mount v).state (mount v).result := mount_ends v
  generalize (mount v).result = r at hends
  constructor
  · intro hformats
    by_contra hblank
    obtain ⟨asked, hasked⟩ := hformats.begins
    have hreads {is : List Nat} (hw : (mount v).state.device = readOut is v.device) : False := by
      rw [hw, requests_readOut] at hasked
      have hmem : Request.write superblockBlock ∈ is.map Request.read := by
        rw [List.append_cancel_left hasked]
        simp
      simp at hmem
    cases hends with
    | refused _ _ _ hw => exact hreads hw
    | rejected _ _ hw => exact hreads hw
    | formatted hblank' _ _ _ _ => exact hblank hblank'
    | loaded _ _ hw _ =>
      rcases hw with hw | hwrote
      · exact hreads hw
      · obtain ⟨asked', hasked', -⟩ := hwrote.requests
        rw [hasked', requests_readOut, List.append_assoc, range_firstDataBlock] at hasked
        have hlist := List.append_cancel_left hasked
        simp only [List.map_cons, List.cons_append, List.cons.injEq, reduceCtorEq, false_and, and_false] at hlist
  · intro hblank
    cases hends with
    | refused _ _ hno _ => exact absurd hblank hno
    | rejected _ hno _ => exact absurd hblank hno
    | loaded _ hno _ _ => exact absurd hblank hno
    | @formatted _ m is _ hwrote hbegins hw _ =>
      obtain ⟨asked, hasked⟩ := hbegins
      refine ⟨⟨asked ++ is.map Request.read, ?_⟩, ?_⟩
      · rw [hw, requests_readOut, hasked, requests_readOut]
        simp
      · intro b
        have hcontent := congrFun (content_readOut [superblockBlock] v.device).1 b
        rw [hw, (content_readOut _ _).1]
        exact (hwrote.content b).imp (fun hsame => hsame.trans hcontent) id

/-! ## What is refused -/

/-- A device that is rejected as damaged was only read from. -/
theorem MountEnds.of_corrupted {w : Volume (Metered δ)} (h : MountEnds v w (.error .corrupted)) :
    ∃ is : List Nat, w.device = readOut is v.device := by
  cases h with
  | rejected _ _ hw => exact ⟨_, hw⟩
  | formatted _ _ _ _ hr => rcases hr with hr | ⟨e, hr⟩ <;> cases hr
  | loaded _ _ _ hr => rcases hr with hr | ⟨e, hr⟩ <;> cases hr

/-- A read that is refused when nothing has been written ends the mounting. -/
theorem MountEnds.of_refused {w : Volume (Metered δ)} {r : Except Error Unit} (h : MountEnds v w r)
    {before : List Nat} {i : Nat} {e : DeviceError} {rest : List Request}
    (hasked : w.device.requests.toList = v.device.requests.toList ++ ((before ++ [i]).map Request.read ++ rest))
    (hrefused : (BlockDevice.read i (readOut before v.device)).result = .error e) :
    r = .error (.io e) ∧ rest = [] ∧ content w.device = content v.device := by
  obtain ⟨is, tail, htail, hhead, hreads⟩ := h.reads
  obtain ⟨ks, rfl, hrest⟩ := reads_of_append_eq hhead (List.append_cancel_left (hasked.symm.trans htail))
  -- where more was read after it the block was served
  have hlast {ks : List Nat} (hserved : ServesReads (before ++ [i] ++ ks) v.device) : False := by
    rw [List.append_assoc] at hserved
    obtain ⟨b, hb⟩ := hserved.served
    cases hb.symm.trans hrefused
  rcases hreads with hserved | ⟨before', i', e', his, hrefused', rfl, rfl, hcontent⟩
  · exact (hlast hserved).elim
  · rcases List.eq_nil_or_concat ks with rfl | ⟨ks', k, rfl⟩
    · rw [List.append_nil] at his
      obtain ⟨rfl, hi⟩ := List.append_inj' his rfl
      obtain rfl := List.singleton_inj.mp hi
      cases hrefused'.refused.symm.trans hrefused
      exact ⟨rfl, hrest, hcontent⟩
    · rw [List.concat_eq_append, ← List.append_assoc] at his
      obtain ⟨rfl, -⟩ := List.append_inj' his rfl
      exact (hlast hrefused'.served).elim

omit [LawfulDevice δ] in
/-- Mounting leaves no file open. -/
theorem mount_no_files (v : Volume (Metered δ)) : (mount : VolumeAction (Metered δ) Unit).Ensures v fun _ w =>
    ∀ p, w.handles.fileAt? p = none := by
  rw [ensures_mount]
  refine Ensures.bind loadSuperblock_handles ?_ ?_
  · intro superblock u hu
    apply (loadRest_sameHandles superblock u).mono
    intro _ w hw p
    rw [hw.handles, hu]
    split <;> exact Pool.fileAt?_reset _ p
  · intro e u hu p
    rw [hu]
    split <;> exact Pool.fileAt?_reset _ p

/-! ## Mounting -/

/-- **Mounting destroys nothing that it recognises**, whatever the device holds and whichever requests it refuses. It
formats blank devices and no others, and never writes past the description. Of a device that begins as a volume
it changes names at most, even if a migration is broken off. Nothing at all has been written when a damaged superblock
is reported, or when a read is refused that came before all writes; and after every error the volume is not mounted and no
file is open. -/
theorem mount_destroys_nothing (v : Volume (Metered δ)) :
    (v.Formats ↔ ∃ b, (BlockDevice.read superblockBlock v.device).result = .ok b ∧
      (Superblock.ofBlock b).magic ≠ volumeMagic ∧ volumeBlocks ≤ deviceSize v.device) ∧
    (mount : VolumeAction (Metered δ) Unit).Ensures v fun r w =>
      ∃ asked, w.device.requests.toList = v.device.requests.toList ++ asked ∧
        (∀ i, .write i ∈ asked → i < firstDataBlock) ∧
        (∀ b, firstDataBlock ≤ b → content w.device b = content v.device b) ∧
        ((Superblock.ofBlock (content v.device superblockBlock)).magic = volumeMagic →
          SameVolume (content v.device) (content w.device)) ∧
        (r = .error .corrupted → (∀ i, .write i ∉ asked) ∧ content w.device = content v.device) ∧
        (∀ before i e rest, asked = (before ++ [i]).map Request.read ++ rest →
          (BlockDevice.read i (readOut before v.device)).result = .error e →
            r = .error (.io e) ∧ rest = [] ∧ content w.device = content v.device) ∧
        ∀ e, r = .error e → w.mounted = false ∧ ∀ p, w.handles.fileAt? p = none := by
  refine ⟨formats_iff_blank v, ?_⟩
  apply (((mount_ends v).and (mount_cases v)).and (mount_no_files v)).mono
  rintro r w ⟨⟨hends, hcases⟩, hfiles⟩
  obtain ⟨⟨asked, hasked, hwrites⟩, hdata⟩ := hends.writes
  refine ⟨asked, hasked, hwrites, hdata, hends.sameVolume, ?_, ?_, ?_⟩
  · rintro rfl
    obtain ⟨is, hw⟩ := hends.of_corrupted
    rw [hw, requests_readOut] at hasked
    rw [← List.append_cancel_left hasked, hw, (content_readOut _ _).1]
    exact ⟨by simp, rfl⟩
  · rintro before i e rest rfl hrefused
    exact hends.of_refused hasked hrefused
  · rintro e rfl
    rcases hcases with ⟨hok, -⟩ | ⟨-, hmounted⟩
    · cases hok
    · exact ⟨hmounted, hfiles⟩

end Volume

end BlockVolume
