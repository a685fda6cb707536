import BlockVolume.Proofs.Volume.Bytes

/-!
# `Proofs.Volume.Calls` — the operations of a volume as steps

For each operation but mounting: the steps that it takes from a sound volume, and how it ends. What an
operation refuses before its first step leaves the volume as it was.

## Contents
- **`Synced`**: the device describes the volume as it is; `storeMetadata_cases`.
- **`flush_walk`**, **`format_cases`**, **`unmount_cases`**.
- `ensures_createEntry`, `ensures_delete`, `ensures_acquireFile`, `ensures_openPath`: what is left of an
  operation once its checks are passed, on any device.
- **`createEntry_cases`**, **`create_cases`**, **`delete_cases`**; `create_added`, where nothing declines.
- **`openPath_cases`**, **`close_cases`**, **`seek_cases`**, **`read_cases`**, **`write_cases`**;
  `openPath_created`, where nothing declines.
-/

namespace BlockVolume

open BlockVolume.Action Space

namespace Volume

variable {δ : Type} [BlockDevice δ] [LawfulDevice δ] {u v w : Volume δ} {p : Place} {f : OpenFile}

/-! ## The description of the volume -/

/-- Storing changes the device alone. -/
theorem Step.eq_of_store (hs : Step .store v w) : w = { v with device := w.device } := by
  cases hs with
  | store _ _ _ => rfl

/-- The device describes the volume as it is in memory. -/
def Synced (v : Volume δ) : Prop := Persisted (content v.device) v.space v.directory

theorem Step.synced (hs : Step .store v w) : w.Synced := by
  cases hs with
  | store _ hp _ => exact hp

/-- What is stored is the space and the directory in memory. -/
theorem Step.persisted_of_store (hs : Step .store v w) : Persisted (content w.device) v.space v.directory := by
  cases hs with
  | store _ hp _ => exact hp

/-- The description reaches the device, or the device refuses part of it. -/
theorem storeMetadata_cases (hn : firstDataBlock ≤ deviceSize v.device) :
    (storeMetadata : VolumeAction δ Unit).Ensures v fun r w =>
      (r = .ok () ∧ Step .store v w) ∨ (IsIo r ∧ Step .fault v w) := by
  unfold storeMetadata
  rw [ensures_bind, ensures_get]
  show (onDevice (reporting metadataFailed
    (writeBlocks v.metadataBlocks >>= fun _ => BlockDevice.flush))).Ensures v _
  rw [ensures_onDevice, ensures_reporting]
  apply (storing_cases hn).mono
  rintro r d ⟨hdata, ⟨rfl, hd, hs⟩ | ⟨e, rfl, hs⟩⟩
  · exact Or.inl ⟨rfl, .store hs hd hdata⟩
  · exact Or.inr ⟨isIo_io e, .fault hs hdata⟩

theorem Sound.firstDataBlock_le (h : v.Sound) : firstDataBlock ≤ deviceSize v.device :=
  BlockVolume.firstDataBlock_le h.size_le

theorem storeMetadata_walk (h : v.Sound) : (storeMetadata : VolumeAction δ Unit).Ensures v fun r w =>
    Walk [.store] [.fault] v r w ∧ (¬IsIo r → w.Synced) := by
  apply (storeMetadata_cases h.firstDataBlock_le).mono
  rintro r w (⟨rfl, hs⟩ | ⟨hio, hs⟩)
  · exact ⟨.step hs (by simp) (not_isIo_ok _), fun _ => hs.synced⟩
  · exact ⟨.fault hs (by simp) hio, fun hno => absurd hio hno⟩

/-- Flushing stores the description of a mounted volume. -/
theorem flush_walk (h : v.Sound) : (flush : VolumeAction δ Unit).Ensures v fun r w =>
    Walk [.store] [.fault] v r w ∧ (v.mounted = true → ¬IsIo r → w.Synced) := by
  unfold flush
  refine ensures_whenMounted.mpr ⟨fun _ => ?_, fun hno => ⟨.refl (by simp), fun hm => ?_⟩⟩
  · exact (storeMetadata_walk h).mono fun _ _ hr => ⟨hr.1, fun _ => hr.2⟩
  · cases hno.symm.trans hm

/-- The volume in memory when it is about to be formatted. -/
def cleared (v : Volume δ) : Volume δ :=
  { v with handles := v.handles.reset, space := Space.fresh, directory := Directory.empty }

omit [BlockDevice δ] [LawfulDevice δ] in
theorem cleared_fileAt? (v : Volume δ) (p : Place) : v.cleared.handles.fileAt? p = none :=
  Pool.fileAt?_reset _ _

/-- Whatever the volume was, on a large enough device it is sound once it is cleared. -/
theorem sound_cleared (hn : volumeBlocks ≤ deviceSize v.device) : v.cleared.Sound := by
  refine .of_no_files Allocated.fresh ?_ v.cleared_fileAt?
  unfold cleared
  exact hn

/-- A device that is too small is not formatted; on any other an empty volume is stored. -/
theorem format_cases (v : Volume δ) : (format : VolumeAction δ Unit).Ensures v fun r w =>
    (deviceSize v.device < volumeBlocks ∧ IsIo r ∧ w = v) ∨
      (volumeBlocks ≤ deviceSize v.device ∧
        ((r = .ok () ∧ Step .store v.cleared w) ∨ (IsIo r ∧ Step .fault v.cleared w))) := by
  unfold format
  by_cases hn : deviceSize v.device < volumeBlocks
  · have hn' : (BlockDevice.info v.device).totalBlocks < volumeBlocks := hn
    simp only [ensures_bind, ensures_get, if_pos hn', ensures_note, ensures_throw]
    exact Or.inl ⟨hn, isIo_io _, trivial⟩
  · have hn' : ¬(BlockDevice.info v.device).totalBlocks < volumeBlocks := hn
    have hle := Nat.le_of_not_lt hn
    simp only [ensures_bind, ensures_get, if_neg hn', ensures_note, ensures_modify]
    apply (storeMetadata_cases (v := v.cleared) (sound_cleared hle).firstDataBlock_le).mono
    rintro r w (⟨rfl, hs⟩ | ⟨⟨e, rfl⟩, hs⟩)
    · exact Or.inr ⟨hle, Or.inl ⟨trivial, hs⟩⟩
    · exact Or.inr ⟨hle, Or.inr ⟨isIo_io e, hs⟩⟩

theorem format_walk (h : v.Sound) :
    (format : VolumeAction δ Unit).Ensures v (Walk [.clear, .store] [.fault] v) := by
  apply (format_cases v).mono
  intro r w hr
  have hclear : Walk [.clear, .store] [.fault] v (.ok () : Except Error Unit) v.cleared :=
    .step .clear (by simp) (not_isIo_ok _)
  rcases hr with ⟨hlt, -⟩ | ⟨-, ⟨rfl, hs⟩ | ⟨hio, hs⟩⟩
  · exact absurd h.size_le (Nat.not_le.mpr hlt)
  · exact hclear.after (.step hs (by simp) (not_isIo_ok _))
  · exact hclear.after (.fault hs (by simp) hio)

/-! ## Leaving -/

/-- The file at a place, if there is one, has nothing to write back. -/
def CleanAt (v : Volume δ) (p : Place) : Prop :=
  ∀ f, v.handles.fileAt? p = some f → f.cache.dirty = false

/-- Writing back and storing makes no cache dirty. -/
theorem Step.cleanAt {c : Change} (hs : Step c v w) (hc : c = .writeBack ∨ c = .store) (h : v.CleanAt p) :
    w.CleanAt p := by
  cases hs with
  | store _ _ _ => exact h
  | @writeBack _ q g _ d hq _ _ _ =>
    intro f hf
    unfold editFile at hf
    rw [Pool.fileAt?_modifyFile] at hf
    by_cases hpq : p = q
    · rw [if_pos hpq, hpq] at hf
      obtain ⟨g', -, rfl⟩ := Option.map_eq_some_iff.mp hf
      rfl
    · rw [if_neg hpq] at hf
      exact h f hf
  | _ => simp at hc

theorem Trace.cleanAt (ht : Trace (· ∈ [.writeBack, .store]) v w) (h : v.CleanAt p) : w.CleanAt p := by
  induction ht with
  | refl => exact h
  | tail _ hs hc ih => exact hs.cleanAt (by simpa using hc) ih

/-- Afterwards the caches at the given places are clean, unless the device has refused one. -/
theorem writeBackAll_cases {places : List Place} (h : v.Sound) :
    (writeBackAll places : VolumeAction δ Unit).Ensures v fun r w => Walk [.writeBack] [.fault] v r w ∧
      ((r = .ok () ∧ ∀ p ∈ places, w.CleanAt p) ∨ IsIo r) := by
  induction places generalizing v with
  | nil => exact ⟨.refl (not_isIo_ok _), Or.inl ⟨rfl, fun p hp => by cases hp⟩⟩
  | cons q rest ih =>
    unfold writeBackAll
    have hhead : (writeBackAt q).Ensures v fun r w => Walk [.writeBack] [.fault] v r w ∧
        ((r = .ok () ∧ w.CleanAt q) ∨ IsIo r) := by
      cases hq : v.handles.fileAt? q with
      | none =>
        unfold writeBackAt
        simp only [ensures_bind, ensures_get, hq, ensures_pure]
        exact ⟨.refl (not_isIo_ok _), Or.inl ⟨trivial, fun f hf => by rw [hq] at hf; cases hf⟩⟩
      | some f =>
        apply (writeBackAt_cases h hq).mono
        rintro r w ⟨hwalk, ⟨rfl, hw⟩ | ⟨hio, -⟩⟩
        · refine ⟨hwalk, Or.inl ⟨rfl, fun f' hf' => ?_⟩⟩
          obtain rfl := Option.some.inj (hw.symm.trans hf')
          rfl
        · exact ⟨hwalk, Or.inr hio⟩
    apply ensures_walk_bind
    apply hhead.mono
    rintro r w ⟨hwalk, ⟨rfl, hclean⟩ | hio⟩
    · refine ⟨hwalk, ?_⟩
      apply (ih (hwalk.sound h)).mono
      rintro r' w' ⟨hwalk', ⟨rfl, hclean'⟩ | hio⟩
      · refine ⟨hwalk', Or.inl ⟨rfl, fun p hp => ?_⟩⟩
        rcases List.mem_cons.mp hp with rfl | hp
        · -- the first cache is clean, and the others do not make it dirty again
          have htrace : Trace (· ∈ [.writeBack, .store]) w w' :=
            (hwalk'.trace_of_not_isIo (not_isIo_ok _)).mono fun c hc =>
              List.mem_cons.mpr (Or.inl (List.mem_singleton.mp hc))
          exact htrace.cleanAt hclean
        · exact hclean' p hp
      · exact ⟨hwalk', Or.inr hio⟩
    · obtain ⟨e, rfl⟩ := hio
      exact ⟨hwalk, Or.inr (isIo_io e)⟩

/-- Leaving a volume writes every cache back, stores the description, and closes all files. -/
theorem unmount_cases (h : v.Sound) : (unmount : VolumeAction δ Unit).Ensures v fun r w =>
    (Walk [.writeBack, .store, .leave] [.fault] v r w ∧
      ((r = .ok () ∧ w.mounted = false ∧ w.Synced) ∨ IsIo r)) ∨ (v.mounted = false ∧ Declined v r w) := by
  unfold unmount
  refine ensures_whenMounted.mpr ⟨fun _ => ?_, fun hm => Or.inr ⟨hm, declined (by simp)⟩⟩
  simp only [ensures_bind, ensures_modify, ensures_note]
  apply (writeBackAll_cases h).mono
  rintro r w ⟨hwalk, hend⟩
  have hwalk' : Walk [.writeBack, .store, .leave] [.fault] v r w := hwalk.mono (by simp) fun _ h => h
  cases r with
  | error e =>
    have hio : IsIo (.error e : Except Error Unit) := hend.resolve_left fun hok => by cases hok.1
    exact Or.inl ⟨hwalk', Or.inr hio⟩
  | ok u =>
    have hclean := (hend.resolve_right (not_isIo_ok u)).2
    apply (storeMetadata_cases (hwalk.sound h).firstDataBlock_le).mono
    rintro r w' (⟨rfl, hs⟩ | ⟨⟨e, rfl⟩, hs⟩)
    · have hstore : Walk [.writeBack, .store, .leave] [.fault] w (.ok () : Except Error Unit) w' :=
        .step hs (by simp) (not_isIo_ok _)
      have hall : ∀ p f, w'.handles.fileAt? p = some f → f.cache.dirty = false := by
        intro p f hp
        exact hs.cleanAt (Or.inr rfl) (hclean p (List.mem_finRange p)) f hp
      exact Or.inl ⟨hwalk'.after (hstore.after (.step (.leave hall) (by simp) (not_isIo_ok _))),
        Or.inl ⟨trivial, trivial, hs.synced⟩⟩
    · exact Or.inl ⟨hwalk'.after (.fault hs (by simp) (isIo_io e)), Or.inr (isIo_io e)⟩

/-! ## Entries -/

/-- The volume in memory with a new entry in a slot. -/
def withEntry (v : Volume δ) (slot : Slot) (path : Path) (kind : EntryKind) : Volume δ :=
  { v with directory := v.directory.set slot (Entry.ofName path.text kind) }

omit [BlockDevice δ] [LawfulDevice δ] in
theorem isMistake_of_ensureParent {path : Path} {e : Error} (he : v.ensureParent path = .error e) :
    e.isMistake = true := by
  unfold ensureParent at he
  dsimp only at he
  split at he
  · cases he
  · split at he
    · cases he
      rfl
    · split at he <;> cases he
      rfl

omit [BlockDevice δ] [LawfulDevice δ] in
theorem isMistake_of_resolve {path : String} {e : Error} (he : resolve path = .error e) : e.isMistake = true := by
  unfold resolve at he
  split at he <;> cases he
  rfl

/-- How adding an entry at a path where there was none ends: it is in a slot that was free, and it is stored
unless the device has refused to. -/
def Added (v w : Volume δ) (path : Path) (kind : EntryKind) (r : Except Error Slot) : Prop :=
  ∃ slot, v.directory.find? path.text = none ∧ v.directory.freeSlot? = some slot ∧
    Step (.insert path) v (v.withEntry slot path kind) ∧
      ((r = .ok slot ∧ Step .store (v.withEntry slot path kind) w) ∨
        (IsIo r ∧ Step .fault (v.withEntry slot path kind) w))

theorem Added.walk {path : Path} {kind : EntryKind} {r : Except Error Slot} (h : Added v w path kind r) :
    Walk [.insert path, .store] [.fault] v r w := by
  obtain ⟨slot, -, -, hs, ⟨rfl, hs'⟩ | ⟨hio, hs'⟩⟩ := h <;>
    apply Walk.after (.step (r := .ok ()) hs (by simp) (not_isIo_ok _))
  · exact .step hs' (by simp) (not_isIo_ok _)
  · exact .fault hs' (by simp) hio

omit [LawfulDevice δ] in
/-- An entry is refused for a mistake, or it goes into a free slot and is stored. -/
theorem ensures_createEntry {path : Path} {kind : EntryKind} {post : Except Error Slot → Volume δ → Prop}
    (hfail : ∀ e, e.isMistake = true → post (.error e) v)
    (hadd : ∀ slot, path.isRoot = false → v.directory.find? path.text = none → v.ensureParent path = .ok () →
      v.directory.freeSlot? = some slot →
      (storeMetadata >>= fun _ => pure slot : VolumeAction δ Slot).Ensures (v.withEntry slot path kind) post) :
    (createEntry path kind).Ensures v post := by
  unfold createEntry Directory.insert?
  simp only [ensures_bind (x := Action.get), ensures_get]
  -- the checks in their order; the entry is added after the last one
  cases hroot : path.isRoot with
  | true => exact hfail .invalidPath rfl
  | false =>
    cases hfind : v.directory.find? path.text with
    | some _ => exact hfail .alreadyExists rfl
    | none =>
      show (liftM (v.ensureParent path) >>= _ : VolumeAction δ Slot).Ensures v post
      rw [ensures_bind, ensures_liftM]
      cases hparent : v.ensureParent path with
      | error e => exact hfail e (isMistake_of_ensureParent hparent)
      | ok _ =>
        cases hfree : v.directory.freeSlot? with
        | none => exact hfail .noFreeEntries rfl
        | some slot => exact ensures_bind.mpr (hadd slot hroot hfind hparent hfree)

/-- An entry that is in a free slot is stored, unless the device refuses to. -/
theorem storeEntry_added (h : v.Sound) {path : Path} {kind : EntryKind} {slot : Slot} (hk : kind ≠ .empty)
    (hroot : path.isRoot = false) (hfind : v.directory.find? path.text = none)
    (hparent : v.ensureParent path = .ok ()) (hfree : v.directory.freeSlot? = some slot) :
    (storeMetadata >>= fun _ => pure slot : VolumeAction δ Slot).Ensures (v.withEntry slot path kind) fun r w =>
      Added v w path kind r := by
  have hstep : Step (.insert path) v (v.withEntry slot path kind) := .insert hroot hk hfind hparent hfree
  rw [ensures_bind]
  apply (storeMetadata_cases (hstep.sound h).firstDataBlock_le).mono
  rintro r w (⟨rfl, hs⟩ | ⟨⟨e, rfl⟩, hs⟩)
  · exact ⟨slot, hfind, hfree, hstep, Or.inl ⟨rfl, hs⟩⟩
  · exact ⟨slot, hfind, hfree, hstep, Or.inr ⟨isIo_io e, hs⟩⟩

/-- If there is nothing against it, a new entry is added. -/
theorem createEntry_added (h : v.Sound) {path : Path} {kind : EntryKind} {slot : Slot} (hk : kind ≠ .empty)
    (hroot : path.isRoot = false) (hfind : v.directory.find? path.text = none)
    (hparent : v.ensureParent path = .ok ()) (hfree : v.directory.freeSlot? = some slot) :
    (createEntry path kind).Ensures v fun r w => Added v w path kind r := by
  unfold createEntry
  simp only [ensures_bind (x := get), ensures_get, hroot, hfind, Bool.false_eq_true, if_false,
    Option.isSome_none, ensures_bind (x := liftM _), ensures_liftM, hparent, Directory.insert?, hfree,
    Option.map_some, ensures_bind (x := modify _), ensures_modify]
  exact storeEntry_added h hk hroot hfind hparent hfree

/-- A new entry is added, or the request is declined. -/
theorem createEntry_cases (h : v.Sound) {path : Path} {kind : EntryKind} (hk : kind ≠ .empty) :
    (createEntry path kind).Ensures v fun r w => Added v w path kind r ∨ Declined v r w := by
  apply ensures_createEntry fun e he => Or.inr (declined (Error.not_io_of_isMistake he))
  intro slot hroot hfind hparent hfree
  exact (storeEntry_added h hk hroot hfind hparent hfree).mono fun _ _ => Or.inl

/-- If there is nothing against it, an entry is created at the path that a text names. -/
theorem create_added (h : v.Sound) (hm : v.mounted = true) {path : String} {p : Path} {kind : EntryKind}
    {slot : Slot} (hp : Path.ofString? path = some p) (hk : kind ≠ .empty) (hroot : p.isRoot = false)
    (hfind : v.directory.find? p.text = none) (hparent : v.ensureParent p = .ok ())
    (hfree : v.directory.freeSlot? = some slot) :
    (create path kind).Ensures v fun r w => ∃ r', Added v w p kind r' ∧ r = r'.map fun _ => () := by
  unfold create
  refine ensures_whenMounted.mpr ⟨?_, fun hno => by cases hno.symm.trans hm⟩
  intro _
  simp only [if_neg hk, ensures_bind, ensures_liftM, resolve, hp, ensures_pure]
  apply (createEntry_added h hk hroot hfind hparent hfree).mono
  intro r w hadded
  cases r with
  | ok slot => exact ⟨.ok slot, hadded, rfl⟩
  | error e => exact ⟨.error e, hadded, rfl⟩

/-- An entry is created at the path that a text names, or the request is declined. -/
theorem create_cases (h : v.Sound) (path : String) (kind : EntryKind) :
    (create path kind).Ensures v fun r w => (∃ p r', Path.ofString? path = some p ∧ kind ≠ .empty ∧
      v.mounted = true ∧ Added v w p kind r' ∧ r = r'.map fun _ => ()) ∨ Declined v r w := by
  unfold create
  apply ensures_mounted_or_declined
  intro hm
  by_cases hk : kind = .empty
  · simp only [if_pos hk, ensures_bind, ensures_throw]
    exact Or.inr (declined (by simp))
  · simp only [if_neg hk, ensures_bind, ensures_liftM]
    cases hp : Path.ofString? path with
    | none =>
      simp only [resolve, hp]
      exact Or.inr (declined (by simp))
    | some p =>
      simp only [resolve, hp, ensures_pure]
      apply (createEntry_cases h hk).mono
      rintro r w (hadded | ⟨e, he, rfl, rfl⟩)
      · cases r with
        | ok slot => exact Or.inl ⟨p, .ok slot, rfl, hk, hm, hadded, rfl⟩
        | error e => exact Or.inl ⟨p, .error e, rfl, hk, hm, hadded, rfl⟩
      · exact Or.inr (declined he)

/-- The slot of the entry that a text names, if it names one. -/
def slotOf? (v : Volume δ) (path : String) : Option Slot :=
  (Path.ofString? path).bind fun p => v.directory.find? p.text

omit [LawfulDevice δ] in
/-- Removing the entry at a path is refused for a mistake, or the entry is one that no open file belongs to; its
blocks are freed then, if they can be, and the rest is stored. -/
theorem ensures_delete {path : String} {post : Except Error Unit → Volume δ → Prop}
    (hfail : ∀ e, e.isMistake = true → post (.error e) v)
    (hstuck : ∀ slot refusal, v.space.release (v.directory.get slot) = .error refusal → post (.error refusal.error) v)
    (hremove : ∀ p slot released, Path.ofString? path = some p → p.isRoot = false →
      v.directory.find? p.text = some slot →
      ((v.directory.get slot).isDirectory && v.directory.hasChildren p.text) = false →
      v.handles.references slot = false → v.space.release (v.directory.get slot) = .ok released →
      (storeMetadata : VolumeAction δ Unit).Ensures
        { v with space := released.space, directory := v.directory.set slot Entry.unused } post) :
    (delete path).Ensures v post := by
  unfold delete
  refine ensures_whenMounted.mpr ⟨fun _ => ?_, fun _ => hfail .notMounted rfl⟩
  rw [ensures_bind, ensures_liftM]
  cases hp : Path.ofString? path with
  | none =>
    simp only [resolve, hp]
    exact hfail .pathTooLong rfl
  | some p =>
    simp only [resolve, hp]
    cases hroot : p.isRoot with
    | true => exact hfail .invalidPath rfl
    | false =>
      simp only [Bool.false_eq_true, if_false, lookup]
      cases hfind : v.directory.find? p.text with
      | none => exact hfail .notFound rfl
      | some slot =>
        simp only [ensures_bind (x := liftM _), ensures_liftM]
        cases hchildren : (v.directory.get slot).isDirectory && v.directory.hasChildren p.text with
        | true => exact hfail .directoryNotEmpty rfl
        | false =>
          cases href : v.handles.references slot with
          | true => exact hfail .entryBusy rfl
          | false =>
            cases hrel : v.space.release (v.directory.get slot) with
            | error refusal => exact hstuck slot refusal hrel
            | ok released =>
              simp only [Bool.false_eq_true, if_false, ensures_bind, ensures_modify, ensures_note]
              exact hremove p slot released hp hroot hfind hchildren href hrel

omit [LawfulDevice δ] in
/-- If there is nothing against it, the entry at a path is removed and the rest is stored. -/
theorem ensures_delete_removed {path : String} {p : Path} {slot : Slot} {released : Space.Release}
    {post : Except Error Unit → Volume δ → Prop} (hm : v.mounted = true) (hp : Path.ofString? path = some p)
    (hroot : p.isRoot = false) (hfind : v.directory.find? p.text = some slot)
    (hchildren : ((v.directory.get slot).isDirectory && v.directory.hasChildren p.text) = false)
    (href : v.handles.references slot = false)
    (hrel : v.space.release (v.directory.get slot) = .ok released) : (delete path).Ensures v post ↔
      (storeMetadata : VolumeAction δ Unit).Ensures
        { v with space := released.space, directory := v.directory.set slot Entry.unused } post := by
  unfold delete
  rw [ensures_whenMounted]
  simp only [hm, forall_const, Bool.true_eq_false, false_implies, and_true, ensures_bind (x := liftM _),
    ensures_liftM, resolve, hp, hroot, Bool.false_eq_true, if_false, lookup, hfind, hchildren, href, hrel,
    ensures_bind, ensures_modify, ensures_note]

/-- The entry at a path is removed, or the request is declined. -/
theorem delete_cases (h : v.Sound) (path : String) :
    (delete path).Ensures v fun r w =>
      (∃ slot, v.slotOf? path = some slot ∧ Walk [.remove slot, .store] [.fault] v r w ∧
        (¬IsIo r → w.Synced)) ∨ Declined v r w := by
  apply ensures_delete fun e he => Or.inr (declined (Error.not_io_of_isMistake he))
  · intro slot refusal hrefused
    obtain ⟨released, hrel, -⟩ := h.allocated.release slot
    cases hrel.symm.trans hrefused
  intro p slot released hp hroot hfind hchildren href hrel
  have hstep := Step.remove (v := v) hroot hfind hchildren href hrel
  have hremove : Walk [.remove slot, .store] [.fault] v (.ok () : Except Error Unit) _ :=
    .step hstep (by simp) (not_isIo_ok _)
  apply (storeMetadata_walk (hstep.sound h)).mono
  rintro r w ⟨hwalk, hsynced⟩
  refine Or.inl ⟨slot, ?_, hremove.after (hwalk.mono (by simp) (by simp)), hsynced⟩
  simp [slotOf?, hp, hfind]

/-! ## Handles -/

/-- How opening the file at a path ends: with a handle to the file that was there, with a handle to a file
that was created, or with the device refusing to store the new file. -/
inductive Opened (v : Volume δ) (p : Path) (mode : Mode) : Except Error Handle → Volume δ → Prop
  | found {hd : Handle} {slot : Slot} {handles : Pool} : v.directory.find? p.text = some slot →
      v.handles.acquire? (OpenFile.start slot mode) = some (hd, handles) →
      Step .acquire v { v with handles := handles } → Opened v p mode (.ok hd) { v with handles := handles }
  | created {hd : Handle} {slot : Slot} {handles : Pool} {w : Volume δ} : mode = .write →
      Added v w p .file (.ok slot) →
      w.handles.acquire? (OpenFile.start slot mode) = some (hd, handles) →
      Step .acquire w { w with handles := handles } → Opened v p mode (.ok hd) { w with handles := handles }
  | unstored {d : DeviceError} {w : Volume δ} : mode = .write → Added v w p .file (.error (.io d)) →
      Opened v p mode (.error (.io d)) w

/-- The kinds of steps that opening the file at a path takes. -/
def opening (path : Path) : Mode → List Change
  | .read => [.acquire]
  | .write => [.insert path, .store, .acquire]

theorem Opened.walk {path : Path} {mode : Mode} {r : Except Error Handle} (h : Opened v path mode r w) :
    Walk (opening path mode) [.fault] v r w := by
  cases h with
  | found _ _ hs => exact .step hs (by cases mode <;> simp [opening]) (not_isIo_ok _)
  | created hmode hadded _ hs =>
    subst hmode
    exact (hadded.walk.mono (by simp [opening]) (by simp)).after (.step hs (by simp [opening]) (not_isIo_ok _))
  | unstored hmode hadded =>
    subst hmode
    exact (hadded.walk.mono (by simp [opening]) (by simp)).congr (by simp)

/-- The last part of opening: a file that is there and that nobody else may write gets a place. -/
def acquireFile (name : String) (slot : Slot) (mode : Mode) : VolumeAction δ Handle := do
  let v ← Action.get
  let modeName := mode.name
  unless (v.directory.get slot).isFile do
    throw .notAFile
  if v.handles.conflicts slot mode then
    Action.note .debug s!"[sfs] {name} is open elsewhere, refusing {modeName} open"
    throw .entryBusy
  match v.handles.acquire? (OpenFile.start slot mode) with
  | none => throw .noFreeHandles
  | some (handle, handles) =>
    Action.modify fun v => { v with handles := handles }
    let place := handle.place.val
    Action.note .debug s!"[sfs] Opened {name} ({modeName}) as handle {place}"
    pure handle

omit [BlockDevice δ] [LawfulDevice δ] in
/-- A place for a file is refused for what is open or for want of one, or the file gets it. -/
theorem ensures_acquireFile {name : String} {slot : Slot} {mode : Mode}
    {post : Except Error Handle → Volume δ → Prop}
    (hfail : ∀ e, e.isMistake = true → ((v.directory.get slot).isFile = false ∨
      v.handles.conflicts slot mode = true ∨ v.handles.isFull = true) → post (.error e) v)
    (hacquire : ∀ hd handles, (v.directory.get slot).isFile = true → v.handles.conflicts slot mode = false →
      v.handles.acquire? (OpenFile.start slot mode) = some (hd, handles) →
      post (.ok hd) { v with handles := handles }) :
    (acquireFile name slot mode).Ensures v post := by
  unfold acquireFile
  simp only [ensures_bind (x := Action.get), ensures_get]
  cases hfile : (v.directory.get slot).isFile with
  | false => exact hfail .notAFile rfl (Or.inl hfile)
  | true =>
    cases hconf : v.handles.conflicts slot mode with
    | true => exact hfail .entryBusy rfl (Or.inr (Or.inl hconf))
    | false =>
      cases ha : v.handles.acquire? (OpenFile.start slot mode) with
      | none =>
        refine hfail .noFreeHandles rfl (Or.inr (Or.inr ?_))
        cases hfull : v.handles.isFull with
        | true => rfl
        | false =>
          have hsome := Pool.acquire?_isSome hfull (OpenFile.start slot mode)
          rw [ha] at hsome
          cases hsome
      | some acquired =>
        obtain ⟨hd, handles⟩ := acquired
        exact hacquire hd handles hfile hconf ha

/-- A file gets a place, or the request is declined; if there is nothing against it, it gets one. -/
theorem acquireFile_cases (hm : v.mounted = true) (name : String) (slot : Slot) (mode : Mode) :
    (acquireFile name slot mode).Ensures v fun r w =>
      (∃ hd handles, r = .ok hd ∧ w = { v with handles := handles } ∧
        v.handles.acquire? (OpenFile.start slot mode) = some (hd, handles) ∧
        Step .acquire v { v with handles := handles }) ∨
      (Declined v r w ∧ ((v.directory.get slot).isFile = false ∨ v.handles.conflicts slot mode = true ∨
        v.handles.isFull = true)) := by
  apply ensures_acquireFile fun e he hwhy => Or.inr ⟨declined (Error.not_io_of_isMistake he), hwhy⟩
  intro hd handles hfile hconf ha
  exact Or.inl ⟨hd, handles, rfl, rfl, ha, .acquire hm hfile hconf ha⟩

/-- A file that was created just now can be opened: it is a file, nobody has it open, and there was a place. -/
theorem openCreated (h : v.Sound) (hm : v.mounted = true) (hfull : v.handles.isFull = false) {path : Path}
    {slot : Slot} (hadded : Added v w path .file (.ok slot)) :
    (acquireFile path.text slot .write).Ensures w fun r w => Opened v path .write r w := by
  obtain ⟨slot', -, hfree, -, ⟨hr, hs⟩ | ⟨hio, -⟩⟩ := id hadded
  · obtain rfl := Except.ok.inj hr
    have hw := hs.eq_of_store
    have hmounted : w.mounted = true := by rw [hw]; exact hm
    have hhandles : w.handles = v.handles := by rw [hw]; rfl
    have hfile : (w.directory.get slot).isFile = true := by
      rw [hw]
      show ((v.directory.set slot _).get slot).isFile = true
      rw [Directory.get_set, if_pos rfl]
      rfl
    have hconf : w.handles.conflicts slot .write = false := by
      rw [hhandles]
      apply Pool.conflicts_eq_false.mpr
      intro q f hq hslot
      exact absurd hslot (h.guarded.slot_ne_of_isEmpty (Directory.isEmpty_of_freeSlot? hfree) q f hq)
    apply (acquireFile_cases hmounted path.text slot .write).mono
    rintro r w' (⟨hd, handles, rfl, rfl, ha, hs⟩ | ⟨-, hno | hno | hno⟩)
    · exact .created rfl hadded ha hs
    · cases hfile.symm.trans hno
    · cases hconf.symm.trans hno
    · rw [hhandles, hfull] at hno
      cases hno
  · exact absurd hio (not_isIo_ok _)

/-- An entry that was added and then not stored is due to the device. -/
theorem Added.isIo {path : Path} {kind : EntryKind} {e : Error} (h : Added v w path kind (.error e)) :
    ∃ d, e = .io d := by
  obtain ⟨slot, -, -, -, ⟨hr, -⟩ | ⟨hio, -⟩⟩ := h
  · cases hr
  · exact isIo_error.mp hio

/-- If there is nothing against it, a missing file is created and opened for writing. -/
theorem openPath_created (h : v.Sound) (hm : v.mounted = true) (hfull : v.handles.isFull = false)
    {path : String} {p : Path} {slot : Slot} (hp : Path.ofString? path = some p) (hroot : p.isRoot = false)
    (hfind : v.directory.find? p.text = none) (hparent : v.ensureParent p = .ok ())
    (hfree : v.directory.freeSlot? = some slot) :
    (openPath path .write).Ensures v fun r w => Opened v p .write r w := by
  unfold openPath
  refine ensures_whenMounted.mpr ⟨?_, fun hno => by cases hno.symm.trans hm⟩
  intro _
  simp only [hfull, Bool.false_eq_true, if_false, ensures_bind (x := liftM _), ensures_liftM, resolve, hp,
    hroot, hfind]
  show (createEntry p .file >>= fun slot => acquireFile p.text slot .write).Ensures v _
  rw [ensures_bind]
  apply (createEntry_added h (by decide) hroot hfind hparent hfree).mono
  intro r w hadded
  cases r with
  | ok slot => exact openCreated h hm hfull hadded
  | error e =>
    obtain ⟨d, rfl⟩ := hadded.isIo
    exact .unstored rfl hadded

omit [LawfulDevice δ] in
/-- Opening a path is refused for a mistake, or a place is asked for: for the file that is there, or for a new one
that is to be written. -/
theorem ensures_openPath {path : String} {mode : Mode} {post : Except Error Handle → Volume δ → Prop}
    (hfail : ∀ e, e.isMistake = true → post (.error e) v)
    (hfound : v.mounted = true → ∀ p slot, Path.ofString? path = some p → v.directory.find? p.text = some slot →
      (acquireFile p.text slot mode).Ensures v post)
    (hmissing : v.mounted = true → v.handles.isFull = false → mode = .write → ∀ p, Path.ofString? path = some p →
      (createEntry p .file >>= fun slot => acquireFile p.text slot .write).Ensures v post) :
    (openPath path mode).Ensures v post := by
  unfold openPath
  refine ensures_whenMounted.mpr ⟨fun hm => ?_, fun _ => hfail .notMounted rfl⟩
  cases hfull : v.handles.isFull with
  | true => exact hfail .noFreeHandles rfl
  | false =>
    simp only [Bool.false_eq_true, if_false, ensures_bind (x := liftM _), ensures_liftM]
    cases hp : Path.ofString? path with
    | none =>
      simp only [resolve, hp]
      exact hfail .pathTooLong rfl
    | some p =>
      simp only [resolve, hp]
      cases p.isRoot with
      | true => exact hfail .notAFile rfl
      | false =>
        cases hfind : v.directory.find? p.text with
        | some slot => exact hfound hm p slot hp hfind
        | none =>
          cases mode with
          | read => exact hfail .notFound rfl
          | write => exact hmissing hm hfull rfl p hp

/-- **A file is opened, and created before if it was missing and is to be written, or the request is
declined.** -/
theorem openPath_cases (h : v.Sound) (path : String) (mode : Mode) :
    (openPath path mode).Ensures v fun r w =>
      (∃ p, Path.ofString? path = some p ∧ Opened v p mode r w) ∨ Declined v r w := by
  apply ensures_openPath fun e he => Or.inr (declined (Error.not_io_of_isMistake he))
  · intro hm p slot hp hfind
    apply (acquireFile_cases hm p.text slot mode).mono
    rintro r w (⟨hd, handles, rfl, rfl, ha, hs⟩ | ⟨hdeclined, -⟩)
    · exact Or.inl ⟨p, hp, .found hfind ha hs⟩
    · exact Or.inr hdeclined
  · rintro hm hfull rfl p hp
    rw [ensures_bind]
    apply (createEntry_cases h (by decide)).mono
    rintro r w (hadded | hdeclined)
    · cases r with
      | ok slot => exact (openCreated h hm hfull hadded).mono fun r w hr => Or.inl ⟨p, hp, hr⟩
      | error e =>
        obtain ⟨d, rfl⟩ := hadded.isIo
        exact Or.inl ⟨p, hp, .unstored rfl hadded⟩
    · obtain ⟨e, he, rfl, rfl⟩ := hdeclined
      exact Or.inr (declined he)

/-- The kinds of steps that closing a handle takes. -/
def closing : List Change := [.writeBack, .release, .store]

/-- Closing a handle writes its cache back; if the device refuses that, what was in the cache is lost. It
makes no difference that the handle is released first. -/
theorem closeCache_cases (h : v.Sound) {hd : Handle} {handles : Pool}
    (hr : v.handles.release? hd = some (f, handles)) :
    (do if f.mode = .write then let _ ← onDevice f.cache.writeBack : VolumeAction δ Unit).Ensures
      { v with handles := handles } fun r w =>
        Walk closing [.fault, .discard f.slot] v r w ∧ (r = .ok () ∨ IsIo r) := by
  have hp : v.handles.fileAt? hd.place = some f := Pool.fileAt?_of_file? (Pool.release?_eq_some hr).1
  have hc := h.coherent hp
  have hrelease : f.cache.dirty = false → Walk closing [.fault, .discard f.slot] v
      (.ok () : Except Error Unit) { v with handles := handles } := fun hd =>
    .step (.release hr hd) (by simp [closing]) (not_isIo_ok _)
  by_cases hm : f.mode = .write
  · simp only [if_pos hm, ensures_bind, ensures_onDevice, ensures_pure]
    cases hb : f.cache.pending? with
    | none =>
      rw [Cache.writeBack_of_none hb, ensures_pure]
      exact ⟨hrelease (hc.pending?_eq_none.mp hb), Or.inl trivial⟩
    | some b =>
      have hin := (h.owned_bounds (hc.owned_of_pending hb)).2
      apply (Cache.writeBack_cases hb hin).mono
      rintro r d (⟨rfl, hcontent, hs⟩ | ⟨e, rfl, hcontent, hs⟩)
      · have hback : Walk closing [.fault, .discard f.slot] v (.ok () : Except Error Unit) _ :=
          .step (.writeBack hp hb hs hcontent) (by simp [closing]) (not_isIo_ok _)
        refine ⟨hback.after ?_, Or.inl trivial⟩
        exact .step (.release (Pool.release?_modifyFile _ hr) rfl) (by simp [closing]) (not_isIo_ok _)
      · have hfault : Step .fault v { v with device := d } := .fault hs fun _ _ => congrFun hcontent _
        have hdiscard : Step (.discard f.slot) { v with device := d }
            { v with device := d, handles := handles } := .discard (v := { v with device := d }) hr
        refine ⟨⟨.tail (.single hfault ?_) hdiscard ?_, fun _ => hs.unreliable⟩, Or.inr (isIo_io e)⟩
        · exact Or.inr ⟨isIo_io e, by simp⟩
        · exact Or.inr ⟨isIo_io e, by simp⟩
  · simp only [if_neg hm, ensures_pure]
    exact ⟨hrelease (Bool.eq_false_iff.mpr fun hd => hm (hc.dirty hd).1), Or.inl trivial⟩

/-- **Closing a handle closes it, whatever the device does.** -/
theorem close_cases (h : v.Sound) (hd : Handle) :
    (close hd : VolumeAction δ Unit).Ensures v fun r w =>
      (∃ f, v.handles.file? hd = some f ∧ Walk closing [.fault, .discard f.slot] v r w ∧
        (¬IsIo r → w.Synced)) ∨ Declined v r w := by
  unfold close
  apply ensures_mounted_or_declined
  intro hm
  cases hr : v.handles.release? hd with
  | none =>
    simp only [ensures_throw]
    exact Or.inr (declined (by simp))
  | some released =>
    obtain ⟨f, handles⟩ := released
    have hfile := (Pool.release?_eq_some hr).1
    simp only [ensures_bind, ensures_modify, ensures_attempt, ensures_liftM]
    apply (closeCache_cases h hr).mono
    rintro r₁ w₁ ⟨hwalk, hcached⟩
    have hm₁ : w₁.mounted = true := (hwalk.trace.mounted_eq (by simp [closing])).trans hm
    -- the description is stored even if the cache was lost, and the first error is the one that is told
    apply (flush_walk (hwalk.sound h)).mono
    rintro r₂ w₂ ⟨h₂, hsynced⟩
    have hflush : Walk closing [.fault, .discard f.slot] w₁ r₂ w₂ := h₂.mono (by simp [closing]) (by simp)
    rcases hcached with rfl | ⟨e, rfl⟩
    · cases r₂ <;> exact Or.inl ⟨f, hfile, hwalk.after hflush, hsynced hm₁⟩
    · exact Or.inl ⟨f, hfile, hwalk.join hflush (by simp), fun hno => absurd (isIo_io e) hno⟩

/-- Seeking moves the position, at most to the end of the file, and does nothing else. -/
theorem seek_cases (hd : Handle) (offset : Nat) :
    (seek hd offset : VolumeAction δ Nat).Ensures v fun r w =>
      (∃ f, v.handles.file? hd = some f ∧ r = .ok (min offset (v.directory.get f.slot).size.toNat) ∧
        w = v.editFile hd.place (fun f' =>
          { f' with position := min offset (v.directory.get f.slot).size.toNat }) ∧ Step .place v w) ∨
      Declined v r w := by
  unfold seek
  apply ensures_mounted_or_declined
  intro _
  simp only [ensures_bind, ensures_liftM, openFile]
  cases hf : v.handles.file? hd with
  | none => exact Or.inr (declined (by simp))
  | some f =>
    simp only [ensures_modify, ensures_pure]
    exact Or.inl ⟨f, rfl, rfl, rfl, .place (Pool.fileAt?_of_file? hf) (Nat.min_le_right _ _)⟩

/-- **Reading yields the bytes at the position, as many as were asked for and are there.** -/
theorem read_cases (h : v.Sound) (hd : Handle) (length : Nat) :
    (read hd length : VolumeAction δ (List UInt8)).Ensures v fun r w =>
      (∃ f, v.handles.file? hd = some f ∧ f.mode = .read ∧ Walk reading [.fault] v r w ∧
        ReadEnds v w hd.place f (min length ((v.directory.get f.slot).size.toNat - f.position)) r) ∨
      (Declined v r w ∧ ∀ f, v.handles.file? hd = some f → v.mounted = true → f.mode ≠ .read) := by
  unfold read
  refine ensures_whenMounted.mpr ⟨?_, fun hm => Or.inr ⟨declined (by simp), ?_⟩⟩
  · intro _
    simp only [ensures_bind, ensures_liftM, openFile]
    cases hf : v.handles.file? hd with
    | none => exact Or.inr ⟨declined (by simp), fun _ hf' => by cases hf'⟩
    | some f =>
      have hp := Pool.fileAt?_of_file? hf
      by_cases hmode : f.mode = .read
      · simp only [if_pos hmode]
        have hpos := (h.coherent hp).position_le
        apply (readStretches_cases h hp hmode rfl (by omega)).mono
        intro r w hr
        exact Or.inl ⟨f, rfl, hmode, hr.1, hr.2⟩
      · simp only [if_neg hmode, ensures_bind, ensures_throw]
        refine Or.inr ⟨declined (by simp), ?_⟩
        intro f' hf' _
        obtain rfl := Option.some.inj hf'
        exact hmode
  · intro _ _ hm'
    rw [hm] at hm'
    cases hm'

omit [LawfulDevice δ] in
/-- Bytes that are written through a handle to a writer are written piece by piece. -/
theorem ensures_write {hd : Handle} {data : List UInt8} (hm : v.mounted = true) (hf : v.handles.file? hd = some f)
    (hmode : f.mode = .write) {post : Except Error Nat → Volume δ → Prop} : (write hd data).Ensures v post ↔
      (writePieces hd.place (pieces f.position data)).Ensures v fun r w => post (r.map fun _ => data.length) w := by
  have hmounted : v.ensureMounted = .ok () := if_pos hm
  have hopen : v.openFile hd = .ok f := by simp only [openFile, hf]
  unfold write
  simp only [ensures_bind (x := get), ensures_get, ensures_bind (x := liftM _), ensures_liftM, hmounted, hopen,
    if_pos hmode]
  rw [bind_pure_comp, ensures_map]

/-- **Writing lays the bytes over the contents, as far as there is room.** -/
theorem write_cases (h : v.Sound) (hd : Handle) (data : List UInt8) :
    (write hd data : VolumeAction δ Nat).Ensures v fun r w =>
      (∃ f r', v.handles.file? hd = some f ∧ f.mode = .write ∧ Walk (writing f.slot) [.fault] v r w ∧
        WriteEnds v w hd.place f data r' ∧ r = r'.map fun _ => data.length) ∨
      (Declined v r w ∧ ∀ f, v.handles.file? hd = some f → v.mounted = true → f.mode ≠ .write) := by
  unfold write
  refine ensures_whenMounted.mpr ⟨?_, fun hm => Or.inr ⟨declined (by simp), ?_⟩⟩
  · intro _
    simp only [ensures_bind, ensures_liftM, openFile]
    cases hf : v.handles.file? hd with
    | none => exact Or.inr ⟨declined (by simp), fun _ hf' => by cases hf'⟩
    | some f =>
      have hp := Pool.fileAt?_of_file? hf
      by_cases hmode : f.mode = .write
      · simp only [if_pos hmode, ensures_bind]
        apply (writePieces_cases h hp hmode rfl).mono
        intro r w hr
        cases r with
        | ok u => exact Or.inl ⟨f, .ok (), rfl, hmode, hr.1.congr (by simp), hr.2, rfl⟩
        | error e => exact Or.inl ⟨f, .error e, rfl, hmode, hr.1.congr (by simp), hr.2, rfl⟩
      · simp only [if_neg hmode, ensures_bind, ensures_throw]
        refine Or.inr ⟨declined (by simp), ?_⟩
        intro f' hf' _
        obtain rfl := Option.some.inj hf'
        exact hmode
  · intro _ _ hm'
    rw [hm] at hm'
    cases hm'

end Volume

end BlockVolume
