import BlockVolume.Proofs.Action.Respects
import BlockVolume.Proofs.Volume.Frame
import BlockVolume.Proofs.Volume.Operation
import Mathlib.Logic.Relation

/-!
# `Proofs.Volume.Move` — what operations do, on any device

An operation is a sequence of single changes, whatever the blocks of the device and the entries of the
directory may be, and however requests fail. `Step` says more of each change, but only of sound volumes;
the changes here are those that the program text makes.

Formatting, mounting and leaving a volume do more than this, and closing a handle does one thing more.

## Contents
- **`Move`**: single changes of a volume.
- **`close_moved`** and **`unmount_moved`**: two operations that empty places.
- **`Operation.touches`**: which open files an operation works on; **`Operation.moved`**: one that empties no
  place is a sequence of changes to these.
-/

namespace BlockVolume

open BlockVolume.Action Relation

namespace Volume

variable {δ : Type} [BlockDevice δ] {v w : Volume δ} {touched : Place → Prop} {p : Place}

/-! ## Requests -/

/-- What is written is written block by block. -/
theorem writeBlocks_asked (l : List (Nat × Block)) :
    (writeBlocks l).Respects (ReflTransGen (Asked (δ := δ))) := by
  induction l with
  | nil => exact respects_pure _
  | cons b rest ih => exact Respects.bind (fun d => .single (.write b.1 b.2 d)) fun _ => ih

theorem writeBack_asked (c : Cache) : (c.writeBack).Respects (ReflTransGen (Asked (δ := δ))) := by
  unfold Cache.writeBack
  split
  · exact respects_pure _
  · exact (Respects.reporting fun d => .single (.write _ _ d)).bind fun _ => respects_pure _

/-! ## Changes -/

/-- A single change of a volume that is made by an operation on the files at the touched places. -/
inductive Move (touched : Place → Prop) : Volume δ → Volume δ → Prop
  | request {v : Volume δ} {d : δ} : Asked v.device d → Move touched v { v with device := d }
  /-- An open file is changed; it stays the file of its slot, in its mode. -/
  | edit {v : Volume δ} {p : Place} {g : OpenFile → OpenFile} : touched p → (∀ f, (g f).claim = f.claim) →
      Move touched v { v with handles := v.handles.modifyFile p g }
  | grow {v : Volume δ} {slot : Slot} {grant : Space.Grant} :
      v.space.grow (v.directory.get slot) = .ok grant →
      Move touched v { v with space := grant.space, directory := v.directory.set slot grant.entry }
  | resize {v : Volume δ} {slot : Slot} {size : UInt32} :
      Move touched v { v with directory := v.directory.set slot { v.directory.get slot with size := size } }
  | insert {v : Volume δ} {slot : Slot} {path : Path} {kind : EntryKind} : path.isRoot = false →
      kind ≠ .empty → v.directory.find? path.text = none → v.ensureParent path = .ok () →
      v.directory.freeSlot? = some slot → Move touched v (v.withEntry slot path kind)
  | remove {v : Volume δ} {slot : Slot} {path : Path} {released : Space.Release} : path.isRoot = false →
      v.directory.find? path.text = some slot →
      ((v.directory.get slot).isDirectory && v.directory.hasChildren path.text) = false →
      v.handles.references slot = false → v.space.release (v.directory.get slot) = .ok released →
      Move touched v
        { v with space := released.space, directory := v.directory.set slot Entry.unused }
  | acquire {v : Volume δ} {slot : Slot} {mode : Mode} {h : Handle} {handles : Pool} : v.mounted = true →
      (v.directory.get slot).isFile = true → v.handles.conflicts slot mode = false →
      v.handles.acquire? (OpenFile.start slot mode) = some (h, handles) →
      Move touched v { v with handles := handles }

/-- What an operation on the files at the touched places may make of a volume. -/
abbrev Moved (touched : Place → Prop) : Volume δ → Volume δ → Prop := ReflTransGen (Move touched)

theorem Move.mounted_eq (h : Move touched v w) : w.mounted = v.mounted := by
  cases h <;> rfl

theorem Moved.mounted_eq (h : Moved touched v w) : w.mounted = v.mounted := by
  induction h with
  | refl => rfl
  | tail _ hm ih => exact hm.mounted_eq.trans ih

/-- Such changes make requests of the device, and nothing else of it. -/
theorem Moved.asked (h : Moved touched v w) : ReflTransGen Asked v.device w.device := by
  induction h with
  | refl => exact .refl
  | tail _ hm ih =>
    cases hm with
    | request hd => exact ih.tail hd
    | _ => exact ih

/-! ## Parts of operations -/

theorem onDevice_moved {α : Type} {x : Action DeviceError δ α} (hx : x.Respects (ReflTransGen Asked)) :
    (onDevice x).Respects (Moved touched) := by
  intro v
  rw [ensures_onDevice]
  apply (hx v.device).mono
  intro r d h
  have hstep (a b : δ) (hab : Asked a b) : Move touched { v with device := a } { v with device := b } :=
    .request hab
  exact h.lift _ hstep

theorem readBlock_moved (b : Nat) :
    (onDevice (BlockDevice.read b) : VolumeAction δ Block).Respects (Moved touched) :=
  onDevice_moved fun d => .single (.read b d)

theorem setCache_moved (hp : touched p) (c : Cache) :
    (setCache p c : VolumeAction δ Unit).Respects (Moved touched) :=
  respects_modify fun _ => .single (.edit hp fun _ => rfl)

theorem storeMetadata_moved : (storeMetadata : VolumeAction δ Unit).Respects (Moved touched) := by
  have hstore (v : Volume δ) := (writeBlocks_asked v.metadataBlocks).bind fun _ =>
    (fun d => .single (.flush d) : (BlockDevice.flush (δ := δ)).Respects (ReflTransGen Asked))
  exact respects_get.bind fun v => onDevice_moved (hstore v).reporting

theorem flush_moved : (flush : VolumeAction δ Unit).Respects (Moved touched) :=
  respects_get.bind fun _ => (respects_liftM _).bind fun _ => storeMetadata_moved

theorem loadBlock_moved (hp : touched p) (b : Nat) :
    (loadBlock p b : VolumeAction δ Unit).Respects (Moved touched) := by
  unfold loadBlock
  refine respects_get.bind fun v => (respects_liftM _).bind fun file => ?_
  split
  · exact respects_pure _
  · exact (setCache_moved hp _).bind fun _ => (readBlock_moved b).bind fun _ => setCache_moved hp _

theorem readStretch_moved (hp : touched p) (count : Nat) :
    (readStretch p count : VolumeAction δ (List UInt8)).Respects (Moved touched) := by
  unfold readStretch
  refine respects_get.bind fun v => (respects_liftM _).bind fun file => ?_
  dsimp only
  split
  · exact (respects_note _ _).bind fun _ => respects_throw_bind _ _
  · refine (respects_liftM _).bind fun block => (loadBlock_moved hp block).bind fun _ => ?_
    refine respects_get.bind fun _ => (respects_liftM _).bind fun cached => ?_
    exact (respects_modify fun _ => .single (.edit hp fun _ => rfl)).bind fun _ => respects_pure _

/-- Reading moves the position of its file and what is in the cache there. -/
theorem readStretches_moved (hp : touched p) (counts : List Nat) :
    (readStretches p counts : VolumeAction δ (List UInt8)).Respects (Moved touched) := by
  induction counts with
  | nil => exact respects_pure _
  | cons count rest ih =>
    exact (readStretch_moved hp count).bind fun _ => ih.bind fun _ => respects_pure _

/-- What grows is the run of an entry. -/
theorem growEntry_moved (slot : Slot) :
    (growEntry slot : VolumeAction δ Unit).Respects (Moved touched) := by
  unfold growEntry
  refine respects_get_bind fun v => ?_
  dsimp only
  cases hg : v.space.grow (v.directory.get slot) with
  | ok grant => exact (.single (.grow hg) : Moved touched v _)
  | error refusal => exact (respects_emit _).bind (fun _ => respects_throw _) v

theorem writeBackAt_moved (hp : touched p) :
    (writeBackAt p : VolumeAction δ Unit).Respects (Moved touched) := by
  unfold writeBackAt
  refine respects_get.bind fun v => ?_
  split
  · exact respects_pure _
  · exact (onDevice_moved (writeBack_asked _)).bind fun _ =>
      respects_modify fun _ => .single (.edit hp fun _ => rfl)

/-- Writing caches back touches the files at their places. -/
theorem writeBackAll_moved {places : List Place} (hp : ∀ p ∈ places, touched p) :
    (writeBackAll places : VolumeAction δ Unit).Respects (Moved touched) := by
  induction places with
  | nil => exact respects_pure _
  | cons p rest ih =>
    exact (writeBackAt_moved (hp p List.mem_cons_self)).bind fun _ =>
      ih fun q hq => hp q (List.mem_cons_of_mem _ hq)

theorem targetBlock_moved (hp : touched p) (b : Nat) (fresh whole : Bool) :
    (targetBlock p b fresh whole : VolumeAction δ Unit).Respects (Moved touched) := by
  unfold targetBlock
  refine respects_get.bind fun v => (respects_liftM _).bind fun file => ?_
  split
  · refine (writeBackAt_moved hp).bind fun _ => ?_
    split
    · exact setCache_moved hp _
    · split
      · exact setCache_moved hp _
      · exact loadBlock_moved hp b
  · exact respects_pure _

theorem fillPiece_moved (hp : touched p) (file : OpenFile) (fresh : Bool) (bytes : List UInt8) :
    (fillPiece p file fresh bytes : VolumeAction δ Unit).Respects (Moved touched) := by
  unfold fillPiece
  refine respects_get.bind fun v => (respects_liftM _).bind fun block => ?_
  refine (targetBlock_moved hp block _ _).bind fun _ => respects_get.bind fun _ => ?_
  refine (respects_liftM _).bind fun cached => ?_
  dsimp only
  split
  · exact respects_throw_bind _ _
  · -- the bytes go into the cache, and the entry becomes longer
    refine respects_modify fun v => ?_
    have hedit : Move touched v { v with
        handles := v.handles.modifyFile p fun f =>
          { f with
            position := file.position + bytes.length
            cache := ⟨cached.cache.block, true, cached.cache.data.overlay (file.position % blockSize) bytes⟩ } } :=
      .edit hp fun _ => rfl
    exact (ReflTransGen.single hedit).tail .resize

theorem writePiece_moved (hp : touched p) (bytes : List UInt8) :
    (writePiece p bytes : VolumeAction δ Unit).Respects (Moved touched) := by
  intro v
  cases hf : v.handles.fileAt? p with
  | none =>
    unfold writePiece
    simp only [ensures_bind, ensures_get, ensures_liftM, fileAt, hf]
    exact .refl
  | some file =>
    rw [ensures_writePiece hf]
    split
    · exact (growEntry_moved _).bind (fun _ => fillPiece_moved hp _ _ _) v
    · exact fillPiece_moved hp _ _ _ v

/-- Writing moves the position of its file, what is in the cache there, and the end of its run. -/
theorem writePieces_moved (hp : touched p) (parts : List (List UInt8)) :
    (writePieces p parts : VolumeAction δ Unit).Respects (Moved touched) := by
  induction parts with
  | nil => exact respects_pure _
  | cons bytes rest ih => exact (writePiece_moved hp bytes).bind fun _ => ih

/-! ## Entries and handles -/

/-- A new entry goes into a slot that nobody uses. -/
theorem createEntry_moved (path : Path) {kind : EntryKind} (hk : kind ≠ .empty) :
    (createEntry path kind : VolumeAction δ Slot).Respects (Moved touched) := by
  intro v
  apply ensures_createEntry fun _ _ => .refl
  intro slot hroot hfind hparent hfree
  exact (storeMetadata_moved.bind fun _ => respects_pure _).after (.single (.insert hroot hk hfind hparent hfree))

theorem create_moved (path : String) (kind : EntryKind) :
    (create path kind : VolumeAction δ Unit).Respects (Moved touched) := by
  unfold create
  refine respects_get.bind fun v => (respects_liftM _).bind fun _ => ?_
  split
  · exact respects_throw_bind _ _
  · rename_i hk
    exact (respects_liftM _).bind fun _ => (createEntry_moved _ hk).bind fun _ => respects_pure _

/-- An entry is removed only if no open file belongs to it. -/
theorem delete_moved (path : String) : (delete path : VolumeAction δ Unit).Respects (Moved touched) := by
  intro v
  apply ensures_delete (fun _ _ => .refl) fun _ _ _ => .refl
  intro p slot released _ hroot hfind hchildren href hreleased
  exact storeMetadata_moved.after (.single (.remove hroot hfind hchildren href hreleased))

/-- A file is opened. -/
theorem acquireFile_moved (hm : v.mounted = true) (name : String) (slot : Slot) (mode : Mode) :
    (acquireFile name slot mode).Ensures v fun _ w => Moved touched v w := by
  apply ensures_acquireFile fun _ _ _ => .refl
  exact fun _ _ hfile hconf ha => .single (.acquire hm hfile hconf ha)

/-- Opening takes a place, and a new entry before that if the file is missing. -/
theorem openPath_moved (path : String) (mode : Mode) :
    (openPath path mode : VolumeAction δ Handle).Respects (Moved touched) := by
  intro v
  apply ensures_openPath (fun _ _ => .refl) fun hm p slot _ _ => acquireFile_moved hm p.text slot mode
  intro hm _ _ p _
  refine Ensures.bind (createEntry_moved p (by decide) v) ?_ fun _ _ h => h
  intro slot w hw
  apply (acquireFile_moved (hw.mounted_eq.trans hm) p.text slot .write).mono
  exact fun _ _ h => hw.trans h

/-- A handle that is open is closed, and then only the device changes, whatever comes of the cache. -/
theorem close_moved (touched : Place → Prop) (hd : Handle) : (close hd : VolumeAction δ Unit).Ensures v fun _ w =>
    (¬(v.mounted = true ∧ (v.handles.file? hd).isSome = true) ∧ w = v) ∨
      ∃ f handles, v.mounted = true ∧ v.handles.release? hd = some (f, handles) ∧
        Moved touched { v with handles := handles } w := by
  unfold close
  refine ensures_whenMounted.mpr ⟨fun hm => ?_, fun hm => Or.inl ⟨by simp [hm], rfl⟩⟩
  cases hr : v.handles.release? hd with
  | none =>
    have hnone : v.handles.file? hd = none := Option.map_eq_none_iff.mp hr
    exact Or.inl ⟨by simp [hnone], rfl⟩
  | some released =>
    obtain ⟨f, handles⟩ := released
    have hcache : (do if f.mode = .write then let _ ← onDevice f.cache.writeBack : VolumeAction δ Unit).Respects
        (Moved touched) := by
      split
      · exact (onDevice_moved (writeBack_asked _)).bind fun _ => respects_pure _
      · exact respects_pure _
    have hrest := hcache.attempt.bind fun cached => flush_moved.attempt.bind fun flushed =>
      (respects_liftM cached).bind fun _ => respects_liftM flushed
    refine ensures_bind.mpr (ensures_modify.mpr ((hrest _).mono fun _ w hw => ?_))
    exact Or.inr ⟨f, handles, hm, rfl, hw⟩

/-- Leaving a volume drops all handles in the end, if it succeeds. -/
theorem unmount_moved (touched : Place → Prop) (ht : ∀ p, touched p) :
    (unmount : VolumeAction δ Unit).Ensures v fun r w => ((∃ e, r = .error e) ∧ Moved touched v w) ∨
      (r = .ok () ∧ ∃ u, Moved touched v u ∧ w = { u with handles := u.handles.reset, mounted := false }) := by
  unfold unmount
  refine ensures_whenMounted.mpr ⟨fun _ => ?_, fun _ => Or.inl ⟨⟨_, rfl⟩, .refl⟩⟩
  simp only [ensures_bind, ensures_modify, ensures_note]
  apply (writeBackAll_moved (fun p _ => ht p) v).mono
  intro r w hw
  cases r with
  | error e => exact Or.inl ⟨⟨e, rfl⟩, hw⟩
  | ok _ =>
    apply (storeMetadata_moved w).mono
    intro r w' hw'
    cases r with
    | error e => exact Or.inl ⟨⟨e, rfl⟩, hw.trans hw'⟩
    | ok _ => exact Or.inr ⟨trivial, w', hw.trans hw', rfl⟩

end Volume

/-! ## Operations -/

namespace Operation

open Volume

variable {δ : Type} {v w : Volume δ} {touched : Place → Prop}

/-- The handle through which an operation reaches an open file. -/
def handle? : Operation → Option Handle
  | .read h _ | .write h _ | .seek h _ | .tell h | .close h => some h
  | _ => none

/-- An operation works on the open file of its handle, and leaving the volume on all of them. -/
def touches (op : Operation) (v : Volume δ) (p : Place) : Prop :=
  op = .unmount ∨ ∃ h, op.handle? = some h ∧ (v.handles.file? h).isSome = true ∧ h.place = p

theorem touches_place {op : Operation} {h : Handle} {f : OpenFile} (hop : op.handle? = some h)
    (hf : v.handles.file? h = some f) : op.touches v h.place :=
  Or.inr ⟨h, hop, by rw [hf]; rfl, rfl⟩

variable [BlockDevice δ]

/-- Whether an operation may empty places. -/
def emptiesPlaces : Operation → Bool
  | .close _ | .format | .unmount | .mount => true
  | _ => false

/-- **An operation that empties no place is a sequence of changes to the files that it touches.** -/
theorem moved {op : Operation} (hop : op.emptiesPlaces = false) :
    (op.perform : VolumeAction δ Unit).Ensures v fun _ w => Moved (op.touches v) v w := by
  cases op with
  | create path kind => exact create_moved path kind v
  | delete path => exact delete_moved path v
  | openPath path mode => exact Ensures.yielding (openPath_moved path mode v)
  | read hd length =>
    refine Ensures.yielding (ensures_whenOpen (fun _ _ => .refl) fun _ f hf => ?_)
    split
    · exact readStretches_moved (touches_place rfl hf) _ v
    · exact respects_throw_bind _ _ v
  | write hd data =>
    refine Ensures.yielding (ensures_whenOpen (fun _ _ => .refl) fun _ f hf => ?_)
    split
    · exact (writePieces_moved (touches_place rfl hf) _).bind (fun _ => respects_pure _) v
    · exact respects_throw_bind _ _ v
  | seek hd offset =>
    refine Ensures.yielding (ensures_whenOpen (fun _ _ => .refl) fun _ f hf => ?_)
    exact ensures_modify_bind (.single (.edit (touches_place rfl hf) fun _ => rfl)) (respects_pure _)
  | flush => exact flush_moved v
  | tell hd => exact Ensures.yielding (respects_get.bind (fun _ => respects_liftM _) v)
  | list path => exact Ensures.yielding (respects_get.bind (fun _ => respects_liftM _) v)
  | stat path => exact Ensures.yielding (respects_get.bind (fun _ => respects_liftM _) v)
  | stats => exact Ensures.yielding (respects_get.bind (fun _ => respects_liftM _) v)
  | close _ | format | unmount | mount => cases hop

end Operation

end BlockVolume
