import BlockVolume.Proofs.Volume.Move
import BlockVolume.Proofs.Volume.Run

/-!
# `Proofs.Volume.Turnover` — how places for open files change hands, on any device

A place is taken by opening a file, and emptied by closing the handle or by dropping all handles at once.
Every operation is a sequence of such changes and of others that leave the places as they are. Nothing is
asked of the device here: its blocks may be anything, and requests may fail at any time and with any
effect. So the volume need not be sound, and what it keeps is that handles are what they were opened for.

## Contents
- **`Turnover`**: the changes, with how often each place is emptied; **`Turnover.guarded`**,
  **`Turnover.generationAt_eq`** and **`Turnover.retained`** say what they keep.
- **`Move.turnover`**: what empties no place.
- **`Operation.emptyings`**: how often an operation empties a place; **`Operation.turnover`**: every operation
  is such a sequence, however it ends.
-/

namespace BlockVolume

open BlockVolume.Action

namespace Volume

variable {δ : Type} {u v w : Volume δ} {touched : Place → Prop} {p : Place} {f : OpenFile} {m n : Place → Nat}

/-! ## Changes of the places -/

/-- The changes that lead from one volume to another, where `n p` counts how often place `p` is emptied. -/
inductive Turnover (touched : Place → Prop) : Volume δ → (Place → Nat) → Volume δ → Prop
  /-- Nothing is opened, closed or renamed. -/
  | frame {v w : Volume δ} : Frame touched v w → Turnover touched v (fun _ => 0) w
  /-- An entry that no open file belongs to is replaced. -/
  | replace {v : Volume δ} {slot : Slot} {e : Entry} {s : Space} :
      (∀ p f, v.handles.fileAt? p = some f → f.slot ≠ slot) →
      Turnover touched v (fun _ => 0) { v with space := s, directory := v.directory.set slot e }
  /-- A file is opened. -/
  | acquire {v : Volume δ} {slot : Slot} {mode : Mode} {h : Handle} {handles : Pool} :
      v.mounted = true → (v.directory.get slot).isFile = true → v.handles.conflicts slot mode = false →
      v.handles.acquire? (OpenFile.start slot mode) = some (h, handles) →
      Turnover touched v (fun _ => 0) { v with handles := handles }
  /-- A handle is closed. -/
  | release {v : Volume δ} {h : Handle} {f : OpenFile} {handles : Pool} :
      v.handles.release? h = some (f, handles) →
      Turnover touched v (fun p => if p = h.place then 1 else 0) { v with handles := handles }
  /-- All handles are dropped; what else becomes of the volume does not matter then. -/
  | reset {v w : Volume δ} : w.handles = v.handles.reset → Turnover touched v (fun _ => 1) w
  | trans {u v w : Volume δ} {m n : Place → Nat} : Turnover touched u m v → Turnover touched v n w →
      Turnover touched u (fun p => m p + n p) w

/-- The open file `f` at a place of `v` is still open in `w`, as `f'`, under the name that its entry had. -/
structure Retained (touched : Place → Prop) (v w : Volume δ) (p : Place) (f f' : OpenFile) : Prop where
  file : w.handles.fileAt? p = some f'
  slot : f'.slot = f.slot
  mode : f'.mode = f.mode
  untouched : ¬touched p → f' = f
  label : (w.directory.get f.slot).label = (v.directory.get f.slot).label

theorem Retained.trans {f' f'' : OpenFile} (h : Retained touched u v p f f')
    (h' : Retained touched v w p f' f'') : Retained touched u w p f f'' where
  file := h'.file
  slot := h'.slot.trans h.slot
  mode := h'.mode.trans h.mode
  untouched hp := (h'.untouched hp).trans (h.untouched hp)
  label := (h.slot ▸ h'.label).trans h.label

/-- What was touched may be left open. -/
theorem Retained.weaken {f' : OpenFile} (h : Retained touched v w p f f') : Retained (fun _ => True) v w p f f' :=
  ⟨h.file, h.slot, h.mode, fun hp => absurd trivial hp, h.label⟩

namespace Turnover

theorem congr {n' : Place → Nat} (h : Turnover touched v n w) (hn : ∀ p, n p = n' p) :
    Turnover touched v n' w :=
  funext hn ▸ h

/-- **Handles that are in order stay so.** -/
theorem guarded (ht : Turnover touched v n w) (h : v.Guarded) : w.Guarded := by
  induction ht with
  | frame hf =>
    refine h.of_files hf.mounted fun p f' hp => ?_
    obtain ⟨f, hv, hs, hm⟩ := hf.file_cases_before hp
    refine ⟨f, hv, hs, hm, ?_⟩
    rw [hs]
    exact (congrArg Prod.snd (hf.label f.slot)).trans (h.kind hv)
  | @replace v slot e s hfree =>
    refine h.of_files rfl fun p f hp => ⟨f, hp, rfl, rfl, ?_⟩
    show ((v.directory.set slot e).get f.slot).kind = .file
    rw [Directory.get_set, if_neg (hfree p f hp)]
    exact h.kind hp
  | acquire hm hk hconf ha => exact h.of_acquire hm hk hconf ha
  | release hr =>
    refine h.of_files rfl fun p f hp => ⟨f, ?_, rfl, rfl, ?_⟩
    · exact (Pool.file_of_release? hr hp).2
    · exact h.kind (Pool.file_of_release? hr hp).2
  | reset hw => exact .of_no_files fun p => by rw [hw, Pool.fileAt?_reset]
  | trans _ _ ih ih' => exact ih' (ih h)

/-- **The generation of a place counts how often it was emptied.** -/
theorem generationAt_eq (ht : Turnover touched v n w) (p : Place) :
    w.handles.generationAt p = v.handles.generationAt p + UInt32.ofNat (n p) := by
  induction ht with
  | frame hf => exact (hf.generation p).trans (UInt32.add_zero _).symm
  | replace _ => exact (UInt32.add_zero _).symm
  | acquire _ _ _ ha => exact (Pool.acquire?_places ha p).2.trans (UInt32.add_zero _).symm
  | @release v h f handles hr =>
    rw [(Pool.release?_places hr p).2]
    by_cases hp : p = h.place
    · simp only [if_pos hp]
      rfl
    · simp only [if_neg hp]
      rfl
  | reset hw => rw [hw, Pool.generationAt_reset]; rfl
  | trans _ _ ih ih' => rw [ih', ih, UInt32.add_assoc, UInt32.ofNat_add]

/-- **A file stays open, and the file of its slot, as long as its place is not emptied.** -/
theorem retained (ht : Turnover touched v n w) (h : v.Guarded) (hp : v.handles.fileAt? p = some f)
    (hn : n p = 0) : ∃ f', Retained touched v w p f f' := by
  induction ht generalizing f with
  | frame hf =>
    obtain ⟨f', hf', hs, hm⟩ := hf.file_cases hp
    refine ⟨f', hf', hs, hm, ?_, hf.label f.slot⟩
    intro hu
    rw [hf.file p hu, hp] at hf'
    exact (Option.some.inj hf').symm
  | @replace v slot e s hfree =>
    refine ⟨f, hp, rfl, rfl, fun _ => rfl, ?_⟩
    show ((v.directory.set slot e).get f.slot).label = _
    rw [Directory.get_set, if_neg (hfree p f hp)]
  | @acquire v slot mode hd handles _ _ _ ha =>
    have hne : p ≠ hd.place := by
      rintro rfl
      rw [(Pool.acquire?_eq_some ha).1] at hp
      cases hp
    exact ⟨f, by rw [(Pool.acquire?_places ha p).1, if_neg hne, hp], rfl, rfl, fun _ => rfl, rfl⟩
  | @release v hd _ handles hr =>
    have hne : p ≠ hd.place := fun he => by simp [he] at hn
    exact ⟨f, by rw [(Pool.release?_places hr p).1, if_neg hne, hp], rfl, rfl, fun _ => rfl, rfl⟩
  | reset _ => cases hn
  | trans h₁ _ ih ih' =>
    obtain ⟨hm, hn'⟩ := Nat.add_eq_zero_iff.mp hn
    obtain ⟨f', hr⟩ := ih h hp hm
    obtain ⟨f'', hr'⟩ := ih' (h₁.guarded h) hr.file hn'
    exact ⟨f'', hr.trans hr'⟩

end Turnover

variable [BlockDevice δ]

/-! ## Operations that empty no place -/

/-- No single change empties a place, if handles were in order before. -/
theorem Move.turnover (h : Move touched v w) (hg : v.Guarded) : Turnover touched v (fun _ => 0) w := by
  cases h with
  | request _ => exact .frame (.of_device _)
  | edit hp hclaim => exact .frame (.of_edit hp hclaim)
  | grow hgrow =>
    obtain ⟨-, -, -, -, he⟩ := Space.grow_eq_ok hgrow
    exact .frame ((refl v : Frame touched v v).with_entry (Prod.ext he.nameField he.kind) _)
  | @resize slot size =>
    have hlabel : ({ v.directory.get slot with size := size } : Entry).label = (v.directory.get slot).label := rfl
    exact .frame ((refl v : Frame touched v v).with_entry hlabel v.space)
  | insert _ _ _ _ hfree =>
    -- a new entry goes into a slot that nobody uses
    exact .replace (hg.slot_ne_of_isEmpty (Directory.isEmpty_of_freeSlot? hfree))
  | remove _ _ _ href _ => exact .replace (Pool.references_eq_false.mp href)
  | acquire hm hfile hconf ha => exact .acquire hm hfile hconf ha

theorem Moved.turnover (h : Moved touched v w) (hg : v.Guarded) : Turnover touched v (fun _ => 0) w := by
  induction h with
  | refl => exact .frame (refl v)
  | tail _ hm ih => exact ih.trans (hm.turnover (ih.guarded hg))

/-! ## Operations that empty places -/

/-- A handle that is open is closed, whatever comes of its cache. -/
theorem close_turnover (hd : Handle) (h : v.Guarded) : (close hd : VolumeAction δ Unit).Ensures v fun _ w =>
    Turnover touched v
      (fun p => if v.mounted = true ∧ (v.handles.file? hd).isSome = true ∧ p = hd.place then 1 else 0) w := by
  apply (close_moved touched hd).mono
  rintro r w (⟨hclosed, rfl⟩ | ⟨f, handles, hm, hr, hw⟩)
  · refine (Turnover.frame (refl w)).congr fun p => (if_neg ?_).symm
    exact fun hc => hclosed ⟨hc.1, hc.2.1⟩
  · have hsome : v.handles.file? hd = some f := (Pool.release?_eq_some hr).1
    have hrelease : Turnover touched v _ { v with handles := handles } := .release hr
    exact (hrelease.trans (hw.turnover (hrelease.guarded h))).congr fun p => by simp [hm, hsome]

/-- Formatting drops all handles, unless the device is too small for it. -/
theorem format_handles : (format : VolumeAction δ Unit).Ensures v fun _ w =>
    if volumeBlocks ≤ deviceSize v.device then w.handles = v.handles.reset else w = v := by
  unfold format
  by_cases hn : volumeBlocks ≤ deviceSize v.device
  · have hn' : ¬(BlockDevice.info v.device).totalBlocks < volumeBlocks := Nat.not_lt.mpr hn
    simp only [ensures_bind, ensures_get, if_neg hn', ensures_note, ensures_modify, if_pos hn]
    -- storing the empty volume leaves its handles
    refine Ensures.mono (ensures_self _ _) ?_
    rintro r w ⟨rfl, rfl⟩
    split <;> rfl
  · have hn' : (BlockDevice.info v.device).totalBlocks < volumeBlocks := Nat.lt_of_not_le hn
    simp only [ensures_bind, ensures_get, if_pos hn', ensures_note, ensures_throw, if_neg hn]

/-- Leaving a volume drops all handles, if it succeeds. -/
theorem unmount_turnover (ht : ∀ p, touched p) (h : v.Guarded) :
    (unmount : VolumeAction δ Unit).Ensures v fun r w =>
      Turnover touched v (fun _ => match r with | .ok _ => 1 | .error _ => 0) w := by
  apply (unmount_moved touched ht).mono
  rintro r w (⟨⟨e, rfl⟩, hw⟩ | ⟨rfl, u, hw, rfl⟩)
  · exact hw.turnover h
  · exact (hw.turnover h).trans (.reset rfl)

/-! ## Mounting -/

/-- The same files are open, under the same handles. -/
structure SameHandles (v w : Volume δ) : Prop where
  handles : w.handles = v.handles

instance : IsPreorder (Volume δ) SameHandles where
  refl _ := ⟨rfl⟩
  trans _ _ _ h h' := ⟨h'.handles.trans h.handles⟩

omit [BlockDevice δ] in
theorem onDevice_sameHandles {α : Type} (x : Action DeviceError δ α) :
    (onDevice x).Respects (SameHandles (δ := δ)) :=
  respects_focus fun _ _ => ⟨rfl⟩

theorem migrateNames_sameHandles : (migrateNames : VolumeAction δ Unit).Respects SameHandles := by
  unfold migrateNames
  refine respects_get.bind fun _ => (respects_emit _).bind fun _ => ?_
  refine (respects_modify fun _ => ⟨rfl⟩).bind fun _ => ?_
  split
  · exact (respects_note _ _).bind fun _ => respects_get.bind fun _ => onDevice_sameHandles _
  · exact respects_pure _

/-- After the superblock mounting has no more to do with handles. -/
theorem loadRest_sameHandles (superblock : Superblock) :
    (loadRest superblock : VolumeAction δ Unit).Respects SameHandles := by
  have hfinish (space : Space) : (finishMount space : VolumeAction δ Unit).Respects SameHandles :=
    migrateNames_sameHandles.bind fun _ => (respects_modify fun _ => ⟨rfl⟩).bind fun _ =>
      respects_get.bind fun _ => respects_note _ _
  unfold loadRest
  refine (onDevice_sameHandles _).bind fun _ => (onDevice_sameHandles _).bind fun _ => ?_
  refine (respects_modify fun _ => ⟨rfl⟩).bind fun _ => ?_
  dsimp only
  split
  · exact (respects_note _ _).bind fun _ => hfinish _
  · exact hfinish _

/-- Whether mounting finds a device that it formats: one that shows a block without the mark of a superblock
and has room for a volume. -/
def formatsOnMount (v : Volume δ) : Bool :=
  match (BlockDevice.read superblockBlock v.device).result with
  | .ok block => (Superblock.ofBlock block).magic ≠ volumeMagic &&
      volumeBlocks ≤ deviceSize (BlockDevice.read superblockBlock v.device).state
  | .error _ => false

theorem loadSuperblock_handles : (loadSuperblock : VolumeAction δ Superblock).Ensures v fun _ w =>
    w.handles = if v.formatsOnMount then v.handles.reset else v.handles := by
  unfold loadSuperblock formatsOnMount
  rw [ensures_bind, ensures_onDevice]
  apply (ensures_self _ _).mono
  rintro r d ⟨hr, hd⟩
  rw [← hr, ← hd]
  cases r with
  | error e => rfl
  | ok block =>
    simp only [Except.mapError, ensures_bind, ensures_get, Superblock.validate]
    by_cases hmagic : (Superblock.ofBlock block).magic = volumeMagic
    · -- what begins as a superblock is taken or rejected
      cases (Superblock.ofBlock block).isSane (BlockDevice.info d).totalBlocks <;> simp [hmagic]
    · rw [if_pos hmagic]
      simp only [ensures_bind, ensures_note]
      apply format_handles.mono
      intro r w hw
      by_cases hn : volumeBlocks ≤ deviceSize d
      · rw [if_pos hn] at hw
        cases r <;> simpa [hmagic, hn] using hw
      · rw [if_neg hn] at hw
        cases r <;> simp [hmagic, hn, hw]

/-- Mounting drops all handles, and once more if it formats the device. -/
theorem mount_turnover : (mount : VolumeAction δ Unit).Ensures v fun _ w =>
    Turnover touched v (fun _ => if v.formatsOnMount then 2 else 1) w := by
  rw [ensures_mount]
  have hleft : Turnover touched v (fun _ => 1) v.left := .reset rfl
  suffices h : (loadSuperblock >>= loadRest : VolumeAction δ Unit).Ensures v.left fun _ w =>
      w.handles = if v.formatsOnMount then v.left.handles.reset else v.left.handles by
    apply h.mono
    intro _ w hw
    cases hformats : v.formatsOnMount with
    | true =>
      rw [hformats] at hw
      exact (hleft.trans (.reset hw)).congr fun _ => rfl
    | false =>
      rw [hformats] at hw
      exact .reset hw
  refine Ensures.bind loadSuperblock_handles ?_ fun _ _ h => h
  intro superblock w hw
  exact (loadRest_sameHandles superblock w).mono fun _ w' h => h.handles.trans hw

end Volume

/-! ## Operations -/

namespace Operation

open Volume

variable {δ : Type} {v w : Volume δ}

variable [BlockDevice δ]

/-- How often an operation empties a place. -/
def emptyings (op : Operation) (v : Volume δ) (p : Place) : Nat :=
  match op with
  | .close h => if v.mounted = true ∧ (v.handles.file? h).isSome = true ∧ p = h.place then 1 else 0
  | .format => if volumeBlocks ≤ deviceSize v.device then 1 else 0
  | .mount => if v.formatsOnMount then 2 else 1
  | .unmount => match (Volume.unmount v).result with
    | .ok _ => 1
    | .error _ => 0
  | _ => 0

theorem emptyings_le_two (op : Operation) (v : Volume δ) (p : Place) : op.emptyings v p ≤ 2 := by
  unfold emptyings
  split <;> try omega
  all_goals split <;> omega

/-- An operation through a handle empties no place but the one that it touches. -/
theorem emptyings_of_not_touches {op : Operation} {hd : Handle} {p : Place} (hop : op.handle? = some hd)
    (hp : ¬op.touches v p) : op.emptyings v p = 0 := by
  cases op with
  | close hd =>
    refine if_neg ?_
    rintro ⟨-, ho, rfl⟩
    exact hp (Or.inr ⟨hd, rfl, ho, rfl⟩)
  | _ => first | rfl | cases hop

/-- **Every operation changes places as its emptyings count, and files as it touches them.** -/
theorem turnover (op : Operation) (h : v.Guarded) :
    (op.perform : VolumeAction δ Unit).Ensures v fun _ w => Turnover (op.touches v) v (op.emptyings v) w := by
  have hquiet (hop : op.emptiesPlaces = false) :
      (op.perform : VolumeAction δ Unit).Ensures v fun _ w => Turnover (op.touches v) v (fun _ => 0) w :=
    (moved hop).mono fun _ _ hw => hw.turnover h
  cases op with
  | close hd => exact close_turnover hd h
  | unmount => exact unmount_turnover (fun _ => Or.inl rfl) h
  | mount => exact mount_turnover
  | format =>
    apply format_handles.mono
    intro r w hw
    by_cases hn : volumeBlocks ≤ deviceSize v.device
    · rw [if_pos hn] at hw
      exact (Turnover.reset hw).congr fun _ => (if_pos hn).symm
    · rw [if_neg hn] at hw
      subst hw
      exact (Turnover.frame (refl w)).congr fun _ => (if_neg hn).symm
  | _ => exact hquiet rfl

end Operation

end BlockVolume
