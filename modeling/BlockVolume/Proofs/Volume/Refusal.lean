import BlockVolume.Proofs.Volume.Names
import BlockVolume.Proofs.Volume.Tenure

/-!
# `Proofs.Volume.Refusal` — refusals have no effect

Operations check what is asked of them before they change anything, and once they have begun to change
something only the device can stop them. The exceptions are transfers, which may run out of room half-way, and
formatting and mounting. Nothing is asked of the device here.

Opening a missing file for writing checks twice: the file is created between the checks, so the later ones must
be shown to pass then. They do because no open file belongs to a slot that was unused.

## Contents
- **`Proceeds`**: what an operation keeps, and the errors that it may end with, with one lemma for each
  combinator.
- `storeMetadata_proceeds`, `writePieces_transfers` and their like: the parts of operations that come after the checks.
- **`Unharmed`**: what is left by an operation that is refused; one lemma for each operation.
- **`refusal_has_no_effect`**: for all operations of all runs.
-/

namespace BlockVolume

open BlockVolume.Action

/-- The call could not be made: the volume is not mounted, or the handle is closed or one of the other mode. -/
def Error.isMiscall : Error → Bool
  | .notMounted | .invalidHandle | .wrongMode => true
  | _ => false

/-- The device is not to blame. -/
def Error.isRefusal : Error → Bool
  | .io _ => false
  | _ => true

/-- The errors of an operation that refuse it as a whole. A transfer may end early for other reasons, and then
what was moved before stays; formatting and mounting begin by dropping what is in memory. -/
def Operation.refusesWith : Operation → Error → Bool
  | .read _ _, e | .write _ _, e => e.isMiscall
  | .format, _ | .mount, _ => false
  | _, e => e.isRefusal

namespace Volume

variable {δ : Type} {α β : Type} {v w : Volume δ}

/-! ## Errors of parts of operations -/

/-- From volumes with `I` the operation leads to such volumes again, and no error of it counts as a refusal. -/
def Proceeds (I : Volume δ → Prop) (refuses : Error → Bool) (x : VolumeAction δ α) : Prop :=
  ∀ v, I v → x.Ensures v fun r w => I w ∧ ∀ e, r = .error e → refuses e = false

section

variable {I : Volume δ → Prop} {refuses : Error → Bool}

theorem proceeds_pure (a : α) : Proceeds I refuses (pure a : VolumeAction δ α) :=
  fun _ hv => ⟨hv, fun _ he => by cases he⟩

theorem proceeds_throw {e : Error} (he : refuses e = false) : Proceeds I refuses (throw e : VolumeAction δ α) :=
  fun _ hv => ⟨hv, fun _ h => Except.error.inj h ▸ he⟩

/-- What would have come after an error is left alone. -/
theorem proceeds_throw_bind {e : Error} (he : refuses e = false) (f : α → VolumeAction δ β) :
    Proceeds I refuses (throw e >>= f) :=
  fun _ hv => ⟨hv, fun _ h => Except.error.inj h ▸ he⟩

theorem proceeds_note (level : Log.Level) (text : String) :
    Proceeds I refuses (note level text : VolumeAction δ Unit) :=
  fun _ hv => ⟨hv, fun _ he => by cases he⟩

theorem proceeds_emit (records : List Log.Record) : Proceeds I refuses (emit records : VolumeAction δ Unit) :=
  fun _ hv => ⟨hv, fun _ he => by cases he⟩

theorem proceeds_get : Proceeds I refuses (Action.get : VolumeAction δ (Volume δ)) :=
  fun _ hv => ⟨hv, fun _ he => by cases he⟩

theorem proceeds_liftM {r : Except Error α} (h : ∀ e, r = .error e → refuses e = false) :
    Proceeds I refuses (liftM r : VolumeAction δ α) :=
  fun _ hv => ⟨hv, h⟩

theorem proceeds_modify {f : Volume δ → Volume δ} (hf : ∀ v, I v → I (f v)) :
    Proceeds I refuses (modify f : VolumeAction δ Unit) :=
  fun v hv => ⟨hf v hv, fun _ he => by cases he⟩

/-- What follows a look at the volume may depend on it. -/
theorem proceeds_get_bind {f : Volume δ → VolumeAction δ α}
    (hf : ∀ v, I v → (f v).Ensures v fun r w => I w ∧ ∀ e, r = .error e → refuses e = false) :
    Proceeds I refuses (Action.get >>= f) :=
  fun v hv => ensures_bind.mpr (hf v hv)

/-- Requests fail because of the device, and change nothing else. -/
theorem proceeds_onDevice (x : Action DeviceError δ α) (hI : ∀ v (d : δ), I v → I { v with device := d })
    (hio : ∀ d, refuses (.io d) = false) : Proceeds I refuses (onDevice x) := by
  intro v hv
  rw [ensures_onDevice]
  apply (ensures_self x v.device).mono
  rintro r d -
  refine ⟨hI v d hv, ?_⟩
  intro e he
  cases r with
  | ok a => cases he
  | error cause => exact Except.error.inj he ▸ hio cause

/-- A sequence fails with the errors of its parts. -/
theorem Proceeds.bind {x : VolumeAction δ α} {f : α → VolumeAction δ β} (hx : Proceeds I refuses x)
    (hf : ∀ a, Proceeds I refuses (f a)) : Proceeds I refuses (x >>= f) := by
  intro v hv
  refine Ensures.bind (hx v hv) ?_ fun e _ h => ⟨h.1, fun e' he' => h.2 e' (by cases he'; rfl)⟩
  exact fun a w h => hf a w h.1

/-- What goes on after an error may tell it later. -/
theorem Proceeds.attempt_bind {x : VolumeAction δ α} {f : Except Error α → VolumeAction δ β}
    (hx : Proceeds I refuses x) (hf : ∀ r, (∀ e, r = .error e → refuses e = false) → Proceeds I refuses (f r)) :
    Proceeds I refuses (attempt x >>= f) := by
  intro v hv
  rw [ensures_bind, ensures_attempt]
  apply (hx v hv).mono
  exact fun r w h => hf r h.2 w h.1

end

/-! ## What the device alone can stop -/

variable [BlockDevice δ]

section

variable {refuses : Error → Bool} (hio : ∀ d, refuses (.io d) = false)

include hio

theorem storeMetadata_proceeds {I : Volume δ → Prop} (hI : ∀ v (d : δ), I v → I { v with device := d }) :
    Proceeds I refuses (storeMetadata : VolumeAction δ Unit) :=
  proceeds_get.bind fun _ => proceeds_onDevice _ hI hio

/-- On a mounted volume flushing is storing. -/
theorem flush_proceeds : Proceeds (fun v => v.mounted = true) refuses (flush : VolumeAction δ Unit) := by
  refine proceeds_get_bind fun v hm => ?_
  rw [ensures_bind, ensures_liftM, ensureMounted, if_pos hm]
  exact storeMetadata_proceeds hio (fun _ _ h => h) v hm

/-- A handle that was released only has its cache to write back and the rest to store. -/
theorem closeReleased_proceeds (f : OpenFile) : Proceeds (fun v => v.mounted = true) refuses (do
    let cached ← attempt (do
      if f.mode = .write then
        let _ ← onDevice f.cache.writeBack : VolumeAction δ Unit)
    let flushed ← attempt (flush : VolumeAction δ Unit)
    cached
    flushed : VolumeAction δ Unit) := by
  have hcache : Proceeds (fun v => v.mounted = true) refuses
      (do if f.mode = .write then let _ ← onDevice f.cache.writeBack : VolumeAction δ Unit) := by
    split
    · exact (proceeds_onDevice _ (fun _ _ h => h) hio).bind fun _ => proceeds_pure _
    · exact proceeds_pure _
  exact hcache.attempt_bind fun cached hcached => (flush_proceeds hio).attempt_bind fun flushed hflushed =>
    (proceeds_liftM hcached).bind fun _ => proceeds_liftM hflushed

theorem writeBackAll_proceeds (places : List Place) :
    Proceeds (fun _ => True) refuses (writeBackAll places : VolumeAction δ Unit) := by
  have hwriteBackAt (p : Place) : Proceeds (fun _ => True) refuses (writeBackAt p : VolumeAction δ Unit) := by
    refine proceeds_get.bind fun v => ?_
    split
    · exact proceeds_pure _
    · exact (proceeds_onDevice _ (fun _ _ h => h) hio).bind fun _ => proceeds_modify fun _ h => h
  induction places with
  | nil => exact proceeds_pure _
  | cons p rest ih => exact (hwriteBackAt p).bind fun _ => ih

/-- What is left of leaving a mounted volume. -/
theorem leave_proceeds : Proceeds (fun _ => True) refuses (do
    writeBackAll (List.finRange maxOpenFiles)
    storeMetadata
    Action.modify fun v => { v with handles := v.handles.reset, mounted := false }
    Action.note .info "[sfs] Unmounted" : VolumeAction δ Unit) := by
  refine (writeBackAll_proceeds hio _).bind fun _ => (storeMetadata_proceeds hio fun _ _ h => h).bind fun _ => ?_
  exact (proceeds_modify fun _ _ => trivial).bind fun _ => proceeds_note _ _

end

/-! ## Transfers -/

/-- A transfer that was begun leaves its file open, and is no miscall. -/
abbrev Transfers (p : Place) (x : VolumeAction δ α) : Prop :=
  Proceeds (fun v => (v.handles.fileAt? p).isSome = true) Error.isMiscall x

section

variable {p : Place}

omit [BlockDevice δ] in
/-- The file of a transfer is there. -/
theorem transfers_fileAt {k : Volume δ → OpenFile → VolumeAction δ α} (hk : ∀ v f, Transfers p (k v f)) :
    Transfers p (Action.get >>= fun v => liftM (v.fileAt p) >>= k v) := by
  refine proceeds_get_bind fun v hv => ?_
  obtain ⟨f, hf⟩ := Option.isSome_iff_exists.mp hv
  rw [ensures_bind, ensures_liftM, fileAt_eq_ok hf]
  exact hk v f v hv

omit [BlockDevice δ] in
/-- Changing the file does not close it. -/
theorem transfers_modify {f : Volume δ → Volume δ}
    (hf : ∀ v, ∃ g, (f v).handles = v.handles.modifyFile p g) :
    Transfers p (modify f : VolumeAction δ Unit) := by
  refine proceeds_modify fun v hv => ?_
  obtain ⟨g, hg⟩ := hf v
  rw [hg, Pool.fileAt?_modifyFile, if_pos rfl, Option.isSome_map]
  exact hv

omit [BlockDevice δ] in
theorem transfers_setCache (c : Cache) : Transfers p (setCache p c : VolumeAction δ Unit) :=
  transfers_modify fun _ => ⟨_, rfl⟩

omit [BlockDevice δ] in
theorem transfers_onDevice (x : Action DeviceError δ α) : Transfers p (onDevice x) :=
  proceeds_onDevice x (fun _ _ h => h) fun _ => rfl

theorem loadBlock_transfers (b : Nat) : Transfers p (loadBlock p b : VolumeAction δ Unit) := by
  refine transfers_fileAt fun _ file => ?_
  split
  · exact proceeds_pure _
  · exact (transfers_setCache _).bind fun _ => (transfers_onDevice _).bind fun _ => transfers_setCache _

omit [BlockDevice δ] in
theorem transfers_blockOf (e : Entry) (logical : Nat) :
    Transfers p (liftM (blockOf e logical) : VolumeAction δ Nat) := by
  refine proceeds_liftM fun e' he => ?_
  unfold blockOf at he
  dsimp only at he
  split at he
  · cases he
  · cases he
    rfl

theorem readStretch_transfers (count : Nat) :
    Transfers p (readStretch p count : VolumeAction δ (List UInt8)) := by
  refine transfers_fileAt fun v file => ?_
  dsimp only
  split
  · exact (proceeds_note _ _).bind fun _ => proceeds_throw_bind (by rfl) _
  · refine (transfers_blockOf _ _).bind fun block => (loadBlock_transfers block).bind fun _ => ?_
    exact transfers_fileAt fun _ _ => (transfers_modify fun _ => ⟨_, rfl⟩).bind fun _ => proceeds_pure _

theorem readStretches_transfers (counts : List Nat) :
    Transfers p (readStretches p counts : VolumeAction δ (List UInt8)) := by
  induction counts with
  | nil => exact proceeds_pure _
  | cons count rest ih => exact (readStretch_transfers count).bind fun _ => ih.bind fun _ => proceeds_pure _

omit [BlockDevice δ] in
theorem growEntry_transfers (slot : Slot) : Transfers p (growEntry slot : VolumeAction δ Unit) := by
  refine proceeds_get.bind fun v => ?_
  dsimp only
  split
  · exact proceeds_modify fun _ h => h
  · rename_i refusal _
    have hmiscall : refusal.error.isMiscall = false := by cases refusal <;> rfl
    exact (proceeds_emit _).bind fun _ => proceeds_throw hmiscall

theorem writeBackAt_transfers : Transfers p (writeBackAt p : VolumeAction δ Unit) := by
  refine proceeds_get.bind fun v => ?_
  split
  · exact proceeds_pure _
  · exact (transfers_onDevice _).bind fun _ => transfers_setCache _

theorem targetBlock_transfers (b : Nat) (fresh whole : Bool) :
    Transfers p (targetBlock p b fresh whole : VolumeAction δ Unit) := by
  refine transfers_fileAt fun _ file => ?_
  split
  · refine writeBackAt_transfers.bind fun _ => ?_
    split
    · exact transfers_setCache _
    · split
      · exact transfers_setCache _
      · exact loadBlock_transfers b
  · exact proceeds_pure _

theorem writePiece_transfers (bytes : List UInt8) : Transfers p (writePiece p bytes : VolumeAction δ Unit) := by
  have hfill (file : OpenFile) (fresh : Bool) : Transfers p (fillPiece p file fresh bytes : VolumeAction δ Unit) := by
    refine proceeds_get.bind fun v => (transfers_blockOf _ _).bind fun block => ?_
    refine (targetBlock_transfers block fresh _).bind fun _ => transfers_fileAt fun _ cached => ?_
    dsimp only
    split
    · exact proceeds_throw_bind (by rfl) _
    · exact transfers_modify fun _ => ⟨_, rfl⟩
  intro v hv
  obtain ⟨file, hf⟩ := Option.isSome_iff_exists.mp hv
  rw [ensures_writePiece hf]
  split
  · exact ((growEntry_transfers _).bind fun _ => hfill file true) v hv
  · exact hfill file false v hv

theorem writePieces_transfers (parts : List (List UInt8)) :
    Transfers p (writePieces p parts : VolumeAction δ Unit) := by
  induction parts with
  | nil => exact proceeds_pure _
  | cons bytes rest ih => exact (writePiece_transfers bytes).bind fun _ => ih

end

/-! ## Operations that are refused -/

/-- An error that counts as a refusal leaves the volume as it was. -/
def Unharmed (refuses : Error → Bool) (v : Volume δ) (r : Except Error α) (w : Volume δ) : Prop :=
  ∀ e, r = .error e → refuses e = true → w = v

section

variable {refuses : Error → Bool}

omit [BlockDevice δ]

theorem unharmed_self (r : Except Error α) : Unharmed refuses v r v := fun _ _ _ => rfl

theorem unharmed_ok (a : α) : Unharmed refuses v (.ok a : Except Error α) w := fun _ he => by cases he

theorem unharmed_of_error {r : Except Error α} (h : ∀ e, r = .error e → refuses e = false) :
    Unharmed refuses v r w :=
  fun e he hr => by rw [h e he] at hr; cases hr

/-- What comes after the checks may do as it likes. -/
theorem Proceeds.unharmed {I : Volume δ → Prop} {x : VolumeAction δ α} (h : Proceeds I refuses x) (hw : I w) :
    x.Ensures w (Unharmed refuses v) :=
  (h w hw).mono fun _ _ h => unharmed_of_error h.2

end

theorem storeMetadata_unharmed : (storeMetadata : VolumeAction δ Unit).Ensures w (Unharmed Error.isRefusal v) :=
  (storeMetadata_proceeds (fun _ => rfl) fun _ _ h => h : Proceeds (fun _ => True) _ _).unharmed trivial

/-- Creating an entry either fails at once, or only the device can stop it; then the entry is in a slot that
was unused. -/
theorem createEntry_unharmed (path : Path) (kind : EntryKind) : (createEntry path kind).Ensures v fun r w =>
    Unharmed Error.isRefusal v r w ∧ ∀ slot, r = .ok slot → v.directory.freeSlot? = some slot ∧
      ∃ d, w = { v.withEntry slot path kind with device := d } := by
  apply ensures_createEntry fun e _ => ⟨unharmed_self _, fun _ h => by cases h⟩
  intro slot _ _ _ hfree
  rw [ensures_bind]
  have hproceeds : Proceeds (fun _ => True) Error.isRefusal (storeMetadata : VolumeAction δ Unit) :=
    storeMetadata_proceeds (fun _ => rfl) fun _ _ h => h
  have hstore := hproceeds (v.withEntry slot path kind) trivial
  have hdevice : (storeMetadata : VolumeAction δ Unit).Ensures (v.withEntry slot path kind) fun _ w =>
      ∃ d, w = { v.withEntry slot path kind with device := d } := ⟨_, rfl⟩
  apply (hstore.and hdevice).mono
  rintro r w ⟨⟨-, herror⟩, hw⟩
  cases r with
  | ok _ => exact ⟨unharmed_ok _, fun slot' hs => by cases hs; exact ⟨hfree, hw⟩⟩
  | error e => exact ⟨unharmed_of_error fun e' he' => herror e' (by cases he'; rfl), fun _ h => by cases h⟩

theorem create_unharmed (path : String) (kind : EntryKind) :
    (create path kind : VolumeAction δ Unit).Ensures v (Unharmed Error.isRefusal v) := by
  unfold create
  refine ensures_whenMounted.mpr ⟨fun _ => ?_, fun _ => unharmed_self _⟩
  by_cases hk : kind = .empty
  · rw [if_pos hk]
    exact unharmed_self _
  · rw [if_neg hk, ensures_bind, ensures_liftM]
    cases resolve path with
    | error e => exact unharmed_self _
    | ok p =>
      refine Ensures.bind (createEntry_unharmed p kind) (fun _ _ _ => unharmed_ok _) ?_
      exact fun e w h e' he' => h.1 e' (by cases he'; rfl)

theorem delete_unharmed (path : String) : (delete path : VolumeAction δ Unit).Ensures v (Unharmed Error.isRefusal v) := by
  apply ensures_delete (fun _ _ => unharmed_self _) fun _ _ _ => unharmed_self _
  intro p slot released _ _ _ _ _ _
  exact storeMetadata_unharmed

omit [BlockDevice δ] in
/-- A file that was created just now is opened: it is a file, nobody has it open, and there was a place. -/
theorem openCreated_ok (hv : v.Guarded) (hfull : v.handles.isFull = false) {p : Path} {slot : Slot} {d : δ}
    (hfree : v.directory.freeSlot? = some slot) :
    (acquireFile p.text slot .write).Ensures { v.withEntry slot p .file with device := d } fun r _ =>
      ∃ hd, r = .ok hd := by
  have hfile : ((v.directory.set slot (Entry.ofName p.text .file)).get slot).isFile = true := by
    rw [Directory.get_set, if_pos rfl]
    rfl
  have hconf : v.handles.conflicts slot .write = false := by
    apply Pool.conflicts_eq_false.mpr
    intro q f hq hs
    exact absurd hs (hv.slot_ne_of_isEmpty (Directory.isEmpty_of_freeSlot? hfree) q f hq)
  apply ensures_acquireFile
  · rintro e - (hno | hno | hno)
    · cases hfile.symm.trans hno
    · cases hconf.symm.trans hno
    · cases hfull.symm.trans hno
  · exact fun hd handles _ _ _ => ⟨hd, rfl⟩

/-- No entry is left behind by opening that is refused. -/
theorem openPath_unharmed (hv : v.Guarded) (path : String) (mode : Mode) :
    (openPath path mode : VolumeAction δ Handle).Ensures v (Unharmed Error.isRefusal v) := by
  apply ensures_openPath fun e _ => unharmed_self _
  · intro _ p slot _ _
    exact ensures_acquireFile (fun _ _ _ => unharmed_self _) fun _ _ _ _ _ => unharmed_ok _
  · intro _ hfull _ p _
    refine Ensures.bind (createEntry_unharmed p .file) ?_ fun e w h e' he' => h.1 e' (by cases he'; rfl)
    intro slot w h
    obtain ⟨hfree, d, rfl⟩ := h.2 slot rfl
    apply (openCreated_ok hv hfull hfree).mono
    rintro r w ⟨hd, rfl⟩
    exact unharmed_ok hd

omit [BlockDevice δ] in
theorem seek_unharmed (hd : Handle) (offset : Nat) :
    (seek hd offset : VolumeAction δ Nat).Ensures v (Unharmed Error.isRefusal v) :=
  ensures_whenOpen (fun _ _ => unharmed_self _) fun _ _ _ => unharmed_ok _

/-- A handle that is open is closed. -/
theorem close_unharmed (hd : Handle) : (close hd : VolumeAction δ Unit).Ensures v (Unharmed Error.isRefusal v) := by
  unfold close
  refine ensures_whenMounted.mpr ⟨fun hm => ?_, fun _ => unharmed_self _⟩
  cases v.handles.release? hd with
  | none => exact unharmed_self _
  | some released =>
    exact ensures_bind.mpr (ensures_modify.mpr ((closeReleased_proceeds (fun _ => rfl) released.1).unharmed hm))

theorem flush_unharmed : (flush : VolumeAction δ Unit).Ensures v (Unharmed Error.isRefusal v) := by
  unfold flush
  refine ensures_whenMounted.mpr ⟨fun _ => ?_, fun _ => unharmed_self _⟩
  exact storeMetadata_unharmed

theorem unmount_unharmed : (unmount : VolumeAction δ Unit).Ensures v (Unharmed Error.isRefusal v) := by
  unfold unmount
  refine ensures_whenMounted.mpr ⟨fun _ => ?_, fun _ => unharmed_self _⟩
  exact (leave_proceeds fun _ => rfl).unharmed trivial

/-- A transfer that is no miscall may have moved something, however it ends. -/
theorem read_unharmed (hd : Handle) (length : Nat) :
    (read hd length : VolumeAction δ (List UInt8)).Ensures v (Unharmed Error.isMiscall v) := by
  refine ensures_whenOpen (fun _ _ => unharmed_self _) fun _ f hf => ?_
  split
  · exact (readStretches_transfers _).unharmed (by rw [Pool.fileAt?_of_file? hf]; rfl)
  · exact unharmed_self _

theorem write_unharmed (hd : Handle) (data : List UInt8) :
    (write hd data : VolumeAction δ Nat).Ensures v (Unharmed Error.isMiscall v) := by
  refine ensures_whenOpen (fun _ _ => unharmed_self _) fun _ f hf => ?_
  split
  · refine Proceeds.unharmed ((writePieces_transfers _).bind fun _ => proceeds_pure _) ?_
    rw [Pool.fileAt?_of_file? hf]
    rfl
  · exact unharmed_self _

omit [BlockDevice δ] in
/-- What an operation yields does not matter to its refusals. -/
theorem ensures_unharmed_discard {refuses : Error → Bool} {x : VolumeAction δ α}
    (h : x.Ensures v (Unharmed refuses v)) :
    (x >>= fun _ => pure () : VolumeAction δ Unit).Ensures v (Unharmed refuses v) :=
  Ensures.bind h (fun _ _ _ => unharmed_ok _) fun _ _ h e he => h e (by cases he; rfl)

omit [BlockDevice δ] in
theorem ensures_unharmed_question {refuses : Error → Bool} (q : Volume δ → Except Error α) :
    (Action.get >>= fun v => liftM (q v) >>= fun _ => pure () : VolumeAction δ Unit).Ensures v
      (Unharmed refuses v) := by
  simp only [ensures_bind, ensures_get, ensures_liftM]
  cases q v with
  | ok a => exact unharmed_ok _
  | error e => exact unharmed_self _

/-- **A refusal leaves everything as it was**: space and directory, open files and generations, whether the
volume is mounted, and the device. -/
theorem perform_unharmed (hv : v.Guarded) (op : Operation) :
    (op.perform : VolumeAction δ Unit).Ensures v (Unharmed op.refusesWith v) := by
  cases op with
  | create path kind => exact create_unharmed path kind
  | delete path => exact delete_unharmed path
  | openPath path mode => exact ensures_unharmed_discard (openPath_unharmed hv path mode)
  | read hd length => exact ensures_unharmed_discard (read_unharmed hd length)
  | write hd data => exact ensures_unharmed_discard (write_unharmed hd data)
  | seek hd offset => exact ensures_unharmed_discard (seek_unharmed hd offset)
  | close hd => exact close_unharmed hd
  | flush => exact flush_unharmed
  | unmount => exact unmount_unharmed
  | tell hd => exact ensures_unharmed_question _
  | list path => exact ensures_unharmed_question _
  | stat path => exact ensures_unharmed_question _
  | stats => exact ensures_unharmed_question _
  -- formatting and mounting have no refusals
  | format => exact unharmed_of_error fun _ _ => rfl
  | mount => exact unharmed_of_error fun _ _ => rfl

/-- **An operation that is refused has no effect**, whatever the device and the blocks on it are like, whatever
was done before, and however often the device has failed. -/
theorem refusal_has_no_effect (d : δ) (ops : List Operation) (op : Operation) {e : Error}
    (he : (op.perform (run ops (ofDevice d))).result = .error e) (hr : op.refusesWith e = true) :
    op.after (run ops (ofDevice d)) = run ops (ofDevice d) :=
  perform_unharmed (run_guarded (guarded_ofDevice d) ops) op e he hr

/-- Creating a directory under the name of a file is refused. -/
theorem refusal_of_taken_path :
    let v := run [.format, .mount, .create "/a" .file] (ofDevice (MemoryDisk.blank 1024))
    let op := Operation.create "/a" .directory
    (op.perform v).result = .error .alreadyExists ∧ op.refusesWith .alreadyExists = true ∧ op.after v = v := by
  have hrun (d : MemoryDisk) : run [.format, .mount, .create "/a" .file] (ofDevice d) =
      (create "/a" .file (formatted d)).state := rfl
  have hp : Path.ofString? "/a" = some ⟨"/a", by decide, by decide⟩ := by decide
  obtain ⟨hbegun, hrel⟩ := begun_of_reliable (d := MemoryDisk.blank 1024)
    (Nat.le_of_eq (MemoryDisk.deviceSize_blank 1024).symm) (MemoryDisk.reliable_of_writable rfl)
  have htaken : (create "/a" .directory (run [.format, .mount, .create "/a" .file]
      (ofDevice (MemoryDisk.blank 1024)))).result = .error .alreadyExists := by
    rw [hrun]
    generalize formatted (MemoryDisk.blank 1024) = u at hbegun hrel
    have hfree : u.directory.freeSlot? = some 0 := by rw [hbegun.directory, Directory.freeSlot?_empty]
    have hfind : u.directory.find? "/a" = none := by rw [hbegun.directory, Directory.find?_empty]
    obtain ⟨hok, -⟩ := create_stored hbegun.sound hrel hbegun.mounted hp (by decide : EntryKind.file ≠ .empty)
      (by decide) hfind (ensureParent_eq_ok (by decide)) hfree
    have hfound : Found (create "/a" .file u).state "/a" .file :=
      ((Creates.create hok).found_iff hbegun.sound).mpr (by decide)
    exact hfound.taken .directory (by decide)
  exact ⟨htaken, rfl, refusal_has_no_effect _ _ _ htaken rfl⟩

end Volume

end BlockVolume
