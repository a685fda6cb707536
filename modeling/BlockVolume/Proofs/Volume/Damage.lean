import BlockVolume.Proofs.Volume.Refusal

/-!
# `Proofs.Volume.Damage` — errors that a sound volume never leads to

Some checks only fail for a volume that is not what it should be: an entry has fewer blocks than bytes, or a number
leaves its range. In a sound volume they are never the reason why an operation fails. The rest of an operation can
only fail for a mistake of the caller, for want of room, or because of the device.

## Contents
- `Error.isDamage`, `NoDamage`: the errors that are meant, with one lemma for each kind of the others.
- **`Sound.noDamage`**: operations other than mounting end with none of them, assembled from the operations.
-/

namespace BlockVolume

open BlockVolume.Action

/-- The volume is at fault: something on it states what cannot be, or a number has left its range. -/
def Error.isDamage : Error → Bool
  | .unformatted | .corrupted | .outOfBounds => true
  | _ => false

/-- The volume is not found at fault. -/
def NoDamage {α : Type} (r : Except Error α) : Prop := ∀ e, r = .error e → e.isDamage = false

namespace NoDamage

variable {α : Type}

theorem ok (a : α) : NoDamage (.ok a : Except Error α) := fun _ he => by cases he

theorem error {e : Error} (he : e.isDamage = false) : NoDamage (.error e : Except Error α) :=
  fun _ h => Except.error.inj h ▸ he

theorem of_isMistake {e : Error} (he : e.isMistake = true) : NoDamage (.error e : Except Error α) := by
  cases e with
  | unformatted | corrupted | outOfBounds => cases he
  | _ => exact .error rfl

theorem of_onlyMistakes {r : Except Error α} (h : OnlyMistakes r) : NoDamage r :=
  fun e he => (of_isMistake (h e he) : NoDamage (.error e : Except Error α)) e rfl

theorem of_isIo {r : Except Error α} (h : IsIo r) : NoDamage r := by
  obtain ⟨d, rfl⟩ := h
  exact .error rfl

end NoDamage

namespace Volume

variable {δ α β : Type} {v : Volume δ}

/-- A sequence finds no damage if its parts find none. -/
theorem ensures_noDamage_bind {x : VolumeAction δ α} {f : α → VolumeAction δ β}
    (hx : x.Ensures v fun r _ => NoDamage r) (hf : ∀ a w, (f a).Ensures w fun r _ => NoDamage r) :
    (x >>= f).Ensures v fun r _ => NoDamage r :=
  Ensures.bind hx (fun a w _ => hf a w) fun _ _ h e he => h e (by cases he; rfl)

theorem Proceeds.noDamage {I : Volume δ → Prop} {x : VolumeAction δ α} (h : Proceeds I Error.isDamage x) (hv : I v) :
    x.Ensures v fun r _ => NoDamage r :=
  (h v hv).mono fun _ _ h => h.2

variable [BlockDevice δ]

theorem storeMetadata_noDamage : (storeMetadata : VolumeAction δ Unit).Ensures v fun r _ => NoDamage r :=
  (storeMetadata_proceeds (fun _ => rfl) fun _ _ h => h : Proceeds (fun _ => True) _ _).noDamage trivial

/-! ## Operations that do not depend on the entries -/

theorem flush_noDamage : (flush : VolumeAction δ Unit).Ensures v fun r _ => NoDamage r := by
  unfold flush
  exact ensures_whenMounted.mpr ⟨fun _ => storeMetadata_noDamage, fun _ => .error rfl⟩

theorem createEntry_noDamage (path : Path) (kind : EntryKind) :
    (createEntry path kind : VolumeAction δ Slot).Ensures v fun r _ => NoDamage r := by
  apply ensures_createEntry fun _ he => .of_isMistake he
  exact fun slot _ _ _ _ => ensures_noDamage_bind storeMetadata_noDamage fun _ _ => .ok slot

theorem create_noDamage (path : String) (kind : EntryKind) :
    (create path kind : VolumeAction δ Unit).Ensures v fun r _ => NoDamage r := by
  unfold create
  refine ensures_whenMounted.mpr ⟨fun _ => ?_, fun _ => .error rfl⟩
  split
  · exact .error rfl
  · refine ensures_noDamage_bind (ensures_liftM.mpr (.of_onlyMistakes (onlyMistakes_resolve path))) fun p _ => ?_
    exact ensures_noDamage_bind (createEntry_noDamage p kind) fun _ _ => .ok _

omit [BlockDevice δ] in
theorem acquireFile_noDamage (name : String) (slot : Slot) (mode : Mode) :
    (acquireFile name slot mode : VolumeAction δ Handle).Ensures v fun r _ => NoDamage r :=
  ensures_acquireFile (fun _ he _ => .of_isMistake he) fun hd _ _ _ _ => .ok hd

theorem openPath_noDamage (path : String) (mode : Mode) :
    (openPath path mode : VolumeAction δ Handle).Ensures v fun r _ => NoDamage r := by
  apply ensures_openPath fun _ he => .of_isMistake he
  · exact fun _ p slot _ _ => acquireFile_noDamage p.text slot mode
  · intro _ _ _ p _
    exact ensures_noDamage_bind (createEntry_noDamage p .file) fun slot _ => acquireFile_noDamage p.text slot .write

theorem close_noDamage (hd : Handle) : (close hd : VolumeAction δ Unit).Ensures v fun r _ => NoDamage r := by
  unfold close
  refine ensures_whenMounted.mpr ⟨fun hm => ?_, fun _ => .error rfl⟩
  cases v.handles.release? hd with
  | none => exact .error rfl
  | some released =>
    exact ensures_bind.mpr (ensures_modify.mpr ((closeReleased_proceeds (fun _ => rfl) released.1).noDamage hm))

theorem unmount_noDamage : (unmount : VolumeAction δ Unit).Ensures v fun r _ => NoDamage r := by
  unfold unmount
  exact ensures_whenMounted.mpr ⟨fun _ => (leave_proceeds fun _ => rfl).noDamage trivial, fun _ => .error rfl⟩

omit [BlockDevice δ] in
theorem question_noDamage {q : Volume δ → Except Error α} (hq : OnlyMistakes (q v)) :
    (Action.get >>= fun v => liftM (q v) >>= fun _ => pure () : VolumeAction δ Unit).Ensures v fun r _ =>
      NoDamage r := by
  refine ensures_bind.mpr (ensures_get.mpr ?_)
  exact ensures_noDamage_bind (ensures_liftM.mpr (.of_onlyMistakes hq)) fun _ _ => .ok _

variable [LawfulDevice δ]

theorem format_noDamage : (format : VolumeAction δ Unit).Ensures v fun r _ => NoDamage r := by
  apply (format_cases v).mono
  rintro r w (⟨-, hio, -⟩ | ⟨-, ⟨rfl, -⟩ | ⟨hio, -⟩⟩)
  · exact .of_isIo hio
  · exact .ok _
  · exact .of_isIo hio

/-! ## Operations that do -/

namespace Sound

variable (h : v.Sound)

include h

/-- Blocks of an entry can be taken back. -/
theorem delete_noDamage (path : String) : (delete path : VolumeAction δ Unit).Ensures v fun r _ => NoDamage r := by
  apply ensures_delete fun _ he => .of_isMistake he
  · intro slot refusal hrefused
    obtain ⟨released, hreleased, -⟩ := h.allocated.release slot
    cases hreleased.symm.trans hrefused
  · exact fun _ _ _ _ _ _ _ _ _ => storeMetadata_noDamage

/-- A file has blocks for its bytes. -/
theorem read_noDamage (hd : Handle) (length : Nat) :
    (read hd length : VolumeAction δ (List UInt8)).Ensures v fun r _ => NoDamage r := by
  refine ensures_whenOpen (fun _ he => .of_isMistake he) fun _ f hf => ?_
  have hp := Pool.fileAt?_of_file? hf
  split
  · have hposition := (h.coherent hp).position_le
    apply (readStretches_cases h hp ‹_› rfl (by omega)).mono
    rintro r w ⟨-, ⟨rfl, -⟩ | hio⟩
    · exact .ok _
    · exact .of_isIo hio
  · exact .error rfl

/-- And it grows by blocks that the volume has, or not at all. -/
theorem write_noDamage (hd : Handle) (data : List UInt8) :
    (write hd data : VolumeAction δ Nat).Ensures v fun r _ => NoDamage r := by
  refine ensures_whenOpen (fun _ he => .of_isMistake he) fun _ f hf => ?_
  split
  · refine ensures_noDamage_bind ?_ fun _ _ => .ok _
    apply (writePieces_cases h (Pool.fileAt?_of_file? hf) ‹_› rfl).mono
    rintro r w ⟨-, hends⟩
    cases hends with
    | done _ => exact .ok _
    | full he _ _ _ => rcases he with rfl | rfl <;> exact .error rfl
    | io _ _ => exact .error rfl
  · exact .error rfl

/-- **No operation other than mounting finds a sound volume damaged.** -/
theorem noDamage {op : Operation} (hop : op ≠ .mount) :
    (op.perform : VolumeAction δ Unit).Ensures v fun r _ => NoDamage r := by
  cases op with
  | create path kind => exact create_noDamage path kind
  | delete path => exact h.delete_noDamage path
  | openPath path mode => exact ensures_noDamage_bind (openPath_noDamage path mode) fun _ _ => .ok _
  | read hd length => exact ensures_noDamage_bind (h.read_noDamage hd length) fun _ _ => .ok _
  | write hd data => exact ensures_noDamage_bind (h.write_noDamage hd data) fun _ _ => .ok _
  | seek hd offset =>
    refine ensures_noDamage_bind ?_ fun _ _ => .ok _
    exact ensures_whenOpen (fun _ he => .of_isMistake he) fun _ _ _ => .ok _
  | tell hd => exact question_noDamage (onlyMistakes_tell hd)
  | close hd => exact close_noDamage hd
  | flush => exact flush_noDamage
  | list path => exact question_noDamage (onlyMistakes_list path)
  | stat path => exact question_noDamage (onlyMistakes_stat path)
  | stats => exact question_noDamage onlyMistakes_stats
  | format => exact format_noDamage
  | unmount => exact unmount_noDamage
  | mount => exact absurd rfl hop

end Sound

end Volume

end BlockVolume
