import BlockVolume.Proofs.Volume.Crash
import BlockVolume.Proofs.Volume.Move

/-!
# `Proofs.Volume.Readers` — looking at files

Files are opened for reading, read and closed. All of this moves blocks into caches and stores the
description of the volume over itself. As long as nobody has a file open for writing no cache is dirty, so
that no block of a file is ever written, and what is stored at the end is what was there.

## Contents
- **`Claims`**: what files are open for, which opening alone changes; `ReadersOnly`, and **`Step.data_eq`**.
- **`Quiet`** and **`Beheld`**: a volume that nobody writes, and what looking at it leaves; `Walk.beheld`.
- **`openPath_beheld`**, **`read_beheld`**, **`close_beheld`** and **`unmount_beheld`**.
- **`Beheld.content_eq`**: a device that describes the volume as before is as it was before.
-/

namespace BlockVolume

open BlockVolume.Action Relation

/-- The blocks below the first data block are those that describe a volume, and what they describe decides
all of them. -/
theorem Persisted.eq {blocks blocks' : Nat → Block} {s : Space} {d : Directory} (h : Persisted blocks s d)
    (h' : Persisted blocks' s d) {b : Nat} (hb : b < firstDataBlock) : blocks' b = blocks b := by
  have hcases : b = superblockBlock ∨ b = bitmapBlock ∨ ∃ i : Fin directoryBlocks, b = directoryBlock + i.val := by
    revert b
    decide
  rcases hcases with rfl | rfl | ⟨i, rfl⟩
  · rw [h.superblock, h'.superblock]
  · rw [h.bitmap, h'.bitmap]
  · rw [h.directory, h'.directory]

namespace Volume

variable {δ : Type} [BlockDevice δ] [LawfulDevice δ] {u v w : Volume δ} {c : Change} {slot : Slot}

/-! ## What files are open for -/

/-- Every open file was opened for a slot and in a mode that `C` allows. -/
def Claims (C : Slot → Mode → Prop) (v : Volume δ) : Prop :=
  ∀ p f, v.handles.fileAt? p = some f → C f.slot f.mode

variable {C : Slot → Mode → Prop}

omit [BlockDevice δ] [LawfulDevice δ] in
theorem Claims.of_no_files (hfiles : ∀ p, v.handles.fileAt? p = none) : v.Claims C :=
  fun p f hp => by rw [hfiles] at hp; cases hp

omit [BlockDevice δ] [LawfulDevice δ] in
/-- An open file that is changed stays open for the same. -/
theorem Claims.edit (h : v.Claims C) (p : Place) {g : OpenFile → OpenFile}
    (hg : ∀ f, (g f).slot = f.slot ∧ (g f).mode = f.mode) : (v.editFile p g).Claims C := by
  intro q f hq
  unfold editFile at hq
  rw [Pool.fileAt?_modifyFile] at hq
  split at hq
  · obtain ⟨f', hf', rfl⟩ := Option.map_eq_some_iff.mp hq
    rw [(hg f').1, (hg f').2]
    exact h q f' hf'
  · exact h q f hq

/-- Only opening a file adds one that is open for something else. -/
theorem Step.claims (hs : Step c v w) (hc : c ≠ .acquire) (h : v.Claims C) : w.Claims C := by
  cases hs with
  | writeBack _ _ _ _ | forget _ _ | load _ _ _ _ _ | place _ _ | put _ _ _ _ _ _ =>
    exact h.edit _ fun _ => ⟨rfl, rfl⟩
  | acquire _ _ _ _ => exact absurd rfl hc
  | release hr _ | discard hr => exact fun p f hp => h p f (Pool.file_of_release? hr hp).2
  | leave _ | clear => exact .of_no_files fun p => Pool.fileAt?_reset _ p
  | _ => exact h

theorem Trace.claims {allowed : Change → Prop} (ht : Trace allowed v w) (hc : ¬allowed .acquire)
    (h : v.Claims C) : w.Claims C := by
  induction ht with
  | refl => exact h
  | tail _ hs hallowed ih => exact hs.claims (fun he => hc (he ▸ hallowed)) ih

omit [BlockDevice δ] [LawfulDevice δ] in
/-- A file that is opened has to be open for something that is allowed. -/
theorem Claims.acquire (h : v.Claims C) {mode : Mode} {hd : Handle} {handles : Pool} (hC : C slot mode)
    (ha : v.handles.acquire? (OpenFile.start slot mode) = some (hd, handles)) :
    Claims C { v with handles := handles } := by
  intro p f hp
  rcases Pool.file_of_acquire? ha hp with ⟨-, rfl⟩ | hf
  · exact hC
  · exact h p f hf

/-! ## Readers -/

/-- Nobody has a file open for writing. -/
def ReadersOnly (v : Volume δ) : Prop :=
  v.Claims fun _ mode => mode ≠ .write

omit [BlockDevice δ] [LawfulDevice δ] in
theorem ReadersOnly.noWriter (h : v.ReadersOnly) (slot : Slot) : v.NoWriter slot :=
  fun p f hp _ => h p f hp

/-- A block of a file is written only if the file has a writer. -/
theorem Step.data_eq (hs : Step c v w) (h : v.Sound) (hv : v.ReadersOnly) {b : Nat} (hb : firstDataBlock ≤ b) :
    content w.device b = content v.device b := by
  cases hs with
  | store _ _ hd | fault _ hd => exact hd b hb
  | writeBack hp hpend _ _ => exact absurd ((h.coherent hp).mode_of_pending hpend) (hv _ _ hp)
  | load _ _ _ _ hd => exact congrFun hd b
  | _ => rfl

theorem Trace.data_eq {allowed : Change → Prop} (ht : Trace allowed v w) (h : v.Sound) (hc : ¬allowed .acquire)
    (hv : v.ReadersOnly) {b : Nat} (hb : firstDataBlock ≤ b) : content w.device b = content v.device b := by
  induction ht with
  | refl => rfl
  | tail ht hs _ ih => rw [hs.data_eq (ht.sound h) (ht.claims hc hv) hb, ih]

/-! ## What looking leaves -/

/-- A sound volume that nobody writes, on a device that serves every request. -/
structure Quiet (v : Volume δ) : Prop where
  sound : v.Sound
  reliable : Reliable v.device
  readers : v.ReadersOnly

/-- What is left of `v` by somebody who only looked at it. -/
structure Beheld (v w : Volume δ) : Prop where
  quiet : w.Quiet
  space : w.space = v.space
  directory : w.directory = v.directory
  data {b : Nat} : firstDataBlock ≤ b → content w.device b = content v.device b
  requests : ReflTransGen Asked v.device w.device

namespace Beheld

theorem refl (h : v.Quiet) : Beheld v v := ⟨h, rfl, rfl, fun _ => rfl, .refl⟩

theorem trans (h : Beheld u v) (h' : Beheld v w) : Beheld u w where
  quiet := h'.quiet
  space := h'.space.trans h.space
  directory := h'.directory.trans h.directory
  data hb := (h'.data hb).trans (h.data hb)
  requests := h.requests.trans h'.requests

/-- The files hold what they held. -/
theorem contents (hv : v.Quiet) (h : Beheld v w) (slot : Slot) : w.contents slot = v.contents slot :=
  contents_eq_of_noWriter hv.sound h.quiet.sound (hv.readers.noWriter slot) (h.quiet.readers.noWriter slot)
    (fun _ hb => h.data hb) (by rw [h.directory])

/-- **If the device described the volume before and after, it holds what it held.** -/
theorem content_eq (h : Beheld v w) (hv : v.Synced) (hw : w.Synced) : content w.device = content v.device := by
  have hw' : Persisted (content w.device) v.space v.directory := by
    rw [← h.space, ← h.directory]
    exact hw
  funext b
  rcases Nat.lt_or_ge b firstDataBlock with hb | hb
  · exact hv.eq hw' hb
  · exact h.data hb

end Beheld

/-- A walk on which no file is opened or changed is one of a beholder, if the volume was quiet. -/
theorem Walk.beheld {α : Type} {acts faults : List Change} {r : Except Error α} (hwalk : Walk acts faults v r w)
    (hv : v.Quiet) (hdescribes : ∀ c ∈ acts, c.describes = false) (hacquire : .acquire ∉ acts)
    (hasked : ReflTransGen Asked v.device w.device) : Beheld v w := by
  have htrace := hwalk.trace_of_not_isIo fun hio => hwalk.unreliable hio hv.reliable
  obtain ⟨hspace, hdirectory⟩ := htrace.description_eq hdescribes
  exact ⟨⟨hwalk.sound hv.sound, hwalk.reliable hv.reliable, htrace.claims hacquire hv.readers⟩, hspace,
    hdirectory, fun hb => htrace.data_eq hv.sound hacquire hv.readers hb, hasked⟩

theorem Declined.beheld {α : Type} {r : Except Error α} (hd : Declined v r w) (hv : v.Quiet) : Beheld v w := by
  obtain ⟨e, -, -, rfl⟩ := hd
  exact .refl hv

/-- Opening a file for reading changes nothing but which files are open. -/
theorem openPath_beheld (hv : v.Quiet) (path : String) : (openPath path .read : VolumeAction δ Handle).Ensures v
    fun _ w => Beheld v w := by
  apply (openPath_cases hv.sound path .read).mono
  rintro r w (⟨p, -, hopened⟩ | hdeclined)
  · cases hopened with
    | found _ ha hs =>
      have hreader : Mode.read ≠ .write := by decide
      exact ⟨⟨hs.sound hv.sound, hv.reliable, hv.readers.acquire hreader ha⟩, rfl, rfl, fun _ => rfl, .refl⟩
    | created hmode _ _ _ => cases hmode
    | unstored hmode _ => cases hmode
  · exact hdeclined.beheld hv

theorem read_beheld (hv : v.Quiet) (hd : Handle) (length : Nat) :
    (read hd length : VolumeAction δ (List UInt8)).Ensures v fun _ w => Beheld v w := by
  have hempties : (Operation.read hd length).emptiesPlaces = false := rfl
  have hmoved : (read hd length : VolumeAction δ (List UInt8)).Ensures v fun _ w =>
      ReflTransGen Asked v.device w.device :=
    (ensures_discard.mp (Operation.moved hempties)).mono fun _ _ hm => hm.asked
  apply ((read_cases hv.sound hd length).and hmoved).mono
  rintro r w ⟨⟨f, -, -, hwalk, -⟩ | ⟨hdeclined, -⟩, hasked⟩
  · exact hwalk.beheld hv (by simp [reading, Change.describes]) (by simp [reading]) hasked
  · exact hdeclined.beheld hv

theorem close_beheld (hv : v.Quiet) (hd : Handle) : (close hd : VolumeAction δ Unit).Ensures v
    fun _ w => Beheld v w := by
  have hasked : (close hd : VolumeAction δ Unit).Ensures v fun _ w => ReflTransGen Asked v.device w.device := by
    apply (close_moved (fun _ => True) hd).mono
    rintro r w (⟨-, rfl⟩ | ⟨f, handles, -, -, hw⟩)
    · exact .refl
    · exact hw.asked
  apply ((close_cases hv.sound hd).and hasked).mono
  rintro r w ⟨⟨f, -, hwalk, -⟩ | hdeclined, hasked⟩
  · exact hwalk.beheld hv (by simp [closing, Change.describes]) (by simp [closing]) hasked
  · exact hdeclined.beheld hv

/-- Leaving the volume stores its description once more. -/
theorem unmount_beheld (hv : v.Quiet) (hm : v.mounted = true) : (unmount : VolumeAction δ Unit).Ensures v
    fun _ w => Beheld v w ∧ w.Synced := by
  have hasked : (unmount : VolumeAction δ Unit).Ensures v fun _ w => ReflTransGen Asked v.device w.device := by
    apply (unmount_moved (fun _ => True) fun _ => trivial).mono
    rintro r w (⟨-, hw⟩ | ⟨-, u, hu, rfl⟩)
    · exact hw.asked
    · exact hu.asked
  apply ((unmount_cases hv.sound).and hasked).mono
  rintro r w ⟨⟨hwalk, ⟨-, -, hsynced⟩ | hio⟩ | ⟨hno, -⟩, hasked⟩
  · exact ⟨hwalk.beheld hv (by simp [Change.describes]) (by simp) hasked, hsynced⟩
  · exact absurd hv.reliable (hwalk.unreliable hio)
  · cases hm.symm.trans hno

end Volume

end BlockVolume
