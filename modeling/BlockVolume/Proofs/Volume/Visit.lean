import BlockVolume.Proofs.Volume.Remount

/-!
# `Proofs.Volume.Visit` — from mounting to leaving

A volume is mounted, worked on and left, and later it is mounted again by somebody who knows nothing but the
device. On a device that serves every request all of this succeeds, whatever becomes of the work: what the
volume had when it was left is what is found, in memory and in the files.

## Contents
- **`Ready`**: a volume between mounting and leaving, with **`Ready.perform`** and **`Ready.unmount`**.
- **`Stowed`**: a volume that was left, with **`Stowed.mount`**, and `Resumed`, what is found then.
- `begun_of_unformatted`, `Begun.ready` and **`stowed_of_format`**: how the first visit begins, or is replaced.
-/

namespace BlockVolume.Volume

open BlockVolume.Action

variable {δ : Type} [BlockDevice δ] [LawfulDevice δ] {v w : Volume δ} {P : Space → Directory → Prop}
  {allowed : Change → Prop}

/-- A volume that is mounted on a device which serves every request, and that has the property `P`. -/
structure Ready (P : Space → Directory → Prop) (v : Volume δ) : Prop where
  sound : v.Sound
  reliable : Reliable v.device
  mounted : v.mounted = true
  holds : P v.space v.directory

/-- A volume that was left: its device describes it. -/
structure Stowed (P : Space → Directory → Prop) (w : Volume δ) : Prop where
  sound : w.Sound
  reliable : Reliable w.device
  mounted : w.mounted = false
  synced : w.Synced
  holds : P w.space w.directory

/-! ## A visit -/

/-- Work on a volume that is ready is never refused by the device, and leaves the volume ready. -/
theorem Ready.perform (h : v.Ready P) (hP : Invariant P allowed) {op : Operation} (hop : Admitted allowed op)
    (hmount : op ≠ .mount) (hunmount : op ≠ .unmount) :
    (op.perform : VolumeAction δ Unit).Ensures v fun r w => ¬IsIo r ∧ w.Ready P := by
  have hkept := perform_kept hP hop h.sound h.holds fun he => absurd he hmount
  have hmounted : (op.perform : VolumeAction δ Unit).Ensures v fun _ w => w.mounted = v.mounted := by
    obtain ⟨hacts, hfaults⟩ := leave_not_mem hunmount v
    apply (op.walk h.sound hmount).mono
    exact fun _ _ hwalk => hwalk.trace.mounted_eq (not_or.mpr ⟨hacts, fun hc => hfaults hc.2⟩)
  apply (hkept.and hmounted).mono
  rintro r w ⟨hk, hm⟩
  obtain ⟨hno, hrel⟩ := hk.reliable h.reliable
  exact ⟨hno, hk.sound, hrel, hm.trans h.mounted, hk.holds⟩

/-- Such a volume can be left, and is stowed then as it was. -/
theorem Ready.unmount (h : v.Ready P) : (unmount : VolumeAction δ Unit).Ensures v fun r w =>
    r = .ok () ∧ w.Stowed P ∧ w.space = v.space ∧ w.directory = v.directory ∧
      ∀ slot, w.contents slot = v.contents slot := by
  obtain ⟨hok, hrel⟩ := unmount_reliable h.sound h.mounted h.reliable
  obtain ⟨hsound, hm, hsynced, hspace, hdirectory, hcontents⟩ := unmount_stored h.sound hok
  refine ⟨hok, ⟨hsound, hrel, hm, hsynced, ?_⟩, hspace, hdirectory, hcontents⟩
  rw [hspace, hdirectory]
  exact h.holds

/-! ## The next visit -/

/-- `y` is the volume `w` taken up again: nothing is open, and the rest is as it was. -/
structure Resumed (w y : Volume δ) : Prop where
  files (p : Place) : y.handles.fileAt? p = none
  space : y.space = w.space
  directory : y.directory = w.directory
  contents (slot : Slot) : y.contents slot = w.contents slot

/-- **What was stowed can be mounted, and is ready then, with all that it had.** -/
theorem Stowed.mount (h : w.Stowed P) (ha : w.directory.Absolute) {x : Volume δ} (hx : x.device = w.device) :
    (mount : VolumeAction δ Unit).Ensures x fun r y => r = .ok () ∧ y.Ready P ∧ Resumed w y ∧
      y.device = readOut (List.range firstDataBlock) x.device := by
  have hsize : firstDataBlock ≤ deviceSize x.device := by
    rw [hx]
    exact h.sound.firstDataBlock_le
  have hin (i : Nat) (hi : i ∈ List.range firstDataBlock) : i < deviceSize x.device :=
    Nat.lt_of_lt_of_le (List.mem_range.mp hi) hsize
  obtain ⟨hs, hrel⟩ := (hx ▸ h.reliable : Reliable x.device).servesReads hin
  have hlarge : volumeBlocks ≤ deviceSize x.device := by
    rw [hx]
    exact h.sound.size_le
  have hsynced : Persisted (content x.device) w.space w.directory := by
    rw [hx]
    exact h.synced
  apply ((mount_of_synced h.sound h.mounted ha h.synced hx hs).and
    (mount_of_persisted hlarge hsynced h.sound.allocated)).mono
  rintro r y ⟨⟨rfl, hm, hdevice, hspace, hdirectory, hcontents⟩, ⟨-, hy⟩ | ⟨hio, -⟩⟩
  · refine ⟨rfl, ⟨hy.sound hlarge h.sound.allocated, ?_, hm, ?_⟩, ⟨hy.files, hspace, hdirectory, hcontents⟩, hdevice⟩
    · rw [hdevice]
      exact hrel
    · rw [hspace, hdirectory]
      exact h.holds
  · exact absurd hio (not_isIo_ok _)

/-! ## The first visit -/

/-- A volume at its beginning is ready. -/
theorem Begun.ready (h : v.Begun) (hr : Reliable v.device) (hP : Invariant P allowed) : v.Ready P := by
  refine ⟨h.sound, hr, h.mounted, ?_⟩
  rw [h.space, h.directory]
  exact hP.fresh

/-- Mounting a device without a superblock is such a beginning. -/
theorem begun_of_unformatted (hn : volumeBlocks ≤ deviceSize v.device) (hr : Reliable v.device)
    (hmagic : (Space.read (content v.device)).superblock.magic ≠ volumeMagic) :
    (mount : VolumeAction δ Unit).Ensures v fun r y => r = .ok () ∧ y.Begun := by
  have hok : (mount v).result = .ok () := by
    rcases mount_of_unformatted hn hmagic with ⟨hok, -⟩ | ⟨-, hno⟩
    · exact hok
    · exact absurd hr hno
  exact ⟨hok, .unformatted hn hmagic hok⟩

/-- Formatting alone leaves an empty volume, whatever there was. -/
theorem stowed_of_format (hP : Invariant P allowed) (hn : volumeBlocks ≤ deviceSize v.device)
    (hr : Reliable v.device) (hm : v.mounted = false) : (format : VolumeAction δ Unit).Ensures v fun r w =>
      r = .ok () ∧ w.Stowed P := by
  have hcleared : Reliable v.cleared.device := by
    unfold cleared
    exact hr
  apply (format_cases v).mono
  rintro r w (⟨hlt, -⟩ | ⟨-, ⟨rfl, hs⟩ | ⟨-, hs⟩⟩)
  · exact absurd hn (Nat.not_le.mpr hlt)
  · refine ⟨rfl, hs.sound (sound_cleared hn), (hs.reliable hcleared).2, ?_, hs.synced, ?_⟩
    · have hsame : v.cleared.mounted = v.mounted := by
        unfold cleared
        rfl
      exact (hs.mounted_eq (by simp)).trans (hsame.trans hm)
    · rw [hs.eq_of_store]
      exact hP.fresh
  · exact absurd rfl (hs.reliable hcleared).1

end BlockVolume.Volume
