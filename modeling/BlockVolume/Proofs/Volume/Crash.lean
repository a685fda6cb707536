import BlockVolume.Device.MemoryDisk
import BlockVolume.Proofs.Volume.Lag

/-!
# `Proofs.Volume.Crash` — mounting a device that was not left

If the power goes between two operations, what was in memory is lost, handles and caches among it. What is
mounted from the device afterwards is a volume in order. It has every entry that the lost one had, and for
each file that nobody was writing its bytes. A file that was being written may be as it was before.

## Contents
- `current_of_noWriter`: blocks that users see as the device has them.
- `contents_eq_of_noWriter`: a file in two volumes over the same data blocks.
- **`crash`**: what is mounted after a crash.
-/

namespace BlockVolume

open BlockVolume.Action Space

namespace Volume

variable {δ : Type} [BlockDevice δ] [LawfulDevice δ] {u v w : Volume δ} {s : Space} {d : Directory} {slot : Slot}

/-- Users see the blocks of a file that nobody is writing as the device has them. -/
theorem current_of_noWriter (h : v.Sound) (hno : v.NoWriter slot) {b : Nat}
    (hb : owns (v.directory.get slot) b = true) : v.current b = content v.device b := by
  refine Sees.eq (Or.inr ⟨fun p => ?_, rfl⟩) h
  apply pendingAt_eq_none
  intro f hp hpend
  -- what is pending belongs to a writer, and the writer has the file that owns the block
  have hc := h.coherent hp
  exact hno p f hp (h.allocated.run_disjoint (hc.owned_of_pending hpend) hb) (hc.mode_of_pending hpend)

omit [BlockDevice δ] [LawfulDevice δ] in
theorem noWriter_of_no_files (hfiles : ∀ p, v.handles.fileAt? p = none) (slot : Slot) : v.NoWriter slot :=
  fun p f hp => by rw [hfiles] at hp; cases hp

/-- A file that nobody is writing is the same in every volume over the same blocks that has its entry and no
writer of it either. -/
theorem contents_eq_of_noWriter (h : v.Sound) (hw : w.Sound) (hno : v.NoWriter slot) (hno' : w.NoWriter slot)
    (hdata : ∀ b, firstDataBlock ≤ b → content w.device b = content v.device b)
    (hentry : w.directory.get slot = v.directory.get slot) : w.contents slot = v.contents slot := by
  refine contents_congr h (by rw [hentry]) (fun _ => by rw [hentry]) ?_
  intro b hb
  rw [current_of_noWriter hw hno' (hentry ▸ hb), current_of_noWriter h hno hb, hdata b (h.owned_bounds hb).1]

/-- **Mounting the device of a volume that was not left brings back every entry, and every file that nobody
was writing as it was.** -/
theorem crash (h : Fresh u) (hr : Reliable u.device) (ops : List Operation) :
    let v := run ops u
    (mount : VolumeAction δ Unit).Ensures (ofDevice v.device) fun r w =>
      r = .ok () ∧ w.mounted = true ∧ Allocated w.space w.directory ∧
      (∀ slot, (w.directory.get slot).isEmpty = (v.directory.get slot).isEmpty ∧
        (w.directory.get slot).nameField = (v.directory.get slot).nameField ∧
        (w.directory.get slot).kind = (v.directory.get slot).kind) ∧
      ∀ slot, v.NoWriter slot →
        (w.directory.get slot).size = (v.directory.get slot).size ∧
        (w.directory.get slot).firstBlock = (v.directory.get slot).firstBlock ∧
        (w.directory.get slot).blocks = (v.directory.get slot).blocks ∧
        w.contents slot = v.contents slot := by
  intro v
  obtain ⟨⟨hsound, habs, s, d, hl⟩, hrel⟩ : Mirrored v ∧ Reliable v.device := run_mirrored h.mirrored hr ops
  apply (mount_of_persisted (v := ofDevice v.device) hsound.size_le hl.persisted hl.allocated).mono
  rintro r w (⟨rfl, hw⟩ | ⟨-, hhalted⟩)
  · have hd : w.directory = d := hw.directory.trans (hl.absolute habs).migrate_eq
    have hall : Allocated w.space w.directory := by
      rw [hw.space, hd]
      exact hl.allocated
    refine ⟨rfl, hw.mounted, hall, fun slot => ?_, fun slot hno => ?_⟩
    · have hkind := congrArg Prod.snd (hl.label slot)
      rw [hd]
      exact ⟨Entry.isEmpty_congr hkind, congrArg Prod.fst (hl.label slot), hkind⟩
    · have hentry : w.directory.get slot = v.directory.get slot := by rw [hd, hl.entry hno]
      have hcontents := contents_eq_of_noWriter hsound (hw.sound hsound.size_le hl.allocated) hno
        (noWriter_of_no_files hw.files slot) hw.data hentry
      rw [hentry]
      exact ⟨rfl, rfl, rfl, hcontents⟩
  · exact absurd hrel hhalted.unreliable

/-- A file is created while another one is being written, and then the power goes. -/
theorem crash_of_run :
    let v := run [.openPath "/a" .write, .write ⟨0, 2⟩ [1, 2, 3], .create "/b" .file]
      (formatted (MemoryDisk.blank 1024))
    (mount : VolumeAction MemoryDisk Unit).Ensures (ofDevice v.device) fun r w =>
      r = .ok () ∧ Allocated w.space w.directory ∧
        ∀ slot, (w.directory.get slot).nameField = (v.directory.get slot).nameField := by
  obtain ⟨hbegun, hrel⟩ := begun_of_reliable (d := MemoryDisk.blank 1024)
    (Nat.le_of_eq (MemoryDisk.deviceSize_blank 1024).symm) (MemoryDisk.reliable_of_writable rfl)
  apply (crash (.begun hbegun) hrel
    [.openPath "/a" .write, .write ⟨0, 2⟩ [1, 2, 3], .create "/b" .file]).mono
  rintro r w ⟨hok, -, hall, hlabel, -⟩
  exact ⟨hok, hall, fun slot => (hlabel slot).2.1⟩

end Volume

end BlockVolume
