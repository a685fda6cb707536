import BlockVolume.Device.MemoryDisk
import BlockVolume.Proofs.Volume.Run

/-!
# `Proofs.Volume.Accounting` — every block is accounted for

Whatever was asked of a volume since it was formatted, and whatever its device has refused, the runs of
the entries lie apart within the data blocks, the bitmap marks these runs and the description of the
volume and nothing else, and the counter counts the rest.

## Contents
- **`Reached.accounting`**.
-/

namespace BlockVolume.Volume

open Space

variable {δ : Type} [BlockDevice δ] [LawfulDevice δ] {v : Volume δ}

/-- **Bitmap, counter and entries of a volume that was reached agree.** -/
theorem Reached.accounting (h : Reached v) :
    (∀ slot, 0 < (v.directory.get slot).blocks.toNat →
      firstDataBlock ≤ (v.directory.get slot).firstBlock.toNat ∧
        (v.directory.get slot).firstBlock.toNat + (v.directory.get slot).blocks.toNat ≤ volumeBlocks) ∧
    (∀ i j, i ≠ j → ∀ b, owns (v.directory.get i) b = true → owns (v.directory.get j) b = false) ∧
    (∀ b < volumeBlocks, v.space.bitmap.test b = true ↔
      b < firstDataBlock ∨
        ∃! slot, (v.directory.get slot).isEmpty = false ∧ owns (v.directory.get slot) b = true) ∧
    (∀ b, volumeBlocks ≤ b → v.space.bitmap.test b = false) ∧
    v.space.free + v.space.bitmap.countUsed volumeBlocks = volumeBlocks ∧
    (∀ slot, (v.directory.get slot).size.toNat ≤ blockSize * (v.directory.get slot).blocks.toNat) ∧
    (∀ slot, (v.directory.get slot).isFile = false → (v.directory.get slot).blocks.toNat = 0) := by
  have hall := h.sound.allocated
  refine ⟨?_, ?_, ?_, ?_, hall.free_add_used, hall.size_le, ?_⟩
  · intro slot hpos
    exact hall.run_bounds slot (Nat.ne_of_gt hpos)
  · intro i j hne b hi
    exact hall.owns_eq_false_of_ne (Ne.symm hne) hi
  · intro b _
    rw [hall.test_iff b]
    apply or_congr_right
    constructor
    · exact hall.existsUnique_owner
    · rintro ⟨slot, ⟨-, ho⟩, -⟩
      exact ⟨slot, ho⟩
  · intro b hb
    apply Bool.eq_false_iff.mpr
    intro ht
    rcases (hall.test_iff b).mp ht with hlow | ⟨slot, ho⟩
    · exact absurd (Nat.lt_of_lt_of_le hlow (firstDataBlock_le (Nat.le_refl _))) (Nat.not_lt.mpr hb)
    · exact absurd (hall.owned_bounds ho).2 (Nat.not_lt.mpr hb)
  · intro slot hfile
    exact hall.blocks_of_not_file slot (by simpa [Entry.isFile] using hfile)

/-- Two files that grow in turn, a deletion, and mounting again. -/
theorem accounting_of_run :
    let v := run [.create "/a" .file, .openPath "/b" .write, .write ⟨0, 2⟩ [1, 2, 3], .flush, .delete "/a", .mount]
      (formatted (MemoryDisk.blank 1024))
    v.space.free + v.space.bitmap.countUsed volumeBlocks = volumeBlocks ∧
      ∀ b, volumeBlocks ≤ b → v.space.bitmap.test b = false :=
  have h := Reached.accounting (reached_of_reliable (d := MemoryDisk.blank 1024)
    (Nat.le_of_eq (MemoryDisk.deviceSize_blank 1024).symm)
    (MemoryDisk.reliable_of_writable rfl)
    [.create "/a" .file, .openPath "/b" .write, .write ⟨0, 2⟩ [1, 2, 3], .flush, .delete "/a", .mount])
  ⟨h.2.2.2.2.1, h.2.2.2.1⟩

end BlockVolume.Volume
