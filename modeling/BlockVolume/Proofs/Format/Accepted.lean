import BlockVolume.Superblock

/-!
# `Proofs.Format.Accepted` — superblocks that are accepted

Of the words of a superblock the counter of free blocks is the only one that changes while a volume is in
use. So what a superblock is checked for comes in two parts: the words that stay, and the counter.

## Contents
- **`Superblock.Fits`**: the words that stay are accepted; `Fits.validate_eq` leaves the counter to be checked.
- `validate_eq_unformatted_iff`: what is told apart from a damaged superblock.
- `Fits.total_le`, `Fits.firstDataBlock_lt_total`, `Fits.firstDataBlock_lt`: bounds that come with it.
-/

namespace BlockVolume.Superblock

variable {sb : Superblock} {n : Nat}

/-- All words but the counter are accepted for a device of `n` blocks. -/
def Fits (sb : Superblock) (n : Nat) : Prop :=
  sb.magic = volumeMagic ∧ { sb with freeBlocks := 0 }.isSane n = true

instance : Decidable (Fits sb n) := inferInstanceAs (Decidable (_ ∧ _))

/-- The counter is checked on its own. -/
theorem isSane_eq : sb.isSane n =
    ({ sb with freeBlocks := 0 }.isSane n && decide (sb.freeBlocks ≤ sb.totalBlocks)) := by
  have hzero : (0 : UInt32) ≤ sb.totalBlocks := UInt32.le_iff_toNat_le.mpr (Nat.zero_le _)
  rw [Bool.eq_iff_iff]
  simp only [isSane, Bool.and_eq_true, decide_eq_true_eq, hzero, and_true]
  constructor
  · rintro ⟨⟨⟨⟨h, hfree⟩, hbitmap⟩, hdirectory⟩, hdata⟩
    exact ⟨⟨⟨⟨h, hbitmap⟩, hdirectory⟩, hdata⟩, hfree⟩
  · rintro ⟨⟨⟨⟨h, hbitmap⟩, hdirectory⟩, hdata⟩, hfree⟩
    exact ⟨⟨⟨⟨h, hfree⟩, hbitmap⟩, hdirectory⟩, hdata⟩

/-- A superblock that fits is accepted unless its counter exceeds the number of blocks. -/
theorem Fits.validate_eq (h : sb.Fits n) :
    sb.validate n = if sb.freeBlocks ≤ sb.totalBlocks then .ok () else .error .corrupted := by
  rw [validate, if_neg (not_not_intro h.1), isSane_eq, h.2, Bool.true_and]
  simp only [decide_eq_true_eq]

theorem fits_of_validate (h : sb.validate n = .ok ()) : sb.Fits n := by
  unfold validate at h
  split at h
  · cases h
  · rename_i hmagic
    split at h
    · rename_i hsane
      rw [isSane_eq, Bool.and_eq_true] at hsane
      exact ⟨Decidable.not_not.mp hmagic, hsane.1⟩
    · cases h

/-- Only the first word tells a superblock apart as foreign. -/
theorem validate_eq_unformatted_iff : sb.validate n = .error .unformatted ↔ sb.magic ≠ volumeMagic := by
  unfold validate
  by_cases hmagic : sb.magic = volumeMagic
  · rw [if_neg (not_not_intro hmagic)]
    split <;> simp [hmagic]
  · simp [hmagic]

/-- Every block of the volume has a bit. -/
theorem Fits.total_le (h : sb.Fits n) : sb.totalBlocks.toNat ≤ bitmapCapacity := by
  have hsane := h.2
  simp only [isSane, Bool.and_eq_true, decide_eq_true_eq] at hsane
  omega

/-- Some blocks of the volume may hold data. -/
theorem Fits.firstDataBlock_lt_total (h : sb.Fits n) : BlockVolume.firstDataBlock < sb.totalBlocks.toNat := by
  have hsane := h.2
  simp only [isSane, Bool.and_eq_true, decide_eq_true_eq] at hsane
  omega

/-- The device has room for the description of the volume. -/
theorem Fits.firstDataBlock_lt (h : sb.Fits n) : BlockVolume.firstDataBlock < n := by
  have hsane := h.2
  simp only [isSane, Bool.and_eq_true, decide_eq_true_eq] at hsane
  omega

end BlockVolume.Superblock
