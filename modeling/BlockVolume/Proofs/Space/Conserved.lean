import BlockVolume.Proofs.Space.Allocated

/-!
# `Proofs.Space.Conserved` — what changes of a space do to its numbers

Nothing is asked of the entries here, nor need the counter agree with the bitmap. Giving a block sets one
bit and takes one off the counter, which stops at zero; taking blocks back adds to the counter as many as
bits were cleared. So the two together never exceed the volume if they did not before.

## Contents
- `mem_returned_iff`: what an entry gives back.
- **`grow_counts`** and **`release_counts`**: counter, bits and the words that stay.
- **`Covered`**: the counter claims no more than the blocks that are not in use.
-/

namespace BlockVolume.Space

open Bitmap

variable {s : Space} {e : Entry} {b : Nat}

theorem used_le (s : Space) : s.used ≤ s.total := countUsed_le _ _

/-- A block that is given was free: there is one bit more, and the counter is one less or zero. -/
theorem grow_counts {g : Grant} (hcap : s.total ≤ bitmapCapacity) (hg : s.grow e = .ok g) :
    g.space.superblock = { s.superblock with freeBlocks := g.space.superblock.freeBlocks } ∧
      g.space.free = s.free - 1 ∧ g.space.used = s.used + 1 := by
  obtain ⟨hspace, hlt, hclear, -, -⟩ := grow_eq_ok hg
  rw [hspace]
  refine ⟨rfl, ?_, countUsed_set hlt hcap hclear⟩
  have := s.free_lt
  exact UInt32.toNat_ofNat_of_lt' (by omega)

/-- What an entry gives back lies in its run, holds data and is in use. -/
theorem mem_returned_iff (hcap : s.total ≤ bitmapCapacity) : b ∈ s.returned e ↔
    firstDataBlock ≤ b ∧ b < s.total ∧ owns e b = true ∧ s.bitmap.test b = true := by
  have hdata : (firstDataBlock ≤ b ∧ b < firstDataBlock + (min s.total bitmapCapacity - firstDataBlock)) ↔
      firstDataBlock ≤ b ∧ b < s.total := by omega
  simp only [returned, dataBlocks, List.mem_filter, List.mem_range'_1, Bool.and_eq_true, hdata, and_assoc]

/-- The bits that are cleared for an entry are as many as it gives back. -/
theorem countUsed_returned (hcap : s.total ≤ bitmapCapacity) (e : Entry) :
    ((s.returned e).foldl Bitmap.clear s.bitmap).countUsed s.total + (s.returned e).length = s.used := by
  have hnodup : (s.returned e).Nodup := s.nodup_dataBlocks.filter _
  refine countUsed_foldl_clear hcap hnodup (fun b hb => ?_) fun b hb => ?_
  · exact ((mem_returned_iff hcap).mp hb).2.1
  · exact ((mem_returned_iff hcap).mp hb).2.2.2

/-- Blocks that are taken back were in use: the counter gains as many as there are bits less. -/
theorem release_counts {r : Release} (hcap : s.total ≤ bitmapCapacity) (hr : s.release e = .ok r) :
    r.space.superblock = { s.superblock with freeBlocks := r.space.superblock.freeBlocks } ∧
      r.space.free = s.free + r.freed ∧ r.space.used + r.freed = s.used := by
  unfold release at hr
  dsimp only at hr
  split at hr
  · cases hr
  · rename_i hrange
    cases hr
    exact ⟨rfl, UInt32.toNat_ofNat_of_lt' (by omega), countUsed_returned hcap e⟩

/-- The counter of free blocks claims no more than the blocks that are not in use. -/
def Covered (s : Space) : Prop := s.free + s.used ≤ s.total

instance : Decidable s.Covered := inferInstanceAs (Decidable (_ ≤ _))

theorem total_eq_of_superblock {s' : Space}
    (h : s'.superblock = { s.superblock with freeBlocks := s'.superblock.freeBlocks }) : s'.total = s.total := by
  rw [total, h]
  rfl

theorem Covered.grow {g : Grant} (h : s.Covered) (hcap : s.total ≤ bitmapCapacity) (hg : s.grow e = .ok g) :
    g.space.Covered := by
  obtain ⟨hsuperblock, hfree, hused⟩ := grow_counts hcap hg
  have htotal := total_eq_of_superblock hsuperblock
  have hle := g.space.used_le
  unfold Covered at h ⊢
  -- a counter of zero stays so, and the bits alone do not exceed the volume
  omega

theorem Covered.release {r : Release} (h : s.Covered) (hcap : s.total ≤ bitmapCapacity)
    (hr : s.release e = .ok r) : r.space.Covered := by
  obtain ⟨hsuperblock, hfree, hused⟩ := release_counts hcap hr
  have htotal := total_eq_of_superblock hsuperblock
  unfold Covered at h ⊢
  omega

/-- A counter that agrees with its directory claims just the blocks that are not in use. -/
theorem covered_of_allocated {d : Directory} (h : Allocated s d) : s.Covered := by
  unfold Covered used
  rw [h.total_eq]
  exact Nat.le_of_eq h.free_add_used

end BlockVolume.Space
