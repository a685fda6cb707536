import BlockVolume.Proofs.Space.Conserved

/-!
# `Proofs.Space.Growth` — what entries are given and give back

Here nothing is known of an entry: its run may lie anywhere, also where the blocks that describe the volume
are, past the end of the volume, or over the run of another entry. Still a block that is given is a free one
of the volume and lies right after the run, and the blocks that are taken back are those of the run that hold
data and are in use.

## Contents
- **`start?`** and `grow_of_start`: where a run begins, and what comes of growing it.
- **`Granted`** and **`Barred`**: an entry that was given a block, and what keeps one from being given any.
- **`Vacated`**: an entry whose blocks were taken back.
- `granted_of_grow`, `barred_of_grow` and `vacated_of_release`: these are all that can happen.
-/

namespace BlockVolume.Space

open Bitmap

variable {s s' : Space} {e e' : Entry} {start b n : Nat}

/-! ## Growing -/

/-- Where the run of an entry begins. Of an entry without blocks it is the lowest free data block, if there is
one. -/
def start? (s : Space) (e : Entry) : Option Nat :=
  if e.blocks = 0 then s.lowestFree? else some e.firstBlock.toNat

/-- An entry has a beginning of its run if it has a run. -/
theorem blocks_eq_zero_of_start? (h : s.start? e = none) : e.blocks = 0 := by
  unfold start? at h
  split at h
  · assumption
  · cases h

/-- Every data block below the lowest free one is in use. -/
theorem lowestFree?_eq_some (h : s.lowestFree? = some start) : firstDataBlock ≤ start ∧ start < s.total ∧
    s.bitmap.test start = false ∧ ∀ b, firstDataBlock ≤ b → b < start → s.bitmap.test b = true := by
  obtain ⟨hfree, hmem, hbelow⟩ := List.find?_range'_eq_some.mp h
  rw [List.mem_range'_1] at hmem
  exact ⟨hmem.1, by omega, by simpa using hfree, fun b hle hlt => by simpa using hbelow b hle hlt⟩

/-- Every data block is in use if none is free. -/
theorem lowestFree?_eq_none (h : s.lowestFree? = none) (hcap : s.total ≤ bitmapCapacity) :
    ∀ b, firstDataBlock ≤ b → b < s.total → s.bitmap.test b = true := by
  intro b hle hlt
  have hmem : b ∈ s.dataBlocks := by
    rw [dataBlocks, List.mem_range'_1]
    omega
  simpa using List.find?_eq_none.mp h b hmem

/-- Without a free data block no run begins. -/
theorem grow_of_no_start (h : s.start? e = none) (hcap : s.total ≤ bitmapCapacity) :
    s.grow e = .error .noFreeBlock := by
  have hblocks := blocks_eq_zero_of_start? h
  rw [start?, if_pos hblocks] at h
  rw [grow, if_pos hblocks, h]
  exact congrArg Except.error (if_neg (Nat.not_lt.mpr hcap))

/-- A run grows just if the block after it is in the volume and free. -/
theorem grow_of_start (h : s.start? e = some start) (hcap : s.total ≤ bitmapCapacity) : s.grow e =
    if s.total ≤ start + e.blocks.toNat then .error .endOfVolume
    else if s.bitmap.test (start + e.blocks.toNat) then .error .blockTaken
    else .ok ⟨s.take (start + e.blocks.toNat),
      { e with firstBlock := UInt32.ofNat start, blocks := e.blocks + 1 }, start + e.blocks.toNat⟩ := by
  by_cases hblocks : e.blocks = 0
  · have hzero : e.blocks.toNat = 0 := by rw [hblocks]; rfl
    have hone : e.blocks + 1 = 1 := by rw [hblocks]; rfl
    rw [start?, if_pos hblocks] at h
    obtain ⟨-, hlt, hfree, -⟩ := lowestFree?_eq_some h
    rw [grow, if_pos hblocks, h, hzero, Nat.add_zero, if_neg (Nat.not_le.mpr hlt), hfree, hone]
    rfl
  · rw [start?, if_neg hblocks] at h
    obtain rfl := Option.some.inj h
    rw [grow, if_neg hblocks]
    by_cases hend : s.total ≤ e.firstBlock.toNat + e.blocks.toNat
    · simp only [if_pos hend]
    · have hin : ¬bitmapCapacity ≤ e.firstBlock.toNat + e.blocks.toNat := by omega
      simp only [if_neg hend, if_neg hin]
      rw [UInt32.ofNat_toNat]

/-- The entry `e` was given the block `b`, a free one of the volume. It is the lowest data block that is free
if the entry had no run, and the block right after the run otherwise. Its bit is the only one that changes,
and it is the only block that the run gains. -/
structure Granted (s : Space) (e : Entry) (b : Nat) (s' : Space) (e' : Entry) : Prop where
  lt_total : b < s.total
  clear : s.bitmap.test b = false
  lowest : e.blocks = 0 → firstDataBlock ≤ b ∧ ∀ j, firstDataBlock ≤ j → j < b → s.bitmap.test j = true
  next : e.blocks ≠ 0 → b = e.firstBlock.toNat + e.blocks.toNat
  extended : Extends e e' b
  test (j : Nat) : s'.bitmap.test j = (decide (j = b) || s.bitmap.test j)
  superblock : s'.superblock = { s.superblock with freeBlocks := s'.superblock.freeBlocks }
  free : s'.free = s.free - 1
  used : s'.used = s.used + 1

/-- A block that is given while the counter is not at zero is taken off it. -/
theorem Granted.sum_eq (h : Granted s e b s' e') (hpos : 0 < s.free) : s'.free + s'.used = s.free + s.used := by
  have hfree := h.free
  have hused := h.used
  omega

theorem granted_of_grow {g : Grant} (hcap : s.total ≤ bitmapCapacity) (hg : s.grow e = .ok g) :
    Granted s e g.block g.space g.entry := by
  obtain ⟨hspace, hlt, hclear, -, hextends⟩ := grow_eq_ok hg
  obtain ⟨hsuperblock, hfree, hused⟩ := grow_counts hcap hg
  refine ⟨hlt, hclear, fun h0 => ?_, fun h0 => ?_, hextends, fun j => ?_, hsuperblock, hfree, hused⟩
  · cases hlowest : s.lowestFree? with
    | none =>
      rw [grow_of_no_start (by rw [start?, if_pos h0, hlowest]) hcap] at hg
      cases hg
    | some start =>
      obtain ⟨hle, -, -, hbelow⟩ := lowestFree?_eq_some hlowest
      rw [grow, if_pos h0, hlowest] at hg
      cases hg
      exact ⟨hle, hbelow⟩
  · rw [← hextends.last, hextends.first (UInt32.toNat_ne_zero.mpr h0)]
  · rw [hspace]
    exact test_set _ (Nat.lt_of_lt_of_le hlt hcap) j

/-- What keeps an entry from being given a block: it has no run and no data block is free, its run ends with
the volume or past it, or the block after its run is in use. -/
inductive Barred (s : Space) (e : Entry) : Refusal → Prop
  | noFreeBlock : e.blocks = 0 → (∀ b, firstDataBlock ≤ b → b < s.total → s.bitmap.test b = true) →
      Barred s e .noFreeBlock
  | endOfVolume : e.blocks ≠ 0 → s.total ≤ e.firstBlock.toNat + e.blocks.toNat → Barred s e .endOfVolume
  | blockTaken : e.blocks ≠ 0 → e.firstBlock.toNat + e.blocks.toNat < s.total →
      s.bitmap.test (e.firstBlock.toNat + e.blocks.toNat) = true → Barred s e .blockTaken

theorem barred_of_grow {r : Refusal} (hcap : s.total ≤ bitmapCapacity) (hg : s.grow e = .error r) : Barred s e r := by
  by_cases h0 : e.blocks = 0
  · cases hlowest : s.lowestFree? with
    | none =>
      rw [grow_of_no_start (by rw [start?, if_pos h0, hlowest]) hcap] at hg
      cases hg
      exact .noFreeBlock h0 (lowestFree?_eq_none hlowest hcap)
    | some start =>
      rw [grow, if_pos h0, hlowest] at hg
      cases hg
  · rw [grow_of_start (by rw [start?, if_neg h0]) hcap] at hg
    split at hg
    · rename_i hend
      cases hg
      exact .endOfVolume h0 hend
    · rename_i hin
      split at hg
      · rename_i htaken
        cases hg
        exact .blockTaken h0 (Nat.lt_of_not_le hin) htaken
      · cases hg

/-! ## Giving back -/

/-- The blocks of the entry `e` were taken back, `n` of them. The bits that were cleared are those of its run
that hold data and were set, and the entry is left without a run. -/
structure Vacated (s : Space) (e : Entry) (n : Nat) (s' : Space) (e' : Entry) : Prop where
  test_iff (j : Nat) : s'.bitmap.test j = true ↔
    s.bitmap.test j = true ∧ ¬(firstDataBlock ≤ j ∧ j < s.total ∧ owns e j = true)
  count : n = (s.returned e).length
  entry : e' = { e with size := 0, firstBlock := 0, blocks := 0 }
  superblock : s'.superblock = { s.superblock with freeBlocks := s'.superblock.freeBlocks }
  free : s'.free = s.free + n
  used : s'.used + n = s.used

/-- Blocks that are taken back are added to the counter. -/
theorem Vacated.sum_eq (h : Vacated s e n s' e') : s'.free + s'.used = s.free + s.used := by
  have hfree := h.free
  have hused := h.used
  omega

theorem vacated_of_release {r : Release} (hcap : s.total ≤ bitmapCapacity) (hr : s.release e = .ok r) :
    Vacated s e r.freed r.space r.entry := by
  obtain ⟨hsuperblock, hfree, hused⟩ := release_counts hcap hr
  unfold release at hr
  dsimp only at hr
  split at hr
  · cases hr
  · cases hr
    refine ⟨fun j => ?_, rfl, rfl, hsuperblock, hfree, hused⟩
    have hbound : ∀ b ∈ s.returned e, b < bitmapCapacity := fun b hb =>
      Nat.lt_of_lt_of_le ((mem_returned_iff hcap).mp hb).2.1 hcap
    show ((s.returned e).foldl Bitmap.clear s.bitmap).test j = true ↔ _
    rw [test_foldl_clear hbound, Bool.and_eq_true, decide_eq_true_eq, mem_returned_iff hcap]
    constructor
    · rintro ⟨hno, hset⟩
      exact ⟨hset, fun ⟨hle, hlt, hown⟩ => hno ⟨hle, hlt, hown, hset⟩⟩
    · rintro ⟨hset, hno⟩
      exact ⟨fun ⟨hle, hlt, hown, _⟩ => hno ⟨hle, hlt, hown⟩, hset⟩

/-- All blocks can be taken back if the counter has room for the blocks in use. -/
theorem exists_release (hcap : s.total ≤ bitmapCapacity) (hroom : s.free + s.used < UInt32.size) (e : Entry) :
    ∃ r, s.release e = .ok r := by
  have hcount := countUsed_returned hcap e
  have hrange : ¬(max e.firstBlock.toNat bitmapCapacity < min (e.firstBlock.toNat + e.blocks.toNat) s.total ∨
      UInt32.size ≤ s.free + (s.returned e).length) := by omega
  exact ⟨_, if_neg hrange⟩

end BlockVolume.Space
