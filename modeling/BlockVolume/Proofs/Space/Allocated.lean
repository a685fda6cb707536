import BlockVolume.Directory
import BlockVolume.Proofs.Space.Count
import Mathlib.Logic.ExistsUnique

/-!
# `Proofs.Space.Allocated` — space and directory agree

Which blocks are in use is held three times: as the runs of the entries, as bits, and as a counter.
`Allocated` says that the three agree and that the runs lie apart, inside the volume. Every change that
is made to the space or to the directory keeps it.

## Contents
- **`Extends`**: an entry with one more block at the end of its run; what `Space.grow` gives.
- **`Allocated`**, with `Allocated.fresh` and `Allocated.congr`.
- **`Allocated.of_set`** for a new entry in one slot, and from it one lemma per change: `grow`, `release`,
  `replace`.
-/

namespace BlockVolume

open Bitmap Space

/-! ## Runs -/

theorem Space.owns_iff {e : Entry} {b : Nat} :
    owns e b = true ↔ e.firstBlock.toNat ≤ b ∧ b < e.firstBlock.toNat + e.blocks.toNat := by
  simp [owns]

/-- An entry without blocks owns none. -/
theorem Space.owns_eq_false {e : Entry} (h : e.blocks.toNat = 0) (b : Nat) : owns e b = false := by
  rw [Bool.eq_false_iff, ne_eq, owns_iff]
  omega

/-- `e'` is `e` with the block `b` at the end of its run, which begins there if `e` has no run. -/
structure Extends (e e' : Entry) (b : Nat) : Prop where
  nameField : e'.nameField = e.nameField
  kind : e'.kind = e.kind
  size : e'.size = e.size
  blocks : e'.blocks.toNat = e.blocks.toNat + 1
  last : e'.firstBlock.toNat + e.blocks.toNat = b
  first : e.blocks.toNat ≠ 0 → e'.firstBlock.toNat = e.firstBlock.toNat

theorem Extends.owns_iff {e e' : Entry} {b : Nat} (h : Extends e e' b) (c : Nat) :
    owns e' c = true ↔ owns e c = true ∨ c = b := by
  have hb := h.blocks
  have hl := h.last
  rw [Space.owns_iff, Space.owns_iff]
  by_cases h0 : e.blocks.toNat = 0
  · omega
  · have := h.first h0
    omega

theorem UInt32.toNat_ne_zero {w : UInt32} : w.toNat ≠ 0 ↔ w ≠ 0 := by
  rw [ne_eq, ne_eq, ← UInt32.toNat_inj]
  rfl

namespace Space

theorem total_lt (s : Space) : s.total < UInt32.size := s.superblock.totalBlocks.toNat_lt

theorem free_lt (s : Space) : s.free < UInt32.size := s.superblock.freeBlocks.toNat_lt

/-- A grant takes one free block of the volume, puts it at the end of the run and leaves the rest. -/
theorem grow_eq_ok {s : Space} {e : Entry} {g : Grant} (hg : s.grow e = .ok g) :
    g.space = s.take g.block ∧ g.block < s.total ∧ s.bitmap.test g.block = false ∧
      (e.blocks.toNat = 0 → firstDataBlock ≤ g.block) ∧ Extends e g.entry g.block := by
  have htotal := s.total_lt
  unfold grow at hg
  split at hg
  · -- the entry has no run: the lowest free block
    rename_i h0
    have hb0 : e.blocks.toNat = 0 := by rw [h0]; rfl
    split at hg
    · rename_i block hfind
      cases hg
      have hmem := List.mem_of_find?_eq_some hfind
      have hclear := List.find?_some hfind
      rw [dataBlocks, List.mem_range'_1] at hmem
      have hlt : block < s.total := by omega
      refine ⟨rfl, hlt, by simpa using hclear, fun _ => hmem.1, rfl, rfl, rfl, ?_, ?_,
        fun hne => absurd hb0 hne⟩
      · rw [hb0]
        rfl
      · rw [hb0]
        exact UInt32.toNat_ofNat_of_lt' (by omega)
    · cases hg
  · -- the entry has a run: the block after it
    rename_i h0
    have hb0 : e.blocks.toNat ≠ 0 := UInt32.toNat_ne_zero.mpr h0
    dsimp only at hg
    split at hg
    · cases hg
    · rename_i hin
      split at hg
      · cases hg
      · split at hg
        · cases hg
        · rename_i htest
          cases hg
          have hlt : e.firstBlock.toNat + e.blocks.toNat < s.total := Nat.lt_of_not_le hin
          refine ⟨rfl, hlt, by simpa using htest, fun h => absurd h hb0, rfl, rfl, rfl, ?_, rfl, fun _ => rfl⟩
          rw [UInt32.toNat_add]
          apply Nat.mod_eq_of_lt
          simp only [UInt32.size] at htotal
          change e.blocks.toNat + 1 < _
          omega

/-- A refusal is for want of a free block or because the next one is taken, unless a block number leaves
the bitmap. -/
theorem error_of_grow_eq_error {s : Space} {e : Entry} {r : Refusal} (hg : s.grow e = .error r)
    (hcap : s.total ≤ bitmapCapacity) : r.error = .diskFull ∨ r.error = .fragmented := by
  unfold grow at hg
  -- the same branches as above, for their refusals
  split at hg
  · split at hg
    · cases hg
    · rw [if_neg (by omega)] at hg
      cases hg
      exact Or.inl rfl
  · dsimp only at hg
    split at hg
    · cases hg
      exact Or.inl rfl
    · split at hg
      · omega
      · split at hg
        · cases hg
          exact Or.inr rfl
        · cases hg

theorem nodup_dataBlocks (s : Space) : s.dataBlocks.Nodup := List.nodup_range'

end Space

/-! ## The invariant -/

/-- The runs of the entries lie apart inside the volume, the bits are set for them and for the blocks
that describe the volume, the counter counts the others, and only files own blocks, at least as many
as they have bytes for. -/
structure Allocated (s : Space) (d : Directory) : Prop where
  superblock : s.superblock = { Superblock.fresh with freeBlocks := s.superblock.freeBlocks }
  run_bounds (slot : Slot) : (d.get slot).blocks.toNat ≠ 0 →
    firstDataBlock ≤ (d.get slot).firstBlock.toNat ∧
      (d.get slot).firstBlock.toNat + (d.get slot).blocks.toNat ≤ volumeBlocks
  run_disjoint {i j : Slot} {b : Nat} : owns (d.get i) b = true → owns (d.get j) b = true → i = j
  test_iff (b : Nat) : s.bitmap.test b = true ↔
    b < firstDataBlock ∨ ∃ slot, owns (d.get slot) b = true
  free_add_used : s.free + s.bitmap.countUsed volumeBlocks = volumeBlocks
  size_le (slot : Slot) : (d.get slot).size.toNat ≤ blockSize * (d.get slot).blocks.toNat
  blocks_of_not_file (slot : Slot) : (d.get slot).kind ≠ .file → (d.get slot).blocks.toNat = 0

/-- The run of an entry lies among the data blocks of the volume, has room for its bytes, and is empty
unless the entry is a file. -/
structure Placed (e : Entry) : Prop where
  run_bounds : e.blocks.toNat ≠ 0 →
    firstDataBlock ≤ e.firstBlock.toNat ∧ e.firstBlock.toNat + e.blocks.toNat ≤ volumeBlocks
  size_le : e.size.toNat ≤ blockSize * e.blocks.toNat
  blocks_of_not_file : e.kind ≠ .file → e.blocks.toNat = 0

theorem Placed.unused : Placed Entry.unused :=
  ⟨fun hne => absurd rfl hne, Nat.zero_le _, fun _ => rfl⟩

namespace Allocated

variable {s : Space} {d : Directory}

theorem placed (h : Allocated s d) (slot : Slot) : Placed (d.get slot) :=
  ⟨h.run_bounds slot, h.size_le slot, h.blocks_of_not_file slot⟩

theorem total_eq (h : Allocated s d) : s.total = volumeBlocks := by
  rw [Space.total, h.superblock]
  rfl

/-- An owned block holds data and lies in the volume. -/
theorem owned_bounds (h : Allocated s d) {slot : Slot} {b : Nat} (hb : owns (d.get slot) b = true) :
    firstDataBlock ≤ b ∧ b < volumeBlocks := by
  rw [owns_iff] at hb
  have := h.run_bounds slot (by omega)
  omega

/-- Each block in use beyond the ones that describe the volume has one owner. -/
theorem existsUnique_owner (h : Allocated s d) {b : Nat} (hb : ∃ slot, owns (d.get slot) b = true) :
    ∃! slot, (d.get slot).isEmpty = false ∧ owns (d.get slot) b = true := by
  obtain ⟨slot, hslot⟩ := hb
  refine ⟨slot, ⟨?_, hslot⟩, fun i hi => h.run_disjoint hi.2 hslot⟩
  apply Bool.eq_false_iff.mpr
  intro he
  have hk : (d.get slot).kind = .empty := by simpa [Entry.isEmpty] using he
  have := h.blocks_of_not_file slot (by rw [hk]; decide)
  rw [owns_eq_false this] at hslot
  cases hslot

/-- The space of a new volume and the table without entries. -/
theorem fresh : Allocated Space.fresh Directory.empty where
  superblock := rfl
  run_bounds slot hne := absurd (by simp [Entry.unused]) hne
  run_disjoint {i j b} hi _ := by
    rw [Directory.get_empty, owns_eq_false rfl] at hi
    cases hi
  test_iff b := by
    have hnone : owns Entry.unused b = false := owns_eq_false rfl b
    simp [Space.fresh, test_reserveMetadata, hnone]
  free_add_used := by
    rw [countUsed_of_lowest (m := Space.fresh.bitmap) test_reserveMetadata]
    rfl
  size_le slot := by simp [Entry.unused]
  blocks_of_not_file slot _ := by simp [Entry.unused]

/-- What it says depends on kinds, sizes and runs alone. -/
theorem congr (h : Allocated s d) {d' : Directory}
    (hsame : ∀ slot, (d'.get slot).kind = (d.get slot).kind ∧ (d'.get slot).size = (d.get slot).size ∧
      (d'.get slot).firstBlock = (d.get slot).firstBlock ∧ (d'.get slot).blocks = (d.get slot).blocks) :
    Allocated s d' := by
  have howns : ∀ slot b, owns (d'.get slot) b = owns (d.get slot) b := by
    intro slot b
    obtain ⟨-, -, hf, hb⟩ := hsame slot
    rw [owns, owns, hf, hb]
  refine ⟨h.superblock, ?_, ?_, ?_, h.free_add_used, ?_, ?_⟩
  · intro slot
    obtain ⟨-, -, hf, hb⟩ := hsame slot
    rw [hf, hb]
    exact h.run_bounds slot
  · intro i j b hi hj
    rw [howns] at hi hj
    exact h.run_disjoint hi hj
  · intro b
    rw [h.test_iff]
    simp only [howns]
  · intro slot
    obtain ⟨-, hs, -, hb⟩ := hsame slot
    rw [hs, hb]
    exact h.size_le slot
  · intro slot
    obtain ⟨hk, -, -, hb⟩ := hsame slot
    rw [hk, hb]
    exact h.blocks_of_not_file slot

/-- The runs of two entries have no block in common. -/
theorem owns_eq_false_of_ne (h : Allocated s d) {i j : Slot} {b : Nat} (hij : i ≠ j)
    (hj : owns (d.get j) b = true) : owns (d.get i) b = false :=
  Bool.eq_false_iff.mpr fun hi => hij (h.run_disjoint hi hj)

/-- Every change goes one entry at a time: the new entry is in its place and apart from all others, and
bits and counter were changed with it. -/
theorem of_set (h : Allocated s d) {s' : Space} {slot : Slot} {e' : Entry}
    (hsuper : s'.superblock = { Superblock.fresh with freeBlocks := s'.superblock.freeBlocks })
    (hplaced : Placed e')
    (hapart : ∀ i b, i ≠ slot → owns e' b = true → owns (d.get i) b = false)
    (htest : ∀ b, s'.bitmap.test b = true ↔
      b < firstDataBlock ∨ owns e' b = true ∨ ∃ i, i ≠ slot ∧ owns (d.get i) b = true)
    (hcount : s'.free + s'.bitmap.countUsed volumeBlocks = volumeBlocks) :
    Allocated s' (d.set slot e') := by
  have hall : ∀ i, Placed ((d.set slot e').get i) := by
    intro i
    rw [Directory.get_set]
    split
    · exact hplaced
    · exact h.placed i
  -- a run of the new table is that of the new entry, or one of another slot
  have howns : ∀ i b, owns ((d.set slot e').get i) b = true ↔
      (i = slot ∧ owns e' b = true) ∨ (i ≠ slot ∧ owns (d.get i) b = true) := by
    intro i b
    rw [Directory.get_set]
    by_cases hi : i = slot
    · simp [hi]
    · simp [hi]
  refine ⟨hsuper, fun i => (hall i).run_bounds, ?_, ?_, hcount, fun i => (hall i).size_le,
    fun i => (hall i).blocks_of_not_file⟩
  · intro i j b hi hj
    rw [howns] at hi hj
    rcases hi with ⟨rfl, hi⟩ | ⟨hne, hi⟩ <;> rcases hj with ⟨rfl, hj⟩ | ⟨hne', hj⟩
    · rfl
    · rw [hapart j b hne' hi] at hj
      cases hj
    · rw [hapart i b hne hj] at hi
      cases hi
    · exact h.run_disjoint hi hj
  · intro b
    rw [htest]
    simp only [howns]
    constructor
    · rintro (hb | hb | ⟨i, hi⟩)
      · exact Or.inl hb
      · exact Or.inr ⟨slot, Or.inl ⟨rfl, hb⟩⟩
      · exact Or.inr ⟨i, Or.inr hi⟩
    · rintro (hb | ⟨i, ⟨-, hi⟩ | hi⟩)
      · exact Or.inl hb
      · exact Or.inr (Or.inl hi)
      · exact Or.inr (Or.inr ⟨i, hi⟩)

/-! ### One more block -/

/-- A file may take a free data block at the end of its run. -/
theorem extend (h : Allocated s d) {slot : Slot} {e' : Entry} {b : Nat} (hk : (d.get slot).kind = .file)
    (hb : firstDataBlock ≤ b ∧ b < volumeBlocks) (hclear : s.bitmap.test b = false)
    (he : Extends (d.get slot) e' b) : Allocated (s.take b) (d.set slot e') := by
  have hcap := volumeBlocks_le_bitmapCapacity
  have hblocks := he.blocks
  have hfree : ∀ i, owns (d.get i) b = false := by
    intro i
    apply Bool.eq_false_iff.mpr
    intro ho
    rw [(h.test_iff b).mpr (Or.inr ⟨i, ho⟩)] at hclear
    cases hclear
  refine h.of_set ?_ ⟨?_, ?_, fun hne => absurd (he.kind.trans hk) hne⟩ ?_ ?_ ?_
  · rw [take, withFree, h.superblock]
  · intro _
    have hlast := he.last
    by_cases h0 : (d.get slot).blocks.toNat = 0
    · omega
    · have := h.run_bounds slot h0
      have := he.first h0
      omega
  · have hs := h.size_le slot
    rw [he.size, hblocks, Nat.mul_succ]
    omega
  · intro i c hi hc
    rcases (he.owns_iff c).mp hc with hc | rfl
    · exact h.owns_eq_false_of_ne hi hc
    · exact hfree i
  · intro c
    change (s.bitmap.set b).test c = true ↔ _
    rw [test_set _ (by omega), Bool.or_eq_true, h.test_iff, he.owns_iff]
    simp only [decide_eq_true_eq]
    constructor
    · rintro (rfl | hc | ⟨i, hi⟩)
      · exact Or.inr (Or.inl (Or.inr rfl))
      · exact Or.inl hc
      · by_cases hslot : i = slot
        · exact Or.inr (Or.inl (Or.inl (hslot ▸ hi)))
        · exact Or.inr (Or.inr ⟨i, hslot, hi⟩)
    · rintro (hc | (hc | hc) | ⟨i, -, hi⟩)
      · exact Or.inr (Or.inl hc)
      · exact Or.inr (Or.inr ⟨slot, hc⟩)
      · exact Or.inl hc
      · exact Or.inr (Or.inr ⟨i, hi⟩)
  · change (UInt32.ofNat (s.free - 1)).toNat + (s.bitmap.set b).countUsed volumeBlocks = _
    have hcount := countUsed_set hb.2 hcap.2 hclear
    have hle := (s.bitmap.set b).countUsed_le volumeBlocks
    have hsum := h.free_add_used
    have := s.free_lt
    rw [UInt32.toNat_ofNat_of_lt' (by omega)]
    omega

/-- A grant to a file keeps the agreement. -/
theorem grow (h : Allocated s d) {slot : Slot} {g : Grant} (hk : (d.get slot).kind = .file)
    (hg : s.grow (d.get slot) = .ok g) : Allocated g.space (d.set slot g.entry) := by
  obtain ⟨hspace, hlt, hclear, hfirst, he⟩ := grow_eq_ok hg
  rw [h.total_eq] at hlt
  rw [hspace]
  refine h.extend hk ⟨?_, hlt⟩ hclear he
  by_cases h0 : (d.get slot).blocks.toNat = 0
  · exact hfirst h0
  · have := h.run_bounds slot h0
    have hl := he.last
    have hf := he.first h0
    omega

/-! ### All blocks back -/

/-- The blocks that an entry gives back are those of its run. -/
theorem mem_returned (h : Allocated s d) {slot : Slot} {b : Nat} :
    b ∈ s.returned (d.get slot) ↔ owns (d.get slot) b = true := by
  have hcap := volumeBlocks_le_bitmapCapacity
  simp only [returned, dataBlocks, List.mem_filter, List.mem_range'_1, Bool.and_eq_true, h.total_eq]
  constructor
  · exact fun hb => hb.2.1
  · intro hb
    have := h.owned_bounds hb
    exact ⟨by omega, hb, (h.test_iff b).mpr (Or.inr ⟨slot, hb⟩)⟩

/-- An entry gives back as many blocks as it owns. -/
theorem length_returned (h : Allocated s d) (slot : Slot) :
    (s.returned (d.get slot)).length = (d.get slot).blocks.toNat := by
  have hnodup : (s.returned (d.get slot)).Nodup := s.nodup_dataBlocks.filter _
  have hperm : (s.returned (d.get slot)).Perm
      (List.range' (d.get slot).firstBlock.toNat (d.get slot).blocks.toNat) := by
    apply (List.perm_ext_iff_of_nodup hnodup List.nodup_range').mpr
    intro b
    rw [h.mem_returned, owns_iff, List.mem_range'_1]
  rw [hperm.length_eq, List.length_range']

/-- Taking the blocks of an entry back and clearing its slot keeps the agreement. It never fails. -/
theorem release (h : Allocated s d) (slot : Slot) :
    ∃ released, s.release (d.get slot) = .ok released ∧ released.freed = (d.get slot).blocks.toNat ∧
      Allocated released.space (d.set slot Entry.unused) := by
  have hcap := volumeBlocks_le_bitmapCapacity
  have hlen := h.length_returned slot
  have hlt : ∀ b ∈ s.returned (d.get slot), b < volumeBlocks := fun b hb =>
    (h.owned_bounds (h.mem_returned.mp hb)).2
  have hset : ∀ b ∈ s.returned (d.get slot), s.bitmap.test b = true := fun b hb =>
    (h.test_iff b).mpr (Or.inr ⟨slot, h.mem_returned.mp hb⟩)
  have hnodup : (s.returned (d.get slot)).Nodup := s.nodup_dataBlocks.filter _
  have hcount := countUsed_foldl_clear hcap.2 hnodup hlt hset
  have hsum := h.free_add_used
  have hsize : s.free + (s.returned (d.get slot)).length < UInt32.size := by
    simp only [UInt32.size, volumeBlocks] at hcount hsum ⊢
    omega
  have hrange : ¬(max (d.get slot).firstBlock.toNat bitmapCapacity <
      min ((d.get slot).firstBlock.toNat + (d.get slot).blocks.toNat) s.total ∨
      UInt32.size ≤ s.free + (s.returned (d.get slot)).length) := by
    rw [h.total_eq]
    omega
  refine ⟨_, by rw [Space.release]; exact if_neg hrange, hlen, ?_⟩
  refine h.of_set ?_ .unused ?_ ?_ ?_
  · rw [withFree, h.superblock]
  · intro i b _ hb
    rw [owns_eq_false (by rfl)] at hb
    cases hb
  · intro c
    change ((s.returned (d.get slot)).foldl clear s.bitmap).test c = true ↔ _
    rw [test_foldl_clear (fun b hb => by have := hlt b hb; omega), Bool.and_eq_true, h.test_iff,
      owns_eq_false (by rfl)]
    simp only [decide_eq_true_eq, h.mem_returned, Bool.false_eq_true, false_or]
    constructor
    · rintro ⟨hnot, hc | ⟨i, hi⟩⟩
      · exact Or.inl hc
      · exact Or.inr ⟨i, fun he => hnot (he ▸ hi), hi⟩
    · rintro (hc | ⟨i, hne, hi⟩)
      · refine ⟨?_, Or.inl hc⟩
        intro ho
        have := h.owned_bounds ho
        omega
      · exact ⟨fun ho => hne (h.run_disjoint hi ho), Or.inr ⟨i, hi⟩⟩
  · change (UInt32.ofNat (s.free + (s.returned (d.get slot)).length)).toNat +
      ((s.returned (d.get slot)).foldl clear s.bitmap).countUsed volumeBlocks = _
    rw [UInt32.toNat_ofNat_of_lt' hsize]
    omega

/-! ### Changes of an entry that leave its run -/

/-- An entry may be replaced by one with the same run and a size within it. -/
theorem replace (h : Allocated s d) {slot : Slot} {e' : Entry}
    (hblocks : e'.blocks = (d.get slot).blocks)
    (hfirst : e'.blocks.toNat ≠ 0 → e'.firstBlock = (d.get slot).firstBlock)
    (hsize : e'.size.toNat ≤ blockSize * e'.blocks.toNat) (hkind : e'.kind ≠ .file → e'.blocks.toNat = 0) :
    Allocated s (d.set slot e') := by
  have howns : ∀ b, owns e' b = owns (d.get slot) b := by
    intro b
    by_cases h0 : e'.blocks.toNat = 0
    · rw [owns_eq_false h0, owns_eq_false (hblocks ▸ h0)]
    · rw [owns, owns, hfirst h0, hblocks]
  refine h.of_set h.superblock ⟨?_, hsize, hkind⟩ ?_ ?_ h.free_add_used
  · intro hne
    rw [hfirst hne, hblocks]
    exact h.run_bounds slot (hblocks ▸ hne)
  · intro i b hi hb
    exact h.owns_eq_false_of_ne hi (howns b ▸ hb)
  · intro b
    rw [h.test_iff, howns]
    constructor
    · rintro (hb | ⟨i, hi⟩)
      · exact Or.inl hb
      · by_cases hslot : i = slot
        · exact Or.inr (Or.inl (hslot ▸ hi))
        · exact Or.inr (Or.inr ⟨i, hslot, hi⟩)
    · rintro (hb | hb | ⟨i, -, hi⟩)
      · exact Or.inl hb
      · exact Or.inr ⟨slot, hb⟩
      · exact Or.inr ⟨i, hi⟩

end Allocated

end BlockVolume
