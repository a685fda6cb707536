import BlockVolume.Space

/-!
# `Proofs.Space.Count` — bits and the number of them

How many of the first bits are set, after single bits were set or cleared.

## Contents
- **`countUsed_set`**, and **`countUsed_foldl_clear`** for a whole list of blocks.
- **`test_reserveMetadata`**: the bits of a new volume; **`countUsed_of_lowest`**: their number.
-/

namespace BlockVolume.Bitmap

theorem countUsed_succ (m : Bitmap) (n : Nat) :
    m.countUsed (n + 1) = m.countUsed n + if m.test n then 1 else 0 := by
  simp [countUsed, List.range_succ, List.countP_append, List.countP_cons]

theorem countUsed_le (m : Bitmap) (n : Nat) : m.countUsed n ≤ n := by
  simpa [countUsed] using List.countP_le_length (p := m.test) (l := List.range n)

/-- Bitmaps that agree below a bound have as many bits set there. -/
theorem countUsed_congr {m m' : Bitmap} {n : Nat} (h : ∀ i < n, m'.test i = m.test i) :
    m'.countUsed n = m.countUsed n := by
  induction n with
  | zero => rfl
  | succ n ih =>
    rw [countUsed_succ, countUsed_succ, ih fun i hi => h i (by omega), h n (by omega)]

/-- One bit more below the bound is one more in the count. -/
theorem countUsed_of_one_more {m m' : Bitmap} {i n : Nat} (hi : i < n) (hset : m'.test i = true)
    (hclear : m.test i = false) (hother : ∀ j, j ≠ i → m'.test j = m.test j) :
    m'.countUsed n = m.countUsed n + 1 := by
  induction n with
  | zero => omega
  | succ n ih =>
    rw [countUsed_succ, countUsed_succ]
    -- the bit is the last one, and the bitmaps agree below it, or it was counted before
    by_cases hin : i = n
    · subst hin
      rw [countUsed_congr fun j hj => hother j (by omega), hset, hclear]
      rfl
    · rw [ih (by omega), hother n (Ne.symm hin)]
      omega

theorem countUsed_set {m : Bitmap} {i n : Nat} (hi : i < n) (hn : n ≤ bitmapCapacity)
    (hclear : m.test i = false) : (m.set i).countUsed n = m.countUsed n + 1 := by
  have hcap : i < bitmapCapacity := by omega
  refine countUsed_of_one_more hi ?_ hclear ?_
  · simp [test_set m hcap]
  · intro j hj
    simp [test_set m hcap, hj]

/-- Clearing the blocks of a list clears these bits. -/
theorem test_foldl_clear {bs : List Nat} {m : Bitmap} (hcap : ∀ b ∈ bs, b < bitmapCapacity) (j : Nat) :
    (bs.foldl clear m).test j = (decide (j ∉ bs) && m.test j) := by
  induction bs generalizing m with
  | nil => simp
  | cons b rest ih =>
    rw [List.foldl_cons, ih fun c hc => hcap c (List.mem_cons_of_mem _ hc),
      test_clear m (hcap b List.mem_cons_self)]
    by_cases hj : j = b <;> simp [hj]

/-- Clearing bits that are set takes as many off the count. -/
theorem countUsed_foldl_clear {bs : List Nat} {m : Bitmap} {n : Nat} (hn : n ≤ bitmapCapacity)
    (hnodup : bs.Nodup) (hlt : ∀ b ∈ bs, b < n) (hset : ∀ b ∈ bs, m.test b = true) :
    (bs.foldl clear m).countUsed n + bs.length = m.countUsed n := by
  -- the bits of the rest are still set after the first one was cleared, since none is listed twice
  induction bs generalizing m with
  | nil => rfl
  | cons b rest ih =>
    have hb : b < n := hlt b List.mem_cons_self
    have hcap : b < bitmapCapacity := by omega
    obtain ⟨hnot, hrest⟩ := List.nodup_cons.mp hnodup
    have hstep : m.countUsed n = (m.clear b).countUsed n + 1 := by
      refine countUsed_of_one_more hb (hset b List.mem_cons_self) ?_ ?_
      · simp [test_clear m hcap]
      · intro j hj
        simp [test_clear m hcap, hj]
    have hkeep : ∀ c ∈ rest, (m.clear b).test c = true := by
      intro c hc
      have hne : c ≠ b := fun he => hnot (he ▸ hc)
      simp [test_clear m hcap, hne, hset c (List.mem_cons_of_mem _ hc)]
    have := ih (m := m.clear b) hrest (fun c hc => hlt c (List.mem_cons_of_mem _ hc)) hkeep
    rw [List.foldl_cons, List.length_cons]
    omega

/-! ## New volumes -/

theorem test_foldl_set {bs : List Nat} {m : Bitmap} (hcap : ∀ b ∈ bs, b < bitmapCapacity) (j : Nat) :
    (bs.foldl set m).test j = (decide (j ∈ bs) || m.test j) := by
  induction bs generalizing m with
  | nil => simp
  | cons b rest ih =>
    rw [List.foldl_cons, ih fun c hc => hcap c (List.mem_cons_of_mem _ hc),
      test_set m (hcap b List.mem_cons_self)]
    by_cases hj : j = b <;> simp [hj]

/-- In a new volume the blocks that describe it are in use, and no others. -/
theorem test_reserveMetadata (j : Nat) : empty.reserveMetadata.test j = decide (j < firstDataBlock) := by
  have hcap : ∀ b ∈ List.range firstDataBlock, b < bitmapCapacity := by
    intro b hb
    have := List.mem_range.mp hb
    have := volumeBlocks_le_bitmapCapacity
    omega
  rw [reserveMetadata, test_foldl_set hcap]
  simp

/-- The count over a bitmap whose set bits are the lowest. -/
theorem countUsed_of_lowest {m : Bitmap} {k : Nat} (h : ∀ j, m.test j = decide (j < k)) (n : Nat) :
    m.countUsed n = min k n := by
  induction n with
  | zero => simp [countUsed]
  | succ n ih =>
    rw [countUsed_succ, ih, h n]
    by_cases hn : n < k
    · simp only [hn, decide_true, if_true]
      omega
    · simp only [hn, decide_false, Bool.false_eq_true, if_false]
      omega

end BlockVolume.Bitmap
