import BlockVolume.Proofs.Volume.Sound

/-!
# `Proofs.Volume.Storage` — the blocks that describe a volume

Superblock, bitmap and directory go to the blocks below `firstDataBlock`, one write for each, and a
flush after them. If all requests are served the device describes the volume afterwards; if one is
refused some of these blocks may be new and others old, but no data block has changed.

## Contents
- **`Persisted`**: the device describes a space and a directory.
- **`writeBlocks_cases`** and **`storing_cases`**: what writing the description leaves.
-/

namespace BlockVolume

open BlockVolume.Action

/-- The blocks describe the space `s` and the directory `d`. -/
structure Persisted (blocks : Nat → Block) (s : Space) (d : Directory) : Prop where
  superblock : blocks superblockBlock = s.superblock.toBlock
  bitmap : blocks bitmapBlock = s.bitmap.toBlock
  directory (i : Fin directoryBlocks) : blocks (directoryBlock + i.val) = d.encode i

/-- A device with room for a volume has room for what describes it. -/
theorem firstDataBlock_le {n : Nat} (hn : volumeBlocks ≤ n) : firstDataBlock ≤ n :=
  Nat.le_trans (Nat.le_of_lt volumeBlocks_le_bitmapCapacity.1) hn

theorem directoryBlock_add_lt (i : Fin directoryBlocks) : directoryBlock + i.val < firstDataBlock :=
  Nat.add_lt_add_left i.isLt directoryBlock

/-- Data blocks have no part in the description. -/
theorem Persisted.congr {blocks blocks' : Nat → Block} {s : Space} {d : Directory}
    (h : Persisted blocks s d) (hb : ∀ b < firstDataBlock, blocks' b = blocks b) : Persisted blocks' s d where
  superblock := (hb _ (by decide)).trans h.superblock
  bitmap := (hb _ (by decide)).trans h.bitmap
  directory i := (hb _ (directoryBlock_add_lt i)).trans (h.directory i)

namespace Volume

variable {δ : Type} [BlockDevice δ] [LawfulDevice δ]

/-- The blocks after those of a list were laid down under their indices, the last one on top. -/
def layDown (blocks : Nat → Block) (l : List (Nat × Block)) : Nat → Block :=
  l.foldl (fun c p => Function.update c p.1 p.2) blocks

/-- Blocks that are not in the list stay. -/
theorem layDown_of_not_mem {l : List (Nat × Block)} {i : Nat} (h : i ∉ l.map Prod.fst)
    (blocks : Nat → Block) : layDown blocks l i = blocks i := by
  induction l generalizing blocks with
  | nil => rfl
  | cons p rest ih =>
    obtain ⟨hne, hrest⟩ := not_or.mp (mt List.mem_cons.mpr h)
    show layDown (Function.update blocks p.1 p.2) rest i = blocks i
    rw [ih hrest, Function.update_of_ne hne]

/-- Of a list that names no index twice each block is found under its index. -/
theorem layDown_of_mem {l : List (Nat × Block)} (hnodup : (l.map Prod.fst).Nodup) {i : Nat} {b : Block}
    (h : (i, b) ∈ l) (blocks : Nat → Block) : layDown blocks l i = b := by
  induction l generalizing blocks with
  | nil => cases h
  | cons p rest ih =>
    obtain ⟨hnot, hrest⟩ := List.nodup_cons.mp hnodup
    show layDown (Function.update blocks p.1 p.2) rest i = b
    rcases List.mem_cons.mp h with rfl | hmem
    · rw [layDown_of_not_mem hnot, Function.update_self]
    · exact ih hrest hmem _

/-- Either every block of the list is written, or a request was refused and blocks outside the list
are as before. -/
theorem writeBlocks_cases {l : List (Nat × Block)} {d : δ} {n : Nat} (hn : n ≤ deviceSize d)
    (hl : ∀ p ∈ l, p.1 < n) :
    (writeBlocks l).Ensures d fun r d' =>
      (r = .ok () ∧ content d' = layDown (content d) l ∧ Served d d') ∨
        ∃ e, r = .error e ∧ (∀ b, n ≤ b → content d' b = content d b) ∧ Refused d d' := by
  induction l generalizing d with
  | nil => exact Or.inl ⟨rfl, rfl, rfl, fun h => h⟩
  | cons p rest ih =>
    obtain ⟨i, block⟩ := p
    have hi : i < n := hl (i, block) List.mem_cons_self
    unfold writeBlocks
    refine Ensures.bind (LawfulDevice.write_cases block (Nat.lt_of_lt_of_le hi hn)) ?_ ?_
    · intro u d₁ h
      rcases h with ⟨-, hc, hs⟩ | ⟨e, he, -⟩
      · apply (ih (by rwa [deviceSize_congr hs.info]) fun q hq => hl q (List.mem_cons_of_mem _ hq)).mono
        rintro r d' (⟨rfl, hc', hs'⟩ | ⟨e, rfl, hc', hr⟩)
        · exact Or.inl ⟨rfl, by rw [hc', hc]; rfl, hs.trans hs'⟩
        · -- the block that was written has its index below the bound, as all of the list have
          refine Or.inr ⟨e, rfl, ?_, Refused.after hs hr⟩
          intro b hb
          rw [hc' b hb, hc, Function.update_of_ne (by omega)]
      · cases he
    · intro e d₁ h
      rcases h with ⟨he, -⟩ | ⟨e', he, hc, hr⟩
      · cases he
      · cases he
        exact Or.inr ⟨e, rfl, fun b _ => by rw [hc], hr⟩

/-! ## The description of a volume -/

omit [BlockDevice δ] [LawfulDevice δ] in
theorem map_fst_metadataBlocks (v : Volume δ) :
    v.metadataBlocks.map Prod.fst = List.range firstDataBlock := by
  simp only [metadataBlocks, List.map_cons, List.map_map]
  -- the blocks themselves are gone, and what is left is closed
  show superblockBlock :: bitmapBlock :: (List.finRange directoryBlocks).map (fun i => directoryBlock + i.val)
    = List.range firstDataBlock
  decide

omit [BlockDevice δ] [LawfulDevice δ] in
theorem metadataBlocks_lt (v : Volume δ) : ∀ p ∈ v.metadataBlocks, p.1 < firstDataBlock := by
  intro p hp
  have hmem : p.1 ∈ v.metadataBlocks.map Prod.fst := List.mem_map_of_mem hp
  rw [map_fst_metadataBlocks] at hmem
  exact List.mem_range.mp hmem

omit [BlockDevice δ] [LawfulDevice δ] in
/-- Laid down, the description of a volume describes it. -/
theorem persisted_layDown (v : Volume δ) (blocks : Nat → Block) :
    Persisted (layDown blocks v.metadataBlocks) v.space v.directory := by
  have hnodup : (v.metadataBlocks.map Prod.fst).Nodup := by
    rw [map_fst_metadataBlocks]
    exact List.nodup_range
  refine ⟨layDown_of_mem hnodup ?_ _, layDown_of_mem hnodup ?_ _, ?_⟩
  · exact List.mem_cons_self
  · exact List.mem_cons_of_mem _ List.mem_cons_self
  · intro i
    apply layDown_of_mem hnodup
    exact List.mem_cons_of_mem _ (List.mem_cons_of_mem _ (List.mem_map.mpr ⟨i, List.mem_finRange i, rfl⟩))

/-- Writing the description and flushing leaves the data blocks, and the description if all is served. -/
theorem storing_cases {v : Volume δ} (hn : firstDataBlock ≤ deviceSize v.device) :
    (writeBlocks v.metadataBlocks >>= fun _ => BlockDevice.flush).Ensures v.device fun r d' =>
      (∀ b, firstDataBlock ≤ b → content d' b = content v.device b) ∧
        ((r = .ok () ∧ Persisted (content d') v.space v.directory ∧ Served v.device d') ∨
          ∃ e, r = .error e ∧ Refused v.device d') := by
  refine Ensures.bind (writeBlocks_cases hn v.metadataBlocks_lt) ?_ ?_
  · intro u d₁ h
    rcases h with ⟨-, hc, hs⟩ | ⟨e, he, -⟩
    · have hkeep : ∀ b, firstDataBlock ≤ b → content d₁ b = content v.device b := by
        intro b hb
        rw [hc, layDown_of_not_mem]
        rw [map_fst_metadataBlocks, List.mem_range]
        omega
      apply (LawfulDevice.flush_cases d₁).mono
      rintro r d' ⟨hc', h⟩
      refine ⟨fun b hb => by rw [hc', hkeep b hb], ?_⟩
      rcases h with ⟨rfl, hs'⟩ | ⟨e, rfl, hr⟩
      · refine Or.inl ⟨rfl, ?_, hs.trans hs'⟩
        rw [hc', hc]
        exact v.persisted_layDown _
      · exact Or.inr ⟨e, rfl, Refused.after hs hr⟩
    · cases he
  · intro e d₁ h
    rcases h with ⟨he, -⟩ | ⟨e', he, hc, hr⟩
    · cases he
    · exact ⟨hc, Or.inr ⟨e, rfl, hr⟩⟩

end Volume

end BlockVolume
