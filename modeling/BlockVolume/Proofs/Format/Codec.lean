import BlockVolume.Directory
import BlockVolume.Superblock

/-!
# `Proofs.Format.Codec` — what is written is read back

Superblock and directory are decoded from blocks byte by byte. Here each is shown to come back from
the blocks that it was encoded into.

## Contents
- **`Superblock.ofBlock_toBlock`**, on `Block.word_eq` for each of the seven words.
- **`Entry.ofBlock_eq`**: an entry is read wherever its bytes stand, and `Entry.ofBlock_overlay`: where it was laid.
- **`Directory.get_foldl_decode_of_mem`**: an entry is read from the block of its slot, and
  **`Directory.foldl_decode_encode`**: a table is read back from its blocks, whatever their order.
-/

namespace BlockVolume

/-- Four bytes of a block that are those of a word are read as this word. -/
theorem Block.word_eq {b : Block} {offset : Nat} {w : UInt32}
    (h : ∀ k < 4, b.byte (offset + k) = Word.byteOf32 w k) : b.word offset = w := by
  unfold Block.word
  rw [h 1 (by decide), h 2 (by decide), h 3 (by decide)]
  have h0 := h 0 (by decide)
  rw [Nat.add_zero] at h0
  rw [h0, Word.ofBytes32_byteOf32]

/-! ## Superblocks -/

namespace Superblock

/-- The word in the `k`-th place of a superblock stands at offset `4 * k` of its block. -/
theorem word_toBlock (sb : Superblock) {k : Nat} (hk : k < 7) :
    sb.toBlock.word (4 * k) = sb.words[k]?.getD 0 := by
  apply Block.word_eq
  intro j hj
  have hi : 4 * k + j < BlockVolume.blockSize := by
    -- seven words are 28 bytes
    show 4 * k + j < 512
    omega
  rw [toBlock, Block.byte_ofFn _ hi, show (4 * k + j) / 4 = k by omega, show (4 * k + j) % 4 = j by omega]

/-- A superblock is read back from its block. -/
theorem ofBlock_toBlock (sb : Superblock) : ofBlock sb.toBlock = sb := by
  have h : ∀ {k : Nat}, k < 7 → sb.toBlock.word (4 * k) = sb.words[k]?.getD 0 := sb.word_toBlock
  have h0 : sb.toBlock.word 0 = sb.magic := h (k := 0) (by decide)
  have h1 : sb.toBlock.word 4 = sb.blockSize := h (k := 1) (by decide)
  have h2 : sb.toBlock.word 8 = sb.totalBlocks := h (k := 2) (by decide)
  have h3 : sb.toBlock.word 12 = sb.freeBlocks := h (k := 3) (by decide)
  have h4 : sb.toBlock.word 16 = sb.directoryBlock := h (k := 4) (by decide)
  have h5 : sb.toBlock.word 20 = sb.bitmapBlock := h (k := 5) (by decide)
  have h6 : sb.toBlock.word 24 = sb.firstDataBlock := h (k := 6) (by decide)
  simp only [ofBlock, h0, h1, h2, h3, h4, h5, h6]

end Superblock

/-! ## Entries -/

namespace Entry

theorem byte_nameField (e : Entry) (i : Fin nameFieldSize) : e.byte i.val = e.nameField[i] := by
  have hi : i.val < nameFieldSize := i.isLt
  simp [byte, hi]

theorem byte_kind (e : Entry) : e.byte 32 = e.kind.code := rfl

/-! The numbers of an entry stand one after the other behind its name and its kind, four bytes each. -/

theorem byte_size (e : Entry) {k : Nat} (hk : k < 4) : e.byte (33 + k) = Word.byteOf32 e.size k := by
  have h1 : ¬33 + k < nameFieldSize := by
    show ¬33 + k < 32
    omega
  rw [byte, dif_neg h1, if_neg (by omega), if_pos (by omega), Nat.add_sub_cancel_left]

theorem byte_firstBlock (e : Entry) {k : Nat} (hk : k < 4) :
    e.byte (37 + k) = Word.byteOf32 e.firstBlock k := by
  have h1 : ¬37 + k < nameFieldSize := by
    show ¬37 + k < 32
    omega
  rw [byte, dif_neg h1, if_neg (by omega), if_neg (by omega), if_pos (by omega), Nat.add_sub_cancel_left]

theorem byte_blocks (e : Entry) {k : Nat} (hk : k < 4) :
    e.byte (41 + k) = Word.byteOf32 e.blocks k := by
  have h1 : ¬41 + k < nameFieldSize := by
    show ¬41 + k < 32
    omega
  rw [byte, dif_neg h1, if_neg (by omega), if_neg (by omega), if_neg (by omega), if_pos (by omega),
    Nat.add_sub_cancel_left]

/-- An entry is read from a block wherever its bytes stand. -/
theorem ofBlock_eq {b : Block} {offset : Nat} {e : Entry}
    (h : ∀ i < entrySize, b.byte (offset + i) = e.byte i) : ofBlock b offset = e := by
  have hname : Vector.ofFn (fun i : Fin nameFieldSize => b.byte (offset + i.val)) = e.nameField := by
    apply Vector.ext
    intro i hi
    have hlt : i < 64 := Nat.lt_trans hi (by decide)
    rw [Vector.getElem_ofFn, h i hlt]
    exact e.byte_nameField ⟨i, hi⟩
  have hkind : EntryKind.ofCode (b.byte (offset + 32)) = e.kind := by
    rw [h 32 (by decide), byte_kind, EntryKind.ofCode_code]
  have hsize : b.word (offset + 33) = e.size := Block.word_eq fun k hk => by
    rw [Nat.add_assoc, h _ (by show 33 + k < 64; omega), e.byte_size hk]
  have hfirst : b.word (offset + 37) = e.firstBlock := Block.word_eq fun k hk => by
    rw [Nat.add_assoc, h _ (by show 37 + k < 64; omega), e.byte_firstBlock hk]
  have hblocks : b.word (offset + 41) = e.blocks := Block.word_eq fun k hk => by
    rw [Nat.add_assoc, h _ (by show 41 + k < 64; omega), e.byte_blocks hk]
  simp only [ofBlock, hname, hkind, hsize, hfirst, hblocks]

/-- An entry that is laid over a block is read back from there. -/
theorem ofBlock_overlay (b : Block) (e : Entry) {offset : Nat} (h : offset + entrySize ≤ blockSize) :
    ofBlock (b.overlay offset e.toList) offset = e := by
  apply ofBlock_eq
  intro i hi
  have hlt : offset + i < blockSize := Nat.lt_of_lt_of_le (Nat.add_lt_add_left hi offset) h
  have hlength : e.toList.length = entrySize := by rw [toList, List.length_map, List.length_range]
  have hcovered : offset ≤ offset + i ∧ offset + i < offset + e.toList.length :=
    ⟨Nat.le_add_right _ _, by rw [hlength]; exact Nat.add_lt_add_left hi offset⟩
  rw [Block.byte_overlay _ _ _ hlt, if_pos hcovered, Nat.add_sub_cancel_left, toList, List.getElem?_map,
    List.getElem?_range hi]
  rfl

end Entry

/-! ## Tables -/

namespace Directory

/-- Tables with the same entries are equal. -/
theorem ext_get {d d' : Directory} (h : ∀ slot, d.get slot = d'.get slot) : d = d' := by
  cases d with
  | mk u =>
    cases d' with
    | mk v =>
      congr 1
      exact Vector.ext fun i hi => h ⟨i, hi⟩

/-- The entry of a slot stands in the block of the slot, at its place there. -/
theorem byte_encode (d : Directory) (slot : Slot) (i : Fin directoryBlocks)
    (hi : slot.val / entriesPerBlock = i.val) {k : Nat} (hk : k < entrySize) :
    (d.encode i).byte (slot.val % entriesPerBlock * entrySize + k) = (d.get slot).byte k := by
  have hk' : k < 64 := hk
  have hlt : slot.val % entriesPerBlock * entrySize + k < blockSize := by
    show slot.val % 8 * 64 + k < 512
    omega
  have hdiv : (i.val * blockSize + (slot.val % entriesPerBlock * entrySize + k)) / entrySize = slot.val := by
    rw [← hi]
    show (slot.val / 8 * 512 + (slot.val % 8 * 64 + k)) / 64 = slot.val
    omega
  have hmod : (i.val * blockSize + (slot.val % entriesPerBlock * entrySize + k)) % entrySize = k := by
    rw [← hi]
    show (slot.val / 8 * 512 + (slot.val % 8 * 64 + k)) % 64 = k
    omega
  rw [encode, Block.byte_ofFn _ hlt, byte, hdiv, hmod]
  simp [get]

/-- An entry is read back from the block of its slot. -/
theorem ofBlock_encode (d : Directory) (slot : Slot) (i : Fin directoryBlocks)
    (hi : slot.val / entriesPerBlock = i.val) :
    Entry.ofBlock (d.encode i) (slot.val % entriesPerBlock * entrySize) = d.get slot :=
  Entry.ofBlock_eq fun _ hk => d.byte_encode slot i hi hk

/-- Decoding a block takes its eight entries from there. -/
theorem get_decode (d : Directory) (i : Fin directoryBlocks) (b : Block) (slot : Slot) :
    (d.decode i b).get slot =
      if slot.val / entriesPerBlock = i.val then Entry.ofBlock b (slot.val % entriesPerBlock * entrySize)
      else d.get slot := by
  simp only [decode, get, Fin.getElem_fin, Vector.getElem_ofFn]

/-- Decoding several blocks takes the entry of a slot from the block of the slot, if it is among them. -/
theorem get_foldl_decode (d : Directory) (blocks : Fin directoryBlocks → Block) (is : List (Fin directoryBlocks))
    (slot : Slot) {j : Fin directoryBlocks} (hj : slot.val / entriesPerBlock = j.val) :
    (is.foldl (fun t i => t.decode i (blocks i)) d).get slot =
      if is.any fun i => slot.val / entriesPerBlock = i.val then
        Entry.ofBlock (blocks j) (slot.val % entriesPerBlock * entrySize)
      else d.get slot := by
  -- a later block leaves what the blocks before it have decoded, so the table is generalised
  induction is generalizing d with
  | nil => simp
  | cons i rest ih =>
    rw [List.foldl_cons, ih, get_decode]
    by_cases hi : slot.val / entriesPerBlock = i.val
    · obtain rfl : i = j := Fin.ext (hi.symm.trans hj)
      simp [hi]
    · simp [hi]

/-- The block of a slot. -/
def blockOf (slot : Slot) : Fin directoryBlocks :=
  ⟨slot.val / entriesPerBlock, by
    have hslot : slot.val < 128 := slot.isLt
    show slot.val / 8 < 16
    omega⟩

/-- From all blocks of a table, in any order, each entry is decoded from the block of its slot. -/
theorem get_foldl_decode_of_mem {order : List (Fin directoryBlocks)} (hall : ∀ i, i ∈ order) (d : Directory)
    (blocks : Fin directoryBlocks → Block) (slot : Slot) :
    (order.foldl (fun t i => t.decode i (blocks i)) d).get slot =
      Entry.ofBlock (blocks (blockOf slot)) (slot.val % entriesPerBlock * entrySize) := by
  rw [get_foldl_decode d blocks order slot (j := blockOf slot) rfl,
    if_pos (List.any_eq_true.mpr ⟨blockOf slot, hall _, decide_eq_true rfl⟩)]

/-- A table is read back from all of its blocks, in any order, into any other table. -/
theorem foldl_decode_encode {order : List (Fin directoryBlocks)} (hall : ∀ i, i ∈ order) (d d' : Directory) :
    order.foldl (fun t i => t.decode i (d.encode i)) d' = d := by
  apply ext_get
  intro slot
  rw [get_foldl_decode_of_mem hall d' d.encode slot, ofBlock_encode d slot _ rfl]

end Directory

end BlockVolume
