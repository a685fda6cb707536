import BlockVolume.Proofs.Format.Codec

/-!
# `Proofs.Format.Kept` — what of a block is kept

What is read from a block and written again need not be the block that was read. Bytes that say nothing come
back as zeros: those behind an entry, a kind that is none, and all that follows the words of a superblock.
Every other byte comes back as it was.

## Contents
- **`Block.tidied`**: a block of entries without the bytes that say nothing.
- `Entry.byte_ofBlock` and **`Directory.encode_decode`**: what is written of the entries that were read.
- **`Superblock.toBlock_ofBlock`**: what is written of a superblock that was read.
- `Directory.slot_of_get_decode_ne`: a block that is read changes no slots but its own eight.
- **`metadata_round_trip`**: both directions for both formats, with a table whose last slot is in use.
-/

namespace BlockVolume

namespace Word

theorem byteOf32_zero (k : Nat) : byteOf32 0 k = 0 := by
  simp [byteOf32]

end Word

namespace Block

/-- The bytes of a word are those that it was read from. -/
theorem byteOf32_word (b : Block) (offset : Nat) {k : Nat} (hk : k < 4) :
    Word.byteOf32 (b.word offset) k = b.byte (offset + k) := by
  obtain ⟨h0, h1, h2, h3⟩ := Word.byteOf32_ofBytes32 (b.byte offset) (b.byte (offset + 1)) (b.byte (offset + 2))
    (b.byte (offset + 3))
  match k, hk with
  | 0, _ => exact h0
  | 1, _ => exact h1
  | 2, _ => exact h2
  | 3, _ => exact h3

/-- A block that begins with some bytes is zero behind them. -/
theorem byte_ofBytes (data : List UInt8) {i : Nat} (hi : i < blockSize) : (ofBytes data).byte i = data[i]?.getD 0 := by
  rw [ofBytes, byte_overlay _ _ _ hi, byte_zero, Nat.sub_zero]
  split
  · rfl
  · rename_i hout
    rw [List.getElem?_eq_none (by omega), Option.getD_none]

/-- The block of entries in which a kind that is none is zero, and so is what stands behind the numbers of
each entry. -/
def tidied (b : Block) : Block :=
  ofFn fun i =>
    if i % entrySize = 32 then (if b.byte i = 1 ∨ b.byte i = 2 then b.byte i else 0)
    else if i % entrySize < 45 then b.byte i
    else 0

end Block

/-! ## Entries -/

theorem EntryKind.code_ofCode (c : UInt8) : (ofCode c).code = if c = 1 ∨ c = 2 then c else 0 := by
  unfold ofCode
  by_cases h1 : c = 1
  · simp [h1, code]
  · by_cases h2 : c = 2
    · simp [h2, code]
    · simp [h1, h2, code]

namespace Entry

theorem byte_of_ge (e : Entry) {k : Nat} (hk : 45 ≤ k) : e.byte k = 0 := by
  have hname : ¬k < nameFieldSize := by
    show ¬k < 32
    omega
  rw [byte, dif_neg hname, if_neg (by omega), if_neg (by omega), if_neg (by omega), if_neg (by omega)]

/-- An entry has the bytes that it was read from, a kind that is none excepted. -/
theorem byte_ofBlock (b : Block) (offset : Nat) {k : Nat} (hk : k < 45) :
    (ofBlock b offset).byte k =
      if k = 32 then (EntryKind.ofCode (b.byte (offset + k))).code else b.byte (offset + k) := by
  -- the name, the kind and the three numbers, in the order in which they stand
  by_cases hname : k < 32
  · rw [if_neg (by omega), (ofBlock b offset).byte_nameField ⟨k, hname⟩]
    simp [ofBlock]
  by_cases hkind : k = 32
  · rw [hkind, if_pos rfl, byte_kind, ofBlock]
  rw [if_neg hkind]
  by_cases hsize : k < 37
  · obtain ⟨j, rfl⟩ := Nat.exists_eq_add_of_le (show 33 ≤ k by omega)
    rw [byte_size _ (by omega), ← Nat.add_assoc]
    exact b.byteOf32_word _ (by omega)
  by_cases hfirst : k < 41
  · obtain ⟨j, rfl⟩ := Nat.exists_eq_add_of_le (show 37 ≤ k by omega)
    rw [byte_firstBlock _ (by omega), ← Nat.add_assoc]
    exact b.byteOf32_word _ (by omega)
  obtain ⟨j, rfl⟩ := Nat.exists_eq_add_of_le (show 41 ≤ k by omega)
  rw [byte_blocks _ (by omega), ← Nat.add_assoc]
  exact b.byteOf32_word _ (by omega)

end Entry

/-! ## Tables -/

namespace Directory

/-- Every byte of a block belongs to the entry of a slot. -/
theorem exists_slot_of_offset (i : Fin directoryBlocks) {o : Nat} (ho : o < blockSize) :
    ∃ slot : Slot, slot.val / entriesPerBlock = i.val ∧ slot.val % entriesPerBlock * entrySize + o % entrySize = o := by
  have hi : i.val < 16 := i.isLt
  have ho' : o < 512 := ho
  have hslot : i.val * 8 + o / 64 < entryCount := by
    show i.val * 8 + o / 64 < 128
    omega
  refine ⟨⟨i.val * 8 + o / 64, hslot⟩, ?_, ?_⟩
  · show (i.val * 8 + o / 64) / 8 = i.val
    omega
  · show (i.val * 8 + o / 64) % 8 * 64 + o % 64 = o
    omega

/-- A block that was read for a part of a table is written tidied. -/
theorem encode_decode (d : Directory) (i : Fin directoryBlocks) (b : Block) : (d.decode i b).encode i = b.tidied := by
  apply Block.ext_byte
  intro o ho
  obtain ⟨slot, hblock, hplace⟩ := exists_slot_of_offset i ho
  have hbyte := (d.decode i b).byte_encode slot i hblock (Nat.mod_lt o (by decide))
  rw [get_decode, if_pos hblock, hplace] at hbyte
  rw [hbyte, Block.tidied, Block.byte_ofFn _ ho]
  by_cases hkept : o % entrySize < 45
  · rw [Entry.byte_ofBlock b _ hkept, hplace, EntryKind.code_ofCode, if_pos hkept]
  · rw [Entry.byte_of_ge _ (Nat.le_of_not_lt hkept), if_neg (by omega), if_neg hkept]

/-- Reading a block changes the eight slots of its part of the table and no other. -/
theorem slot_of_get_decode_ne {d : Directory} {i : Fin directoryBlocks} {b : Block} {slot : Slot}
    (h : (d.decode i b).get slot ≠ d.get slot) :
    entriesPerBlock * i.val ≤ slot.val ∧ slot.val < entriesPerBlock * i.val + entriesPerBlock := by
  rw [get_decode] at h
  split at h
  · rename_i hblock
    rw [← hblock]
    show 8 * (slot.val / 8) ≤ slot.val ∧ slot.val < 8 * (slot.val / 8) + 8
    omega
  · exact absurd rfl h

end Directory

/-! ## Superblocks -/

namespace Superblock

/-- The words of a superblock are those that it was read from. -/
theorem words_ofBlock (b : Block) {k : Nat} (hk : k < 7) : (ofBlock b).words[k]?.getD 0 = b.word (4 * k) := by
  match k, hk with
  | 0, _ | 1, _ | 2, _ | 3, _ | 4, _ | 5, _ | 6, _ => rfl

/-- Of a block that was read as a superblock the first 28 bytes are written, and zeros behind them. -/
theorem toBlock_ofBlock (b : Block) : (ofBlock b).toBlock = Block.ofBytes (b.slice 0 28) := by
  apply Block.ext_byte
  intro o ho
  rw [toBlock, Block.byte_ofFn _ ho, Block.byte_ofBytes _ ho]
  by_cases hword : o < 28
  · rw [words_ofBlock b (by omega), b.byteOf32_word _ (Nat.mod_lt o (by decide)), Nat.div_add_mod]
    simp [Block.slice, hword]
  · have hwords : (ofBlock b).words[o / 4]? = none := List.getElem?_eq_none (show 7 ≤ o / 4 by omega)
    have hbytes : (b.slice 0 28)[o]? = none := List.getElem?_eq_none (by rw [Block.length_slice]; omega)
    rw [hwords, hbytes, Option.getD_none, Option.getD_none, Word.byteOf32_zero]

end Superblock

/-! ## Both formats -/

/-- **What describes a volume is read as it was written, and written as it was read** but for the bytes that
say nothing. A table comes back from its blocks in any order, whatever table they are read into, and reading
one of them changes only its eight slots. A block that was read for a part of a table is written again with
the kinds that are none and the bytes behind the entries as zeros. A superblock comes back from its block, and
a block that was read as one is written again up to the last of the words, with zeros from there on. -/
theorem metadata_round_trip (order : List (Fin directoryBlocks)) (hall : ∀ i, i ∈ order) :
    (∀ d d' : Directory, order.foldl (fun t i => t.decode i (d.encode i)) d' = d) ∧
    (∀ (d : Directory) (i : Fin directoryBlocks) (b : Block) (slot : Slot), (d.decode i b).get slot ≠ d.get slot →
      entriesPerBlock * i.val ≤ slot.val ∧ slot.val < entriesPerBlock * i.val + entriesPerBlock) ∧
    (∀ (d : Directory) (i : Fin directoryBlocks) (b : Block), (d.decode i b).encode i = b.tidied) ∧
    (∀ sb : Superblock, Superblock.ofBlock sb.toBlock = sb) ∧
    ∀ b : Block, (Superblock.ofBlock b).toBlock = Block.ofBytes (b.slice 0 28) := by
  refine ⟨Directory.foldl_decode_encode hall, fun d i b slot => Directory.slot_of_get_decode_ne, ?_,
    Superblock.ofBlock_toBlock, Superblock.toBlock_ofBlock⟩
  exact Directory.encode_decode

/-- A table in which only the last slot is in use comes back from its blocks, the last of them first. -/
theorem metadata_round_trip_reversed :
    let d := Directory.empty.set 127 (Entry.ofName "/last" .file)
    let order := (List.finRange directoryBlocks).reverse
    (∀ i, i ∈ order) ∧ order.foldl (fun t i => t.decode i (d.encode i)) Directory.empty = d := by
  intro d order
  have hall : ∀ i, i ∈ order := fun i => List.mem_reverse.mpr (List.mem_finRange i)
  exact ⟨hall, (metadata_round_trip order hall).1 d Directory.empty⟩

end BlockVolume
