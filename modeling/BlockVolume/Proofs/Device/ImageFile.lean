import BlockVolume.Device.ImageFile
import BlockVolume.Proofs.Device.Reading
import Mathlib.Logic.Relation

/-!
# `Proofs.Device.ImageFile` — image files as devices

An image file serves every request that lies within its whole blocks, and a request changes nothing but
these blocks: neither how many there are nor what comes after them. So a file is known from its blocks
once it is known to come from another one by requests.

## Contents
- Image files are lawful and reliable; **`readOut_eq`**: reading leaves them as they are.
- **`SameShape`**, kept by requests, with **`SameShape.eq`**.
- `extend_of_le`, `extend_empty`: which files are lengthened, and to what.
-/

namespace BlockVolume.ImageFile

open BlockVolume.Action Relation

variable {file file' : ImageFile} {i n : Nat}

/-! ## Requests -/

/-- The block at an index, or zeros past the end. -/
def blockAt (file : ImageFile) (i : Nat) : Block := file.blocks[i]?.getD Block.zero

@[simp] theorem deviceSize_eq (file : ImageFile) : deviceSize file = file.blocks.size := rfl

theorem read_of_lt (h : i < file.blocks.size) : (ImageFile.read i).Ensures file fun r file' =>
    r = .ok (file.blockAt i) ∧ file' = file := by
  simp [ImageFile.read, blockAt, h]

theorem read_of_le (h : file.blocks.size ≤ i) : (ImageFile.read i).Ensures file fun r file' =>
    r = .error .outOfRange ∧ file' = file := by
  simp [ImageFile.read, h]

/-- Reading leaves the file as it is, in range or not. -/
theorem state_read (i : Nat) (file : ImageFile) : (BlockDevice.read i file).state = file := by
  rcases Nat.lt_or_ge i file.blocks.size with h | h
  · exact (read_of_lt h).2
  · exact (read_of_le h).2

/-- The file with another block at an index. -/
def put (file : ImageFile) (i : Nat) (b : Block) : ImageFile :=
  { file with blocks := file.blocks.setIfInBounds i b }

/-- A write either stores the block in range or leaves the file as it is. -/
theorem write_apply (file : ImageFile) (i : Nat) (b : Block) :
    (ImageFile.write i b).Ensures file fun r file' =>
      if i < file.blocks.size then r = .ok () ∧ file' = file.put i b else (∃ e, r = .error e) ∧ file' = file := by
  by_cases h : i < file.blocks.size <;> simp [ImageFile.write, put, h]

theorem blockAt_put (h : i < file.blocks.size) (b : Block) :
    (file.put i b).blockAt = Function.update file.blockAt i b := by
  funext j
  by_cases hj : j = i
  · subst hj
    simp [blockAt, put, h]
  · rw [Function.update_of_ne hj]
    simp [blockAt, put, Ne.symm hj]

instance : LawfulDevice ImageFile where
  content := blockAt
  read_ensures i file := by
    rcases Nat.lt_or_ge i file.blocks.size with h | h
    · apply (read_of_lt h).mono
      rintro r file' ⟨rfl, rfl⟩
      exact ⟨rfl, rfl, fun b hb => (Except.ok.inj hb).symm⟩
    · apply (read_of_le h).mono
      rintro r file' ⟨rfl, rfl⟩
      exact ⟨rfl, rfl, fun b hb => by cases hb⟩
  write_ensures i b file := by
    apply (write_apply file i b).mono
    intro r file' h
    split at h
    · rename_i hin
      obtain ⟨rfl, rfl⟩ := h
      refine ⟨?_, fun _ => blockAt_put hin b, fun e he => by cases he⟩
      simp [BlockDevice.info, put]
    · obtain ⟨⟨e, rfl⟩, rfl⟩ := h
      exact ⟨rfl, fun he => (by cases he), fun _ _ => rfl⟩
  flush_ensures file := ⟨rfl, rfl⟩

/-- An image file refuses no request in range, whatever is in it. -/
theorem reliable (file : ImageFile) : Reliable file := by
  refine ⟨fun _ => True, ⟨fun {file i} _ hi => ?_, fun {file i} b _ hi => ?_, fun _ => ⟨rfl, trivial⟩⟩, trivial⟩
  · exact (read_of_lt hi).mono fun r file' hr => ⟨⟨_, hr.1⟩, trivial⟩
  · apply (write_apply file i b).mono
    intro r file' hr
    rw [deviceSize_eq] at hi
    rw [if_pos hi] at hr
    exact ⟨hr.1, trivial⟩

/-- Reading leaves the file as it is, however much is read. -/
theorem readOut_eq (is : List Nat) (file : ImageFile) : readOut is file = file := by
  induction is with
  | nil => rfl
  | cons i is ih =>
    rw [readOut, List.foldl_cons, state_read]
    exact ih

/-! ## What requests leave -/

/-- The files have equally many blocks, and the same bytes after them. -/
structure SameShape (file file' : ImageFile) : Prop where
  size : file'.blocks.size = file.blocks.size
  tail : file'.tail = file.tail

theorem sameShape_of_asked (h : Asked file file') : SameShape file file' := by
  cases h with
  | read i =>
    rw [state_read]
    exact ⟨rfl, rfl⟩
  | write i b =>
    have hwrite : (BlockDevice.write i b).Ensures file fun _ file' => SameShape file file' := by
      apply (write_apply file i b).mono
      intro r file' hr
      split at hr <;> rw [hr.2]
      · exact ⟨Array.size_setIfInBounds, rfl⟩
      · exact ⟨rfl, rfl⟩
    exact hwrite
  | flush => exact ⟨rfl, rfl⟩

/-- Requests keep the shape of a file. -/
theorem sameShape_of_requests (h : ReflTransGen Asked file file') : SameShape file file' := by
  induction h with
  | refl => exact ⟨rfl, rfl⟩
  | tail _ ha ih =>
    have hlast := sameShape_of_asked ha
    exact ⟨hlast.size.trans ih.size, hlast.tail.trans ih.tail⟩

/-- Files of one shape are the same if their blocks are. -/
theorem SameShape.eq (h : SameShape file file') (hblocks : content file' = content file) : file' = file := by
  obtain ⟨hsize, htail⟩ := h
  cases file with
  | mk blocks tail =>
    cases file' with
    | mk blocks' tail' =>
      congr 1
      apply Array.ext hsize
      intro i hi hi'
      have hi := congrFun hblocks i
      simpa [content, blockAt, *] using hi

/-! ## Lengthening -/

/-- A file that is long enough is not lengthened. -/
theorem extend_of_le (h : n ≤ file.blocks.size) : file.extend n = file := by
  have hle : n * blockSize ≤ file.blocks.size * blockSize := Nat.mul_le_mul_right _ h
  refine if_neg (Nat.not_lt.mpr ?_)
  exact Nat.le_trans hle (Nat.le_add_right _ _)

/-- A file without any byte becomes one of zeros. -/
theorem extend_empty (hn : 0 < n) : (empty.extend n).blocks = Array.replicate n Block.zero := by
  have hlt : empty.size < n * blockSize := Nat.mul_pos hn (by decide)
  have hblocks : (empty.extend n).blocks = #[Block.zero] ++ Array.replicate (n - 1) Block.zero :=
    congrArg ImageFile.blocks (if_pos hlt)
  have hone : #[Block.zero] = Array.replicate 1 Block.zero := by simp
  have hcount : 1 + (n - 1) = n := by omega
  rw [hblocks, hone, Array.replicate_append_replicate, hcount]

theorem deviceSize_extend_empty (hn : 0 < n) : deviceSize (empty.extend n) = n := by
  rw [deviceSize_eq, extend_empty hn, Array.size_replicate]

theorem content_extend_empty (hn : 0 < n) (i : Nat) : content (empty.extend n) i = Block.zero := by
  have hblock (file : ImageFile) (h : file.blocks = Array.replicate n Block.zero) : content file i = Block.zero := by
    show file.blocks[i]?.getD Block.zero = _
    rw [h, Array.getElem?_replicate]
    split <;> rfl
  exact hblock _ (extend_empty hn)

end BlockVolume.ImageFile
