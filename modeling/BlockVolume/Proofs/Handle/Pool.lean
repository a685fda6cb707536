import BlockVolume.Handle.Pool

/-!
# `Proofs.Handle.Pool` — the pool seen place by place

A pool is seen through `fileAt?`, the open file at a place, and through `file?`, the open file of a
handle. Each operation is said in terms of the two; after that nobody looks into a pool.

## Contents
- What `setPlace`, `modifyFile`, `acquire?`, `release?` and `reset` do to `fileAt?` and `file?`.
- **`generationAt`**, which tells the handles to a place apart, and **`file?_eq_some_iff`**.
- **`mem_files_iff`**, with `references` and `conflicts` as statements about places.
-/

namespace BlockVolume.Pool

/-- What is at a place. -/
def atPlace (p : Pool) (i : Place) : PoolPlace :=
  getElem p.places i i.isLt

/-- Replacing what is at one place leaves all others. -/
theorem atPlace_setPlace (p : Pool) (i j : Place) (s : PoolPlace) :
    (p.setPlace i s).atPlace j = if j = i then s else p.atPlace j := by
  by_cases h : j = i
  · subst h
    simp [atPlace, setPlace]
  · have hv : i.val ≠ j.val := fun hij => h (Fin.ext hij.symm)
    simp [atPlace, setPlace, h, hv]

theorem fileAt?_setPlace (p : Pool) (i j : Place) (s : PoolPlace) :
    (p.setPlace i s).fileAt? j = if j = i then s.file else p.fileAt? j :=
  (congrArg PoolPlace.file (atPlace_setPlace p i j s)).trans (apply_ite _ _ _ _)

/-- The generation of a place. -/
def generationAt (p : Pool) (i : Place) : UInt32 :=
  (p.atPlace i).generation

theorem generationAt_setPlace (p : Pool) (i j : Place) (s : PoolPlace) :
    (p.setPlace i s).generationAt j = if j = i then s.generation else p.generationAt j :=
  (congrArg PoolPlace.generation (atPlace_setPlace p i j s)).trans (apply_ite _ _ _ _)

/-- Another file at the generation of its place changes no generation. -/
theorem generationAt_setPlace_file (p : Pool) (i j : Place) (file : Option OpenFile) :
    (p.setPlace i ⟨p.generationAt i, file⟩).generationAt j = p.generationAt j := by
  rw [generationAt_setPlace]
  by_cases h : j = i
  · rw [if_pos h, h]
  · rw [if_neg h]

/-- A generation outlives the changes of the file at its place. -/
theorem generationAt_modifyFile (p : Pool) (i j : Place) (f : OpenFile → OpenFile) :
    (p.modifyFile i f).generationAt j = p.generationAt j :=
  generationAt_setPlace_file p i j _

/-- Changing a file does not close its handle. -/
theorem file?_modifyFile (p : Pool) (i : Place) (f : OpenFile → OpenFile) (h : Handle) :
    (p.modifyFile i f).file? h = if h.place = i then (p.file? h).map f else p.file? h := by
  have hg : (p.modifyFile i f).places[h.place].generation = p.places[h.place].generation :=
    generationAt_modifyFile p i h.place f
  unfold file?
  rw [hg, fileAt?_modifyFile]
  by_cases hi : h.place = i
  · subst hi
    simp only [if_true]
    split <;> rfl
  · simp only [if_neg hi]

/-- Changing the file at a place twice is changing it once. -/
theorem modifyFile_modifyFile (p : Pool) (i : Place) (f g : OpenFile → OpenFile) :
    (p.modifyFile i f).modifyFile i g = p.modifyFile i (g ∘ f) := by
  simp [modifyFile, setPlace]

/-- What a change makes of the file at its place is all that matters of it. -/
theorem modifyFile_congr {p : Pool} {i : Place} {f g : OpenFile → OpenFile} {file : OpenFile}
    (h : p.fileAt? i = some file) (hfg : f file = g file) : p.modifyFile i f = p.modifyFile i g := by
  have hf : p.places[i].file = some file := h
  simp only [modifyFile, hf, Option.map_some, hfg]

/-- A change that leaves the file at its place as it is leaves the pool. -/
theorem modifyFile_eq_self {p : Pool} {i : Place} {f : OpenFile → OpenFile} {file : OpenFile}
    (h : p.fileAt? i = some file) (hf : f file = file) : p.modifyFile i f = p := by
  have hp : p.places[i].file = some file := h
  have hs : p.places[i] = ⟨p.places[i].generation, some file⟩ := by rw [← hp]
  simp only [modifyFile, hp, Option.map_some, hf, setPlace]
  rw [← hs]
  simp

/-- The file of a handle is the one at its place. -/
theorem fileAt?_of_file? {p : Pool} {h : Handle} {file : OpenFile} (hf : p.file? h = some file) :
    p.fileAt? h.place = some file := by
  unfold file? at hf
  split at hf
  · exact hf
  · cases hf

/-- An open handle stands for the file at its place. -/
theorem file?_of_fileAt? {p : Pool} {h : Handle} {file : OpenFile} (ho : (p.file? h).isSome = true)
    (hf : p.fileAt? h.place = some file) : p.file? h = some file := by
  obtain ⟨f, hf'⟩ := Option.isSome_iff_exists.mp ho
  rw [hf', ← fileAt?_of_file? hf', hf]

@[simp] theorem fileAt?_reset (p : Pool) (i : Place) : p.reset.fileAt? i = none := by
  simp [fileAt?, reset, emptied]

/-- A new file goes to an empty place, and its handle carries the generation of the place. -/
theorem acquire?_eq_some {p p' : Pool} {file : OpenFile} {h : Handle}
    (ha : p.acquire? file = some (h, p')) :
    p.fileAt? h.place = none ∧ h.generation = (p.atPlace h.place).generation ∧
      p' = p.setPlace h.place ⟨(p.atPlace h.place).generation, some file⟩ := by
  unfold acquire? at ha
  obtain ⟨i, hi, heq⟩ := Option.map_eq_some_iff.mp ha
  obtain ⟨rfl, rfl⟩ := Prod.mk.inj heq
  exact ⟨by simpa using List.find?_some hi, rfl, rfl⟩

/-- A pool with an empty place is not full. -/
theorem isFull_eq_false {p : Pool} {i : Place} (h : p.fileAt? i = none) : p.isFull = false := by
  simp only [isFull, Vector.all_eq_false]
  exact ⟨i.val, i.isLt, by simpa [fileAt?] using h⟩

/-- A pool that is not full has a place for a new file. -/
theorem acquire?_isSome {p : Pool} (h : p.isFull = false) (file : OpenFile) :
    (p.acquire? file).isSome := by
  simp only [isFull, Vector.all_eq_false] at h
  obtain ⟨i, hi, hnone⟩ := h
  simp only [acquire?, Option.isSome_map, List.find?_isSome]
  exact ⟨⟨i, hi⟩, List.mem_finRange _, by simpa [fileAt?] using hnone⟩

/-- The new handle stands for the new file. -/
theorem file?_of_acquire? {p p' : Pool} {file : OpenFile} {h : Handle}
    (ha : p.acquire? file = some (h, p')) : p'.file? h = some file := by
  obtain ⟨-, hg, rfl⟩ := acquire?_eq_some ha
  simp [file?, fileAt?, atPlace, setPlace, hg]

/-- Releasing empties the place of the handle. -/
theorem release?_eq_some {p p' : Pool} {h : Handle} {file : OpenFile}
    (hr : p.release? h = some (file, p')) :
    p.file? h = some file ∧ p' = p.setPlace h.place (emptied (p.atPlace h.place)) := by
  unfold release? at hr
  obtain ⟨f, hf, heq⟩ := Option.map_eq_some_iff.mp hr
  obtain ⟨rfl, rfl⟩ := Prod.mk.inj heq
  exact ⟨hf, rfl⟩

/-- A handle can be released, unless it is closed. -/
theorem release?_of_file? {p : Pool} {h : Handle} {file : OpenFile} (hf : p.file? h = some file) :
    p.release? h = some (file, p.setPlace h.place (emptied (p.atPlace h.place))) := by
  rw [release?, hf, Option.map_some]
  rfl

/-- Changing a file before its handle is released changes the file that is released, and nothing else. -/
theorem release?_modifyFile {p p' : Pool} {h : Handle} {file : OpenFile} (f : OpenFile → OpenFile)
    (hr : p.release? h = some (file, p')) : (p.modifyFile h.place f).release? h = some (f file, p') := by
  obtain ⟨hf, rfl⟩ := release?_eq_some hr
  rw [release?_of_file? (by rw [file?_modifyFile, if_pos rfl, hf, Option.map_some])]
  simp [modifyFile, atPlace, setPlace, emptied]

/-! ## Handles and generations -/

/-- A handle stands for the file at its place just if it carries the generation of the place. -/
theorem file?_eq_some_iff {p : Pool} {h : Handle} {file : OpenFile} :
    p.file? h = some file ↔ p.generationAt h.place = h.generation ∧ p.fileAt? h.place = some file := by
  unfold file?
  exact Option.ite_none_right_eq_some

/-- Handles that are open at one place are one. -/
theorem handle_eq {p : Pool} {h h' : Handle} (ho : (p.file? h).isSome = true) (ho' : (p.file? h').isSome = true)
    (hplace : h.place = h'.place) : h = h' := by
  obtain ⟨_, hf⟩ := Option.isSome_iff_exists.mp ho
  obtain ⟨_, hf'⟩ := Option.isSome_iff_exists.mp ho'
  have hg := (file?_eq_some_iff.mp hf).1
  rw [hplace, (file?_eq_some_iff.mp hf').1] at hg
  cases h
  cases h'
  cases hplace
  cases hg
  rfl

/-- A handle of another generation is closed. -/
theorem file?_eq_none {p : Pool} {h : Handle} (hg : p.generationAt h.place ≠ h.generation) :
    p.file? h = none :=
  if_neg hg

/-- A new file takes an empty place, and every generation stays. -/
theorem acquire?_places {p p' : Pool} {file : OpenFile} {h : Handle} (ha : p.acquire? file = some (h, p'))
    (i : Place) : p'.fileAt? i = (if i = h.place then some file else p.fileAt? i) ∧
      p'.generationAt i = p.generationAt i := by
  obtain ⟨-, -, rfl⟩ := acquire?_eq_some ha
  exact ⟨fileAt?_setPlace _ _ _ _, generationAt_setPlace_file _ _ _ _⟩

/-- An open file is the new one or was open before. -/
theorem file_of_acquire? {p p' : Pool} {file f : OpenFile} {h : Handle} {i : Place}
    (ha : p.acquire? file = some (h, p')) (hi : p'.fileAt? i = some f) :
    (i = h.place ∧ f = file) ∨ p.fileAt? i = some f := by
  rw [(acquire?_places ha i).1] at hi
  by_cases hih : i = h.place
  · rw [if_pos hih] at hi
    exact Or.inl ⟨hih, (Option.some.inj hi).symm⟩
  · rw [if_neg hih] at hi
    exact Or.inr hi

/-- A place that is released is empty and of the next generation. -/
theorem release?_places {p p' : Pool} {file : OpenFile} {h : Handle} (hr : p.release? h = some (file, p'))
    (i : Place) : p'.fileAt? i = (if i = h.place then none else p.fileAt? i) ∧
      p'.generationAt i = p.generationAt i + if i = h.place then 1 else 0 := by
  obtain ⟨-, rfl⟩ := release?_eq_some hr
  refine ⟨fileAt?_setPlace _ _ _ _, ?_⟩
  rw [generationAt_setPlace]
  by_cases hi : i = h.place
  · rw [if_pos hi, if_pos hi, hi]
    rfl
  · rw [if_neg hi, if_neg hi, UInt32.add_zero]

/-- An open file was open before, at a place other than that of the handle. -/
theorem file_of_release? {p p' : Pool} {file f : OpenFile} {h : Handle} {i : Place}
    (hr : p.release? h = some (file, p')) (hi : p'.fileAt? i = some f) :
    i ≠ h.place ∧ p.fileAt? i = some f := by
  rw [(release?_places hr i).1] at hi
  by_cases hih : i = h.place
  · rw [if_pos hih] at hi
    cases hi
  · rw [if_neg hih] at hi
    exact ⟨hih, hi⟩

theorem generationAt_reset (p : Pool) (i : Place) : p.reset.generationAt i = p.generationAt i + 1 := by
  simp [generationAt, atPlace, reset, emptied]

/-! ## Asking about all places -/

/-- The open files are those at the places. -/
theorem mem_files_iff {p : Pool} {file : OpenFile} : file ∈ p.files ↔ ∃ i, p.fileAt? i = some file := by
  simp only [files, List.mem_filterMap, Vector.mem_toList_iff, Vector.mem_iff_getElem]
  constructor
  · rintro ⟨s, ⟨i, hi, rfl⟩, hs⟩
    exact ⟨⟨i, hi⟩, hs⟩
  · rintro ⟨i, hi⟩
    exact ⟨_, ⟨i.val, i.isLt, rfl⟩, hi⟩

/-- Where every place is empty no file is open. -/
theorem openCount_eq_zero {p : Pool} (h : ∀ i, p.fileAt? i = none) : p.openCount = 0 := by
  rw [openCount, Vector.countP_eq_zero]
  intro s hs
  obtain ⟨i, hi, rfl⟩ := Vector.mem_iff_getElem.mp hs
  have hnone : p.places[i].file = none := h ⟨i, hi⟩
  simp [hnone]

/-- No open file belongs to a slot that nothing refers to. -/
theorem references_eq_false {p : Pool} {slot : Slot} :
    p.references slot = false ↔ ∀ i file, p.fileAt? i = some file → file.slot ≠ slot := by
  simp only [references, List.any_eq_false, decide_eq_true_eq]
  constructor
  · intro h i file hi
    exact h file (mem_files_iff.mpr ⟨i, hi⟩)
  · intro h file hf
    obtain ⟨i, hi⟩ := mem_files_iff.mp hf
    exact h i file hi

/-- Opening a file conflicts with nothing just if no writer would share it. -/
theorem conflicts_eq_false {p : Pool} {slot : Slot} {mode : Mode} :
    p.conflicts slot mode = false ↔
      ∀ i file, p.fileAt? i = some file → file.slot = slot → mode = .read ∧ file.mode = .read := by
  -- a writer conflicts with everybody, a reader with writers
  cases mode with
  | write =>
    simp only [conflicts, references_eq_false]
    constructor
    · intro h i file hi hs
      exact absurd hs (h i file hi)
    · intro h i file hi hs
      cases (h i file hi hs).1
  | read =>
    simp only [conflicts, List.any_eq_false, Bool.and_eq_true, decide_eq_true_eq, not_and, true_and]
    constructor
    · intro h i file hi hs
      cases hm : file.mode with
      | read => rfl
      | write => exact absurd hm (h file (mem_files_iff.mpr ⟨i, hi⟩) hs)
    · intro h file hf hs hm
      obtain ⟨i, hi⟩ := mem_files_iff.mp hf
      have := h i file hi hs
      rw [hm] at this
      cases this

end BlockVolume.Pool
