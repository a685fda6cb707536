import BlockVolume.Proofs.Namespace.Name

/-!
# `Proofs.Namespace.Lookup` — searching the table

## Contents
- **`findSlot?_eq_some`** and **`findSlot?_eq_none`**: what a search that stops, or does not, says of the table.
- `freeSlot?` and `find?` as searches.
- **`find?_set`**, **`find?_of_only`** and **`find?_eq_none_of_nul`**: what is found after an entry was added, what is
  found where there is no other, and what never is; `answers_ofName`: what a new entry answers to.
- `hasChildren_eq_true`: whether something lies below a directory.
-/

namespace BlockVolume.Directory

variable {d : Directory} {p : Entry → Bool} {slot : Slot}

/-- A search yields a slot whose entry satisfies the predicate. -/
theorem findSlot?_eq_some (h : d.findSlot? p = some slot) : p (d.get slot) = true :=
  List.find?_some (p := fun slot => p (d.get slot)) h

/-- A search yields nothing just if no entry satisfies the predicate. -/
theorem findSlot?_eq_none : d.findSlot? p = none ↔ ∀ slot, p (d.get slot) = false := by
  simp [findSlot?, List.find?_eq_none]

theorem isEmpty_of_freeSlot? (h : d.freeSlot? = some slot) : (d.get slot).isEmpty = true :=
  findSlot?_eq_some h

/-- What is found at a path answers to it. -/
theorem answers_of_find? {path : String} (h : d.find? path = some slot) :
    answers (d.get slot) path = true :=
  findSlot?_eq_some h

/-- Where nothing is found at a path, no entry in use has the path as its name. -/
theorem name_ne_of_find? {path : String} (h : d.find? path = none) (hused : (d.get slot).isEmpty = false) :
    (d.get slot).name ≠ path := by
  intro hname
  have hno : answers (d.get slot) path = false := findSlot?_eq_none.mp h slot
  simp [answers, hused, hname] at hno

/-- A path with a NUL is never found, since no name holds one. -/
theorem find?_eq_none_of_nul {path : String} (h : '\x00' ∈ path.toList) (d : Directory) :
    d.find? path = none := by
  apply findSlot?_eq_none.mpr
  intro slot
  have hnul := Entry.nul_not_mem_name (d.get slot)
  have hname : (d.get slot).name ≠ path := fun he => hnul (he ▸ h)
  have hslash : path.toList ≠ '/' :: (d.get slot).name.toList := by
    intro he
    rw [he, List.mem_cons] at h
    exact hnul (h.resolve_left (by decide))
  simp [answers, hname, hslash]

/-- A new entry answers to its path. -/
theorem answers_ofName {text : String} {kind : EntryKind} (hfits : text.utf8ByteSize ≤ maxPathBytes)
    (hnul : '\x00' ∉ text.toList) (hk : kind ≠ .empty) : answers (Entry.ofName text kind) text = true := by
  have hname : (Entry.ofName text kind).name = text := by
    rw [Entry.name_ofName hfits, Text.untilNul_eq_self hnul]
  rw [answers, Entry.isEmpty_ofName text hk, hname, decide_eq_true rfl]
  rfl

/-- An entry that answers to a path to which no other answers is found there. -/
theorem find?_set {path : String} {e : Entry} (hnone : d.find? path = none) (he : answers e path = true) :
    (d.set slot e).find? path = some slot := by
  cases h : (d.set slot e).find? path with
  | none =>
    have hno : answers ((d.set slot e).get slot) path = false := findSlot?_eq_none.mp h slot
    rw [get_set, if_pos rfl, he] at hno
    cases hno
  | some i =>
    have hi := answers_of_find? h
    -- another entry was there before and would have been found already
    by_cases hslot : i = slot
    · rw [hslot]
    · have hno : answers (d.get i) path = false := findSlot?_eq_none.mp hnone i
      rw [get_set, if_neg hslot, hno] at hi
      cases hi

/-- The only entry in use is found at the paths that it answers to. -/
theorem find?_of_only {path : String} (hothers : ∀ i, i ≠ slot → (d.get i).isEmpty = true)
    (he : answers (d.get slot) path = true) : d.find? path = some slot := by
  cases h : d.find? path with
  | none =>
    have hno : answers (d.get slot) path = false := findSlot?_eq_none.mp h slot
    cases he.symm.trans hno
  | some i =>
    have hi := answers_of_find? h
    by_cases hslot : i = slot
    · rw [hslot]
    · rw [answers, hothers i hslot] at hi
      cases hi

/-- A directory has children if some entry in use lies below it. -/
theorem hasChildren_eq_true {dir : String} : d.hasChildren dir = true ↔
    ∃ slot, (d.get slot).isEmpty = false ∧ Path.isDirectChild dir (d.get slot).name = true := by
  simp only [hasChildren, Vector.any_eq_true, Bool.and_eq_true, Bool.not_eq_true']
  exact ⟨fun ⟨i, hi, h⟩ => ⟨⟨i, hi⟩, h⟩, fun ⟨slot, h⟩ => ⟨slot.val, slot.isLt, h⟩⟩

/-! ## The table without entries -/

theorem find?_empty (path : String) : empty.find? path = none := by
  apply findSlot?_eq_none.mpr
  intro slot
  simp [answers, empty, get, Entry.unused, Entry.isEmpty]

theorem freeSlot?_empty : empty.freeSlot? = some 0 := by
  decide

end BlockVolume.Directory
