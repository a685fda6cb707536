import BlockVolume.Proofs.Action.Respects
import BlockVolume.Proofs.Volume.Bytes

/-!
# `Proofs.Volume.Frame` — what transfers leave alone

Moving bytes and storing the description change blocks, caches, positions, and the runs of entries. They
open and close nothing and rename nothing. Unlike soundness this needs neither a lawful device nor an
entry that fits it.

## Contents
- **`Frame`**: names, kinds, handles and what they stand for are as before, and the files at untouched
  places as well.
- `Frame.of_device`, `Frame.of_edit`, `Frame.with_entry`: the changes that leave all this.
-/

namespace BlockVolume

/-- What a file was opened for: the slot of its entry, and the mode. -/
def OpenFile.claim (f : OpenFile) : Slot × Mode := (f.slot, f.mode)

/-- What an entry is called, and what it stands for. -/
def Entry.label (e : Entry) : Vector UInt8 nameFieldSize × EntryKind := (e.nameField, e.kind)

namespace Volume

variable {δ : Type} {v w : Volume δ} {touched : Place → Prop} {p : Place}

/-- Nothing was opened, closed or renamed, and the files at places that are not touched are as they were. -/
structure Frame (touched : Place → Prop) (v w : Volume δ) : Prop where
  mounted : w.mounted = v.mounted
  label (slot : Slot) : (w.directory.get slot).label = (v.directory.get slot).label
  generation (p : Place) : w.handles.generationAt p = v.handles.generationAt p
  claim (p : Place) :
    (w.handles.fileAt? p).map OpenFile.claim = (v.handles.fileAt? p).map OpenFile.claim
  file (p : Place) : ¬touched p → w.handles.fileAt? p = v.handles.fileAt? p

instance : IsPreorder (Volume δ) (Frame touched) where
  refl _ := ⟨rfl, fun _ => rfl, fun _ => rfl, fun _ => rfl, fun _ _ => rfl⟩
  trans _ _ _ h h' := ⟨h'.mounted.trans h.mounted, fun slot => (h'.label slot).trans (h.label slot),
    fun p => (h'.generation p).trans (h.generation p), fun p => (h'.claim p).trans (h.claim p),
    fun p hp => (h'.file p hp).trans (h.file p hp)⟩

namespace Frame

/-- An open file stays the file of its slot, in its mode. -/
theorem file_cases (h : Frame touched v w) {f : OpenFile} (hp : v.handles.fileAt? p = some f) :
    ∃ f', w.handles.fileAt? p = some f' ∧ f'.slot = f.slot ∧ f'.mode = f.mode := by
  have hclaim := h.claim p
  rw [hp, Option.map_some] at hclaim
  obtain ⟨f', hf', heq⟩ := Option.map_eq_some_iff.mp hclaim
  exact ⟨f', hf', congrArg Prod.fst heq, congrArg Prod.snd heq⟩

/-- And no file is open that was not. -/
theorem file_cases_before (h : Frame touched v w) {f' : OpenFile} (hp : w.handles.fileAt? p = some f') :
    ∃ f, v.handles.fileAt? p = some f ∧ f'.slot = f.slot ∧ f'.mode = f.mode := by
  have hclaim := h.claim p
  rw [hp, Option.map_some] at hclaim
  obtain ⟨f, hf, heq⟩ := Option.map_eq_some_iff.mp hclaim.symm
  exact ⟨f, hf, (congrArg Prod.fst heq).symm, (congrArg Prod.snd heq).symm⟩

theorem of_device (d : δ) : Frame touched v { v with device := d } :=
  ⟨rfl, fun _ => rfl, fun _ => rfl, fun _ => rfl, fun _ _ => rfl⟩

/-- The file at a place that may be touched is changed. -/
theorem of_edit (hp : touched p) {g : OpenFile → OpenFile} (hg : ∀ f, (g f).claim = f.claim) :
    Frame touched v { v with handles := v.handles.modifyFile p g } where
  mounted := rfl
  label _ := rfl
  generation q := Pool.generationAt_modifyFile _ _ _ _
  claim q := by
    show ((v.handles.modifyFile p g).fileAt? q).map _ = _
    rw [Pool.fileAt?_modifyFile]
    by_cases hq : q = p
    · rw [if_pos hq, hq, Option.map_map, show OpenFile.claim ∘ g = OpenFile.claim from funext hg]
    · rw [if_neg hq]
  file q hq := by
    have hne : q ≠ p := fun he => hq (he ▸ hp)
    exact (Pool.fileAt?_modifyFile _ _ _ _).trans (if_neg hne)

/-- Besides, an entry is replaced by one of its name and kind. -/
theorem with_entry (h : Frame touched v w) {slot : Slot} {e : Entry}
    (he : e.label = (w.directory.get slot).label) (s : Space) :
    Frame touched v { w with space := s, directory := w.directory.set slot e } where
  mounted := h.mounted
  label slot' := by
    show ((w.directory.set slot e).get slot').label = _
    rw [Directory.get_set, ← h.label slot']
    by_cases hs : slot' = slot
    · rw [if_pos hs, hs, he]
    · rw [if_neg hs]
  generation := h.generation
  claim := h.claim
  file := h.file

end Frame

end Volume

end BlockVolume
