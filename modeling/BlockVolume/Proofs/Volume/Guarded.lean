import BlockVolume.Proofs.Handle.Pool
import BlockVolume.Volume.Basic

/-!
# `Proofs.Volume.Guarded` — handles that are in order

What holds of the open files of every volume, whatever its device and its blocks are like: a writer is
alone on its entry, the entry is a file, and there is no open file unless the volume is mounted.

## Contents
- **`Guarded`**, with `Guarded.of_files` for changes that open nothing and **`Guarded.of_acquire`** for one
  that does.
-/

namespace BlockVolume.Volume

variable {δ : Type} {v w : Volume δ}

/-- Each open file belongs to a file, a writer shares its file with nobody, and a volume that is not mounted
has no open file. -/
structure Guarded (v : Volume δ) : Prop where
  exclusive {p q : Place} {f g : OpenFile} : v.handles.fileAt? p = some f →
    v.handles.fileAt? q = some g → f.slot = g.slot → f.mode = .write → p = q
  kind {p : Place} {f : OpenFile} : v.handles.fileAt? p = some f → (v.directory.get f.slot).kind = .file
  closed : v.mounted = false → ∀ p, v.handles.fileAt? p = none

namespace Guarded

theorem of_no_files (h : ∀ p, v.handles.fileAt? p = none) : v.Guarded where
  exclusive hp := by rw [h] at hp; cases hp
  kind hp := by rw [h] at hp; cases hp
  closed _ := h

/-- What is open now was open before for the same, and belongs to a file. -/
theorem of_files (h : v.Guarded) (hmounted : w.mounted = v.mounted)
    (hfiles : ∀ p f', w.handles.fileAt? p = some f' → ∃ f, v.handles.fileAt? p = some f ∧
      f'.slot = f.slot ∧ f'.mode = f.mode ∧ (w.directory.get f'.slot).kind = .file) : w.Guarded := by
  refine ⟨?_, ?_, ?_⟩
  · intro p q f' g' hp hq hs hm
    obtain ⟨f, hf, hfs, hfm, -⟩ := hfiles p f' hp
    obtain ⟨g, hg, hgs, -, -⟩ := hfiles q g' hq
    exact h.exclusive hf hg (hfs.symm.trans (hs.trans hgs)) (hfm ▸ hm)
  · intro p f' hp
    obtain ⟨f, -, -, -, hk⟩ := hfiles p f' hp
    exact hk
  · intro hnot p
    rw [hmounted] at hnot
    apply Option.eq_none_iff_forall_not_mem.mpr
    intro f' hf'
    obtain ⟨f, hf, -⟩ := hfiles p f' hf'
    rw [h.closed hnot p] at hf
    cases hf

/-- A handle that is open is one to a mounted volume. -/
theorem mounted_of_file? (h : v.Guarded) {hd : Handle} {f : OpenFile} (hf : v.handles.file? hd = some f) :
    v.mounted = true := by
  cases hm : v.mounted with
  | true => rfl
  | false =>
    have hp := Pool.fileAt?_of_file? hf
    rw [h.closed hm hd.place] at hp
    cases hp

/-- An unused slot is nobody's. -/
theorem slot_ne_of_isEmpty (h : v.Guarded) {slot : Slot} (he : (v.directory.get slot).isEmpty = true) :
    ∀ p f, v.handles.fileAt? p = some f → f.slot ≠ slot := by
  rintro p f hp rfl
  have hempty : (v.directory.get f.slot).kind = .empty := by simpa [Entry.isEmpty] using he
  cases (h.kind hp).symm.trans hempty

/-- A file is opened that nobody else may write. -/
theorem of_acquire (h : v.Guarded) {slot : Slot} {mode : Mode} {hd : Handle} {handles : Pool}
    (hm : v.mounted = true) (hk : (v.directory.get slot).isFile = true)
    (hconf : v.handles.conflicts slot mode = false)
    (ha : v.handles.acquire? (OpenFile.start slot mode) = some (hd, handles)) :
    Guarded { v with handles := handles } := by
  have hconf' := Pool.conflicts_eq_false.mp hconf
  refine ⟨?_, ?_, fun hnot => by cases hm.symm.trans hnot⟩
  · intro p q f g hp hq hs hmode
    rcases Pool.file_of_acquire? ha hp with ⟨rfl, rfl⟩ | hf <;>
      rcases Pool.file_of_acquire? ha hq with ⟨rfl, rfl⟩ | hg
    · rfl
    · obtain ⟨hr, -⟩ := hconf' q g hg hs.symm
      cases hmode.symm.trans hr
    · obtain ⟨-, hr⟩ := hconf' p f hf hs
      cases hmode.symm.trans hr
    · exact h.exclusive hf hg hs hmode
  · intro p f hp
    rcases Pool.file_of_acquire? ha hp with ⟨-, rfl⟩ | hf
    · simpa [Entry.isFile, OpenFile.start] using hk
    · exact h.kind hf

end Guarded

end BlockVolume.Volume
