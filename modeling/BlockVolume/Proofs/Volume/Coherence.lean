import BlockVolume.Proofs.Volume.Leaving

/-!
# `Proofs.Volume.Coherence` — caches agree with the device and with each other

No cache is told when the device changes, or when another handle does. It need not be: what a handle holds is a block of
its own file, only a writer changes blocks of a file, and a writer shares its file with nobody. So a clean cache is as
good as the block itself, wherever requests have failed on the way, and where it is not clean nobody else holds the block.

## Contents
- **`Sound.modes_of_shared`**: handles that hold the same block only read.
- **`Reached.coherence`**, with a run in which a description cannot be stored and a dirty cache stays.
-/

namespace BlockVolume.Volume

open BlockVolume.Action Metered Space

section

variable {δ : Type} [BlockDevice δ] [LawfulDevice δ] {v : Volume δ}

/-- Different handles that hold the same block are both open for reading. -/
theorem Sound.modes_of_shared (h : v.Sound) {p q : Place} (hne : p ≠ q) {f g : OpenFile} {b : Nat}
    (hp : v.handles.fileAt? p = some f) (hq : v.handles.fileAt? q = some g) (hf : f.cache.block = some b)
    (hg : g.cache.block = some b) : f.mode = .read ∧ g.mode = .read := by
  -- the block belongs to one file, so both handles are handles to it
  have hslot : f.slot = g.slot := h.allocated.run_disjoint ((h.coherent hp).owned hf) ((h.coherent hq).owned hg)
  constructor
  · cases hm : f.mode with
    | read => rfl
    | write => exact absurd (h.exclusive hp hq hslot hm) hne
  · cases hm : g.mode with
    | read => rfl
    | write => exact absurd (h.exclusive hq hp hslot.symm hm).symm hne

/-- **In a volume that was reached the caches are coherent.** A handle holds blocks of its own file only; a clean cache
is the block on the device; a dirty one belongs to a writer and is of some block; and a block that two handles hold is
held by handles that only read. -/
theorem Reached.coherence (h : Reached v) :
    (∀ p f b, v.handles.fileAt? p = some f → f.cache.block = some b →
      (v.directory.get f.slot).firstBlock.toNat ≤ b ∧
        b < (v.directory.get f.slot).firstBlock.toNat + (v.directory.get f.slot).blocks.toNat) ∧
    (∀ p f b, v.handles.fileAt? p = some f → f.cache.block = some b → f.cache.dirty = false →
      f.cache.data = content v.device b) ∧
    (∀ p f, v.handles.fileAt? p = some f → f.cache.dirty = true → f.mode = .write ∧ ∃ b, f.cache.block = some b) ∧
    ∀ p q f g b, p ≠ q → v.handles.fileAt? p = some f → v.handles.fileAt? q = some g → f.cache.block = some b →
      g.cache.block = some b → f.mode = .read ∧ g.mode = .read := by
  have hv := h.sound
  refine ⟨fun p f b hp hb => ?_, fun p f b hp => (hv.coherent hp).clean, fun p f hp hdirty => ?_,
    fun p q f g b hne => hv.modes_of_shared hne⟩
  · exact owns_iff.mp ((hv.coherent hp).owned hb)
  · obtain ⟨hmode, hblock⟩ := (hv.coherent hp).dirty hdirty
    exact ⟨hmode, Option.isSome_iff_exists.mp hblock⟩

/-- A device that takes no more writes does not take the description, and the open file stays as it is. -/
theorem flush_alone {v : Volume (Metered δ)} {hd : Handle} {f : OpenFile} {e : Entry} (h : v.Alone hd f e)
    (ha : v.device.Allows 0) : (flush : VolumeAction (Metered δ) Unit).Ensures v fun r w =>
      r = .error (.io .ioError) ∧ w.Alone hd f e := by
  apply (flush_refused h.mounted ha).mono
  rintro r w ⟨rfl, d, rfl, -⟩
  exact ⟨rfl, h.mounted, h.file, h.others, h.directory⟩

omit [LawfulDevice δ] in
theorem after_flush (v : Volume δ) : Operation.flush.after v = (flush v).state := rfl

end

/-- A file is written, and the device refuses the description of the volume that is to be stored then. The cache of the
handle is dirty still, so it is one for writing, and the block in it is the one that the file has. -/
theorem coherence_of_refused_flush : ∃ hd,
    let v := run [.openPath "/a" .write, .write hd [1, 2, 3], .flush] (formatted wornDisk)
    (flush (run [.openPath "/a" .write, .write hd [1, 2, 3]] (formatted wornDisk))).result = .error (.io .ioError) ∧
      Reached v ∧ ∃ f b, v.handles.fileAt? hd.place = some f ∧ f.cache.block = some b ∧ f.cache.dirty = true ∧
        f.mode = .write ∧ (v.directory.get f.slot).firstBlock.toNat ≤ b := by
  obtain ⟨hbegun, hd, hallows, halone⟩ := unsaved_of_allows (Nat.le_of_eq deviceSize_wornDisk.symm) allows_wornDisk
    (List.cons_ne_nil 1 [2, 3]) (by decide)
  obtain ⟨hrefused, hnext⟩ := flush_alone halone hallows
  rw [← after_flush, ← run_concat] at hnext
  simp only [List.cons_append, List.nil_append] at hnext
  have hreached : Reached (run [.openPath "/a" .write, .write hd [1, 2, 3], .flush] (formatted wornDisk)) :=
    ⟨_, _, hbegun, orderly_of_not_mem (by simp), rfl⟩
  have hfile := Pool.fileAt?_of_file? hnext.file
  obtain ⟨hrange, -, hdirty, -⟩ := hreached.coherence
  exact ⟨hd, hrefused, hreached, _, firstDataBlock, hfile, rfl, rfl, (hdirty _ _ hfile rfl).1,
    (hrange _ _ _ hfile rfl).1⟩

end BlockVolume.Volume
