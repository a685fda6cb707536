import BlockVolume.Volume.Contents
import BlockVolume.Proofs.Device.Lawful
import BlockVolume.Proofs.Space.Allocated
import BlockVolume.Proofs.Volume.Guarded

/-!
# `Proofs.Volume.Sound` — what holds of a volume between its steps

Beside the agreement of space and directory a volume keeps its open files in order. Each belongs to a
file, stays within it, and holds in its cache a block of this file: a clean cache is a copy of the
block on the device, and a dirty one belongs to a writer, which shares its file with nobody.

## Contents
- **`OpenFile.Coherent`**: what holds of one open file; **`Volume.Sound`**: what holds of the volume.
- **`Sound.of_files`** and **`Sound.of_edit`**: a change that keeps every open file coherent keeps the
  volume sound.
-/

namespace BlockVolume

open Space

/-- A cache has to be written back just if it is dirty and of a block. -/
theorem Cache.pending?_eq_some {c : Cache} {b : Nat} :
    c.pending? = some b ↔ c.dirty = true ∧ c.block = some b := by
  unfold Cache.pending?
  cases c.dirty <;> simp

/-! ## One open file -/

/-- The open file `f` fits its entry `e` and the blocks of the device. -/
structure OpenFile.Coherent (blocks : Nat → Block) (e : Entry) (f : OpenFile) : Prop where
  kind : e.kind = .file
  position_le : f.position ≤ e.size.toNat
  owned {b : Nat} : f.cache.block = some b → owns e b = true
  clean {b : Nat} : f.cache.block = some b → f.cache.dirty = false → f.cache.data = blocks b
  dirty : f.cache.dirty = true → f.mode = .write ∧ f.cache.block.isSome = true

namespace OpenFile.Coherent

variable {blocks blocks' : Nat → Block} {e e' : Entry} {f : OpenFile}

/-- A file opened just now is at its beginning and holds no block. -/
theorem start (slot : Slot) (mode : Mode) (hk : e.kind = .file) :
    (OpenFile.start slot mode).Coherent blocks e where
  kind := hk
  position_le := Nat.zero_le _
  owned h := by cases h
  clean h := by cases h
  dirty h := by cases h

/-- Only the blocks of the file matter. -/
theorem of_blocks (h : f.Coherent blocks e) (hb : ∀ b, owns e b = true → blocks' b = blocks b) :
    f.Coherent blocks' e where
  kind := h.kind
  position_le := h.position_le
  owned := h.owned
  clean hf hd := (h.clean hf hd).trans (hb _ (h.owned hf)).symm
  dirty := h.dirty

/-- The entry may gain bytes and blocks. -/
theorem of_entry (h : f.Coherent blocks e) (hk : e'.kind = e.kind) (hs : e.size.toNat ≤ e'.size.toNat)
    (ho : ∀ b, owns e b = true → owns e' b = true) : f.Coherent blocks e' where
  kind := hk.trans h.kind
  position_le := Nat.le_trans h.position_le hs
  owned hf := ho _ (h.owned hf)
  clean := h.clean
  dirty := h.dirty

/-- A cache that is not dirty has nothing to write back, and the other way round. -/
theorem pending?_eq_none (h : f.Coherent blocks e) : f.cache.pending? = none ↔ f.cache.dirty = false := by
  unfold Cache.pending?
  cases hd : f.cache.dirty with
  | false => simp
  | true =>
    obtain ⟨b, hb⟩ := Option.isSome_iff_exists.mp (h.dirty hd).2
    simp [hb]

/-- Only a writer has something to write back. -/
theorem mode_of_pending (h : f.Coherent blocks e) {b : Nat} (hp : f.cache.pending? = some b) :
    f.mode = .write :=
  (h.dirty (Cache.pending?_eq_some.mp hp).1).1

theorem owned_of_pending (h : f.Coherent blocks e) {b : Nat} (hp : f.cache.pending? = some b) :
    owns e b = true :=
  h.owned (Cache.pending?_eq_some.mp hp).2

end OpenFile.Coherent

/-! ## The volume -/

namespace Volume

variable {δ : Type} [BlockDevice δ] [LawfulDevice δ]

/-- What holds of a volume, formatted once on a large enough device, between any two of its steps. -/
structure Sound (v : Volume δ) : Prop where
  allocated : Allocated v.space v.directory
  size_le : volumeBlocks ≤ deviceSize v.device
  coherent {p : Place} {f : OpenFile} : v.handles.fileAt? p = some f →
    f.Coherent (content v.device) (v.directory.get f.slot)
  exclusive {p q : Place} {f g : OpenFile} : v.handles.fileAt? p = some f →
    v.handles.fileAt? q = some g → f.slot = g.slot → f.mode = .write → p = q
  closed : v.mounted = false → ∀ p, v.handles.fileAt? p = none

namespace Sound

variable {v w : Volume δ}

/-- The handles of a sound volume are in order. -/
theorem guarded (h : v.Sound) : v.Guarded :=
  ⟨h.exclusive, fun hp => (h.coherent hp).kind, h.closed⟩

/-- A change that keeps each open file the file of its slot, in its mode and coherent, keeps the rest. -/
theorem of_files (h : v.Sound) (hall : Allocated w.space w.directory)
    (hsize : deviceSize w.device = deviceSize v.device) (hmounted : w.mounted = v.mounted)
    (hfiles : ∀ p f', w.handles.fileAt? p = some f' → ∃ f, v.handles.fileAt? p = some f ∧
      f'.slot = f.slot ∧ f'.mode = f.mode ∧ f'.Coherent (content w.device) (w.directory.get f'.slot)) :
    w.Sound := by
  have hguarded : w.Guarded := h.guarded.of_files hmounted fun p f' hp =>
    let ⟨f, hf, hs, hm, hc⟩ := hfiles p f' hp
    ⟨f, hf, hs, hm, hc.kind⟩
  refine ⟨hall, by rw [hsize]; exact h.size_le, ?_, hguarded.exclusive, hguarded.closed⟩
  intro p f' hp
  obtain ⟨f, -, -, -, hc⟩ := hfiles p f' hp
  exact hc

/-- A change of the file at one place has to keep this file coherent, and the others with it. -/
theorem of_edit (h : v.Sound) {p : Place} {f : OpenFile} {g : OpenFile → OpenFile}
    (hp : v.handles.fileAt? p = some f) (hw : w.handles = v.handles.modifyFile p g)
    (hslot : (g f).slot = f.slot) (hmode : (g f).mode = f.mode) (hall : Allocated w.space w.directory)
    (hsize : deviceSize w.device = deviceSize v.device) (hmounted : w.mounted = v.mounted)
    (hfile : (g f).Coherent (content w.device) (w.directory.get f.slot))
    (hothers : ∀ q f', q ≠ p → v.handles.fileAt? q = some f' →
      f'.Coherent (content w.device) (w.directory.get f'.slot)) : w.Sound := by
  apply h.of_files hall hsize hmounted
  intro q f' hq
  -- the file at the place is the changed one, and all others are where they were
  rw [hw, Pool.fileAt?_modifyFile] at hq
  by_cases hqp : q = p
  · subst hqp
    rw [if_pos rfl, hp] at hq
    obtain rfl : g f = f' := Option.some.inj hq
    exact ⟨f, hp, hslot, hmode, hslot ▸ hfile⟩
  · rw [if_neg hqp] at hq
    exact ⟨f', hq, rfl, rfl, hothers q f' hqp hq⟩

/-- Without open files only space and directory count. -/
theorem of_no_files (hall : Allocated w.space w.directory) (hsize : volumeBlocks ≤ deviceSize w.device)
    (hnone : ∀ p, w.handles.fileAt? p = none) : w.Sound where
  allocated := hall
  size_le := hsize
  coherent hp := by rw [hnone] at hp; cases hp
  exclusive hp := by rw [hnone] at hp; cases hp
  closed _ := hnone

/-- A block of a file lies past the blocks that describe the volume and on the device. -/
theorem owned_bounds (h : v.Sound) {slot : Slot} {b : Nat} (hb : owns (v.directory.get slot) b = true) :
    firstDataBlock ≤ b ∧ b < deviceSize v.device := by
  obtain ⟨hlow, hhigh⟩ := h.allocated.owned_bounds hb
  exact ⟨hlow, Nat.lt_of_lt_of_le hhigh h.size_le⟩

/-- A file whose block is pending elsewhere is open in this one place. -/
theorem pending_unique (h : v.Sound) {p q : Place} {f g : OpenFile} {b : Nat}
    (hp : v.handles.fileAt? p = some f) (hq : v.handles.fileAt? q = some g)
    (hpend : f.cache.pending? = some b) (hown : owns (v.directory.get g.slot) b = true) : p = q := by
  have hc := h.coherent hp
  have hslot : f.slot = g.slot := h.allocated.run_disjoint (hc.owned_of_pending hpend) hown
  exact h.exclusive hp hq hslot (hc.mode_of_pending hpend)

end Sound

end Volume

end BlockVolume
