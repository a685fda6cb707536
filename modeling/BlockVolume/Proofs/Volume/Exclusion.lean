import BlockVolume.Proofs.Volume.Tenure

/-!
# `Proofs.Volume.Exclusion` — open files in every run

Caches are private to handles, so a file with two writers, or with a slot that went to somebody else, would
lose what was written without anybody noticing. Neither can happen, on any device and with any faults.

## Contents
- **`StaysOpen`**: a handle that a run never closes; `StaysOpen.emptyings_eq_zero` and its converse.
- **`exclusion`**: writers are alone, open files are files and keep their names, and a volume that is not
  mounted has none.
-/

namespace BlockVolume.Volume

variable {δ : Type} [BlockDevice δ] {v : Volume δ} {hd : Handle} {f : OpenFile}

/-- The handle is open before and after each operation. -/
def StaysOpen (hd : Handle) : List Operation → Volume δ → Prop
  | [], v => (v.handles.file? hd).isSome = true
  | op :: ops, v => (v.handles.file? hd).isSome = true ∧ StaysOpen hd ops (op.after v)

theorem StaysOpen.isSome {ops : List Operation} (h : StaysOpen hd ops v) :
    (v.handles.file? hd).isSome = true := by
  cases ops with
  | nil => exact h
  | cons op ops => exact h.1

/-- Between states in which a handle is open its place was not emptied: one operation empties a place twice
at most, and a generation comes back after `2 ^ 32` times only. -/
theorem StaysOpen.emptyings_eq_zero (h : v.Guarded) {ops : List Operation} (ho : StaysOpen hd ops v) :
    emptyings hd.place ops v = 0 := by
  induction ops generalizing v with
  | nil => rfl
  | cons op ops ih =>
    have hstep := after_turnover h op
    obtain ⟨f, hf⟩ := Option.isSome_iff_exists.mp ho.1
    obtain ⟨f', hf'⟩ := Option.isSome_iff_exists.mp ho.2.isSome
    have hgen := hstep.generationAt_eq hd.place
    rw [(Pool.file?_eq_some_iff.mp hf').1, (Pool.file?_eq_some_iff.mp hf).1] at hgen
    have hop : op.emptyings v hd.place = 0 := by
      by_contra hne
      refine add_ofNat_ne (fun hdvd => ?_) hgen.symm
      have hle : UInt32.size ≤ 2 := Nat.le_trans (Nat.le_of_dvd (Nat.pos_of_ne_zero hne) hdvd)
        (op.emptyings_le_two v hd.place)
      exact absurd hle (by decide)
    rw [emptyings, hop, ih (hstep.guarded h) ho.2]

/-- A handle whose place is not emptied is never closed. -/
theorem staysOpen_of_emptyings (h : v.Guarded) (hf : v.handles.file? hd = some f) (ops : List Operation)
    (hn : emptyings hd.place ops v = 0) : StaysOpen hd ops v := by
  induction ops generalizing v f with
  | nil =>
    show (v.handles.file? hd).isSome = true
    rw [hf]
    rfl
  | cons op ops ih =>
    obtain ⟨hop, hrest⟩ := Nat.add_eq_zero_iff.mp hn
    obtain ⟨⟨f', hf', -⟩, -, -⟩ := (held_or_dead h hf [op]).1 (by rw [emptyings, hop, emptyings])
    exact ⟨by rw [hf]; rfl, ih ((after_turnover h op).guarded h) hf' hrest⟩

/-- **In every run on any device, a writer is alone on its file, open files are files and keep their names,
and a volume that is not mounted has no open file.** -/
theorem exclusion (d : δ) (ops : List Operation) :
    let v := run ops (ofDevice d)
    (∀ p q f g, v.handles.fileAt? p = some f → v.handles.fileAt? q = some g → f.slot = g.slot →
      f.mode = .write → p = q) ∧
    (∀ p f, v.handles.fileAt? p = some f → (v.directory.get f.slot).kind = .file) ∧
    (∀ hd f more, v.handles.file? hd = some f → StaysOpen hd more v →
      ∃ f', (run more v).handles.file? hd = some f' ∧ f'.slot = f.slot ∧
        ((run more v).directory.get f.slot).nameField = (v.directory.get f.slot).nameField) ∧
    (v.mounted = false → ∀ p, v.handles.fileAt? p = none) := by
  intro v
  have h : v.Guarded := run_guarded (guarded_ofDevice d) ops
  refine ⟨fun _ _ _ _ => h.exclusive, fun _ _ => h.kind, ?_, h.closed⟩
  intro hd f more hf ho
  have hn := ho.emptyings_eq_zero h
  obtain ⟨f', hr⟩ := run_retained h (Pool.fileAt?_of_file? hf) hn
  obtain ⟨f'', hf'', hs, -⟩ := ((held_or_dead h hf more).1 hn).file
  exact ⟨f'', hf'', hs, congrArg Prod.fst hr.label⟩

/-- The writer of a new file is alone on it, and the file keeps its name while it is written. -/
theorem exclusion_of_writer :
    let v := run [.format, .mount, .openPath "/a" .write] (ofDevice (MemoryDisk.blank 1024))
    ∃ hd f, v.handles.file? hd = some f ∧ f.mode = .write ∧
      (∀ q g, v.handles.fileAt? q = some g → f.slot = g.slot → hd.place = q) ∧
      ((run [.write hd [1, 2, 3]] v).directory.get f.slot).nameField = (v.directory.get f.slot).nameField := by
  have hp : Path.ofString? "/a" = some ⟨"/a", by decide, by decide⟩ := by decide
  obtain ⟨-, -, hd, slot, hf⟩ := reached_with_file (d := MemoryDisk.blank 1024)
    (Nat.le_of_eq (MemoryDisk.deviceSize_blank 1024).symm) (MemoryDisk.reliable_of_writable rfl)
    hp (by decide) (by decide)
  rw [run_formatted] at hf
  obtain ⟨halone, -, hname, -⟩ :=
    exclusion (MemoryDisk.blank 1024) [.format, .mount, .openPath "/a" .write]
  have hguarded := run_guarded (guarded_ofDevice (MemoryDisk.blank 1024))
    [.format, .mount, .openPath "/a" .write]
  have ho := staysOpen_of_emptyings hguarded hf [.write hd [1, 2, 3]] rfl
  obtain ⟨-, -, -, hkept⟩ := hname hd _ _ hf ho
  exact ⟨hd, _, hf, rfl, fun q g hq hs => halone hd.place q _ g (Pool.fileAt?_of_file? hf) hq hs rfl, hkept⟩

end BlockVolume.Volume
