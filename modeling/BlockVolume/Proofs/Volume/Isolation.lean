import BlockVolume.Proofs.Volume.ByteArray

/-!
# `Proofs.Volume.Isolation` — files do not affect each other

A file changes only through what is asked for it: bytes are written through a handle to it, such a handle
is closed, it is deleted, or the whole volume is formatted or mounted. All else leaves its entry and
every byte of its run, whether it succeeds or fails, and on whatever request the device fails.

## Contents
- **`Operation.Concerns`**: the operations that may change a file.
- **`leaves_unconcerned`** for one operation, **`run_leaves_unconcerned`** for a run.
- **`Reached.isolation`**, with a file that keeps its bytes while another is created.
-/

namespace BlockVolume

open BlockVolume.Action Space

/-- Whether an operation is asked for the file in a slot, or for the whole volume. -/
def Operation.Concerns {δ : Type} (v : Volume δ) (slot : Slot) : Operation → Prop
  | .write hd _ | .close hd => ∃ f, v.handles.file? hd = some f ∧ f.slot = slot
  | .delete path => v.slotOf? path = some slot
  | .format | .mount => True
  | _ => False

namespace Volume

variable {δ : Type} [BlockDevice δ] [LawfulDevice δ] {u v w : Volume δ} {slot : Slot} {op : Operation}

/-- The entry in a slot, the contents of its file and all blocks of its run are the same in `w` as in `v`. -/
structure Leaves (slot : Slot) (v w : Volume δ) : Prop where
  entry : w.directory.get slot = v.directory.get slot
  contents : w.contents slot = v.contents slot
  run {b : Nat} : owns (v.directory.get slot) b = true → w.current b = v.current b

theorem Leaves.refl (slot : Slot) (v : Volume δ) : Leaves slot v v :=
  ⟨rfl, rfl, fun _ => rfl⟩

theorem Leaves.trans (h : Leaves slot u v) (h' : Leaves slot v w) : Leaves slot u w where
  entry := h'.entry.trans h.entry
  contents := h'.contents.trans h.contents
  run hb := (h'.run (by rw [h.entry, hb])).trans (h.run hb)

/-- Steps that do not touch a file leave it. -/
theorem Trace.leaves {allowed : Change → Prop} (ht : Trace allowed v w) (h : v.Sound)
    (hc : ∀ c, allowed c → c.touches slot = false) (hused : (v.directory.get slot).isEmpty = false) :
    Leaves slot v w where
  entry := ht.get_eq hc hused
  contents := ht.contents_eq h fun c ha => Change.alters_of_touches (hc c ha)
  run hb := ht.current_eq h hc hused hb

omit [BlockDevice δ] [LawfulDevice δ] in
/-- The steps of an operation that does not concern a file do not touch it. -/
theorem touches_eq_false (hop : ¬op.Concerns v slot) :
    (∀ c ∈ op.acts v, c.touches slot = false) ∧ ∀ c ∈ op.faults v, c.touches slot = false := by
  -- the kinds that name a slot name the slot of a handle or of a path, which is another one
  cases op with
  | create path kind =>
    cases hp : Path.ofString? path <;>
      simp [Operation.acts, Operation.faults, hp, Change.touches, Change.alters]
  | openPath path mode =>
    cases hp : Path.ofString? path <;> cases mode <;>
      simp [Operation.acts, Operation.faults, hp, opening, Change.touches, Change.alters]
  | delete path =>
    cases hs : v.slotOf? path with
    | none => simp [Operation.acts, Operation.faults, hs, Change.touches, Change.alters]
    | some s =>
      have hne : s ≠ slot := fun he => hop (hs.trans (congrArg some he))
      simp [Operation.acts, Operation.faults, hs, Change.touches, Change.alters, hne]
  | write hd data =>
    cases hf : v.handles.file? hd with
    | none => simp [Operation.acts, Operation.faults, hf, Change.touches, Change.alters]
    | some f =>
      have hne : f.slot ≠ slot := fun he => hop ⟨f, hf, he⟩
      simp [Operation.acts, Operation.faults, hf, writing, Change.touches, Change.alters, hne]
  | close hd =>
    cases hf : v.handles.file? hd with
    | none => simp [Operation.acts, Operation.faults, hf, closing, Change.touches, Change.alters]
    | some f =>
      have hne : f.slot ≠ slot := fun he => hop ⟨f, hf, he⟩
      simp [Operation.acts, Operation.faults, hf, closing, Change.touches, Change.alters, hne]
  | read hd n => simp [Operation.acts, Operation.faults, reading, Change.touches, Change.alters]
  | format => exact absurd trivial hop
  | mount => exact absurd trivial hop
  | _ => simp [Operation.acts, Operation.faults, Change.touches, Change.alters]

/-- **An operation leaves the files that it does not concern, however it ends.** -/
theorem leaves_unconcerned (h : v.Sound) (hused : (v.directory.get slot).isEmpty = false)
    (hop : ¬op.Concerns v slot) :
    (op.perform : VolumeAction δ Unit).Ensures v fun _ w => w.Sound ∧ Leaves slot v w := by
  have hmount : op ≠ .mount := by
    rintro rfl
    exact hop trivial
  obtain ⟨hacts, hfaults⟩ := touches_eq_false hop
  apply (op.walk h hmount).mono
  intro r w hwalk
  refine ⟨hwalk.sound h, hwalk.trace.leaves h ?_ hused⟩
  rintro c (hc | ⟨-, hc⟩)
  · exact hacts c hc
  · exact hfaults c hc

/-- None of the operations concerns the file in a slot when its turn comes. -/
def Unconcerned (slot : Slot) : List Operation → Volume δ → Prop
  | [], _ => True
  | op :: ops, v => ¬op.Concerns v slot ∧ Unconcerned slot ops (op.after v)

/-- **A run leaves the files that none of its operations concerns.** -/
theorem run_leaves_unconcerned {ops : List Operation} (h : v.Sound)
    (hused : (v.directory.get slot).isEmpty = false) (hops : Unconcerned slot ops v) :
    Leaves slot v (run ops v) := by
  induction ops generalizing v with
  | nil => exact .refl slot v
  | cons op ops ih =>
    obtain ⟨hsound, hleaves⟩ : (op.after v).Sound ∧ Leaves slot v (op.after v) :=
      leaves_unconcerned h hused hops.1
    exact hleaves.trans (ih hsound (by rw [hleaves.entry, hused]) hops.2)

/-- A file with contents is in use. -/
theorem Sound.not_isEmpty_of_contents (h : v.Sound) {i : Nat} {x : UInt8} (hx : (v.contents slot)[i]? = some x) :
    (v.directory.get slot).isEmpty = false := by
  cases he : (v.directory.get slot).isEmpty with
  | false => rfl
  | true =>
    have hk : (v.directory.get slot).kind = .empty := by simpa [Entry.isEmpty] using he
    have hblocks := h.allocated.blocks_of_not_file slot (by rw [hk]; decide)
    have hsize := h.allocated.size_le slot
    rw [hblocks, Nat.mul_zero] at hsize
    rw [getElem?_contents, if_neg (by omega)] at hx
    cases hx

/-- **In a volume that was reached, an operation leaves entry, contents and blocks of every file that it
does not concern, whether it succeeds or not.** -/
theorem Reached.isolation (h : Reached v) (hused : (v.directory.get slot).isEmpty = false)
    (hop : ¬op.Concerns v slot) :
    (op.perform : VolumeAction δ Unit).Ensures v fun _ w =>
      w.directory.get slot = v.directory.get slot ∧ w.contents slot = v.contents slot ∧
        ∀ b, owns (v.directory.get slot) b = true → w.current b = v.current b :=
  (leaves_unconcerned h.sound hused hop).mono fun _ _ hw => ⟨hw.2.entry, hw.2.contents, fun _ hb => hw.2.run hb⟩

/-- Creating a file beside one that is being written leaves the bytes of that one, which are in its cache still. -/
theorem isolation_of_run : ∃ hd slot,
    let v := run [.openPath "/a" .write, .write hd [1, 2, 3]] (formatted (MemoryDisk.blank 1024))
    v.contents slot = [1, 2, 3] ∧
      (Operation.perform (.create "/b" .file) : VolumeAction MemoryDisk Unit).Ensures v fun _ w =>
        w.directory.get slot = v.directory.get slot ∧ w.contents slot = [1, 2, 3] ∧
          ∀ b, owns (v.directory.get slot) b = true → w.current b = v.current b := by
  have hp : Path.ofString? "/a" = some ⟨"/a", by decide, by decide⟩ := by decide
  have hn : volumeBlocks ≤ deviceSize (MemoryDisk.blank 1024) := Nat.le_of_eq (MemoryDisk.deviceSize_blank 1024).symm
  have hr : Reliable (MemoryDisk.blank 1024) := MemoryDisk.reliable_of_writable rfl
  obtain ⟨-, -, hd, slot, hf⟩ := reached_with_file hn hr hp (by decide) (by decide)
  obtain ⟨-, hcontents⟩ := (begun_of_reliable hn hr).1.write_first hf (List.cons_ne_nil 1 [2, 3]) (by decide)
  rw [← after_write, ← run_concat, List.singleton_append] at hcontents
  have hreached := reached_of_reliable hn hr [.openPath "/a" .write, .write hd [1, 2, 3]]
  have hfirst := congrArg (·[0]?) hcontents
  have hused := hreached.sound.not_isEmpty_of_contents hfirst
  have hother (v : Volume MemoryDisk) : ¬(Operation.create "/b" .file).Concerns v slot := fun h => h
  have hisolated := Reached.isolation hreached hused (hother _)
  rw [hcontents] at hisolated
  exact ⟨hd, slot, hcontents, hisolated⟩

end Volume

end BlockVolume
