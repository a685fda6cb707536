import BlockVolume.Proofs.Space.Sharing

/-!
# `Proofs.Space.Reserved` — the blocks that describe a volume

The blocks that describe a volume are not given to entries. Where no run is known a block is looked for past
them, and where a run is taken back they are left out. A run that grows is only held back by their bits. So an
entry that claims to lie among them is given one of them if its bit happens to be clear, and nothing else
leads to that.

## Contents
- **`Shared.Spares`** and **`Shared.Trespasses`**: a call that leaves these blocks alone, and one for which
  one of them is taken.
- `Shared.spares_iff`: a call does one or the other.
- **`Shared.metadata_reserved`**: whose blocks are safe in every run; **`Shared.metadata_granted`**: an entry
  that is given one.
-/

namespace BlockVolume.Space.Shared

variable {κ : Type} [DecidableEq κ] {u : Shared κ} {b : Nat}

/-- The call changes no bit of a block that describes the volume, and is given no such block. -/
structure Spares (u : Shared κ) (c : Call κ) : Prop where
  test : ∀ b < firstDataBlock, (u.perform c).2.space.bitmap.test b = u.space.bitmap.test b
  granted : ∀ b, (u.perform c).1 = .granted b → firstDataBlock ≤ b

omit [DecidableEq κ] in
/-- The call is for an entry whose run ends before a block that describes the volume, and the bit of this
block is clear. -/
def Trespasses (u : Shared κ) : Call κ → Prop
  | .grow k => (u.entries k).blocks ≠ 0 ∧
      (u.entries k).firstBlock.toNat + (u.entries k).blocks.toNat < firstDataBlock ∧
      u.space.bitmap.test ((u.entries k).firstBlock.toNat + (u.entries k).blocks.toNat) = false
  | .release _ => False

/-! ## One call -/

/-- **The blocks that describe the volume are spared by a call just if it does not trespass.** -/
theorem spares_iff (hu : u.Bounded) (hdata : firstDataBlock ≤ u.space.total) (c : Call κ) :
    u.Spares c ↔ ¬u.Trespasses c := by
  have h := outcome hu c
  generalize ha : (u.perform c).1 = a at h
  generalize hw : (u.perform c).2 = w at h
  cases h with
  | @granted k b s e h =>
    constructor
    · rintro hspares ⟨hrun, hlt, -⟩
      have hle := hspares.granted b ha
      rw [h.next hrun] at hle
      omega
    · intro hno
      have hle : firstDataBlock ≤ b := by
        by_cases hrun : (u.entries k).blocks = 0
        · exact (h.lowest hrun).1
        · have hnext := h.next hrun
          by_contra hlt
          exact hno ⟨hrun, hnext ▸ Nat.lt_of_not_le hlt, hnext ▸ h.clear⟩
      refine ⟨fun j hj => ?_, fun j hj => ?_⟩
      · rw [hw]
        show s.bitmap.test j = _
        rw [h.test, decide_eq_false (by omega), Bool.false_or]
      · cases ha.symm.trans hj
        exact hle
  | @refused k r h =>
    refine iff_of_true ⟨fun j _ => by rw [hw], fun j hj => by cases ha.symm.trans hj⟩ ?_
    rintro ⟨hrun, hlt, hclear⟩
    cases h with
    | noFreeBlock hnone _ => exact hrun hnone
    | endOfVolume _ hend => omega
    | blockTaken _ _ htaken => cases htaken.symm.trans hclear
  | @freed k n s e h =>
    refine iff_of_true ⟨fun j hj => ?_, fun j hj => by cases ha.symm.trans hj⟩ id
    rw [hw, Bool.eq_iff_iff]
    show s.bitmap.test j = true ↔ _
    rw [h.test_iff]
    exact and_iff_left fun hin => by omega

/-- Past the end of the volume no bit changes. -/
theorem test_perform_of_le (hu : u.Bounded) (c : Call κ) (hb : u.space.total ≤ b) :
    (u.perform c).2.space.bitmap.test b = u.space.bitmap.test b := by
  have h := outcome hu c
  generalize (u.perform c).1 = a at h
  generalize (u.perform c).2 = w at h
  cases h with
  | @granted k g s e h =>
    have hlt := h.lt_total
    show s.bitmap.test b = _
    rw [h.test, decide_eq_false (by omega), Bool.false_or]
  | refused _ => rfl
  | @freed k n s e h =>
    rw [Bool.eq_iff_iff]
    show s.bitmap.test b = true ↔ _
    rw [h.test_iff]
    exact and_iff_left fun hin => by omega

omit [DecidableEq κ] in
/-- Where the bits of the blocks that describe the volume are set no call trespasses. -/
theorem not_trespasses (hset : ∀ b < firstDataBlock, u.space.bitmap.test b = true) (c : Call κ) : ¬u.Trespasses c := by
  cases c with
  | grow k =>
    rintro ⟨-, hlt, hclear⟩
    cases (hset _ hlt).symm.trans hclear
  | release k => exact id

/-! ## Runs -/

theorem test_run_of_le (hu : u.Bounded) (calls : List (Call κ)) (hb : u.space.total ≤ b) :
    (u.run calls).space.bitmap.test b = u.space.bitmap.test b := by
  induction calls generalizing u with
  | nil => rfl
  | cons c calls ih =>
    have hc := outcome hu c
    exact (ih (hc.bounded_after hu) (hc.total_eq ▸ hb)).trans (test_perform_of_le hu c hb)

/-- Bits that are set for the blocks that describe the volume stay set. -/
theorem test_run_of_lt (hu : u.Bounded) (hdata : firstDataBlock ≤ u.space.total) (calls : List (Call κ))
    (hset : ∀ b < firstDataBlock, u.space.bitmap.test b = true) :
    ∀ b < firstDataBlock, (u.run calls).space.bitmap.test b = true := by
  induction calls generalizing u with
  | nil => exact hset
  | cons c calls ih =>
    have hc := outcome hu c
    have hspares := (spares_iff hu hdata c).mpr (not_trespasses hset c)
    exact ih (hc.bounded_after hu) (hc.total_eq ▸ hdata) fun b hb => (hspares.test b hb).trans (hset b hb)

/-- **The blocks that describe a volume are neither given nor taken back**, whatever the entries say, in every
run that begins with their bits set, if the superblock was accepted. Whatever the bitmap says, no bit past the
end of the volume changes, and after any run a call leaves these blocks alone unless it is for an entry whose
run ends before one of them and the bit of that one is clear. -/
theorem metadata_reserved {n : Nat} (hvalid : u.space.superblock.validate n = .ok ()) (calls : List (Call κ)) :
    (∀ b, u.space.total ≤ b → (u.run calls).space.bitmap.test b = u.space.bitmap.test b) ∧
    (∀ c, (u.run calls).Spares c ↔ ¬(u.run calls).Trespasses c) ∧
    ((∀ b < firstDataBlock, u.space.bitmap.test b = true) → ∀ c, (u.run calls).Spares c) := by
  have hu := bounded_of_validate hvalid
  have hdata : firstDataBlock ≤ u.space.total :=
    Nat.le_of_lt (Superblock.fits_of_validate hvalid).firstDataBlock_lt_total
  have hspares : ∀ c, (u.run calls).Spares c ↔ ¬(u.run calls).Trespasses c :=
    spares_iff (hu.run calls) (total_run hu calls ▸ hdata)
  refine ⟨fun b hb => test_run_of_le hu calls hb, hspares, fun hset c => ?_⟩
  exact (hspares c).mpr (not_trespasses (test_run_of_lt hu hdata calls hset) c)

/-- Entries that claim the same block, and give it back twice, leave these blocks alone. -/
theorem metadata_reserved_of_overlapping :
    let calls : List (Call Bool) := [.release false, .release true, .grow true]
    overlapping.space.superblock.validate 32 = .ok () ∧
      (∀ b < firstDataBlock, overlapping.space.bitmap.test b = true) ∧ ∀ c, (overlapping.run calls).Spares c := by
  intro calls
  have hvalid : overlapping.space.superblock.validate 32 = .ok () := rfl
  have hset : ∀ b < firstDataBlock, overlapping.space.bitmap.test b = true := by decide +kernel
  exact ⟨hvalid, hset, (metadata_reserved hvalid calls).2.2 hset⟩

/-- **A block that describes the volume is given to an entry** that claims the four blocks at the beginning of
a volume in whose bitmap no bit is set. -/
theorem metadata_granted :
    let u : Shared Unit :=
      ⟨⟨Bitmap.empty, Superblock.fresh⟩, fun _ => { Entry.unused with kind := .file, blocks := 4 }⟩
    u.space.superblock.validate 1024 = .ok () ∧ (u.perform (.grow ())).1 = .granted 4 ∧ 4 < firstDataBlock ∧
      u.space.bitmap.test 4 = false ∧ (u.perform (.grow ())).2.space.bitmap.test 4 = true := by
  intro u
  exact ⟨rfl, by decide +kernel, by decide, by decide +kernel, by decide +kernel⟩

end BlockVolume.Space.Shared
