import BlockVolume.Proofs.Space.Growth
import BlockVolume.Proofs.Format.Accepted
import Mathlib.Logic.Function.Basic

/-!
# `Proofs.Space.Sharing` — entries that share a space

Any number of entries ask for blocks and give them back, in any order. What they say of themselves need not be
true: their runs may overlap, and lie where no run should be. Still the blocks in use and the counter of free
ones add up to the same number, unless a block is given when the counter is at zero, and no block is taken
back twice without being given in between.

## Contents
- **`Shared`**: a space and the entries that share it, with the calls that they make and what they are answered.
- **`Shared.Outcome`** and `Shared.outcome`: all that one call can do.
- `Shared.Bounded`: what every run keeps of a superblock that was accepted.
- **`Shared.ledger`**: block by block, what was in use or was given is in use or was taken back.
- **`Shared.blocks_conserved`**, with a run in which two entries claim the same block.
-/

namespace BlockVolume.Space

/-- A space and the entries that are given blocks of it. -/
structure Shared (κ : Type) where
  space : Space
  entries : κ → Entry

namespace Shared

variable {κ : Type}

/-- What is asked for an entry. -/
inductive Call (κ : Type) where
  | grow (k : κ)
  | release (k : κ)

/-- What comes of a call. -/
inductive Answer where
  | granted (block : Nat)
  | refused (r : Refusal)
  | freed (count : Nat)
  deriving DecidableEq

/-- The block that is given with an answer. -/
def Answer.block? : Answer → Option Nat
  | .granted b => some b
  | .refused _ => none
  | .freed _ => none

variable [DecidableEq κ]

/-- The space and the entries after the change of one of them. -/
def put (u : Shared κ) (k : κ) (s : Space) (e : Entry) : Shared κ :=
  ⟨s, Function.update u.entries k e⟩

/-- Performs a call. A call that is refused changes nothing. -/
def perform (u : Shared κ) : Call κ → Answer × Shared κ
  | .grow k =>
    match u.space.grow (u.entries k) with
    | .ok g => (.granted g.block, u.put k g.space g.entry)
    | .error r => (.refused r, u)
  | .release k =>
    match u.space.release (u.entries k) with
    | .ok r => (.freed r.freed, u.put k r.space r.entry)
    | .error r => (.refused r, u)

/-- The space and the entries after some calls. -/
def run (u : Shared κ) : List (Call κ) → Shared κ
  | [] => u
  | c :: calls => (u.perform c).2.run calls

variable {u w : Shared κ} {c : Call κ} {a : Answer}

/-! ## One call -/

/-- What a call may do: an entry is given a block, or it is barred from one and nothing changes, or its blocks
are taken back. -/
inductive Outcome (u : Shared κ) : Call κ → Answer → Shared κ → Prop
  | granted {k : κ} {b : Nat} {s : Space} {e : Entry} (h : Granted u.space (u.entries k) b s e) :
      Outcome u (.grow k) (.granted b) (u.put k s e)
  | refused {k : κ} {r : Refusal} (h : Barred u.space (u.entries k) r) : Outcome u (.grow k) (.refused r) u
  | freed {k : κ} {n : Nat} {s : Space} {e : Entry} (h : Vacated u.space (u.entries k) n s e) :
      Outcome u (.release k) (.freed n) (u.put k s e)

/-- Every block has a bit, and the counter and the blocks in use are no more than twice the blocks. -/
structure Bounded (u : Shared κ) : Prop where
  total_le : u.space.total ≤ bitmapCapacity
  sum_le : u.space.free + u.space.used ≤ 2 * u.space.total

omit [DecidableEq κ] in
theorem bounded_of_validate {n : Nat} (h : u.space.superblock.validate n = .ok ()) : u.Bounded where
  total_le := (Superblock.fits_of_validate h).total_le
  sum_le := by
    have hfree : u.space.free ≤ u.space.total := by
      rw [(Superblock.fits_of_validate h).validate_eq] at h
      split at h
      · rename_i hle
        exact UInt32.le_iff_toNat_le.mp hle
      · cases h
    have hused := u.space.used_le
    omega

/-- **A call does one of the three**, and blocks are always taken back when that is asked. -/
theorem outcome (h : u.Bounded) (c : Call κ) : u.Outcome c (u.perform c).1 (u.perform c).2 := by
  have htotal := h.total_le
  cases c with
  | grow k =>
    cases hg : u.space.grow (u.entries k) with
    | ok g =>
      simp only [perform, hg]
      exact .granted (granted_of_grow htotal hg)
    | error r =>
      simp only [perform, hg]
      exact .refused (barred_of_grow htotal hg)
  | release k =>
    have hroom : u.space.free + u.space.used < UInt32.size := by
      have hsum := h.sum_le
      have hcap : bitmapCapacity = 4096 := rfl
      simp only [UInt32.size]
      omega
    obtain ⟨r, hr⟩ := exists_release htotal hroom (u.entries k)
    simp only [perform, hr]
    exact .freed (vacated_of_release htotal hr)

theorem Outcome.total_eq (h : u.Outcome c a w) : w.space.total = u.space.total := by
  cases h with
  | granted h => exact total_eq_of_superblock h.superblock
  | refused _ => rfl
  | freed h => exact total_eq_of_superblock h.superblock

theorem Outcome.bounded_after (h : u.Outcome c a w) (hu : u.Bounded) : w.Bounded where
  total_le := h.total_eq ▸ hu.total_le
  sum_le := by
    have hsum := hu.sum_le
    have hle := w.space.used_le
    rw [h.total_eq] at hle ⊢
    cases h with
    | @granted k b s e h =>
      -- at zero the counter stays, and then the blocks in use are bounded by themselves
      rcases Nat.eq_zero_or_pos u.space.free with hzero | hpos
      · have hfree : s.free = 0 := by rw [h.free, hzero]
        show s.free + s.used ≤ _
        change s.used ≤ _ at hle
        omega
      · exact Nat.le_trans (Nat.le_of_eq (h.sum_eq hpos)) hsum
    | refused _ => exact hsum
    | freed h => exact Nat.le_trans (Nat.le_of_eq h.sum_eq) hsum

/-- Unless a block is given with the counter at zero, counter and blocks in use add up to the same. -/
theorem Outcome.sum_eq (h : u.Outcome c a w) (hfunded : a.block?.isSome = true → 0 < u.space.free) :
    w.space.free + w.space.used = u.space.free + u.space.used := by
  cases h with
  | granted h => exact h.sum_eq (hfunded rfl)
  | refused _ => rfl
  | freed h => exact h.sum_eq

/-! ## The ledger -/

/-- The blocks that a call takes back. -/
def returned (u : Shared κ) : Call κ → List Nat
  | .grow _ => []
  | .release k => u.space.returned (u.entries k)

/-- The blocks that some calls take back, one after the other. -/
def takenBack (u : Shared κ) : List (Call κ) → List Nat
  | [] => []
  | c :: calls => u.returned c ++ (u.perform c).2.takenBack calls

/-- The blocks that some calls are given, one after the other. -/
def given (u : Shared κ) : List (Call κ) → List Nat
  | [] => []
  | c :: calls => (u.perform c).1.block?.toList ++ (u.perform c).2.given calls

/-- One for a block in use, and zero for any other. -/
def inUse (u : Shared κ) (b : Nat) : Nat := (u.space.bitmap.test b).toNat

/-- What a call does to a block: it is given only when it is not in use, and taken back only when it is. -/
theorem Outcome.ledger (h : u.Outcome c a w) (hu : u.Bounded) (b : Nat) :
    w.inUse b + (u.returned c).count b = u.inUse b + a.block?.toList.count b := by
  unfold inUse
  cases h with
  | @granted k g s e h =>
    show (s.bitmap.test b).toNat + List.count b [] = _ + List.count b [g]
    rw [h.test]
    by_cases hb : b = g
    · subst hb
      simp [h.clear]
    · simp [hb, Ne.symm hb]
  | refused _ => rfl
  | @freed k n s e h =>
    show (s.bitmap.test b).toNat + (u.space.returned (u.entries k)).count b = _ + List.count b []
    have hnodup : (u.space.returned (u.entries k)).Nodup := u.space.nodup_dataBlocks.filter _
    have htest := h.test_iff b
    rw [hnodup.count]
    by_cases hb : b ∈ u.space.returned (u.entries k)
    · obtain ⟨hle, hlt, hown, hset⟩ := (mem_returned_iff hu.total_le).mp hb
      have hclear : s.bitmap.test b = false :=
        Bool.eq_false_iff.mpr fun hno => (htest.mp hno).2 ⟨hle, hlt, hown⟩
      simp [hb, hset, hclear]
    · have hsame : s.bitmap.test b = u.space.bitmap.test b := by
        rw [Bool.eq_iff_iff, htest]
        refine and_iff_left_of_imp fun hset hdata => hb ?_
        exact (mem_returned_iff hu.total_le).mpr ⟨hdata.1, hdata.2.1, hdata.2.2, hset⟩
      simp [hb, hsame]

/-! ## Runs -/

theorem Bounded.run (h : u.Bounded) (calls : List (Call κ)) : (u.run calls).Bounded := by
  induction calls generalizing u with
  | nil => exact h
  | cons c calls ih => exact ih ((outcome h c).bounded_after h)

theorem total_run (h : u.Bounded) (calls : List (Call κ)) : (u.run calls).space.total = u.space.total := by
  induction calls generalizing u with
  | nil => rfl
  | cons c calls ih =>
    have hc := outcome h c
    exact (ih (hc.bounded_after h)).trans hc.total_eq

/-- Whenever a block is given, the counter is not at zero. -/
def Funded (u : Shared κ) : List (Call κ) → Prop
  | [] => True
  | c :: calls => ((u.perform c).1.block?.isSome = true → 0 < u.space.free) ∧ (u.perform c).2.Funded calls

instance decidableFunded : (u : Shared κ) → (calls : List (Call κ)) → Decidable (u.Funded calls)
  | _, [] => .isTrue trivial
  | u, c :: calls =>
    haveI := decidableFunded (u.perform c).2 calls
    inferInstanceAs (Decidable (_ ∧ _))

/-- The counter and the number of blocks in use add up to the same after every funded run. -/
theorem sum_run (h : u.Bounded) {calls : List (Call κ)} (hfunded : u.Funded calls) :
    (u.run calls).space.free + (u.run calls).space.used = u.space.free + u.space.used := by
  induction calls generalizing u with
  | nil => rfl
  | cons c calls ih =>
    have hc := outcome h c
    exact (ih (hc.bounded_after h) hfunded.2).trans (hc.sum_eq hfunded.1)

/-- **What was in use or was given is in use or was taken back**, each block as often on one side as on the
other. -/
theorem ledger (h : u.Bounded) (calls : List (Call κ)) (b : Nat) :
    (u.run calls).inUse b + (u.takenBack calls).count b = u.inUse b + (u.given calls).count b := by
  induction calls generalizing u with
  | nil => rfl
  | cons c calls ih =>
    have hc := outcome h c
    have hstep := hc.ledger h b
    have hrest := ih (hc.bounded_after h)
    rw [run, takenBack, given, List.count_append, List.count_append]
    omega

/-- **Blocks are conserved**, whatever the bitmap and the entries say, if the superblock was accepted. The
counter and the number of blocks in use add up to the same after every run in which no block is given with the
counter at zero. Each call after a run gives a free block, is refused without effect, or takes the blocks of a
run back. And a block is taken back only as often as it was in use or was given, so without being given in
between it is not taken back twice. -/
theorem blocks_conserved {n : Nat} (hvalid : u.space.superblock.validate n = .ok ()) (calls : List (Call κ)) :
    (u.Funded calls → (u.run calls).space.free + (u.run calls).space.bitmap.countUsed (u.run calls).space.total =
      u.space.free + u.space.bitmap.countUsed u.space.total) ∧
    (∀ c, (u.run calls).Outcome c ((u.run calls).perform c).1 ((u.run calls).perform c).2) ∧
    ∀ more b, ((u.run calls).run more).inUse b + ((u.run calls).takenBack more).count b =
        (u.run calls).inUse b + ((u.run calls).given more).count b ∧
      (b ∉ (u.run calls).given more → ((u.run calls).takenBack more).count b ≤ 1) := by
  have hu := bounded_of_validate hvalid
  have hw := hu.run calls
  refine ⟨sum_run hu, outcome hw, fun more b => ⟨ledger hw more b, fun hnot => ?_⟩⟩
  have hledger := ledger hw more b
  have hbit : (u.run calls).inUse b ≤ 1 := Bool.toNat_le _
  rw [List.count_eq_zero_of_not_mem hnot] at hledger
  omega

/-! ## Entries that claim the same block -/

/-- Two entries whose runs have the block 19 in common, in a volume of 32 blocks. -/
def overlapping : Shared Bool where
  space := ⟨.ofBlock (Block.ofBytes [0xFF, 0xFF, 0x1F]), { Superblock.fresh with totalBlocks := 32, freeBlocks := 11 }⟩
  entries k := { Entry.unused with kind := .file, firstBlock := if k then 19 else 18, blocks := 2 }

/-- The block that both entries claim is taken back once, and once more when it was given in between. -/
theorem overlapping_conserved :
    let calls : List (Call Bool) := [.release false, .release true, .grow true, .grow true, .release true]
    overlapping.space.superblock.validate 32 = .ok () ∧ overlapping.Funded calls ∧
      overlapping.takenBack calls = [18, 19, 20, 18, 19] ∧ overlapping.given calls = [18, 19] ∧
      (overlapping.run calls).space.free + (overlapping.run calls).space.bitmap.countUsed 32 = 32 := by
  intro calls
  have hvalid : overlapping.space.superblock.validate 32 = .ok () := rfl
  have hfunded : overlapping.Funded calls := by decide +kernel
  have hsum := (blocks_conserved hvalid calls).1 hfunded
  have htotal : (overlapping.run calls).space.total = 32 := total_run (bounded_of_validate hvalid) calls
  have hstart : overlapping.space.free + overlapping.space.bitmap.countUsed overlapping.space.total = 32 := by
    decide +kernel
  refine ⟨hvalid, hfunded, by decide +kernel, by decide +kernel, ?_⟩
  rw [htotal, hstart] at hsum
  exact hsum

end Shared

end BlockVolume.Space
