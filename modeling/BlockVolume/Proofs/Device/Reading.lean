import BlockVolume.Proofs.Device.Lawful

/-!
# `Proofs.Device.Reading` — devices that are only read from

An operation that writes nothing leaves its device as reading some blocks leaves it. So that this can be
said of a device of which nothing else is known, the device after reads is written down as such.

## Contents
- **`readOut`**: the device after it was asked for blocks; **`ServesReads`**: it served them all.
- `ServesReads.read`, one block at a time; `Reliable.servesReads`.
-/

namespace BlockVolume

open BlockVolume.Action

variable {δ : Type} [BlockDevice δ] {d : δ} {i : Nat} {is : List Nat}

/-- The device after it was asked for blocks one after the other, and for nothing else. -/
def readOut (is : List Nat) (d : δ) : δ :=
  is.foldl (fun d i => (BlockDevice.read i d).state) d

/-- Asked for blocks one after the other, the device serves every one of them. -/
def ServesReads : List Nat → δ → Prop
  | [], _ => True
  | i :: is, d => (∃ b, (BlockDevice.read i d).result = .ok b) ∧ ServesReads is (BlockDevice.read i d).state

variable [LawfulDevice δ]

/-- A read that is served yields the block, and leaves the others to be served. -/
theorem ServesReads.read (h : ServesReads (i :: is) d) : (BlockDevice.read (δ := δ) i).Ensures d fun r d' =>
    r = .ok (content d i) ∧ d' = readOut [i] d ∧ content d' = content d ∧
      BlockDevice.info d' = BlockDevice.info d ∧ ServesReads is d' := by
  obtain ⟨⟨b, hb⟩, hrest⟩ := h
  obtain ⟨hinfo, hcontent, hvalue⟩ := LawfulDevice.read_ensures i d
  refine ⟨?_, rfl, hcontent, hinfo, hrest⟩
  rw [hb, hvalue b hb]

/-- Reading changes no block. -/
theorem content_readOut (is : List Nat) (d : δ) : content (readOut is d) = content d ∧
    BlockDevice.info (readOut is d) = BlockDevice.info d := by
  induction is generalizing d with
  | nil => exact ⟨rfl, rfl⟩
  | cons i is ih =>
    obtain ⟨hinfo, hcontent, -⟩ := LawfulDevice.read_ensures i d
    obtain ⟨hcontent', hinfo'⟩ := ih (BlockDevice.read i d).state
    exact ⟨hcontent'.trans hcontent, hinfo'.trans hinfo⟩

/-- A reliable device serves all reads in range, and stays reliable. -/
theorem Reliable.servesReads (h : Reliable d) (his : ∀ i ∈ is, i < deviceSize d) :
    ServesReads is d ∧ Reliable (readOut is d) := by
  induction is generalizing d with
  | nil => exact ⟨trivial, h⟩
  | cons i is ih =>
    obtain ⟨hserved, hreliable⟩ := h.read (his i List.mem_cons_self)
    have hsize : deviceSize (BlockDevice.read i d).state = deviceSize d :=
      deviceSize_congr (LawfulDevice.read_ensures i d).1
    obtain ⟨hrest, hreliable'⟩ := ih hreliable fun j hj => by
      rw [hsize]
      exact his j (List.mem_cons_of_mem _ hj)
    exact ⟨⟨hserved, hrest⟩, hreliable'⟩

end BlockVolume
