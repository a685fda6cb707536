import BlockVolume.Device

/-!
# `BlockVolume.Handle.Cache` — the block that an open file works on

An open file keeps the block that it touched last. What is written goes into this copy and reaches
the device when the copy is written back.

## Contents
- `Cache`: the copy, where it belongs and whether it was changed.
- `writeBack`: brings the device up to date.
-/

namespace BlockVolume

/-- The copy of one block. -/
structure Cache where
  /-- The block on the device, if the copy is of one. -/
  block : Option Nat
  /-- Whether the copy holds what the device does not. -/
  dirty : Bool
  data : Block
  deriving DecidableEq

namespace Cache

/-- The copy of no block. -/
def empty : Cache := ⟨none, false, Block.zero⟩

/-- The block that has to be written back, if there is one. -/
def pending? (c : Cache) : Option Nat :=
  if c.dirty then c.block else none

/-- The record of a failed write. -/
def writeFailed (block : Nat) (e : DeviceError) : Log.Record :=
  ⟨.error, s!"[sfs] Write of block {block} failed: " ++ e.name⟩

/-- Writes the copy to the device if it was changed, and yields it as unchanged. -/
def writeBack {δ : Type} [BlockDevice δ] (c : Cache) : Action DeviceError δ Cache :=
  match c.pending? with
  | none => pure c
  | some block => do
    Action.reporting (writeFailed block) (BlockDevice.write block c.data)
    pure { c with dirty := false }

end Cache

end BlockVolume
