import BlockVolume.Ata.Ports

/-!
# `BlockVolume.Ata.Trace` — watching the ports

Ports that answer as others do and record every access.

## Contents
- `Access`: one access to a port.
- `Traced`: the ports with the accesses made so far, the oldest first.
-/

namespace BlockVolume.Ata

/-- An access to a port, with the value that was read or written. -/
inductive Access where
  | readByte (port : UInt16) (value : UInt8)
  | writeByte (port : UInt16) (value : UInt8)
  | readWord (port : UInt16) (value : UInt16)
  | writeWord (port : UInt16) (value : UInt16)
  deriving DecidableEq

/-- Ports that record every access. -/
structure Traced (π : Type) where
  inner : π
  accesses : Array Access

namespace Traced

variable {π : Type} [Ports π]

/-- Ports with an empty record. -/
def ofPorts (inner : π) : Traced π := ⟨inner, #[]⟩

instance : Ports (Traced π) where
  readByte port p :=
    let (value, inner) := Ports.readByte port p.inner
    (value, ⟨inner, p.accesses.push (.readByte port value)⟩)
  writeByte port value p := ⟨Ports.writeByte port value p.inner, p.accesses.push (.writeByte port value)⟩
  readWord port p :=
    let (value, inner) := Ports.readWord port p.inner
    (value, ⟨inner, p.accesses.push (.readWord port value)⟩)
  writeWord port value p := ⟨Ports.writeWord port value p.inner, p.accesses.push (.writeWord port value)⟩

end Traced

end BlockVolume.Ata
