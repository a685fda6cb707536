import BlockVolume.Device

/-!
# `BlockVolume.Device.Metered` — a device that records requests and can run dry

A metered device passes requests on to another device. It records each request before anything else,
and it may hold a budget of reads, writes and flushes: a request without budget fails and does not
reach the device below.

## Contents
- `Request`: what was asked of a device.
- `Budget`: how much may still be asked; `none` is without limit.
- `Metered`: the device.
-/

namespace BlockVolume

/-- A request to a device. -/
inductive Request where
  | read (block : Nat)
  | write (block : Nat)
  | flush
  deriving DecidableEq

/-- How many requests of each kind are still served; `none` means any number. -/
structure Budget where
  reads : Option Nat
  writes : Option Nat
  flushes : Option Nat
  deriving DecidableEq

namespace Budget

/-- The budget without limits. -/
def unlimited : Budget := ⟨none, none, none⟩

/-- The budget after a request, or `none` if it does not allow the request. -/
def spend (b : Budget) : Request → Option Budget
  | .read _ =>
    match b.reads with
    | none => some b
    | some 0 => none
    | some (n + 1) => some { b with reads := some n }
  | .write _ =>
    match b.writes with
    | none => some b
    | some 0 => none
    | some (n + 1) => some { b with writes := some n }
  | .flush =>
    match b.flushes with
    | none => some b
    | some 0 => none
    | some (n + 1) => some { b with flushes := some n }

end Budget

/-- A device with a budget and a record of the requests made of it, the oldest first. -/
structure Metered (δ : Type) where
  inner : δ
  budget : Budget
  requests : Array Request

namespace Metered

variable {δ α : Type}

/-- A device without limits and with an empty record. -/
def ofDevice (inner : δ) : Metered δ := ⟨inner, .unlimited, #[]⟩

/-- Records the request, pays for it and passes it on. -/
def passOn (request : Request) (x : Action DeviceError δ α) : Action DeviceError (Metered δ) α := do
  Action.modify fun m => { m with requests := m.requests.push request }
  match (← Action.get).budget.spend request with
  | none => throw .ioError
  | some budget =>
    Action.modify fun m => { m with budget := budget }
    Action.focus Metered.inner (fun d m => { m with inner := d }) id x

instance [BlockDevice δ] : BlockDevice (Metered δ) where
  info m := BlockDevice.info m.inner
  read index := passOn (.read index) (BlockDevice.read index)
  write index block := passOn (.write index) (BlockDevice.write index block)
  flush := passOn .flush BlockDevice.flush

end Metered

end BlockVolume
