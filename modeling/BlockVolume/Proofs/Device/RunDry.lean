import BlockVolume.Proofs.Device.Reading

/-!
# `Proofs.Device.RunDry` — a meter that runs out of writes

Behind a meter with a budget of writes a reliable device serves as many writes as the budget allows, refuses
all that come after, and goes on being read from.

## Contents
- **`Metered.Allows`**: so many writes are left; `Allows.read`, `Allows.write`, `Allows.flush`;
  `Allows.servesReads`.
- `Allows.write_refused`: none is left. `refilled`: and as many as are wanted.
-/

namespace BlockVolume.Metered

open BlockVolume.Action

variable {δ : Type} [BlockDevice δ] [LawfulDevice δ] {m : Metered δ} {n i : Nat}

/-- A meter that passes `n` more writes on, and reads and flushes without limit, to a reliable device. -/
structure Allows (n : Nat) (m : Metered δ) : Prop where
  budget : m.budget = ⟨none, some n, none⟩
  inner : Reliable m.inner

namespace Allows

omit [LawfulDevice δ] in
/-- A request that the budget pays for is served if the device below serves it. -/
theorem of_spend {α : Type} {request : Request} {x : Action DeviceError δ α}
    (hspend : m.budget.spend request = some ⟨none, some n, none⟩) {post : Except DeviceError α → Prop}
    (hx : x.Ensures m.inner fun r d => post r ∧ Reliable d) :
    (Metered.passOn request x).Ensures m fun r m' => post r ∧ m'.Allows n := by
  apply (passOn_ensures request x m).mono
  intro r m' hr
  rw [hspend] at hr
  obtain ⟨rfl, hinner, hbudget⟩ := hr
  exact ⟨hx.1, hbudget, hinner ▸ hx.2⟩

theorem read (h : m.Allows n) (hi : i < deviceSize m) : (BlockDevice.read i).Ensures m fun r m' =>
    r = .ok (content m i) ∧ m'.Allows n := by
  have hserved : (BlockDevice.read i).Ensures m fun r m' => (∃ b, r = .ok b) ∧ m'.Allows n :=
    of_spend (by rw [h.budget]; rfl) (h.inner.read hi)
  apply (hserved.and (LawfulDevice.read_ensures i m)).mono
  rintro r m' ⟨⟨⟨b, rfl⟩, hm'⟩, -, -, hb⟩
  exact ⟨by rw [hb b rfl], hm'⟩

omit [LawfulDevice δ] in
theorem write (h : m.Allows (n + 1)) (b : Block) (hi : i < deviceSize m) :
    (BlockDevice.write i b).Ensures m fun r m' => r = .ok () ∧ m'.Allows n :=
  of_spend (by rw [h.budget]; rfl) (h.inner.write b hi)

omit [LawfulDevice δ] in
theorem flush (h : m.Allows n) : (BlockDevice.flush).Ensures m fun r m' => r = .ok () ∧ m'.Allows n :=
  of_spend (by rw [h.budget]; rfl) h.inner.flush

/-- When no write is left all are refused, and none changes a block. -/
theorem write_refused (h : m.Allows 0) (i : Nat) (b : Block) : (BlockDevice.write i b).Ensures m fun r m' =>
    r = .error .ioError ∧ m'.Allows 0 ∧ content m' = content m ∧ deviceSize m' = deviceSize m := by
  have hspend : m.budget.spend (.write i) = none := by rw [h.budget]; rfl
  have hrefused : (BlockDevice.write i b).Ensures m fun r m' => r = .error .ioError ∧ m'.Allows 0 := by
    apply (passOn_ensures (.write i) (BlockDevice.write i b) m).mono
    intro r m' hr
    rw [hspend] at hr
    obtain ⟨rfl, hinner, hbudget⟩ := hr
    exact ⟨rfl, hbudget.trans h.budget, hinner ▸ h.inner⟩
  apply (hrefused.and (LawfulDevice.write_ensures i b m)).mono
  rintro r m' ⟨⟨rfl, hm'⟩, hinfo, -, hcontent⟩
  exact ⟨rfl, hm', hcontent _ rfl, deviceSize_congr hinfo⟩

/-- Reading takes no writes. -/
theorem servesReads {is : List Nat} (h : m.Allows n) (his : ∀ i ∈ is, i < deviceSize m) :
    ServesReads is m ∧ (readOut is m).Allows n := by
  induction is generalizing m with
  | nil => exact ⟨trivial, h⟩
  | cons i is ih =>
    obtain ⟨hserved, hm⟩ := h.read (his i List.mem_cons_self)
    have hsize : deviceSize (BlockDevice.read i m).state = deviceSize m :=
      deviceSize_congr (LawfulDevice.read_ensures i m).1
    obtain ⟨hrest, hm'⟩ := ih hm fun j hj => by
      rw [hsize]
      exact his j (List.mem_cons_of_mem _ hj)
    exact ⟨⟨⟨_, hserved⟩, hrest⟩, hm'⟩

end Allows

/-! ## Refilling -/

/-- The same device behind a meter without limits. -/
def refilled (m : Metered δ) : Metered δ := { m with budget := .unlimited }

theorem alike_refilled (m : Metered δ) : Alike m (refilled m) := ⟨rfl, rfl⟩

omit [LawfulDevice δ] in
theorem Allows.reliable_refilled (h : m.Allows n) : Reliable (refilled m) :=
  reliable_of_unlimited rfl h.inner

end BlockVolume.Metered
