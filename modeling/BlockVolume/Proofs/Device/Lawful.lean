import BlockVolume.Device.MemoryDisk
import BlockVolume.Device.Metered
import BlockVolume.Proofs.Action.Ensures
import Mathlib.Logic.Function.Basic

/-!
# `Proofs.Device.Lawful` — devices that are arrays of blocks

Everything proved of volumes is proved over any device that keeps two promises. A request that succeeds
acts on an array of blocks, and a request that fails has no effect on it. When requests fail is left
open: a lawful device may refuse whatever it likes, whenever it likes.

## Contents
- **`LawfulDevice`**: the promises, with `content` as the view of a device as an array.
- **`Reliable`**: a device that, in range, serves every request from now on.
- **`Served`** and **`Refused`**: what a request leaves. `ensures_served` tells one from the other, and
  `LawfulDevice.read_cases` and its like say which blocks there are then.
- **`Asked`**: what a single request leaves, whether it was served or not. **`Alike`**: devices with the same blocks.
- Memory disks and metered devices are lawful; a writable memory disk is reliable, and so is one behind
  a meter without limits.
-/

namespace BlockVolume

open BlockVolume.Action

/-- Devices whose requests act on an array of blocks or fail without effect. -/
class LawfulDevice (δ : Type) [BlockDevice δ] where
  /-- The blocks of the device. -/
  content : δ → Nat → Block
  read_ensures (i : Nat) (d : δ) : (BlockDevice.read (δ := δ) i).Ensures d fun r d' =>
    BlockDevice.info d' = BlockDevice.info d ∧ content d' = content d ∧ ∀ b, r = .ok b → b = content d i
  write_ensures (i : Nat) (b : Block) (d : δ) : (BlockDevice.write (δ := δ) i b).Ensures d fun r d' =>
    BlockDevice.info d' = BlockDevice.info d ∧
      (r = .ok () → content d' = Function.update (content d) i b) ∧
      ∀ e, r = .error e → content d' = content d
  flush_ensures (d : δ) : (BlockDevice.flush (δ := δ)).Ensures d fun _ d' =>
    BlockDevice.info d' = BlockDevice.info d ∧ content d' = content d

export LawfulDevice (content)

/-- The number of blocks of a device. -/
def deviceSize {δ : Type} [BlockDevice δ] (d : δ) : Nat := (BlockDevice.info d).totalBlocks

/-! ## Devices that serve every request -/

variable {δ : Type} [BlockDevice δ]

/-- States of a device in which no request in range fails and which no request in range leaves. -/
structure Serving (S : δ → Prop) : Prop where
  read {d : δ} {i : Nat} : S d → i < deviceSize d →
    (BlockDevice.read (δ := δ) i).Ensures d fun r d' => (∃ b, r = .ok b) ∧ S d'
  write {d : δ} {i : Nat} (b : Block) : S d → i < deviceSize d →
    (BlockDevice.write (δ := δ) i b).Ensures d fun r d' => r = .ok () ∧ S d'
  flush {d : δ} : S d → (BlockDevice.flush (δ := δ)).Ensures d fun r d' => r = .ok () ∧ S d'

/-- From now on the device serves every request in range. -/
def Reliable (d : δ) : Prop := ∃ S : δ → Prop, Serving S ∧ S d

theorem Reliable.read {d : δ} {i : Nat} (h : Reliable d) (hi : i < deviceSize d) :
    (BlockDevice.read (δ := δ) i).Ensures d fun r d' => (∃ b, r = .ok b) ∧ Reliable d' := by
  obtain ⟨S, hS, hd⟩ := h
  exact (hS.read hd hi).mono fun _ _ ⟨hr, hd'⟩ => ⟨hr, S, hS, hd'⟩

theorem Reliable.write {d : δ} {i : Nat} (h : Reliable d) (b : Block) (hi : i < deviceSize d) :
    (BlockDevice.write (δ := δ) i b).Ensures d fun r d' => r = .ok () ∧ Reliable d' := by
  obtain ⟨S, hS, hd⟩ := h
  exact (hS.write b hd hi).mono fun _ _ ⟨hr, hd'⟩ => ⟨hr, S, hS, hd'⟩

theorem Reliable.flush {d : δ} (h : Reliable d) :
    (BlockDevice.flush (δ := δ)).Ensures d fun r d' => r = .ok () ∧ Reliable d' := by
  obtain ⟨S, hS, hd⟩ := h
  exact (hS.flush hd).mono fun _ _ ⟨hr, hd'⟩ => ⟨hr, S, hS, hd'⟩

/-! ## What a request leaves -/

/-- `d'` is what a request that was served may leave of `d`. -/
structure Served (d d' : δ) : Prop where
  info : BlockDevice.info d' = BlockDevice.info d
  reliable : Reliable d → Reliable d'

/-- `d'` is what a request in range that failed may leave of `d`, which was not reliable then. -/
structure Refused (d d' : δ) : Prop where
  info : BlockDevice.info d' = BlockDevice.info d
  unreliable : ¬Reliable d

theorem Served.trans {d d' d'' : δ} (h : Served d d') (h' : Served d' d'') : Served d d'' :=
  ⟨h'.info.trans h.info, fun hr => h'.reliable (h.reliable hr)⟩

/-- A failure after requests that were served counts against the device as it was before them. -/
theorem Refused.after {d d' d'' : δ} (h : Served d d') (h' : Refused d' d'') : Refused d d'' :=
  ⟨h'.info.trans h.info, fun hr => h'.unreliable (h.reliable hr)⟩

theorem deviceSize_congr {d d' : δ} (h : BlockDevice.info d' = BlockDevice.info d) :
    deviceSize d' = deviceSize d :=
  congrArg DeviceInfo.totalBlocks h

theorem le_deviceSize {d d' : δ} {n : Nat} (h : BlockDevice.info d' = BlockDevice.info d)
    (hn : n ≤ deviceSize d) : n ≤ deviceSize d' :=
  Nat.le_trans hn (Nat.le_of_eq (deviceSize_congr h).symm)

/-- A request that keeps the description of the device was served if it succeeds, and refused if not. -/
theorem ensures_served {α : Type} {x : Action DeviceError δ α} {d : δ}
    (hinfo : x.Ensures d fun _ d' => BlockDevice.info d' = BlockDevice.info d)
    (hx : Reliable d → x.Ensures d fun r d' => (∃ a, r = .ok a) ∧ Reliable d') :
    x.Ensures d fun r d' => (∀ a, r = .ok a → Served d d') ∧ ∀ e, r = .error e → Refused d d' := by
  constructor
  · intro a _
    exact ⟨hinfo, fun h => (hx h).2⟩
  · intro e he
    refine ⟨hinfo, ?_⟩
    intro h
    obtain ⟨a, ha⟩ := (hx h).1
    cases he.symm.trans ha

section

variable [LawfulDevice δ]

theorem LawfulDevice.read_cases {d : δ} {i : Nat} (hi : i < deviceSize d) :
    (BlockDevice.read (δ := δ) i).Ensures d fun r d' =>
      content d' = content d ∧
        ((r = .ok (content d i) ∧ Served d d') ∨ ∃ e, r = .error e ∧ Refused d d') := by
  have hread := LawfulDevice.read_ensures i d
  apply (hread.and (ensures_served (hread.mono fun _ _ h => h.1) fun h => h.read hi)).mono
  rintro r d' ⟨⟨-, hc, hval⟩, hserved, hrefused⟩
  refine ⟨hc, ?_⟩
  cases r with
  | ok b => exact Or.inl ⟨by rw [hval b rfl], hserved b rfl⟩
  | error e => exact Or.inr ⟨e, rfl, hrefused e rfl⟩

theorem LawfulDevice.write_cases {d : δ} {i : Nat} (b : Block) (hi : i < deviceSize d) :
    (BlockDevice.write (δ := δ) i b).Ensures d fun r d' =>
      (r = .ok () ∧ content d' = Function.update (content d) i b ∧ Served d d') ∨
        ∃ e, r = .error e ∧ content d' = content d ∧ Refused d d' := by
  have hwrite := LawfulDevice.write_ensures i b d
  have hserves : Reliable d → (BlockDevice.write (δ := δ) i b).Ensures d fun r d' =>
      (∃ a, r = .ok a) ∧ Reliable d' := fun h => (h.write b hi).mono fun _ _ hr => ⟨⟨(), hr.1⟩, hr.2⟩
  apply (hwrite.and (ensures_served (hwrite.mono fun _ _ h => h.1) hserves)).mono
  rintro r d' ⟨⟨-, hok, herror⟩, hserved, hrefused⟩
  cases r with
  | ok u => exact Or.inl ⟨rfl, hok rfl, hserved u rfl⟩
  | error e => exact Or.inr ⟨e, rfl, herror e rfl, hrefused e rfl⟩

theorem LawfulDevice.flush_cases (d : δ) :
    (BlockDevice.flush (δ := δ)).Ensures d fun r d' =>
      content d' = content d ∧ ((r = .ok () ∧ Served d d') ∨ ∃ e, r = .error e ∧ Refused d d') := by
  have hflush := LawfulDevice.flush_ensures d
  have hserves : Reliable d → (BlockDevice.flush (δ := δ)).Ensures d fun r d' =>
      (∃ a, r = .ok a) ∧ Reliable d' := fun h => h.flush.mono fun _ _ hr => ⟨⟨(), hr.1⟩, hr.2⟩
  apply (hflush.and (ensures_served (hflush.mono fun _ _ h => h.1) hserves)).mono
  rintro r d' ⟨⟨-, hc⟩, hserved, hrefused⟩
  refine ⟨hc, ?_⟩
  cases r with
  | ok u => exact Or.inl ⟨rfl, hserved u rfl⟩
  | error e => exact Or.inr ⟨e, rfl, hrefused e rfl⟩

end

/-! ## Single requests -/

/-- What a single request leaves of a device. -/
inductive Asked : δ → δ → Prop
  | read (i : Nat) (d : δ) : Asked d (BlockDevice.read i d).state
  | write (i : Nat) (b : Block) (d : δ) : Asked d (BlockDevice.write i b d).state
  | flush (d : δ) : Asked d (BlockDevice.flush d).state

/-- A lawful device is described in the same way after requests. -/
theorem Asked.info [LawfulDevice δ] {d d' : δ} (h : Asked d d') : BlockDevice.info d' = BlockDevice.info d := by
  cases h with
  | read i => exact (LawfulDevice.read_ensures i d).1
  | write i b => exact (LawfulDevice.write_ensures i b d).1
  | flush => exact (LawfulDevice.flush_ensures d).1

/-- A device like another one: of the same description, and with the same blocks. Which requests the two serve is left
open, so that one may stand for the other once it works again. -/
structure Alike [LawfulDevice δ] (d d' : δ) : Prop where
  info : BlockDevice.info d' = BlockDevice.info d
  content : content d' = content d

/-! ## Memory disks -/

namespace MemoryDisk

/-- The block at an index, or zeros past the end. -/
def blockAt (disk : MemoryDisk) (i : Nat) : Block := disk.blocks[i]?.getD Block.zero

theorem read_apply_of_lt {disk : MemoryDisk} {i : Nat} (h : i < disk.blocks.size) :
    (MemoryDisk.read i).Ensures disk fun r disk' =>
      r = .ok (disk.blockAt i) ∧
        disk' = { disk with transfers.reads := disk.transfers.reads + 1 } := by
  simp [MemoryDisk.read, blockAt, h, Except.map]

theorem read_apply_of_le {disk : MemoryDisk} {i : Nat} (h : disk.blocks.size ≤ i) :
    (MemoryDisk.read i).Ensures disk fun r disk' => r = .error .outOfRange ∧ disk' = disk := by
  simp [MemoryDisk.read, h]

/-- A write either stores the block in range of a writable disk or leaves the disk as it is. -/
theorem write_apply (disk : MemoryDisk) (i : Nat) (b : Block) :
    (MemoryDisk.write i b).Ensures disk fun r disk' =>
      if disk.readOnly = false ∧ i < disk.blocks.size then
        r = .ok () ∧ disk' =
          { disk with
            blocks := disk.blocks.setIfInBounds i b
            transfers.writes := disk.transfers.writes + 1 }
      else (∃ e, r = .error e ∧ (e = .outOfRange → disk.blocks.size ≤ i)) ∧ disk' = disk := by
  -- a disk for reading only refuses before it looks at the index
  cases hro : disk.readOnly with
  | true => simp [MemoryDisk.write, hro]
  | false =>
    by_cases h : i < disk.blocks.size
    · simp [MemoryDisk.write, hro, h]
    · simp [MemoryDisk.write, hro, h, Nat.le_of_not_lt h]

/-- Storing a block changes that block. -/
theorem blockAt_setIfInBounds {disk : MemoryDisk} {i : Nat} (b : Block) (h : i < disk.blocks.size)
    (t : Transfers) :
    blockAt { disk with blocks := disk.blocks.setIfInBounds i b, transfers := t } =
      Function.update disk.blockAt i b := by
  funext j
  by_cases hj : j = i
  · subst hj
    simp [blockAt, h]
  · rw [Function.update_of_ne hj]
    simp [blockAt, Ne.symm hj]

instance : LawfulDevice MemoryDisk where
  content := blockAt
  read_ensures i disk := by
    by_cases h : i < disk.blocks.size
    · apply (read_apply_of_lt h).mono
      rintro r disk' ⟨rfl, rfl⟩
      exact ⟨rfl, rfl, fun b hb => (Except.ok.inj hb).symm⟩
    · apply (read_apply_of_le (Nat.le_of_not_lt h)).mono
      rintro r disk' ⟨rfl, rfl⟩
      exact ⟨rfl, rfl, fun b hb => by cases hb⟩
  write_ensures i b disk := by
    apply (write_apply disk i b).mono
    intro r disk' h
    split at h
    · rename_i hin
      obtain ⟨rfl, rfl⟩ := h
      refine ⟨?_, fun _ => blockAt_setIfInBounds b hin.2 _, fun e he => by cases he⟩
      simp [BlockDevice.info]
    · obtain ⟨⟨e, rfl, -⟩, rfl⟩ := h
      exact ⟨rfl, fun he => (by cases he), fun _ _ => rfl⟩
  flush_ensures disk := ⟨rfl, rfl⟩

/-- A disk that takes writes serves every request in range. -/
theorem serving_writable (n : Nat) :
    Serving fun disk : MemoryDisk => disk.readOnly = false ∧ disk.blocks.size = n where
  read {disk i} hS hi := by
    apply (read_apply_of_lt hi).mono
    rintro r disk' ⟨rfl, rfl⟩
    exact ⟨⟨_, rfl⟩, hS⟩
  write {disk i} b hS hi := by
    apply (write_apply disk i b).mono
    intro r disk' h
    rw [if_pos ⟨hS.1, hi⟩] at h
    obtain ⟨rfl, rfl⟩ := h
    exact ⟨rfl, hS.1, by simpa using hS.2⟩
  flush {disk} hS := by
    change (pure () : Action DeviceError MemoryDisk Unit).Ensures disk _
    exact ensures_pure.mpr ⟨rfl, hS⟩

@[simp] theorem deviceSize_blank (count : Nat) : deviceSize (blank count) = count :=
  Array.size_replicate

theorem reliable_of_writable {disk : MemoryDisk} (h : disk.readOnly = false) : Reliable disk :=
  ⟨_, serving_writable disk.blocks.size, h, rfl⟩

end MemoryDisk

/-! ## Metered devices -/

namespace Metered

variable {α : Type}

omit [BlockDevice δ] in
/-- A request within the budget reaches the device below; one without leaves that device alone. -/
theorem passOn_ensures (request : Request) (x : Action DeviceError δ α) (m : Metered δ) :
    (passOn request x).Ensures m fun r m' =>
      match m.budget.spend request with
      | none => r = .error .ioError ∧ m'.inner = m.inner ∧ m'.budget = m.budget
      | some budget => x.Ensures m.inner fun r₀ d => r = r₀ ∧ m'.inner = d ∧ m'.budget = budget := by
  unfold passOn
  cases h : m.budget.spend request with
  | none => simp [h]
  | some budget =>
    simp only [ensures_bind, ensures_modify, ensures_get, h, ensures_focus]
    apply (ensures_self x m.inner).mono
    rintro r d ⟨rfl, rfl⟩
    refine ⟨?_, rfl, trivial⟩
    cases (x m.inner).result <;> rfl

/-- Without a limit every request is within the budget. -/
@[simp] theorem spend_unlimited (request : Request) :
    Budget.unlimited.spend request = some Budget.unlimited := by
  cases request <;> rfl

/-- A metered device says of itself what the device below says. -/
theorem info_congr {m : Metered δ} {d : δ} (h : m.inner = d) : BlockDevice.info m = BlockDevice.info d :=
  congrArg (BlockDevice.info (δ := δ)) h

instance [LawfulDevice δ] : LawfulDevice (Metered δ) where
  content m := content m.inner
  read_ensures i m := by
    apply (passOn_ensures (.read i) (BlockDevice.read i) m).mono
    intro r m' h
    split at h
    · obtain ⟨rfl, hi, -⟩ := h
      exact ⟨info_congr hi, congrArg content hi, fun b hb => by cases hb⟩
    · obtain ⟨hr, hi, -⟩ := h
      obtain ⟨h₁, h₂, h₃⟩ := LawfulDevice.read_ensures i m.inner
      exact ⟨(info_congr hi).trans h₁, (congrArg content hi).trans h₂,
        fun b hb => h₃ b (hr.symm.trans hb)⟩
  write_ensures i b m := by
    apply (passOn_ensures (.write i) (BlockDevice.write i b) m).mono
    intro r m' h
    split at h
    · obtain ⟨rfl, hi, -⟩ := h
      exact ⟨info_congr hi, fun he => (by cases he), fun _ _ => congrArg content hi⟩
    · obtain ⟨hr, hi, -⟩ := h
      obtain ⟨h₁, h₂, h₃⟩ := LawfulDevice.write_ensures i b m.inner
      exact ⟨(info_congr hi).trans h₁,
        fun he => (congrArg content hi).trans (h₂ (hr.symm.trans he)),
        fun e he => (congrArg content hi).trans (h₃ e (hr.symm.trans he))⟩
  flush_ensures m := by
    apply (passOn_ensures .flush BlockDevice.flush m).mono
    intro r m' h
    split at h
    · obtain ⟨-, hi, -⟩ := h
      exact ⟨info_congr hi, congrArg content hi⟩
    · obtain ⟨-, hi, -⟩ := h
      obtain ⟨h₁, h₂⟩ := LawfulDevice.flush_ensures m.inner
      exact ⟨(info_congr hi).trans h₁, (congrArg content hi).trans h₂⟩

omit [BlockDevice δ] in
/-- A meter without limits passes on every request, and remains without limits. -/
theorem passOn_of_unlimited {request : Request} {x : Action DeviceError δ α} {m : Metered δ}
    {post : Except DeviceError α → δ → Prop} (hb : m.budget = .unlimited) (hx : x.Ensures m.inner post) :
    (passOn request x).Ensures m fun r m' => m'.budget = .unlimited ∧ post r m'.inner := by
  apply (passOn_ensures request x m).mono
  intro r m' h
  rw [hb, spend_unlimited] at h
  obtain ⟨rfl, hd, hb'⟩ := h
  exact ⟨hb', hd ▸ hx⟩

theorem serving_unlimited :
    Serving fun m : Metered δ => m.budget = .unlimited ∧ Reliable m.inner where
  read hS hi := (passOn_of_unlimited hS.1 (hS.2.read hi)).mono fun _ _ ⟨hb, hr, hd⟩ => ⟨hr, hb, hd⟩
  write b hS hi := (passOn_of_unlimited hS.1 (hS.2.write b hi)).mono fun _ _ ⟨hb, hr, hd⟩ => ⟨hr, hb, hd⟩
  flush hS := (passOn_of_unlimited hS.1 hS.2.flush).mono fun _ _ ⟨hb, hr, hd⟩ => ⟨hr, hb, hd⟩

/-- Behind a meter without limits a reliable device stays one. -/
theorem reliable_of_unlimited {m : Metered δ} (hb : m.budget = .unlimited) (h : Reliable m.inner) :
    Reliable m :=
  ⟨_, serving_unlimited, hb, h⟩

end Metered

end BlockVolume
