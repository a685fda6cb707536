import BlockVolume.Proofs.Ata.Transfer

/-!
# `Proofs.Ata.BlockArray` — an identified drive is an array of blocks

Through the ports of a working controller every call to a drive ends as it would with the blocks in an
array, and the controller is left idle for the next one. An index that the drive does not have, or that 28
bits cannot say, is refused before any port is touched.

## Contents
- `Call`, with `onDevice` and `onArray`: a call to a device, and the same call to an array; `answers` for one
  call after the other.
- **`Drive.Represents`**: the drive is in the state that stands for an array; `represents_call`, for one call,
  and `represents_answers`, for any number of them.
- `Drive.refuses`: out of range, the drive is left exactly as it was.
- **`probe_yields_blockArray`**: a drive that is found is an array from then on.
-/

namespace BlockVolume.Ata

open BlockVolume.Action

/-! ## Calls -/

/-- A call to a block device. -/
inductive Call where
  | read (index : Nat)
  | write (index : Nat) (block : Block)
  | flush
  deriving DecidableEq

/-- How a call ends: with an error or, if it is a read, with a block. -/
abbrev Answer := Except DeviceError (Option Block)

namespace Call

/-- A call to a device. -/
def perform {δ : Type} [BlockDevice δ] : Call → Action DeviceError δ (Option Block)
  | read i => some <$> BlockDevice.read i
  | write i b => (fun _ => none) <$> BlockDevice.write i b
  | flush => (fun _ => none) <$> BlockDevice.flush

/-- How a device answers a call, and the device after it. -/
def onDevice {δ : Type} [BlockDevice δ] (call : Call) (d : δ) : Answer × δ :=
  ((call.perform d).result, (call.perform d).state)

/-- How an array of blocks answers a call, and the array after it. -/
def onArray (call : Call) (blocks : Array Block) : Answer × Array Block :=
  match call with
  | read i =>
    if h : i < blocks.size ∧ i < addressableSectors then (.ok (some blocks[i]), blocks)
    else (.error .outOfRange, blocks)
  | write i b =>
    if i < blocks.size ∧ i < addressableSectors then (.ok none, blocks.setIfInBounds i b)
    else (.error .outOfRange, blocks)
  | flush => (.ok none, blocks)

end Call

/-- The answers to calls that are made one after the other, and the state after them. -/
def answers {σ : Type} (step : Call → σ → Answer × σ) : List Call → σ → List Answer × σ
  | [], s => ([], s)
  | call :: calls, s =>
    let (answer, s') := step call s
    let (rest, s'') := answers step calls s'
    (answer :: rest, s'')

/-- No call changes the size of an array. -/
theorem size_onArray (call : Call) (blocks : Array Block) : (call.onArray blocks).2.size = blocks.size := by
  cases call with
  | read i => simp only [Call.onArray]; split <;> rfl
  | write i b => simp only [Call.onArray]; split <;> simp
  | flush => rfl

theorem size_answers_onArray (calls : List Call) (blocks : Array Block) :
    (answers Call.onArray calls blocks).2.size = blocks.size := by
  induction calls generalizing blocks with
  | nil => rfl
  | cons call calls ih => exact (ih _).trans (size_onArray call blocks)

/-! ## Drives -/

variable {π : Type} [Ports π] [Controlled π] {blocks : Array Block} {d : Drive π}

namespace Drive

/-- The drive stands for an array: it knows its size, and the controller behind it is idle and has its blocks. -/
structure Represents (blocks : Array Block) (d : Drive π) : Prop where
  primary : d.target.channel = .primary
  patient : 0 < d.target.pollLimit
  total : d.identity.info.totalBlocks = blocks.size
  idle : (controller d.ports).Holds blocks .idle

/-- The check of an index goes by the size of the array. -/
theorem Represents.ensureInRange (h : d.Represents blocks) (i : Nat) : d.ensureInRange i =
    if i < blocks.size ∧ i < addressableSectors then .ok () else .error .outOfRange := by
  rw [Drive.ensureInRange, h.total]

omit [Ports π] [Controlled π] in
/-- An operation on the ports changes nothing else of the drive. -/
theorem onPorts_ensures {α : Type} {x : Target → Action DeviceError π α} {post : Except DeviceError α → π → Prop}
    (hx : (x d.target).Ensures d.ports post) : (onPorts x).Ensures d fun r d' =>
      ∃ p, post r p ∧ d' = { d with ports := p } := by
  simp only [onPorts, ensures_bind, ensures_get, ensures_focus]
  apply hx.mono
  intro r p hp
  exact ⟨p, by cases r <;> exact hp, rfl⟩

/-- Where the controller ends idle with the blocks of an array, the drive stands for that array. -/
theorem Represents.onPorts {α : Type} {a : α} {blocks' : Array Block} {x : Target → Action DeviceError π α}
    (h : d.Represents blocks) (hsize : blocks'.size = blocks.size)
    (hx : (x d.target).Ensures d.ports fun r p => r = .ok a ∧ (controller p).Holds blocks' .idle) :
    (Drive.onPorts x).Ensures d fun r d' => r = .ok a ∧ d'.Represents blocks' := by
  apply (onPorts_ensures hx).mono
  rintro r d' ⟨p, ⟨rfl, hp⟩, rfl⟩
  exact ⟨rfl, h.primary, h.patient, h.total.trans hsize.symm, hp⟩

/-- In range, a call ends as it does with the array. -/
theorem represents_call (h : d.Represents blocks) (call : Call) :
    (call.perform (δ := Drive π)).Ensures d fun r d' =>
      r = (call.onArray blocks).1 ∧ d'.Represents (call.onArray blocks).2 := by
  cases call with
  | read i =>
    simp only [Call.perform, Call.onArray, BlockDevice.read, ensures_map, ensures_bind, ensures_get, ensures_liftM,
      h.ensureInRange]
    by_cases hi : i < blocks.size ∧ i < addressableSectors
    · simp only [hi, and_self, ↓reduceIte, ↓reduceDIte]
      apply (h.onPorts rfl (readSector_ensures h.primary h.patient h.idle hi.1 hi.2)).mono
      rintro r d' ⟨rfl, hd'⟩
      exact ⟨rfl, hd'⟩
    · simp only [hi, ↓reduceIte, ↓reduceDIte]
      exact ⟨rfl, h⟩
  | write i b =>
    simp only [Call.perform, Call.onArray, BlockDevice.write, ensures_map, ensures_bind, ensures_get, ensures_liftM,
      h.ensureInRange]
    by_cases hi : i < blocks.size ∧ i < addressableSectors
    · simp only [hi, and_self, ↓reduceIte]
      apply (h.onPorts (by simp) (writeSector_ensures h.primary h.patient h.idle hi.1 hi.2 b)).mono
      rintro r d' ⟨rfl, hd'⟩
      exact ⟨rfl, hd'⟩
    · simp only [hi, ↓reduceIte]
      exact ⟨rfl, h⟩
  | flush =>
    simp only [Call.perform, Call.onArray, BlockDevice.flush, ensures_map]
    apply (h.onPorts rfl (flushCache_ensures h.primary h.patient h.idle)).mono
    rintro r d' ⟨rfl, hd'⟩
    exact ⟨rfl, hd'⟩

/-- One call after the other ends as with the array. -/
theorem represents_answers (h : d.Represents blocks) (calls : List Call) :
    (answers Call.onDevice calls d).1 = (answers Call.onArray calls blocks).1 ∧
      (answers Call.onDevice calls d).2.Represents (answers Call.onArray calls blocks).2 := by
  induction calls generalizing d blocks with
  | nil => exact ⟨rfl, h⟩
  | cons call calls ih =>
    obtain ⟨hanswer, hnext⟩ := represents_call h call
    obtain ⟨hrest, hlast⟩ := ih hnext
    exact ⟨List.cons_eq_cons.mpr ⟨hanswer, hrest⟩, hlast⟩

/-- Out of range no port is touched. -/
theorem Represents.refuses (h : d.Represents blocks) {i : Nat} (hi : min blocks.size addressableSectors ≤ i) :
    BlockDevice.read i d = ⟨.error .outOfRange, d, []⟩ ∧
      ∀ b, BlockDevice.write i b d = ⟨.error .outOfRange, d, []⟩ := by
  have hcheck : d.ensureInRange i = .error .outOfRange := by
    rw [h.ensureInRange, if_neg (by omega)]
  constructor
  · simp [BlockDevice.read, bind_apply, hcheck, liftM_apply]
  · intro b
    simp [BlockDevice.write, bind_apply, hcheck, liftM_apply]

end Drive

/-! ## The drive that was found -/

variable {t : Target} {p : π} {phase : Phase}

/-- On the primary channel, with the patience for one look, a working controller with fewer than 2^32 blocks is
found as a drive of that many blocks, whatever it was doing before. From then on the answers to all calls are those of
an array, whose blocks the disk has at every moment, and a call out of range leaves the drive as it was, the ports
included, with whatever record they keep. -/
theorem probe_yields_blockArray (ht : t.channel = .primary) (hpoll : 0 < t.pollLimit)
    (h : (controller p).Holds blocks phase) (hsize : blocks.size < UInt32.size) :
    ∃ identity : Identity, (t.probe p).result = .ok identity ∧ identity.info.totalBlocks = blocks.size ∧
      ∀ calls : List Call,
        let drive : Drive π := (answers Call.onDevice calls ⟨(t.probe p).state, t, identity⟩).2
        (answers Call.onDevice calls (⟨(t.probe p).state, t, identity⟩ : Drive π)).1 =
            (answers Call.onArray calls blocks).1 ∧
          (controller drive.ports).disk = (answers Call.onArray calls blocks).2 ∧
          ∀ i, min blocks.size addressableSectors ≤ i →
            BlockDevice.read i drive = ⟨.error .outOfRange, drive, []⟩ ∧
              ∀ b, BlockDevice.write i b drive = ⟨.error .outOfRange, drive, []⟩ := by
  obtain ⟨⟨identity, hprobe, htotal⟩, hidle⟩ := probe_ensures ht hpoll h hsize
  refine ⟨identity, hprobe, htotal, ?_⟩
  intro calls
  have hfound : Drive.Represents blocks ⟨(t.probe p).state, t, identity⟩ := ⟨ht, hpoll, htotal, hidle⟩
  obtain ⟨hanswers, hlast⟩ := Drive.represents_answers hfound calls
  refine ⟨hanswers, hlast.idle.disk, ?_⟩
  intro i hi
  exact hlast.refuses (by rwa [size_answers_onArray])

/-- The slave drive of three blocks, behind ports that record every access: what is written is read again, and the
fourth block is refused without an access. -/
theorem probe_yields_blockArray_slave :
    let slave : Target := ⟨.primary, .slave, 1⟩
    let ports := Traced.ofPorts (Controller.ofDisk (Array.replicate 3 Block.zero))
    let calls : List Call := [.write 1 (Block.ofBytes [1, 2]), .read 1, .read 2, .flush]
    ∃ identity : Identity, (slave.probe ports).result = .ok identity ∧ identity.info.totalBlocks = 3 ∧
      ∃ drive : Drive (Traced Controller),
        answers Call.onDevice calls ⟨(slave.probe ports).state, slave, identity⟩ =
            ([.ok none, .ok (some (Block.ofBytes [1, 2])), .ok (some Block.zero), .ok none], drive) ∧
          (BlockDevice.read 3 drive).result = .error .outOfRange ∧
            (BlockDevice.read 3 drive).state.ports.accesses = drive.ports.accesses := by
  intro slave ports calls
  have hworking : (controller ports).Holds (Array.replicate 3 Block.zero) .idle := ⟨rfl, rfl, rfl, rfl, rfl⟩
  obtain ⟨identity, hprobe, htotal, hcalls⟩ :=
    probe_yields_blockArray (t := slave) rfl Nat.one_pos hworking (by decide)
  refine ⟨identity, hprobe, htotal, _, Prod.ext ((hcalls calls).1.trans ?_) rfl, ?_⟩
  · simp [calls, answers, Call.onArray, addressableSectors]
  · obtain ⟨hread, -⟩ := (hcalls calls).2.2 3 (by decide)
    rw [hread]
    exact ⟨rfl, rfl⟩

end BlockVolume.Ata
