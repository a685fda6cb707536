import BlockVolume.Proofs.Device.Lawful

/-!
# `Proofs.Device.Journal` — what a device was asked

A meter records each request before anything becomes of it. Between two of its states the record says what was
asked in the meantime, and an error that is reported then is the answer to one of these requests.

## Contents
- **`Metered.Journal`**: what was asked between two states, with `Journal.trans` and `Journal.mono`.
- `read_journal`, `write_journal`, `flush_journal`: a request asks for itself.
- **`Metered.Honest`**: only an index past the end is out of range; `honest_memoryDisk`.
-/

namespace BlockVolume

open BlockVolume.Action

/-- The block that a request is about. -/
def Request.block? : Request → Option Nat
  | .read b | .write b => some b
  | .flush => none

/-- The error in an answer. -/
def answer? {α : Type} : Except DeviceError α → Option DeviceError
  | .ok _ => none
  | .error e => some e

namespace Metered

variable {δ α : Type} [BlockDevice δ] {P Q : Request → Prop} {m m' m'' : Metered δ} {failure failure' : Option DeviceError}

/-- A device answers a request with an error. -/
def Fails (m : Metered δ) (e : DeviceError) : Request → Prop
  | .read i => (BlockDevice.read i m).result = .error e
  | .write i => ∃ b, (BlockDevice.write i b m).result = .error e
  | .flush => (BlockDevice.flush m).result = .error e

/-- Between two states of a device only what satisfies `P` was asked, and a failure that is reported is the answer
to something that satisfies `P`. -/
structure Journal (P : Request → Prop) (m : Metered δ) (failure : Option DeviceError) (m' : Metered δ) : Prop where
  info : BlockDevice.info m' = BlockDevice.info m
  requests : ∃ l, m'.requests.toList = m.requests.toList ++ l ∧ ∀ q ∈ l, P q
  answer (e : DeviceError) : failure = some e →
    ∃ (q : Request) (x : Metered δ), P q ∧ BlockDevice.info x = BlockDevice.info m ∧ Fails x e q

namespace Journal

/-- Nothing was asked. -/
theorem refl (m : Metered δ) : Journal P m none m where
  info := rfl
  requests := ⟨[], by rw [List.append_nil], fun q hq => by cases hq⟩
  answer e he := by cases he

theorem mono (h : Journal P m failure m') (hle : ∀ q, P q → Q q) : Journal Q m failure m' where
  info := h.info
  requests := by
    obtain ⟨l, hl, hP⟩ := h.requests
    exact ⟨l, hl, fun q hq => hle q (hP q hq)⟩
  answer e he := by
    obtain ⟨q, x, hq, hx⟩ := h.answer e he
    exact ⟨q, x, hle q hq, hx⟩

/-- What was asked first comes first, and a failure of either part may be reported. -/
theorem join {reported : Option DeviceError} (h : Journal P m failure m') (h' : Journal P m' failure' m'')
    (hr : reported = none ∨ reported = failure ∨ reported = failure') : Journal P m reported m'' where
  info := h'.info.trans h.info
  requests := by
    obtain ⟨l, hl, hP⟩ := h.requests
    obtain ⟨l', hl', hP'⟩ := h'.requests
    refine ⟨l ++ l', by rw [hl', hl, List.append_assoc], fun q hq => ?_⟩
    exact (List.mem_append.mp hq).elim (hP q) (hP' q)
  answer e he := by
    rcases hr with rfl | rfl | rfl
    · cases he
    · exact h.answer e he
    · obtain ⟨q, x, hq, hx, hfails⟩ := h'.answer e he
      exact ⟨q, x, hq, hx.trans h.info, hfails⟩

theorem trans (h : Journal P m none m') (h' : Journal P m' failure m'') : Journal P m failure m'' :=
  h.join h' (Or.inr (Or.inr rfl))

end Journal

/-! ## Requests -/

omit [BlockDevice δ] in
/-- A request is recorded, whatever comes of it. -/
theorem passOn_requests (q : Request) (x : Action DeviceError δ α) (m : Metered δ) :
    (passOn q x).Ensures m fun _ m' => m'.requests.toList = m.requests.toList ++ [q] := by
  unfold passOn
  cases h : m.budget.spend q with
  | none => simp [h]
  | some budget =>
    simp only [ensures_bind, ensures_modify, ensures_get, h, ensures_focus]
    exact Array.toList_push

/-- A request asks for nothing but itself. -/
theorem journal_of_passOn {q : Request} {r : Except DeviceError α} (hP : P q)
    (hinfo : BlockDevice.info m' = BlockDevice.info m) (hrequests : m'.requests.toList = m.requests.toList ++ [q])
    (hr : ∀ e, r = .error e → Fails m e q) : Journal P m (answer? r) m' where
  info := hinfo
  requests := ⟨[q], hrequests, fun q' hq' => by rwa [List.mem_singleton.mp hq']⟩
  answer e he := by
    cases r with
    | ok a => cases he
    | error e' => exact ⟨q, m, hP, rfl, hr e (congrArg Except.error (Option.some.inj he))⟩

variable [LawfulDevice δ]

theorem read_journal (i : Nat) (hP : P (.read i)) (m : Metered δ) :
    (BlockDevice.read i).Ensures m fun r m' => Journal P m (answer? r) m' := by
  have hself := ensures_self (BlockDevice.read i) m
  apply (((LawfulDevice.read_ensures i m).and (passOn_requests (.read i) (BlockDevice.read i) m)).and hself).mono
  rintro r m' ⟨⟨⟨hinfo, -⟩, hrequests⟩, rfl, -⟩
  exact journal_of_passOn hP hinfo hrequests fun e he => he

theorem write_journal (i : Nat) (b : Block) (hP : P (.write i)) (m : Metered δ) :
    (BlockDevice.write i b).Ensures m fun r m' => Journal P m (answer? r) m' := by
  have hself := ensures_self (BlockDevice.write i b) m
  apply (((LawfulDevice.write_ensures i b m).and (passOn_requests (.write i) (BlockDevice.write i b) m)).and
    hself).mono
  rintro r m' ⟨⟨⟨hinfo, -⟩, hrequests⟩, rfl, -⟩
  exact journal_of_passOn hP hinfo hrequests fun e he => ⟨b, he⟩

theorem flush_journal (hP : P .flush) (m : Metered δ) :
    (BlockDevice.flush).Ensures m fun r m' => Journal P m (answer? r) m' := by
  have hself := ensures_self BlockDevice.flush m
  apply (((LawfulDevice.flush_ensures m).and (passOn_requests .flush BlockDevice.flush m)).and hself).mono
  rintro r m' ⟨⟨⟨hinfo, -⟩, hrequests⟩, rfl, -⟩
  exact journal_of_passOn hP hinfo hrequests fun e he => he

/-! ## Requests in range -/

omit [LawfulDevice δ] in
/-- Only an index past its end is out of range for the device. -/
def Honest (d : Metered δ) : Prop :=
  ∀ (m : Metered δ) (q : Request), BlockDevice.info m = BlockDevice.info d → m.Fails .outOfRange q →
    ∃ b, q.block? = some b ∧ deviceSize d ≤ b

omit [LawfulDevice δ] in
/-- What lies on the device is never out of range. -/
theorem Honest.not_fails {d : Metered δ} (hd : d.Honest) {q : Request} (hq : ∀ b, q.block? = some b → b < deviceSize d)
    (hm : BlockDevice.info m = BlockDevice.info d) : ¬m.Fails .outOfRange q := by
  intro hfails
  obtain ⟨b, hb, hle⟩ := hd m q hm hfails
  exact absurd (hq b hb) (Nat.not_lt.mpr hle)

omit [LawfulDevice δ] in
/-- If nothing past the end is asked, nothing is reported as out of range. -/
theorem Journal.ne_outOfRange (h : Journal P m failure m') (hd : m.Honest)
    (hP : ∀ q, P q → ∀ b, q.block? = some b → b < deviceSize m) : failure ≠ some .outOfRange := by
  intro hfailure
  obtain ⟨q, x, hq, hinfo, hfails⟩ := h.answer .outOfRange hfailure
  exact hd.not_fails (hP q hq) hinfo hfails

omit [BlockDevice δ] [LawfulDevice δ] in
/-- A meter calls nothing out of range itself. -/
theorem outOfRange_of_passOn {q : Request} {x : Action DeviceError δ α}
    (h : (passOn q x m).result = .error .outOfRange) : (x m.inner).result = .error .outOfRange := by
  have hpass := passOn_ensures q x m
  unfold Ensures at hpass
  rw [h] at hpass
  split at hpass
  · cases hpass.1
  · exact hpass.1.symm

/-- A disk in memory is honest. -/
theorem honest_memoryDisk (d : Metered MemoryDisk) : d.Honest := by
  intro m q hinfo hfails
  have hsize : deviceSize d = m.inner.blocks.size := congrArg DeviceInfo.totalBlocks hinfo.symm
  rw [hsize]
  cases q with
  | read i =>
    refine ⟨i, rfl, Nat.le_of_not_lt fun hlt => ?_⟩
    cases (outOfRange_of_passOn hfails).symm.trans (MemoryDisk.read_apply_of_lt hlt).1
  | write i =>
    obtain ⟨b, hfails⟩ := hfails
    have hwrite := MemoryDisk.write_apply m.inner i b
    have hinner := outOfRange_of_passOn hfails
    unfold Ensures at hwrite
    split at hwrite
    · cases hinner.symm.trans hwrite.1
    · obtain ⟨⟨e, he, hle⟩, -⟩ := hwrite
      exact ⟨i, rfl, hle (Except.error.inj (he.symm.trans hinner))⟩
  | flush => cases outOfRange_of_passOn hfails

end Metered

end BlockVolume
