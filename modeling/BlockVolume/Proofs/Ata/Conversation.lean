import BlockVolume.Proofs.Ata.Accesses
import BlockVolume.Proofs.Ata.BlockArray

/-!
# `Proofs.Ata.Conversation` — calls to a drive, stage by stage

What counts of the accesses of a call are the looks at the status, the commands and the words of the data port. Every
call goes through a fixed list of stages: it waits, commands, takes words or hands them over, and it may end early in
a wait only. So what can happen in a call is said once, by a relation between stages, results and events, and whatever
holds of a call is shown of lists of stages.

## Contents
- `Event` and `events`: what counts of the accesses.
- `Wait`, `Stage` and **`Follows`**: what may happen while stages are gone through.
- `Follows.append` and **`Follows.of_append`**: one list of stages after the other.
- **`Goes`**: an operation goes through stages, with `await_goes` for a wait and what its answer leads to.
- `probe_goes`, `readSector_goes`, `writeSector_goes` and `flushCache_goes`: the stages of the calls, and
  **`call_goes`** for the calls to a drive.
-/

namespace BlockVolume.Ata

open BlockVolume.Action

/-! ## Events -/

/-- What an access is to the drive. -/
inductive Event where
  /-- A look at the status, with what it found. -/
  | look (status : UInt8)
  | command (code : UInt8)
  /-- A word from the data port. -/
  | taken (word : UInt16)
  /-- A word for the data port. -/
  | given (word : UInt16)
  deriving DecidableEq

namespace Event

/-- Whether an event is a word on its way. -/
def isTransfer : Event → Bool
  | taken _ | given _ => true
  | _ => false

/-- The word that an event takes, if it takes one. -/
def taken? : Event → Option UInt16
  | taken word => some word
  | _ => none

end Event

/-- The words that are taken from the data port. -/
def takenWords (l : List Event) : List UInt16 := l.filterMap Event.taken?

/-- No word is transferred. -/
def Dry (l : List Event) : Prop := ∀ e ∈ l, e.isTransfer = false

theorem Dry.append {l l' : List Event} (h : Dry l) (h' : Dry l') : Dry (l ++ l') := by
  intro e he
  exact (List.mem_append.mp he).elim (h e) (h' e)

theorem dry_looks (statuses : List UInt8) : Dry (statuses.map .look) := by
  intro e he
  obtain ⟨status, -, rfl⟩ := List.mem_map.mp he
  rfl

/-- Words that are taken where none was taken before are all of them. -/
theorem Dry.takenWords_append {l : List Event} (h : Dry l) (words : List UInt16) :
    takenWords (l ++ words.map .taken) = words := by
  have hnone : takenWords l = [] := by
    apply List.filterMap_eq_nil_iff.mpr
    intro e he
    cases e with
    | taken word => cases h _ he
    | _ => rfl
  have hall : takenWords (words.map .taken) = words := by
    rw [takenWords, List.filterMap_map]
    exact List.filterMap_some
  rw [takenWords, List.filterMap_append]
  change takenWords l ++ takenWords (words.map .taken) = words
  rw [hnone, hall, List.nil_append]

/-- The event that an access is, unless it concerns one of the other registers. -/
def Access.event? (t : Target) : Access → Option Event
  | readByte port value => if port = t.port Register.status then some (.look value) else none
  | writeByte port value => if port = t.port Register.command then some (.command value) else none
  | readWord port word => if port = t.port Register.data then some (.taken word) else none
  | writeWord port word => if port = t.port Register.data then some (.given word) else none

/-- The events among accesses. -/
def events (t : Target) (l : List Access) : List Event := l.filterMap (Access.event? t)

variable {t : Target} {l l' : List Access}

theorem events_append : events t (l ++ l') = events t l ++ events t l' := List.filterMap_append

theorem events_eq_nil (h : ∀ a ∈ l, a.event? t = none) : events t l = [] := List.filterMap_eq_nil_iff.mpr h

/-- Accesses that are events of one kind. -/
theorem events_map {ι : Type} {f : ι → Access} {g : ι → Event} (h : ∀ i, (f i).event? t = some (g i)) (is : List ι) :
    events t (is.map f) = is.map g := by
  induction is with
  | nil => rfl
  | cons i is ih => rw [List.map_cons, List.map_cons, ← ih, events, List.filterMap_cons_some (h i)]; rfl

theorem events_looks (statuses : List UInt8) : events t (looks t statuses) = statuses.map .look := by
  apply events_map
  intro _
  exact if_pos rfl

theorem events_readWords (words : List UInt16) :
    events t (words.map (.readWord (t.port Register.data))) = words.map .taken := by
  apply events_map
  intro _
  exact if_pos rfl

theorem events_writeWords (words : List UInt16) :
    events t (words.map (.writeWord (t.port Register.data))) = words.map .given := by
  apply events_map
  intro _
  exact if_pos rfl

/-! ## Stages -/

/-- A wait: how many looks it takes at most, which value ends it, and which values end the call with it. -/
structure Wait where
  patience : Nat
  accept : UInt8 → Bool
  verdict : UInt8 → Option DeviceError

/-- A part of a call. -/
inductive Stage where
  | wait (w : Wait)
  | command (code : UInt8)
  | take (count : Nat)
  | give (words : List UInt16)

/-- Whether words are transferred in a stage. -/
def Stage.isTransfer : Stage → Bool
  | take _ | give _ => true
  | _ => false

/-- What may happen while stages are gone through: how it ends, and with which events. -/
inductive Follows : List Stage → Except DeviceError Unit → List Event → Prop
  | done : Follows [] (.ok ()) []
  /-- A wait ends with a value that the call goes on with. -/
  | met {w : Wait} {refused : List UInt8} {status : UInt8} {stages : List Stage} {r : Except DeviceError Unit}
      {l : List Event} (hrefused : ∀ s ∈ refused, w.accept s = false) (haccept : w.accept status = true)
      (hpatience : refused.length < w.patience) (hverdict : w.verdict status = none) (hrest : Follows stages r l) :
      Follows (.wait w :: stages) r ((refused ++ [status]).map .look ++ l)
  /-- A wait ends with a value that ends the call. -/
  | ended {w : Wait} {refused : List UInt8} {status : UInt8} {e : DeviceError} (stages : List Stage)
      (hrefused : ∀ s ∈ refused, w.accept s = false) (haccept : w.accept status = true)
      (hpatience : refused.length < w.patience) (hverdict : w.verdict status = some e) :
      Follows (.wait w :: stages) (.error e) ((refused ++ [status]).map .look)
  /-- A wait ends with its patience. -/
  | lost {w : Wait} {refused : List UInt8} (stages : List Stage) (hrefused : ∀ s ∈ refused, w.accept s = false)
      (hpatience : refused.length = w.patience) : Follows (.wait w :: stages) (.error .timeout) (refused.map .look)
  | command (code : UInt8) {stages : List Stage} {r : Except DeviceError Unit} {l : List Event}
      (hrest : Follows stages r l) : Follows (.command code :: stages) r (.command code :: l)
  | take (words : List UInt16) {stages : List Stage} {r : Except DeviceError Unit} {l : List Event}
      (hrest : Follows stages r l) : Follows (.take words.length :: stages) r (words.map .taken ++ l)
  | give (words : List UInt16) {stages : List Stage} {r : Except DeviceError Unit} {l : List Event}
      (hrest : Follows stages r l) : Follows (.give words :: stages) r (words.map .given ++ l)

namespace Follows

variable {stages stages' : List Stage} {r : Except DeviceError Unit} {e : DeviceError} {l l' : List Event}

/-- After all of its stages a call may go through more. -/
theorem append (h : Follows stages (.ok ()) l) (h' : Follows stages' r l') :
    Follows (stages ++ stages') r (l ++ l') := by
  generalize hr : (Except.ok () : Except DeviceError Unit) = r₀ at h
  induction h with
  | done => exact h'
  | met hrefused haccept hpatience hverdict _ ih =>
    rw [List.append_assoc]
    exact .met hrefused haccept hpatience hverdict (ih hr)
  | ended => cases hr
  | lost => cases hr
  | command code _ ih => exact .command code (ih hr)
  | take words _ ih =>
    rw [List.append_assoc]
    exact .take words (ih hr)
  | give words _ ih =>
    rw [List.append_assoc]
    exact .give words (ih hr)

/-- A call that has ended is not changed by the stages that it has not come to. -/
theorem cut (h : Follows stages (.error e) l) (stages' : List Stage) : Follows (stages ++ stages') (.error e) l := by
  generalize hr : (Except.error e : Except DeviceError Unit) = r₀ at h
  induction h with
  | done => cases hr
  | met hrefused haccept hpatience hverdict _ ih => exact .met hrefused haccept hpatience hverdict (ih hr)
  | ended stages hrefused haccept hpatience hverdict =>
    exact .ended (stages ++ stages') hrefused haccept hpatience hverdict
  | lost stages hrefused hpatience => exact .lost (stages ++ stages') hrefused hpatience
  | command code _ ih => exact .command code (ih hr)
  | take words _ ih => exact .take words (ih hr)
  | give words _ ih => exact .give words (ih hr)

/-- **A call goes through all of the first stages, or ends in one of them.** -/
theorem of_append (h : Follows (stages ++ stages') r l) :
    (∃ l₁ l₂, l = l₁ ++ l₂ ∧ Follows stages (.ok ()) l₁ ∧ Follows stages' r l₂) ∨
      ((∃ e, r = .error e) ∧ Follows stages r l) := by
  induction stages generalizing l with
  | nil => exact Or.inl ⟨[], l, rfl, .done, h⟩
  | cons stage stages ih =>
    cases h with
    | met hrefused haccept hpatience hverdict hrest =>
      rcases ih hrest with ⟨l₁, l₂, rfl, h₁, h₂⟩ | ⟨he, h₁⟩
      · exact Or.inl ⟨_, l₂, (List.append_assoc ..).symm, .met hrefused haccept hpatience hverdict h₁, h₂⟩
      · exact Or.inr ⟨he, .met hrefused haccept hpatience hverdict h₁⟩
    | ended _ hrefused haccept hpatience hverdict =>
      exact Or.inr ⟨⟨_, rfl⟩, .ended stages hrefused haccept hpatience hverdict⟩
    | lost _ hrefused hpatience => exact Or.inr ⟨⟨_, rfl⟩, .lost stages hrefused hpatience⟩
    | command code hrest =>
      rcases ih hrest with ⟨l₁, l₂, rfl, h₁, h₂⟩ | ⟨he, h₁⟩
      · exact Or.inl ⟨_, l₂, rfl, .command code h₁, h₂⟩
      · exact Or.inr ⟨he, .command code h₁⟩
    | take words hrest =>
      rcases ih hrest with ⟨l₁, l₂, rfl, h₁, h₂⟩ | ⟨he, h₁⟩
      · exact Or.inl ⟨_, l₂, (List.append_assoc ..).symm, .take words h₁, h₂⟩
      · exact Or.inr ⟨he, .take words h₁⟩
    | give words hrest =>
      rcases ih hrest with ⟨l₁, l₂, rfl, h₁, h₂⟩ | ⟨he, h₁⟩
      · exact Or.inl ⟨_, l₂, (List.append_assoc ..).symm, .give words h₁, h₂⟩
      · exact Or.inr ⟨he, .give words h₁⟩

/-- Words are transferred in the stages that are for them, and in no others. -/
theorem dry (h : Follows stages r l) (hdry : ∀ stage ∈ stages, stage.isTransfer = false) : Dry l := by
  induction h with
  | done => exact fun _ he => by cases he
  | met _ _ _ _ _ ih => exact (dry_looks _).append (ih fun stage hs => hdry stage (List.mem_cons_of_mem _ hs))
  | ended => exact dry_looks _
  | lost => exact dry_looks _
  | command code _ ih =>
    intro e he
    rcases List.mem_cons.mp he with rfl | he
    · rfl
    · exact ih (fun stage hs => hdry stage (List.mem_cons_of_mem _ hs)) e he
  | take words => cases hdry _ List.mem_cons_self
  | give words => cases hdry _ List.mem_cons_self

end Follows

/-! ## Operations -/

section

variable {π : Type} [Ports π] {α β : Type} {stages stages' : List Stage}

/-- The operation goes through the given stages, wherever it begins. -/
def Goes (t : Target) (x : Action DeviceError (Traced π) α) (stages : List Stage) : Prop :=
  Makes x fun r made => Follows stages (r.map fun _ => ()) (events t made)

namespace Goes

omit [Ports π] in
/-- An operation with no event but its end. -/
theorem of_quiet {x : Action DeviceError (Traced π) α}
    (h : Makes x fun r made => (∃ a, r = .ok a) ∧ events t made = []) : Goes t x [] := by
  apply h.mono
  rintro r made ⟨⟨a, rfl⟩, hquiet⟩
  rw [hquiet]
  exact .done

omit [Ports π] in
/-- Operations one after the other go through their stages one after the other. -/
theorem bind {x : Action DeviceError (Traced π) α} {f : α → Action DeviceError (Traced π) β}
    (hx : Goes t x stages) (hf : ∀ a, Goes t (f a) stages') : Goes t (x >>= f) (stages ++ stages') := by
  apply Makes.bind hx
  · intro a made hmade
    apply (hf a).mono
    intro r more hmore
    rw [events_append]
    exact hmade.append hmore
  · intro e made hmade
    exact hmade.cut stages'

end Goes

/-- A value for a register that takes no commands is no event. -/
theorem writeRegister_quiet {register : UInt16} (hne : register ≠ Register.command) (value : UInt8) :
    Goes t (t.writeRegister (π := Traced π) register value) [] := by
  apply Goes.of_quiet
  apply (writeRegister_makes register value).mono
  rintro r made ⟨rfl, rfl⟩
  refine ⟨⟨(), rfl⟩, events_eq_nil fun a ha => ?_⟩
  obtain rfl := List.mem_singleton.mp ha
  exact if_neg fun he => hne (port_inj.mp he)

theorem writeCommand_goes (code : UInt8) :
    Goes t (t.writeRegister (π := Traced π) Register.command code) [.command code] := by
  apply (writeRegister_makes Register.command code).mono
  rintro r made ⟨rfl, rfl⟩
  have hevent : events t [.writeByte (t.port Register.command) code] = [.command code] := by
    simp [events, Access.event?]
  rw [hevent]
  exact .command code .done

/-- The alternate status has a port of its own. -/
theorem controlBase_ne_status : t.channel.controlBase ≠ t.port Register.status := by
  rw [Target.port]
  cases t.channel <;> decide

theorem settle_quiet : Goes t (t.settle (π := Traced π)) [] := by
  apply Goes.of_quiet
  intro p
  have hlook (p : Traced π) (_ : Nat) : ∃ a, (Ports.readByte t.channel.controlBase p).2.accesses.toList =
      p.accesses.toList ++ [a] ∧ a.event? t = none :=
    ⟨_, Array.toList_push, if_neg controlBase_ne_status⟩
  obtain ⟨made, hmade, hquiet⟩ := foldl_accesses hlook (List.range 4) p
  exact ⟨made, hmade, ⟨(), rfl⟩, events_eq_nil hquiet⟩

omit [Ports π] in
/-- What follows a value that was looked at: the call goes on, or ends quietly as the wait says. -/
theorem follows_answer {w : Wait} {status : UInt8} {refused : List UInt8} {x : Action DeviceError (Traced π) β}
    (hrefused : ∀ s ∈ refused, w.accept s = false) (haccept : w.accept status = true)
    (hpatience : refused.length < w.patience) (hok : w.verdict status = none → Goes t x stages)
    (hend : ∀ e, w.verdict status = some e → Makes x fun r made => r = .error e ∧ events t made = []) :
    Makes x fun r more => Follows (.wait w :: stages) (r.map fun _ => ())
      (events t (looks t (refused ++ [status]) ++ more)) := by
  cases hverdict : w.verdict status with
  | none =>
    apply (hok hverdict).mono
    intro r more hmore
    rw [events_append, events_looks]
    exact .met hrefused haccept hpatience hverdict hmore
  | some e =>
    apply (hend e hverdict).mono
    rintro r more ⟨rfl, hquiet⟩
    rw [events_append, events_looks, hquiet, List.append_nil]
    exact .ended stages hrefused haccept hpatience hverdict

/-- A wait, and what its answer leads to. -/
theorem await_goes {w : Wait} (hw : w.patience = t.pollLimit) (complaint : String)
    {f : UInt8 → Action DeviceError (Traced π) β} (hok : ∀ status, w.verdict status = none → Goes t (f status) stages)
    (hend : ∀ status e, w.verdict status = some e →
      Makes (f status) fun r made => r = .error e ∧ events t made = []) :
    Goes t (t.await w.accept complaint >>= f) (.wait w :: stages) := by
  apply (await_makes w.accept complaint).bind
  · rintro status made ⟨refused, hrefused, ⟨status', hr, haccept, hpatience, rfl⟩ | ⟨hr, -⟩⟩
    · obtain rfl := Except.ok.inj hr
      exact follows_answer hrefused haccept (hw ▸ hpatience) (hok status) (hend status)
    · cases hr
  · rintro e made ⟨refused, hrefused, ⟨status, hr, -⟩ | ⟨hr, hpatience, rfl⟩⟩
    · cases hr
    · obtain rfl := Except.error.inj hr
      rw [events_looks]
      exact .lost stages hrefused (hpatience.trans hw.symm)

/-- A single look is a wait for any value at all. -/
theorem readStatus_goes {w : Wait} (hw : w.patience = 1) (hany : ∀ status, w.accept status = true)
    {f : UInt8 → Action DeviceError (Traced π) β} (hok : ∀ status, w.verdict status = none → Goes t (f status) stages)
    (hend : ∀ status e, w.verdict status = some e →
      Makes (f status) fun r made => r = .error e ∧ events t made = []) :
    Goes t (t.readRegister Register.status >>= f) (.wait w :: stages) := by
  apply (readRegister_makes Register.status).bind
  · rintro status made ⟨value, hr, rfl⟩
    obtain rfl := Except.ok.inj hr
    have hrefused : ∀ s ∈ ([] : List UInt8), w.accept s = false := fun _ h => by cases h
    exact follows_answer hrefused (hany status) (by rw [hw]; exact Nat.one_pos) (hok status) (hend status)
  · rintro e made ⟨value, hr, -⟩
    cases hr

/-! ## The stages of the calls -/

namespace Target

/-- A wait for a drive that is not busy. -/
def untilIdle (t : Target) (verdict : UInt8 → Option DeviceError) : Wait :=
  ⟨t.pollLimit, fun status => !Status.isBusy status, verdict⟩

/-- A wait for a drive that wants to transfer data, or has a fault and ends the call. -/
def untilData (t : Target) : Wait :=
  ⟨t.pollLimit, fun status => !Status.isBusy status && (Status.hasFault status || Status.requestsData status),
    fun status => if Status.hasFault status then some .deviceFault else none⟩

/-- A single look, which tells whether there is a drive at all. -/
def presence : Wait := ⟨1, fun _ => true, fun status => if status = 0 then some .notFound else none⟩

/-- How a transfer begins. -/
def opening (t : Target) (code : UInt8) : List Stage :=
  [.wait (t.untilIdle fun _ => none), .command code, .wait t.untilData]

/-- How what was written is put on the medium. -/
def closing (t : Target) : List Stage := [.command Command.flushCache, .wait (t.untilIdle fun _ => none)]

/-- How a drive is asked for. -/
def probeStages (t : Target) : List Stage :=
  [.command Command.identify, .wait presence,
    .wait (t.untilIdle fun status => if Status.hasError status then some .notFound else none), .wait t.untilData,
    .take sectorWords]

def readStages (t : Target) : List Stage := t.opening Command.readSector ++ [.take sectorWords]

def writeStages (t : Target) (block : Block) : List Stage :=
  t.opening Command.writeSector ++ .give (wordsOfBlock block) :: t.closing

def flushStages (t : Target) : List Stage := .wait (t.untilIdle fun _ => none) :: t.closing

end Target

/-- Waiting for a drive that is not busy, whatever else it reports. -/
theorem waitNotBusy_goes {f : UInt8 → Action DeviceError (Traced π) β} (hf : ∀ status, Goes t (f status) stages) :
    Goes t (t.waitNotBusy >>= f) (.wait (t.untilIdle fun _ => none) :: stages) :=
  await_goes (w := t.untilIdle fun _ => none) rfl _ (fun status _ => hf status) nofun

omit [Ports π] in
theorem pure_goes (a : α) : Goes t (pure a : Action DeviceError (Traced π) α) [] := by
  apply Goes.of_quiet
  apply (Makes.pure a).mono
  rintro r made ⟨rfl, rfl⟩
  exact ⟨⟨a, rfl⟩, rfl⟩

/-- A fault is looked up in a register of its own. -/
theorem complain_quiet {status : UInt8} : Makes (do
    let error ← t.readRegister (π := Traced π) Register.error
    note .error ("[ata] device fault: status 0x" ++ Text.hex 2 status.toNat ++ " error 0x" ++ Text.hex 2 error.toNat)
    throw .deviceFault : Action DeviceError (Traced π) Unit) fun r made =>
      r = .error .deviceFault ∧ events t made = [] := by
  intro p
  simp only [ensures_bind, ensures_note, ensures_throw]
  obtain ⟨made, hmade, value, hr, rfl⟩ := readRegister_makes (t := t) Register.error p
  rw [Ensures, hr]
  refine ⟨_, hmade, trivial, events_eq_nil fun a ha => ?_⟩
  obtain rfl := List.mem_singleton.mp ha
  exact if_neg fun he => absurd (port_inj.mp he) (by decide)

theorem waitForData_goes : Goes t (t.waitForData (π := Traced π)) [.wait t.untilData] := by
  apply await_goes (w := t.untilData) rfl
  · intro status hverdict
    cases hfault : Status.hasFault status with
    | true => simp [Target.untilData, hfault] at hverdict
    | false => exact pure_goes ()
  · intro status e hverdict
    cases hfault : Status.hasFault status with
    | true =>
      simp only [Target.untilData, hfault, ↓reduceIte, Option.some.injEq] at hverdict
      subst hverdict
      exact complain_quiet
    | false => simp [Target.untilData, hfault] at hverdict

/-- Between the wait and the command the registers are filled, which is no event. -/
theorem sendCommand_goes (index : Nat) (code : UInt8) : Goes t (t.sendCommand (π := Traced π) index code)
    [.wait (t.untilIdle fun _ => none), .command code] := by
  apply waitNotBusy_goes
  intro status
  apply (writeRegister_quiet (by decide) _).bind
  intro _
  apply settle_quiet.bind
  intro _
  apply (writeRegister_quiet (by decide) _).bind
  intro _
  apply (writeRegister_quiet (by decide) _).bind
  intro _
  apply (writeRegister_quiet (by decide) _).bind
  intro _
  apply (writeRegister_quiet (by decide) _).bind
  intro _
  exact writeCommand_goes code

theorem flushed_goes : Goes t (t.writeRegister (π := Traced π) Register.command Command.flushCache >>= fun _ =>
    t.waitNotBusy >>= fun _ => pure ()) t.closing := by
  apply (writeCommand_goes _).bind
  intro _
  apply waitNotBusy_goes
  intro _
  exact pure_goes ()

theorem giveWords_goes (words : List UInt16) :
    Goes t (modify (t.writeWords words) : Action DeviceError (Traced π) Unit) [.give words] := by
  intro p
  refine ⟨_, writeWords_accesses words p, ?_⟩
  have hgive : Follows [.give words] (.ok ()) (words.map .given ++ []) := .give words .done
  rw [List.append_nil, ← events_writeWords (t := t)] at hgive
  exact hgive

theorem writeSector_goes (index : Nat) (block : Block) :
    Goes t (t.writeSector (π := Traced π) index block) (t.writeStages block) := by
  unfold Target.writeSector
  apply (sendCommand_goes index _).bind
  intro _
  apply waitForData_goes.bind
  intro _
  apply (giveWords_goes _).bind
  intro _
  exact flushed_goes

theorem flushCache_goes : Goes t (t.flushCache (π := Traced π)) t.flushStages :=
  waitNotBusy_goes fun _ => flushed_goes

/-- Takes the given number of words from the data port, for what they are. -/
def Target.takeWords {π : Type} [Ports π] (t : Target) (n : Nat) (f : List UInt16 → α) : Action DeviceError π α :=
  fun p =>
    let (words, p') := t.readWords n p
    ⟨.ok (f words), p', []⟩

theorem takeWords_makes (n : Nat) (f : List UInt16 → α) : Makes (t.takeWords (π := Traced π) n f) fun r made =>
    ∃ words : List UInt16, words.length = n ∧ r = .ok (f words) ∧ events t made = words.map .taken := by
  intro p
  exact ⟨_, readWords_accesses n p, _, length_readWords n p, rfl, events_readWords _⟩

theorem takeWords_goes (n : Nat) (f : List UInt16 → α) : Goes t (t.takeWords (π := Traced π) n f) [.take n] := by
  apply (takeWords_makes n f).mono
  rintro r made ⟨words, rfl, rfl, hwords⟩
  rw [hwords, ← List.append_nil (words.map _)]
  exact .take words .done

omit [Ports π] in
/-- A call that is given up after a look. -/
theorem throw_quiet (e : DeviceError) (f : α → Action DeviceError (Traced π) β) :
    Makes (throw e >>= f) fun r made => r = .error e ∧ events t made = [] :=
  fun _ => ⟨[], (List.append_nil _).symm, rfl, rfl⟩

/-- Before the data of a transfer no word is moved. -/
theorem opening_dry (code : UInt8) : ∀ stage ∈ t.opening code, stage.isTransfer = false := by
  simp [Target.opening, Stage.isTransfer]

/-- A sector is read by taking its words once the drive offers them. -/
theorem readSector_eq (index : Nat) : t.readSector (π := π) index =
    t.sendCommand index Command.readSector >>= fun _ => t.waitForData >>= fun _ =>
      t.takeWords Target.sectorWords fun words => Target.blockOfWords words.toArray := by
  unfold Target.readSector
  -- with the number left open, nothing is tempted to read the words one by one
  generalize Target.sectorWords = n
  rfl

/-- The sector that is read consists of the words that were taken. -/
theorem readSector_goes (index : Nat) : Makes (t.readSector (π := Traced π) index) fun r made =>
    Follows t.readStages (r.map fun _ => ()) (events t made) ∧
      ∀ b, r = .ok b → b = Target.blockOfWords (takenWords (events t made)).toArray := by
  have hopening : Goes t (t.sendCommand (π := Traced π) index Command.readSector >>= fun _ => t.waitForData)
      (t.opening Command.readSector) := (sendCommand_goes index _).bind fun _ => waitForData_goes
  rw [readSector_eq, ← bind_assoc]
  unfold Target.readStages
  generalize Target.sectorWords = n
  apply Makes.bind hopening
  · intro _ before hbefore
    apply (takeWords_makes n fun words => Target.blockOfWords words.toArray).mono
    rintro r made ⟨words, rfl, rfl, hwords⟩
    have htake : Follows [.take words.length] (.ok ()) (words.map .taken ++ []) := .take words .done
    rw [List.append_nil] at htake
    rw [events_append, hwords]
    refine ⟨hbefore.append htake, fun b hb => ?_⟩
    rw [(hbefore.dry (opening_dry _)).takenWords_append, ← Except.ok.inj hb]
  · intro e made hmade
    exact ⟨hmade.cut _, nofun⟩

omit [Ports π] in
/-- A record is no access. -/
theorem note_goes (level : Log.Level) (text : String) (a : α) :
    Goes t (note level text >>= fun _ => pure a : Action DeviceError (Traced π) α) [] :=
  fun _ => ⟨[], (List.append_nil _).symm, .done⟩

/-- A drive that is asked for refuses the question in its first looks, or describes itself. -/
theorem probe_goes : Goes t (t.probe (π := Traced π)) t.probeStages := by
  unfold Target.probe
  apply (writeRegister_quiet (by decide) _).bind
  intro _
  apply settle_quiet.bind
  intro _
  apply (writeCommand_goes _).bind
  intro _
  apply settle_quiet.bind
  intro _
  apply readStatus_goes (w := Target.presence) rfl fun _ => rfl
  · intro status hverdict
    have hpresent : status ≠ 0 := fun habsent => nomatch ite_eq_right_iff.mp hverdict habsent
    rw [if_neg hpresent]
    apply await_goes (w := t.untilIdle fun status => if Status.hasError status then some .notFound else none) rfl
    · intro status hverdict
      have hdisk : ¬Status.hasError status = true := fun herror => nomatch ite_eq_right_iff.mp hverdict herror
      rw [if_neg hdisk]
      apply waitForData_goes.bind
      intro _
      generalize Target.sectorWords = n
      apply (takeWords_goes n id).bind
      intro words
      exact note_goes _ _ _
    · intro status e hverdict
      obtain ⟨herror, he⟩ := Option.ite_none_right_eq_some.mp hverdict
      rw [if_pos herror, ← Option.some.inj he]
      exact throw_quiet _ _
  · intro status e hverdict
    obtain ⟨habsent, he⟩ := Option.ite_none_right_eq_some.mp hverdict
    rw [← Option.some.inj he]
    simp only [if_pos habsent]
    exact throw_quiet _ _

end

/-! ## Drives -/

namespace Call

/-- The stages of a call to a drive. -/
def stages (t : Target) : Call → List Stage
  | read _ => t.readStages
  | write _ block => t.writeStages block
  | flush => t.flushStages

/-- What a call that took the given words answers. -/
def answer (words : List UInt16) : Call → Option Block
  | read _ => some (Target.blockOfWords words.toArray)
  | write _ _ | flush => none

/-- The drive has the sector that the call is about, if it is about one, and can be told which it is. -/
def InRange {π : Type} (d : Drive π) : Call → Prop
  | read i | write i _ => i < d.identity.info.totalBlocks ∧ i < addressableSectors
  | flush => True

end Call

namespace Drive

variable {π : Type} [Ports π] {α β : Type}

omit [Ports π] in
/-- What is known of the accesses of an operation is known of them where a drive performs it. -/
theorem onPorts_makes {d : Drive (Traced π)} {x : Target → Action DeviceError (Traced π) α} (f : α → β)
    {post : Except DeviceError β → List Access → Prop}
    (hx : Makes (x d.target) fun r made => post (r.map f) made) : (f <$> onPorts x).Ensures d fun r d' =>
      ∃ made, d'.ports.accesses.toList = d.ports.accesses.toList ++ made ∧ post r made := by
  rw [ensures_map]
  apply (onPorts_ensures (hx d.ports)).mono
  rintro r d' ⟨p, ⟨made, hmade, hpost⟩, rfl⟩
  exact ⟨made, hmade, hpost⟩

/-- How a call that is in range goes: through its stages, with an answer that consists of the words that it takes. -/
def Performed (t : Target) (call : Call) (r : Answer) (l : List Event) : Prop :=
  Follows (call.stages t) (r.map fun _ => ()) l ∧ ∀ a, r = .ok a → a = call.answer (takenWords l)

omit [Ports π] in
theorem map_unit (f : α → β) (r : Except DeviceError α) : ((r.map f).map fun _ => ()) = r.map fun _ => () := by
  cases r <;> rfl

omit [Ports π] in
/-- A call that yields nothing, whatever words it takes. -/
theorem performed_of_goes {t : Target} {x : Action DeviceError (Traced π) Unit} {call : Call}
    (hx : Goes t x (call.stages t)) (hnone : ∀ words, call.answer words = none) :
    Makes x fun r made => Performed t call (r.map fun _ => none) (events t made) := by
  apply hx.mono
  intro r made hmade
  refine ⟨?_, fun a ha => ?_⟩
  · rwa [map_unit]
  · rw [hnone]
    cases r with
    | ok _ => exact (Except.ok.inj ha).symm
    | error e => cases ha

theorem readSector_performed {t : Target} (index : Nat) : Makes (t.readSector (π := Traced π) index) fun r made =>
    Performed t (.read index) (r.map some) (events t made) := by
  apply (readSector_goes index).mono
  rintro r made ⟨hmade, hwords⟩
  refine ⟨?_, fun a ha => ?_⟩
  · rwa [map_unit]
  · cases r with
    | ok b =>
      rw [← Except.ok.inj ha, hwords b rfl]
      rfl
    | error e => cases ha

/-- **A call that is in range goes through its stages; any other is refused before it touches a port.** -/
theorem call_goes (d : Drive (Traced π)) (call : Call) : (call.perform (δ := Drive (Traced π))).Ensures d fun r d' =>
    (¬call.InRange d ∧ r = .error .outOfRange ∧ d' = d) ∨
      (call.InRange d ∧ ∃ made, d'.ports.accesses.toList = d.ports.accesses.toList ++ made ∧
        Performed d.target call r (events d.target made)) := by
  cases call with
  | read i =>
    simp only [Call.perform, BlockDevice.read, map_bind, ensures_bind, ensures_get, ensures_liftM]
    unfold ensureInRange
    by_cases hi : i < d.identity.info.totalBlocks ∧ i < addressableSectors
    · rw [if_pos hi]
      exact (onPorts_makes some (readSector_performed i)).mono fun _ _ h => Or.inr ⟨hi, h⟩
    · rw [if_neg hi]
      exact Or.inl ⟨hi, rfl, trivial⟩
  | write i b =>
    simp only [Call.perform, BlockDevice.write, map_bind, ensures_bind, ensures_get, ensures_liftM]
    unfold ensureInRange
    by_cases hi : i < d.identity.info.totalBlocks ∧ i < addressableSectors
    · rw [if_pos hi]
      have hwrite : Makes (d.target.writeSector (π := Traced π) i b) fun r made =>
          Performed d.target (.write i b) (r.map fun _ => none) (events d.target made) :=
        performed_of_goes (writeSector_goes i b) fun _ => rfl
      exact (onPorts_makes (fun _ => none) hwrite).mono fun _ _ h => Or.inr ⟨hi, h⟩
    · rw [if_neg hi]
      exact Or.inl ⟨hi, rfl, trivial⟩
  | flush =>
    have hflush : Makes (d.target.flushCache (π := Traced π)) fun r made =>
        Performed d.target .flush (r.map fun _ => none) (events d.target made) :=
      performed_of_goes flushCache_goes fun _ => rfl
    exact (onPorts_makes (fun _ => none) hflush).mono fun _ _ h => Or.inr ⟨trivial, h⟩

end Drive

end BlockVolume.Ata
