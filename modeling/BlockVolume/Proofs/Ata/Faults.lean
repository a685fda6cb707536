import BlockVolume.Ata.Script
import BlockVolume.Proofs.Ata.Accesses
import BlockVolume.Proofs.Ata.BlockArray

/-!
# `Proofs.Ata.Faults` — what becomes of a fault that a drive reports

Ports that record their accesses show which command a drive was given last and what it reported since. A fault
reported during a transfer ends the call with it. After the last command of a write or of a flush, the one to put
everything on the medium, the drive is only asked whether it is busy, and a fault reported then is overlooked.

## Contents
- `Access.command?`, `Access.isFault` and **`Reported`**: a fault reported while a command was the last one.
- `reported_issue`: what is reported after one more command.
- What each part of a transfer reports: `Silent`, `Faulty` and **`waitForData_makes`**.
- **`Heeds`**: what a call makes of the faults that are reported meanwhile.
- **`faults_reported`**: which faults end a call, with `fault_overlooked`.
-/

namespace BlockVolume.Ata

open BlockVolume.Action

/-! ## Commands and faults among the accesses -/

namespace Access

/-- The command that an access gives, if it gives one. -/
def command? (t : Target) : Access → Option UInt8
  | writeByte port value => if port = t.port Register.command then some value else none
  | _ => none

/-- Whether an access is a look at the status that finds the drive no longer busy, and an error or a fault. -/
def isFault (t : Target) : Access → Bool
  | readByte port value => port = t.port Register.status && !Status.isBusy value && Status.hasFault value
  | _ => false

end Access

/-- The last command among the accesses. -/
def lastCommand (t : Target) (l : List Access) : Option UInt8 :=
  (l.filterMap (Access.command? t)).getLast?

/-- Some access reports a fault, and `command` is the last command given before it. -/
def Reported (t : Target) (command : UInt8) (l : List Access) : Prop :=
  ∃ before access after, l = before ++ access :: after ∧ access.isFault t = true ∧
    lastCommand t before = some command

/-- None of the accesses gives a command. -/
def Silent (t : Target) (l : List Access) : Prop := ∀ a ∈ l, a.command? t = none

/-- Some access reports a fault, whatever was commanded before. -/
def Faulty (t : Target) (l : List Access) : Prop := ∃ a ∈ l, a.isFault t = true

variable {t : Target} {command : UInt8} {l l' : List Access}

theorem Silent.append (h : Silent t l) (h' : Silent t l') : Silent t (l ++ l') := by
  intro a ha
  exact (List.mem_append.mp ha).elim (h a) (h' a)

theorem Silent.filterMap_eq_nil (h : Silent t l) : l.filterMap (Access.command? t) = [] :=
  List.filterMap_eq_nil_iff.mpr h

/-- Before the first command nothing is reported of a command. -/
theorem Silent.not_reported (h : Silent t l) : ¬Reported t command l := by
  rintro ⟨before, access, after, rfl, -, hlast⟩
  have hbefore : Silent t before := fun a ha => h a (List.mem_append_left _ ha)
  rw [lastCommand, hbefore.filterMap_eq_nil] at hlast
  cases hlast

/-- The last access of all may be the one that reports. -/
theorem reported_of_getLast? {access : Access} (h : l.getLast? = some access) (hfault : access.isFault t = true)
    (hlast : lastCommand t l.dropLast = some command) : Reported t command l := by
  obtain ⟨before, rfl⟩ := List.getLast?_eq_some_iff.mp h
  rw [List.dropLast_concat] at hlast
  exact ⟨before, access, [], rfl, hfault, hlast⟩

theorem faulty_append : Faulty t (l ++ l') ↔ Faulty t l ∨ Faulty t l' := by
  simp only [Faulty, List.mem_append, or_and_right, exists_or]

/-- The access that gives a command. -/
def issue (t : Target) (command : UInt8) : Access := .writeByte (t.port Register.command) command

theorem command?_issue : (issue t command).command? t = some command := if_pos rfl

/-- As long as no other command is given, the last one is the last one. -/
theorem lastCommand_issue (h : Silent t l') : lastCommand t (l ++ issue t command :: l') = some command := by
  rw [lastCommand, List.filterMap_append, List.filterMap_cons_some command?_issue, h.filterMap_eq_nil,
    List.getLast?_append]
  rfl

/-- **What is reported after one more command is reported of this command.** -/
theorem reported_issue {issued : UInt8} (h : Silent t l') : Reported t command (l ++ issue t issued :: l') ↔
    Reported t command l ∨ (command = issued ∧ Faulty t l') := by
  constructor
  · rintro ⟨before, access, after, heq, hfault, hlast⟩
    -- the report comes before the command or after it, and is not the command itself
    rcases List.append_eq_append_iff.mp heq with ⟨between, rfl, hrest⟩ | ⟨between, rfl, hrest⟩
    · cases between with
      | nil =>
        obtain ⟨rfl, -⟩ := List.cons.inj hrest
        cases hfault
      | cons a between =>
        obtain ⟨rfl, rfl⟩ := List.cons.inj hrest
        have hsilent : Silent t between := fun a ha => h a (List.mem_append_left _ ha)
        rw [lastCommand_issue hsilent] at hlast
        exact Or.inr ⟨(Option.some.inj hlast).symm, access, by simp, hfault⟩
    · cases between with
      | nil =>
        obtain ⟨rfl, -⟩ := List.cons.inj hrest
        cases hfault
      | cons a between =>
        obtain ⟨rfl, -⟩ := List.cons.inj hrest
        exact Or.inl ⟨before, access, between, rfl, hfault, hlast⟩
  · rintro (⟨before, access, after, rfl, hfault, hlast⟩ | ⟨rfl, access, hmem, hfault⟩)
    · exact ⟨before, access, after ++ issue t issued :: l', by simp, hfault, hlast⟩
    · obtain ⟨before, after, rfl⟩ := List.append_of_mem hmem
      have hsilent : Silent t before := fun a ha => h a (List.mem_append_left _ ha)
      exact ⟨l ++ issue t command :: before, access, after, by simp, hfault, lastCommand_issue hsilent⟩

/-! ## Registers and words -/

variable {π : Type} [Ports π] {α β : Type}

/-- A value for any other register is no command. -/
theorem writeRegister_silent {register : UInt16} (hne : register ≠ Register.command) (value : UInt8) :
    Makes (t.writeRegister (π := Traced π) register value) fun r made => r = .ok () ∧ Silent t made := by
  apply (writeRegister_makes register value).mono
  rintro r made ⟨rfl, rfl⟩
  refine ⟨rfl, fun a ha => ?_⟩
  obtain rfl := List.mem_singleton.mp ha
  exact if_neg fun he => hne (port_inj.mp he)

theorem settle_silent : Makes (t.settle (π := Traced π)) fun r made => r = .ok () ∧ Silent t made := by
  intro p
  have hlook (p : Traced π) (_ : Nat) : ∃ a, (Ports.readByte t.channel.controlBase p).2.accesses.toList =
      p.accesses.toList ++ [a] ∧ a.command? t = none := ⟨_, Array.toList_push, rfl⟩
  obtain ⟨made, hmade, hsilent⟩ := foldl_accesses hlook (List.range 4) p
  exact ⟨made, hmade, rfl, hsilent⟩

/-- Words that are transferred neither give commands nor report anything. -/
def Transferred (t : Target) (l : List Access) : Prop := ∀ a ∈ l, a.command? t = none ∧ a.isFault t = false

theorem Transferred.silent (h : Transferred t l) : Silent t l := fun a ha => (h a ha).1

theorem Transferred.not_faulty (h : Transferred t l) : ¬Faulty t l := by
  rintro ⟨a, ha, hfault⟩
  cases hfault.symm.trans (h a ha).2

theorem transferred_read (words : List UInt16) : Transferred t (words.map (.readWord (t.port Register.data))) := by
  intro a ha
  obtain ⟨word, -, rfl⟩ := List.mem_map.mp ha
  exact ⟨rfl, rfl⟩

theorem transferred_written (words : List UInt16) :
    Transferred t (words.map (.writeWord (t.port Register.data))) := by
  intro a ha
  obtain ⟨word, -, rfl⟩ := List.mem_map.mp ha
  exact ⟨rfl, rfl⟩

/-! ## Waiting -/

theorem looks_silent (statuses : List UInt8) : Silent t (looks t statuses) := by
  intro a ha
  obtain ⟨status, -, rfl⟩ := List.mem_map.mp ha
  rfl

/-- The looks report a fault if one of the values is one. -/
theorem faulty_looks {statuses : List UInt8} : Faulty t (looks t statuses) ↔
    ∃ status ∈ statuses, Status.isBusy status = false ∧ Status.hasFault status = true := by
  have hlook (status : UInt8) : Access.isFault t (.readByte (t.port Register.status) status) = true ↔
      Status.isBusy status = false ∧ Status.hasFault status = true := by
    simp only [Access.isFault, decide_true, Bool.true_and, Bool.and_eq_true, Bool.not_eq_true']
  constructor
  · rintro ⟨a, ha, hfault⟩
    obtain ⟨status, hmem, rfl⟩ := List.mem_map.mp ha
    exact ⟨status, hmem, (hlook status).mp hfault⟩
  · rintro ⟨status, hmem, hfault⟩
    exact ⟨_, List.mem_map_of_mem hmem, (hlook status).mpr hfault⟩

/-- **A wait for a drive that is not busy overlooks what the drive reports.** -/
theorem waitNotBusy_makes : Makes (t.waitNotBusy (π := Traced π)) fun r made =>
    Silent t made ∧ r ≠ .error .deviceFault ∧ (Faulty t made → ∃ status, r = .ok status) := by
  apply (await_makes _ _).mono
  rintro r made ⟨refused, hrefused, ⟨status, rfl, -, -, rfl⟩ | ⟨rfl, -, rfl⟩⟩
  · exact ⟨looks_silent _, nofun, fun _ => ⟨status, rfl⟩⟩
  · refine ⟨looks_silent _, nofun, fun hfaulty => ?_⟩
    -- all the values that were found were busy ones
    obtain ⟨status, hmem, hidle, -⟩ := faulty_looks.mp hfaulty
    have hbusy := hrefused status hmem
    rw [hidle] at hbusy
    cases hbusy

/-- A fault that is noticed is looked up and recorded, and ends the transfer. -/
theorem complain_makes {status : UInt8} : Makes (do
    let error ← t.readRegister (π := Traced π) Register.error
    note .error ("[ata] device fault: status 0x" ++ Text.hex 2 status.toNat ++ " error 0x" ++ Text.hex 2 error.toNat)
    throw .deviceFault : Action DeviceError (Traced π) Unit) fun r made =>
      r = .error .deviceFault ∧ Silent t made := by
  intro p
  simp only [ensures_bind, ensures_note, ensures_throw]
  obtain ⟨made, hmade, value, hr, rfl⟩ := readRegister_makes (t := t) Register.error p
  rw [Ensures, hr]
  refine ⟨_, hmade, trivial, fun a ha => ?_⟩
  obtain rfl := List.mem_singleton.mp ha
  rfl

/-- **A wait for data ends with the fault that the drive reports, and only with such a fault.** -/
theorem waitForData_makes : Makes (t.waitForData (π := Traced π)) fun r made =>
    Silent t made ∧ (r = .error .deviceFault ↔ Faulty t made) := by
  have hnone {refused : List UInt8} (hrefused : ∀ status ∈ refused, (!Status.isBusy status &&
      (Status.hasFault status || Status.requestsData status)) = false) : ¬Faulty t (looks t refused) := by
    intro hfaulty
    obtain ⟨status, hmem, hidle, hfault⟩ := faulty_looks.mp hfaulty
    have hrefuse := hrefused status hmem
    rw [hidle, hfault] at hrefuse
    cases hrefuse
  unfold Target.waitForData
  apply (await_makes _ _).bind
  · rintro status made ⟨refused, hrefused, ⟨status', hr, haccept, -, rfl⟩ | ⟨hr, -⟩⟩
    · obtain rfl := Except.ok.inj hr
      have hidle : Status.isBusy status = false := by
        rw [Bool.and_eq_true, Bool.not_eq_true'] at haccept
        exact haccept.1
      cases hfault : Status.hasFault status with
      | true =>
        rw [if_pos rfl]
        apply complain_makes.mono
        rintro r more ⟨rfl, hmore⟩
        have hfaulty : Faulty t (looks t (refused ++ [status])) := faulty_looks.mpr ⟨status, by simp, hidle, hfault⟩
        exact ⟨(looks_silent _).append hmore, iff_of_true rfl (faulty_append.mpr (Or.inl hfaulty))⟩
      | false =>
        rw [if_neg Bool.false_ne_true]
        apply (Makes.pure ()).mono
        rintro r more ⟨rfl, rfl⟩
        rw [List.append_nil]
        refine ⟨looks_silent _, iff_of_false nofun fun hfaulty => ?_⟩
        obtain ⟨status', hmem, hidle', hfault'⟩ := faulty_looks.mp hfaulty
        rcases List.mem_append.mp hmem with hmem | hmem
        · exact hnone hrefused (faulty_looks.mpr ⟨status', hmem, hidle', hfault'⟩)
        · obtain rfl := List.mem_singleton.mp hmem
          cases hfault.symm.trans hfault'
    · cases hr
  · rintro e made ⟨refused, hrefused, ⟨status, hr, -⟩ | ⟨hr, -, rfl⟩⟩
    · cases hr
    · obtain rfl := Except.error.inj hr
      refine ⟨looks_silent _, iff_of_false nofun (hnone hrefused)⟩

/-! ## Commands -/

/-- A command is the last of the accesses that it takes, and without it there is none. -/
theorem sendCommand_makes (index : Nat) (command : UInt8) :
    Makes (t.sendCommand (π := Traced π) index command) fun r made =>
      (r = .ok () ∧ ∃ before, Silent t before ∧ made = before ++ [issue t command]) ∨
        ((∃ e, r = .error e ∧ e ≠ .deviceFault) ∧ Silent t made) := by
  unfold Target.sendCommand
  apply waitNotBusy_makes.bind
  · rintro status made ⟨h, -⟩
    apply (writeRegister_silent (by decide) _).andThen
    intro made₁ h₁
    apply settle_silent.andThen
    intro made₂ h₂
    apply (writeRegister_silent (by decide) _).andThen
    intro made₃ h₃
    apply (writeRegister_silent (by decide) _).andThen
    intro made₄ h₄
    apply (writeRegister_silent (by decide) _).andThen
    intro made₅ h₅
    apply (writeRegister_silent (by decide) _).andThen
    intro made₆ h₆
    apply (writeRegister_makes _ _).mono
    rintro r made₇ ⟨rfl, rfl⟩
    refine Or.inl ⟨rfl, made ++ (made₁ ++ (made₂ ++ (made₃ ++ (made₄ ++ (made₅ ++ made₆))))), ?_, ?_⟩
    · exact h.append (h₁.append (h₂.append (h₃.append (h₄.append (h₅.append h₆)))))
    · simp only [List.append_assoc]
      rfl
  · rintro e made ⟨h, hne, -⟩
    exact Or.inr ⟨⟨e, rfl, fun he => hne (congrArg Except.error he)⟩, h⟩

/-! ## Calls -/

/-- What an operation that gives the commands in a list makes of the faults that are reported meanwhile: a fault
that is reported during a transfer, and no other, is its result. -/
structure Heeds (t : Target) (commands : List UInt8) (r : Except DeviceError α) (made : List Access) : Prop where
  reported {command : UInt8} : Reported t command made → command ∈ commands
  ends : r = .error .deviceFault ↔ ∃ command ≠ Command.flushCache, Reported t command made
  overlooks : Reported t Command.flushCache made → ∃ a, r = .ok a

namespace Heeds

variable {commands : List UInt8} {r : Except DeviceError α} {made before rest : List Access} {issued : UInt8}

/-- Without a command nothing is reported. -/
theorem of_silent (h : Silent t made) (hne : r ≠ .error .deviceFault) : Heeds t commands r made where
  reported hreported := absurd hreported h.not_reported
  ends := iff_of_false hne fun ⟨_, _, hreported⟩ => h.not_reported hreported
  overlooks hreported := absurd hreported h.not_reported

/-- One command for a transfer, and a fault that ends the transfer. -/
theorem transfer (hissued : issued ≠ Command.flushCache) (hmem : issued ∈ commands) (hbefore : Silent t before)
    (hrest : Silent t rest) (hr : r = .error .deviceFault ↔ Faulty t rest) :
    Heeds t commands r (before ++ issue t issued :: rest) := by
  have hreported (command : UInt8) : Reported t command (before ++ issue t issued :: rest) ↔
      command = issued ∧ Faulty t rest := by
    rw [reported_issue hrest, or_iff_right hbefore.not_reported]
  constructor
  · intro command h
    exact ((hreported command).mp h).1 ▸ hmem
  · rw [hr]
    constructor
    · exact fun hfaulty => ⟨issued, hissued, (hreported issued).mpr ⟨rfl, hfaulty⟩⟩
    · rintro ⟨command, -, h⟩
      exact ((hreported command).mp h).2
  · intro h
    exact absurd ((hreported _).mp h).1.symm hissued

/-- A command to flush after all that, and a fault that is not looked for. -/
theorem flush {a : β} (h : Heeds t commands (.ok a : Except DeviceError β) made) (hmem : Command.flushCache ∉ commands)
    (hrest : Silent t rest) (hne : r ≠ .error .deviceFault) (hok : Faulty t rest → ∃ a, r = .ok a) :
    Heeds t (commands ++ [Command.flushCache]) r (made ++ issue t Command.flushCache :: rest) := by
  have hnone {command : UInt8} (hc : command ≠ Command.flushCache) : ¬Reported t command made := fun hreported => by
    cases h.ends.mpr ⟨command, hc, hreported⟩
  have hnone' : ¬Reported t Command.flushCache made := fun hreported => hmem (h.reported hreported)
  constructor
  · intro command hreported
    rcases (reported_issue hrest).mp hreported with hreported | ⟨rfl, -⟩
    · exact List.mem_append_left _ (h.reported hreported)
    · exact List.mem_append_right _ List.mem_cons_self
  · refine iff_of_false hne ?_
    rintro ⟨command, hc, hreported⟩
    rcases (reported_issue hrest).mp hreported with hreported | ⟨rfl, -⟩
    · exact hnone hc hreported
    · exact hc rfl
  · intro hreported
    rcases (reported_issue hrest).mp hreported with hreported | ⟨-, hfaulty⟩
    · exact absurd hreported hnone'
    · exact hok hfaulty

/-- What an operation yields does not matter. -/
theorem map (h : Heeds t commands r made) (f : α → β) : Heeds t commands (r.map f) made := by
  cases r with
  | ok a =>
    refine ⟨h.reported, iff_of_false nofun fun hex => ?_, fun _ => ⟨f a, rfl⟩⟩
    cases h.ends.mpr hex
  | error e =>
    refine ⟨h.reported, ?_, fun hreported => ?_⟩
    · rw [← h.ends]
      exact ⟨fun he => congrArg _ (Except.error.inj he), fun he => congrArg _ (Except.error.inj he)⟩
    · obtain ⟨a, ha⟩ := h.overlooks hreported
      cases ha

end Heeds

/-- A transfer begins with its command and a wait for data, and goes on only if no fault is reported. -/
theorem transfer_heeds {issued : UInt8} {commands : List UInt8} {k : Action DeviceError (Traced π) α} (index : Nat)
    (hissued : issued ≠ Command.flushCache) (hmem : issued ∈ commands)
    (hk : ∀ before wait, Silent t before → Silent t wait → ¬Faulty t wait →
      Makes k fun r more => Heeds t commands r (before ++ issue t issued :: (wait ++ more))) :
    Makes (t.sendCommand index issued >>= fun _ => t.waitForData >>= fun _ => k) (Heeds t commands) := by
  apply (sendCommand_makes index issued).bind
  · rintro u made (⟨-, before, hbefore, rfl⟩ | ⟨⟨e, he, -⟩, -⟩)
    · apply waitForData_makes.bind
      · rintro u wait ⟨hwait, hfault⟩
        apply (hk before wait hbefore hwait fun hfaulty => by cases hfault.mpr hfaulty).mono
        intro r more h
        rwa [List.append_assoc, List.singleton_append]
      · rintro e wait ⟨hwait, hfault⟩
        rw [List.append_assoc, List.singleton_append]
        refine .transfer hissued hmem hbefore hwait ?_
        rw [← hfault]
        exact ⟨fun he => congrArg _ (Except.error.inj he), fun he => congrArg _ (Except.error.inj he)⟩
    · cases he
  · rintro e made (⟨he, -⟩ | ⟨⟨e', he, hne⟩, hsilent⟩)
    · cases he
    · obtain rfl := Except.error.inj he
      exact .of_silent hsilent fun he => hne (Except.error.inj he)

/-- The end of a write and of a flush: the command to flush, and a wait that overlooks faults. -/
theorem flushed_makes : Makes (t.writeRegister (π := Traced π) Register.command Command.flushCache >>= fun _ =>
    t.waitNotBusy >>= fun _ => pure ()) fun r made => ∃ rest, made = issue t Command.flushCache :: rest ∧
      Silent t rest ∧ r ≠ .error .deviceFault ∧ (Faulty t rest → ∃ a, r = .ok a) := by
  apply (writeRegister_makes _ _).andThen
  rintro made rfl
  apply waitNotBusy_makes.bind
  · rintro status rest ⟨hrest, -, -⟩
    apply (Makes.pure ()).mono
    rintro r more ⟨rfl, rfl⟩
    exact ⟨rest, by rw [List.append_nil]; rfl, hrest, nofun, fun _ => ⟨(), rfl⟩⟩
  · rintro e rest ⟨hrest, hne, hok⟩
    refine ⟨rest, rfl, hrest, fun he => hne (congrArg _ (Except.error.inj he)), fun hfaulty => ?_⟩
    obtain ⟨status, hstatus⟩ := hok hfaulty
    cases hstatus

theorem readSector_heeds (index : Nat) :
    Makes (t.readSector (π := Traced π) index) (Heeds t [Command.readSector]) := by
  apply transfer_heeds index (by decide) List.mem_cons_self
  intro before wait hbefore hwait hfault
  -- with the number left open, nothing is tempted to read the words one by one
  generalize Target.sectorWords = n
  intro p
  have hwords := transferred_read (t := t) (t.readWords n p).1
  refine ⟨_, readWords_accesses n p, .transfer (by decide) List.mem_cons_self hbefore (hwait.append hwords.silent) ?_⟩
  rw [faulty_append, or_iff_left hwords.not_faulty]
  exact iff_of_false nofun hfault

theorem writeSector_heeds (index : Nat) (block : Block) :
    Makes (t.writeSector (π := Traced π) index block) (Heeds t [Command.writeSector, Command.flushCache]) := by
  apply transfer_heeds index (by decide) List.mem_cons_self
  intro before wait hbefore hwait hfault
  generalize Target.wordsOfBlock block = words
  have hwords : Makes (modify (t.writeWords words) : Action DeviceError (Traced π) Unit) fun r made =>
      r = .ok () ∧ Transferred t made :=
    fun p => ⟨_, writeWords_accesses words p, rfl, transferred_written words⟩
  apply hwords.andThen
  intro moved hmoved
  apply flushed_makes.mono
  rintro r made ⟨rest, rfl, hrest, hne, hok⟩
  have htransfer : Heeds t [Command.writeSector] (.ok () : Except DeviceError Unit)
      (before ++ issue t Command.writeSector :: (wait ++ moved)) := by
    refine .transfer (by decide) List.mem_cons_self hbefore (hwait.append hmoved.silent) ?_
    rw [faulty_append, or_iff_left hmoved.not_faulty]
    exact iff_of_false nofun hfault
  have h := htransfer.flush (by decide) hrest hne hok
  simp only [List.append_assoc, List.cons_append] at h
  exact h

theorem flushCache_heeds : Makes (t.flushCache (π := Traced π)) (Heeds t [Command.flushCache]) := by
  apply waitNotBusy_makes.bind
  · rintro status before ⟨hbefore, -⟩
    apply flushed_makes.mono
    rintro r made ⟨rest, rfl, hrest, hne, hok⟩
    have hready : Heeds t [] (.ok () : Except DeviceError Unit) before := .of_silent hbefore nofun
    exact hready.flush (by decide) hrest hne hok
  · rintro e made ⟨hsilent, hne, -⟩
    exact .of_silent hsilent fun he => hne (congrArg _ (Except.error.inj he))

/-! ## Drives -/

/-- The commands that a call gives, in their order. -/
def Call.commands : Call → List UInt8
  | read _ => [Command.readSector]
  | write _ _ => [Command.writeSector, Command.flushCache]
  | flush => [Command.flushCache]

namespace Drive

variable {d : Drive (Traced π)}

omit [Ports π] in
/-- What a call makes of faults is what it makes of them through the ports. -/
theorem onPorts_heeds {x : Target → Action DeviceError (Traced π) α} {commands : List UInt8} (f : α → β)
    (hx : Makes (x d.target) (Heeds d.target commands)) : (f <$> onPorts x).Ensures d fun r d' =>
      ∃ made, d'.ports.accesses.toList = d.ports.accesses.toList ++ made ∧ Heeds d.target commands r made := by
  rw [ensures_map]
  apply (onPorts_ensures (hx d.ports)).mono
  rintro r d' ⟨p, ⟨made, hmade, hheeds⟩, rfl⟩
  exact ⟨made, hmade, hheeds.map f⟩

theorem call_heeds (d : Drive (Traced π)) (call : Call) : (call.perform (δ := Drive (Traced π))).Ensures d
    fun r d' => ∃ made, d'.ports.accesses.toList = d.ports.accesses.toList ++ made ∧
      Heeds d.target call.commands r made := by
  have hrefused {commands : List UInt8} :
      Heeds d.target commands (.error .outOfRange : Except DeviceError (Option Block)) [] :=
    .of_silent (fun _ h => by cases h) nofun
  cases call with
  | read i =>
    simp only [Call.perform, BlockDevice.read, map_bind, ensures_bind, ensures_get, ensures_liftM]
    unfold ensureInRange
    by_cases hi : i < d.identity.info.totalBlocks ∧ i < addressableSectors
    · rw [if_pos hi]
      exact onPorts_heeds some (readSector_heeds i)
    · rw [if_neg hi]
      exact ⟨[], (List.append_nil _).symm, hrefused⟩
  | write i b =>
    simp only [Call.perform, BlockDevice.write, map_bind, ensures_bind, ensures_get, ensures_liftM]
    unfold ensureInRange
    by_cases hi : i < d.identity.info.totalBlocks ∧ i < addressableSectors
    · rw [if_pos hi]
      exact onPorts_heeds (fun _ => none) (writeSector_heeds i b)
    · rw [if_neg hi]
      exact ⟨[], (List.append_nil _).symm, hrefused⟩
  | flush => exact onPorts_heeds (fun _ => none) flushCache_heeds

/-- **How a call to a drive ends where the drive reports faults**: whatever the ports answer, however patient the
drive is, and for every index, a call gives its own commands and no others; it ends with a fault exactly if one is
reported after the command of a transfer; and if one is reported after the command to flush, it succeeds. So a fault
that is reported after a command is the result of the call exactly if none is reported after the command to flush. -/
theorem faults_reported (d : Drive (Traced π)) (call : Call) : (call.perform (δ := Drive (Traced π))).Ensures d
    fun r d' => ∃ made, d'.ports.accesses.toList = d.ports.accesses.toList ++ made ∧
      (∀ command, Reported d.target command made → command ∈ call.commands) ∧
      (r = .error .deviceFault ↔ ∃ command ≠ Command.flushCache, Reported d.target command made) ∧
      (Reported d.target Command.flushCache made → ∃ a, r = .ok a) ∧
      (((∃ command, Reported d.target command made) → r = .error .deviceFault) ↔
        ¬Reported d.target Command.flushCache made) := by
  apply (call_heeds d call).mono
  rintro r d' ⟨made, hmade, h⟩
  refine ⟨made, hmade, fun _ => h.reported, h.ends, h.overlooks, fun hfault hflush => ?_, ?_⟩
  · obtain ⟨a, rfl⟩ := h.overlooks hflush
    cases hfault ⟨_, hflush⟩
  · rintro hnone ⟨command, hcommand⟩
    exact h.ends.mpr ⟨command, fun hc => hnone (hc ▸ hcommand), hcommand⟩

end Drive

theorem eq_ok_of_toOption {ε : Type} {r : Except ε α} {a : α} (h : r.toOption = some a) : r = .ok a := by
  cases r with
  | ok b => exact congrArg Except.ok (Option.some.inj h)
  | error e => cases h

/-- Ports of a drive that is told to write a sector, takes its words, and then has a fault. -/
def faultyFlush : Traced Script :=
  .ofPorts ⟨.primary, [(0x40, 1), (0x48, 1)], 0x41, 0, 0, []⟩

/-- A drive of one block behind these ports. -/
def faultyDrive : Drive (Traced Script) :=
  ⟨faultyFlush, ⟨.primary, .master, 4⟩, ⟨⟨1, false, Vector.replicate _ 0⟩, Vector.replicate _ 0⟩⟩

theorem write_faultyDrive : (Call.onDevice (.write 0 Block.zero) faultyDrive).1.toOption = some none := by
  decide +kernel

/-- **A fault that is reported after a command need not be the result of the call**: after the command to flush the
drive is no longer busy and reports an error, and the sector counts as written. -/
theorem fault_overlooked : (Call.onDevice (.write 0 Block.zero) faultyDrive).1 = .ok none ∧
    Reported faultyDrive.target Command.flushCache
      (Call.onDevice (.write 0 Block.zero) faultyDrive).2.ports.accesses.toList := by
  have hreport : (Call.onDevice (.write 0 Block.zero) faultyDrive).2.ports.accesses.toList.getLast? =
      some (.readByte 0x1F7 0x41) := by decide +kernel
  exact ⟨eq_ok_of_toOption write_faultyDrive,
    reported_of_getLast? hreport (by decide +kernel) (by decide +kernel)⟩

end BlockVolume.Ata
