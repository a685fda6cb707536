import BlockVolume.Proofs.Ata.Conversation
import BlockVolume.Proofs.Ata.Transfer

/-!
# `Proofs.Ata.Bounded` — calls to a drive look only so often, and move a whole sector or nothing

However the ports answer, a call looks at the status in the waits of its stages and nowhere else, so the looks are
counted wait by wait, and a call gives up exactly if one of its waits does. Words are moved only after the drive asked
for data, and then all the words of a sector. A read that puts the words into a buffer one by one therefore changes
all of it or none.

## Contents
- `statuses`, `Wait.Met` and `Wait.Lost`: what the looks of a wait found; **`Follows.waited`**: the looks of a call are
  those of its waits, and `Waited.length_le`: how many there may be, by the `patience` of all of them.
- **`Invited`** and `Follows.invited`: the drive asked for the data of a command.
- `Spells` and **`Call.Whole`**: a sector's worth of words, or none.
- **`readInto`** and `readInto_eq`: reading into a buffer, word by word.
- `Status.bits`, `untilIdle_accept`, `untilData_accept`, `invited_iff`: the bits of a status that decide.
- **`bounded_transfers`**: all of this, of every call.
-/

namespace BlockVolume.Ata

open BlockVolume.Action

/-! ## Looks -/

/-- The value that a look finds. -/
def Event.look? : Event → Option UInt8
  | look status => some status
  | _ => none

/-- The values that the looks at the status find. -/
def statuses (l : List Event) : List UInt8 := l.filterMap Event.look?

variable {l l' : List Event}

theorem statuses_append : statuses (l ++ l') = statuses l ++ statuses l' := List.filterMap_append

theorem statuses_looks (found : List UInt8) : statuses (found.map .look) = found := by
  rw [statuses, List.filterMap_map]
  exact List.filterMap_some

/-- Words are no looks. -/
theorem statuses_words {f : UInt16 → Event} (hf : ∀ word, (f word).look? = none) (words : List UInt16) :
    statuses (words.map f) = [] := by
  apply List.filterMap_eq_nil_iff.mpr
  intro e he
  obtain ⟨word, -, rfl⟩ := List.mem_map.mp he
  exact hf word

namespace Wait

/-- The wait ends with a value that it accepts, which it finds after refusing the others. -/
def Met (w : Wait) (found : List UInt8) : Prop :=
  ∃ refused status, found = refused ++ [status] ∧ refused.length < w.patience ∧
    (∀ s ∈ refused, w.accept s = false) ∧ w.accept status = true

/-- The wait looks as often as its patience lasts and accepts none of the values. -/
def Lost (w : Wait) (found : List UInt8) : Prop :=
  found.length = w.patience ∧ ∀ s ∈ found, w.accept s = false

variable {w : Wait} {found : List UInt8}

theorem Met.length_le (h : w.Met found) : found.length ≤ w.patience := by
  obtain ⟨refused, status, rfl, hlength, -⟩ := h
  rw [List.length_append, List.length_singleton]
  exact hlength

/-- A value that is accepted is none that was refused. -/
theorem Met.not_lost (h : w.Met found) : ¬w.Lost found := by
  obtain ⟨refused, status, rfl, -, -, haccept⟩ := h
  rintro ⟨-, hrefused⟩
  have hrefuse := hrefused status (by simp)
  rw [haccept] at hrefuse
  cases hrefuse

end Wait

/-- The wait that a stage is, if it is one. -/
def Stage.wait? : Stage → Option Wait
  | wait w => some w
  | _ => none

/-- The waits among stages. -/
def waits (stages : List Stage) : List Wait := stages.filterMap Stage.wait?

/-- How often waits look at most, taken together. -/
def patience : List Wait → Nat
  | [] => 0
  | w :: ws => w.patience + patience ws

theorem patience_append (ws ws' : List Wait) : patience (ws ++ ws') = patience ws + patience ws' := by
  induction ws with
  | nil => exact (Nat.zero_add _).symm
  | cons w ws ih => rw [List.cons_append, patience, patience, ih, Nat.add_assoc]

/-- All the looks of a call are those of the first of the given waits, in their order. Each of these waits ends with a
value that it accepts or with its patience, and if one ends with its patience, and only then, the call times out. -/
def Waited (ws : List Wait) (r : Except DeviceError Unit) (l : List Event) : Prop :=
  ∃ made : List (Wait × List UInt8), made.map Prod.fst <+: ws ∧ (made.map Prod.snd).flatten = statuses l ∧
    (∀ p ∈ made, p.1.Met p.2 ∨ p.1.Lost p.2) ∧ (r = .error .timeout ↔ ∃ p ∈ made, p.1.Lost p.2)

namespace Waited

variable {ws : List Wait} {w : Wait} {r : Except DeviceError Unit} {found : List UInt8}

/-- One wait that is met, before the others. -/
theorem cons (hmet : w.Met found) (h : Waited ws r l) : Waited (w :: ws) r (found.map .look ++ l) := by
  obtain ⟨made, hfirst, hlooks, hends, htimeout⟩ := h
  refine ⟨(w, found) :: made, (List.prefix_cons_inj w).mpr hfirst, ?_, ?_, ?_⟩
  · rw [List.map_cons, List.flatten_cons, hlooks, statuses_append, statuses_looks]
  · intro p hp
    rcases List.mem_cons.mp hp with rfl | hp
    · exact Or.inl hmet
    · exact hends p hp
  · simp only [List.mem_cons, exists_eq_or_imp, or_iff_right hmet.not_lost]
    exact htimeout

/-- One wait, and the call ends. -/
theorem single (ws : List Wait) (h : w.Met found ∨ w.Lost found) (htimeout : r = .error .timeout ↔ w.Lost found) :
    Waited (w :: ws) r (found.map .look) := by
  refine ⟨[(w, found)], ⟨ws, rfl⟩, ?_, ?_, ?_⟩
  · rw [statuses_looks]
    exact List.append_nil found
  · intro p hp
    rw [List.mem_singleton.mp hp]
    exact h
  · simp only [List.mem_singleton, exists_eq_left]
    exact htimeout

theorem of_statuses_eq (h : Waited ws r l) (hstatuses : statuses l' = statuses l) : Waited ws r l' := by
  obtain ⟨made, hfirst, hlooks, hrest⟩ := h
  exact ⟨made, hfirst, hlooks.trans hstatuses.symm, hrest⟩

/-- There are no more looks than all the waits have patience for. -/
theorem length_le (h : Waited ws r l) : (statuses l).length ≤ patience ws := by
  obtain ⟨made, ⟨rest, hws⟩, hlooks, hends, -⟩ := h
  have hmade : (made.map Prod.snd).flatten.length ≤ patience (made.map Prod.fst) := by
    clear hws hlooks
    induction made with
    | nil => exact Nat.le_refl 0
    | cons p made ih =>
      have hp : p.2.length ≤ p.1.patience := by
        rcases hends p List.mem_cons_self with hmet | ⟨hlength, -⟩
        · exact hmet.length_le
        · exact Nat.le_of_eq hlength
      have hrest := ih fun p hp => hends p (List.mem_cons_of_mem _ hp)
      rw [List.map_cons, List.map_cons, List.flatten_cons, List.length_append, patience]
      exact Nat.add_le_add hp hrest
  rw [← hlooks, ← hws, patience_append]
  exact Nat.le_trans hmade (Nat.le_add_right _ _)

end Waited

/-- **What is looked at while stages are gone through are the looks of their waits.** -/
theorem Follows.waited {stages : List Stage} {r : Except DeviceError Unit} (h : Follows stages r l)
    (hverdict : ∀ w ∈ waits stages, ∀ status, w.verdict status ≠ some .timeout) : Waited (waits stages) r l := by
  induction h with
  | done =>
    refine ⟨[], List.prefix_rfl, rfl, (fun _ hp => by cases hp), iff_of_false nofun ?_⟩
    rintro ⟨_, hp, -⟩
    cases hp
  | met hrefused haccept hpatience _ _ ih =>
    exact .cons ⟨_, _, rfl, hpatience, hrefused, haccept⟩ (ih fun w hw => hverdict w (List.mem_cons_of_mem _ hw))
  | ended stages hrefused haccept hpatience hend =>
    have hmet : Wait.Met _ _ := ⟨_, _, rfl, hpatience, hrefused, haccept⟩
    refine .single (waits stages) (Or.inl hmet) (iff_of_false (fun he => ?_) hmet.not_lost)
    exact hverdict _ List.mem_cons_self _ (hend.trans (congrArg some (Except.error.inj he)))
  | lost stages hrefused hpatience =>
    have hlost : Wait.Lost _ _ := ⟨hpatience, hrefused⟩
    exact .single (waits stages) (Or.inr hlost) (iff_of_true rfl hlost)
  | command code _ ih => exact (ih hverdict).of_statuses_eq rfl
  | take words _ ih =>
    apply (ih hverdict).of_statuses_eq
    rw [statuses_append, statuses_words (fun _ => rfl), List.nil_append]
  | give words _ ih =>
    apply (ih hverdict).of_statuses_eq
    rw [statuses_append, statuses_words (fun _ => rfl), List.nil_append]

/-! ## Data -/

/-- After the given command the drive was looked at until it was not busy, had no fault and wanted data. -/
def Invited (code : UInt8) (l : List Event) : Prop :=
  ∃ before refused status, l = before ++ .command code :: (refused ++ [status]).map .look ∧
    Status.isBusy status = false ∧ Status.hasFault status = false ∧ Status.requestsData status = true

/-- Once a transfer has begun, the drive wants its data. -/
theorem Follows.invited {t : Target} {code : UInt8} (h : Follows (t.opening code) (.ok ()) l) : Invited code l := by
  cases h with
  | met _ _ _ _ h =>
    cases h with
    | command _ h =>
      cases h with
      | met _ haccept _ hverdict h =>
        cases h with
        | done =>
          have hfault : ¬Status.hasFault _ = true := fun hfault => nomatch ite_eq_right_iff.mp hverdict hfault
          rw [Target.untilData, Bool.and_eq_true, Bool.or_eq_true, or_iff_right hfault] at haccept
          rw [List.append_nil]
          exact ⟨_, _, _, rfl, (Bool.not_eq_true' _).mp haccept.1, Bool.eq_false_iff.mpr hfault, haccept.2⟩

/-- The words are those of the block, two bytes in each, the low one first. -/
def Spells (words : List UInt16) (b : Block) : Prop :=
  words.length = Target.sectorWords ∧
    ∀ i word, words[i]? = some word → b.byte (2 * i) = Word.lowByte word ∧ b.byte (2 * i + 1) = Word.highByte word

theorem spells_blockOfWords {words : List UInt16} (hlength : words.length = Target.sectorWords) :
    Spells words (Target.blockOfWords words.toArray) := by
  refine ⟨hlength, fun i word hword => ?_⟩
  have hi : i < Target.sectorWords := hlength ▸ (List.getElem?_eq_some_iff.mp hword).1
  have hlow : 2 * i < blockSize := by unfold Target.sectorWords at hi; omega
  have hhigh : 2 * i + 1 < blockSize := by unfold Target.sectorWords at hi; omega
  have heven : 2 * i / 2 = i := by omega
  have hodd : (2 * i + 1) / 2 = i := by omega
  unfold Target.blockOfWords
  rw [Block.byte_ofFn _ hlow, Block.byte_ofFn _ hhigh]
  simp [heven, hodd, hword]

theorem spells_wordsOfBlock (b : Block) : Spells (Target.wordsOfBlock b) b := by
  have hlength : (Target.wordsOfBlock b).length = Target.sectorWords := by simp [Target.wordsOfBlock]
  have hspells := spells_blockOfWords hlength
  rwa [blockOfWords_wordsOfBlock] at hspells

/-- The words that a call moves are a whole sector or none. A sector is moved only when the drive asked for it, and a
call that answers with a block has taken the words of that block. -/
def Call.Whole (r : Answer) (l : List Event) : Call → Prop
  | read _ => ((∃ e, r = .error e) ∧ Dry l) ∨ ∃ b before words, r = .ok (some b) ∧ l = before ++ words.map .taken ∧
      Dry before ∧ Invited Command.readSector before ∧ Spells words b
  | write _ b => ((∃ e, r = .error e) ∧ Dry l) ∨ ∃ before words after, l = before ++ words.map .given ++ after ∧
      Dry before ∧ Invited Command.writeSector before ∧ Spells words b ∧ Dry after
  | flush => Dry l

/-- A call that went through its stages moved a whole sector or nothing. -/
theorem Drive.Performed.whole {t : Target} {call : Call} {r : Answer} (h : Performed t call r l) : call.Whole r l := by
  obtain ⟨hstages, hanswer⟩ := h
  have hfailed {e : DeviceError} (he : (r.map fun _ => ()) = .error e) : ∃ e, r = .error e := by
    cases r with
    | ok _ => cases he
    | error e => exact ⟨e, rfl⟩
  cases call with
  | read i =>
    rcases hstages.of_append with ⟨before, rest, rfl, hbefore, hrest⟩ | ⟨⟨e, he⟩, hopening⟩
    · have hdry := hbefore.dry (opening_dry _)
      obtain ⟨words, hlength, rfl, hdone⟩ : ∃ words : List UInt16, words.length = Target.sectorWords ∧
          rest = words.map .taken ∧ .ok () = r.map fun _ => () := by
        generalize Target.sectorWords = n at hrest
        generalize hr : (r.map fun _ => ()) = r' at hrest
        cases hrest with
        | take words hrest => cases hrest with | done => exact ⟨words, rfl, List.append_nil _, rfl⟩
      cases r with
      | ok a =>
        have ha := hanswer a rfl
        rw [hdry.takenWords_append] at ha
        exact Or.inr ⟨_, before, words, congrArg _ ha, rfl, hdry, hbefore.invited, spells_blockOfWords hlength⟩
      | error e => cases hdone
    · exact Or.inl ⟨hfailed he, hopening.dry (opening_dry _)⟩
  | write i b =>
    rcases hstages.of_append with ⟨before, rest, rfl, hbefore, hrest⟩ | ⟨⟨e, he⟩, hopening⟩
    · cases hrest with
      | give words hrest =>
        refine Or.inr ⟨before, _, _, (List.append_assoc ..).symm, hbefore.dry (opening_dry _), hbefore.invited,
          spells_wordsOfBlock b, hrest.dry ?_⟩
        simp [Target.closing, Stage.isTransfer]
    · exact Or.inl ⟨hfailed he, hopening.dry (opening_dry _)⟩
  | flush =>
    apply hstages.dry
    simp [Call.stages, Target.flushStages, Target.closing, Stage.isTransfer]

/-! ## Buffers -/

section

variable {σ α : Type}

/-- An operation beside a buffer, which it leaves alone. -/
def beside (x : Action DeviceError σ α) : Action DeviceError (σ × Block) α :=
  focus Prod.fst (fun s sb => (s, sb.2)) id x

/-- Puts the block that an operation yields into a buffer; after an error the buffer is as it was. -/
def storing (x : Action DeviceError σ Block) : Action DeviceError (σ × Block) Unit := fun (s, buffer) =>
  let y := x s
  ⟨y.result.map fun _ => (), (y.state, y.result.toOption.getD buffer), y.log⟩

theorem ensures_storing (x : Action DeviceError σ Block) (s : σ) (buffer : Block) :
    (storing x).Ensures (s, buffer) fun r s' => s'.1 = (x s).state ∧
      ((∃ b, (x s).result = .ok b ∧ r = .ok () ∧ s'.2 = b) ∨
        ∃ e, (x s).result = .error e ∧ r = .error e ∧ s'.2 = buffer) := by
  unfold Ensures storing
  dsimp only
  rcases x s with ⟨e | b, s', log⟩
  · exact ⟨rfl, Or.inr ⟨e, rfl, rfl, rfl⟩⟩
  · exact ⟨rfl, Or.inl ⟨b, rfl, rfl, rfl⟩⟩

/-- Only the last part of an operation matters to the buffer. -/
theorem storing_bind (x : Action DeviceError σ α) (f : α → Action DeviceError σ Block) :
    storing (x >>= f) = beside x >>= fun a => storing (f a) := by
  funext ⟨s, buffer⟩
  simp only [storing, beside, focus, bind_apply]
  rcases x s with ⟨_ | _, s', log⟩ <;> rfl

end

section

variable {π : Type} [Ports π]

/-- Takes words from the data port and puts them into a buffer one by one, from the given word on. -/
def Target.fillWords (t : Target) : (i n : Nat) → π × Block → π × Block
  | _, 0, s => s
  | i, n + 1, (p, buffer) =>
    let (word, p') := Ports.readWord (t.port Register.data) p
    fillWords t (i + 1) n (p', buffer.overlay (2 * i) [Word.lowByte word, Word.highByte word])

/-- Reads a sector into a buffer. -/
def Target.readSectorInto (t : Target) (index : Nat) : Action DeviceError (π × Block) Unit := do
  beside (t.sendCommand index Command.readSector)
  beside t.waitForData
  modify (t.fillWords 0 Target.sectorWords)

theorem fillWords_eq {t : Target} (i n : Nat) (p : π) (buffer : Block) : t.fillWords i n (p, buffer) =
    ((t.readWords n p).2, buffer.overlay (2 * i) (bytesOfWords (t.readWords n p).1)) := by
  induction n generalizing i p buffer with
  | zero => rfl
  | succ n ih =>
    change t.fillWords (i + 1) n ((Ports.readWord (t.port Register.data) p).2, _) = _
    rw [ih]
    rfl

/-- The words that spell a block are the words of that block. -/
theorem Spells.wordsOfBlock_eq {words : List UInt16} {b : Block} (h : Spells words b) :
    Target.wordsOfBlock b = words := by
  obtain ⟨hlength, hwords⟩ := h
  apply List.ext_getElem?
  intro i
  by_cases hi : i < Target.sectorWords
  · have hword : words[i]? = some (words.get ⟨i, hlength ▸ hi⟩) := List.getElem?_eq_getElem _
    obtain ⟨hlow, hhigh⟩ := hwords i _ hword
    rw [Target.wordsOfBlock, List.getElem?_map, List.getElem?_range hi, Option.map_some, hlow, hhigh,
      Word.ofBytes16_lowByte_highByte, hword]
  · rw [List.getElem?_eq_none (by simpa [Target.wordsOfBlock] using hi), List.getElem?_eq_none (by omega)]

/-- All the words of a sector fill the whole buffer. -/
theorem fillWords_sector {t : Target} (p : π) (buffer : Block) : t.fillWords 0 Target.sectorWords (p, buffer) =
    ((t.readWords Target.sectorWords p).2, Target.blockOfWords (t.readWords Target.sectorWords p).1.toArray) := by
  have hlength : (t.readWords Target.sectorWords p).1.length = Target.sectorWords := length_readWords _ p
  have hspells := (spells_blockOfWords hlength).wordsOfBlock_eq
  rw [fillWords_eq]
  generalize (t.readWords Target.sectorWords p) = taken at hspells
  conv => lhs; rw [← hspells, overlay_wordsOfBlock]

theorem readSectorInto_eq (t : Target) (index : Nat) :
    t.readSectorInto (π := π) index = storing (t.readSector index) := by
  have hfill (p : π) (buffer : Block) := fillWords_sector (t := t) p buffer
  rw [readSector_eq, Target.readSectorInto]
  generalize Target.sectorWords = n at hfill ⊢
  rw [storing_bind]
  congr 1
  funext _
  rw [storing_bind]
  congr 1
  funext _ ⟨p, buffer⟩
  rw [modify_apply, hfill]
  rfl

namespace Drive

/-- Runs an operation on the ports of a drive and on a buffer. -/
def onPortsAndBuffer {α : Type} (x : Target → Action DeviceError (π × Block) α) :
    Action DeviceError (Drive π × Block) α := do
  let s ← get
  focus (fun s => (s.1.ports, s.2)) (fun pb s => ({ s.1 with ports := pb.1 }, pb.2)) id (x s.1.target)

/-- Reads a block into a buffer. -/
def readInto (index : Nat) : Action DeviceError (Drive π × Block) Unit := do
  let drive ← beside get
  beside (liftM (drive.ensureInRange index))
  onPortsAndBuffer fun t => t.readSectorInto index

omit [Ports π] in
theorem onPortsAndBuffer_storing (x : Target → Action DeviceError π Block) :
    onPortsAndBuffer (fun t => storing (x t)) = storing (onPorts x) := by
  funext ⟨d, buffer⟩
  simp only [onPortsAndBuffer, onPorts, storing, focus, bind_apply, get_apply]
  rcases x d.target d.ports with ⟨_ | _, p, log⟩ <;> rfl

/-- **To read into a buffer, word by word, is to read a block and then to put it there.** -/
theorem readInto_eq (index : Nat) : readInto (π := π) index = storing (BlockDevice.read index) := by
  have hsector : (fun t : Target => t.readSectorInto (π := π) index) = fun t => storing (t.readSector index) := by
    funext t
    exact readSectorInto_eq t index
  rw [readInto, hsector, onPortsAndBuffer_storing]
  change _ = storing (get >>= fun d => liftM (d.ensureInRange index) >>= fun _ => onPorts fun t => t.readSector index)
  rw [storing_bind]
  congr 1
  funext d
  rw [storing_bind]

end Drive

end

/-! ## Calls -/

/-- The waits of a call. -/
def Call.waits (t : Target) : Call → List Wait
  | read _ => [t.untilIdle fun _ => none, t.untilData]
  | write _ _ => [t.untilIdle fun _ => none, t.untilData, t.untilIdle fun _ => none]
  | flush => [t.untilIdle fun _ => none, t.untilIdle fun _ => none]

/-- The waits in which a drive is asked for; the first of them is a single look. -/
def Target.probeWaits (t : Target) : List Wait :=
  [presence, t.untilIdle fun status => if Status.hasError status then some .notFound else none, t.untilData]

theorem Call.waits_stages (t : Target) (call : Call) : Ata.waits (call.stages t) = call.waits t := by
  cases call <;> rfl

/-- A value that ends a call ends it with an error of its own, and not as the end of the patience does. -/
theorem verdict_ne_timeout {c : Prop} [Decidable c] {e : DeviceError} (he : e ≠ .timeout) :
    (if c then some e else none) ≠ some .timeout := by
  split
  · exact fun h => he (Option.some.inj h)
  · exact nofun

theorem Target.untilData_verdict (t : Target) (status : UInt8) : t.untilData.verdict status ≠ some .timeout :=
  verdict_ne_timeout nofun

theorem Call.verdict_ne_timeout (t : Target) (call : Call) :
    ∀ w ∈ call.waits t, ∀ status, w.verdict status ≠ some .timeout := by
  cases call with
  | read =>
    simp only [Call.waits, List.forall_mem_cons]
    exact ⟨fun _ => nofun, t.untilData_verdict, nofun⟩
  | write =>
    simp only [Call.waits, List.forall_mem_cons]
    exact ⟨fun _ => nofun, t.untilData_verdict, fun _ => nofun, nofun⟩
  | flush =>
    simp only [Call.waits, List.forall_mem_cons]
    exact ⟨fun _ => nofun, fun _ => nofun, nofun⟩

theorem Target.probe_verdict_ne_timeout (t : Target) :
    ∀ w ∈ t.probeWaits, ∀ status, w.verdict status ≠ some .timeout := by
  simp only [Target.probeWaits, List.forall_mem_cons]
  exact ⟨fun _ => verdict_ne_timeout nofun, fun _ => verdict_ne_timeout nofun, t.untilData_verdict, nofun⟩

theorem Call.patience_waits (t : Target) (call : Call) :
    patience (call.waits t) = (call.waits t).length * t.pollLimit := by
  cases call with
  | read => show t.pollLimit + (t.pollLimit + 0) = 2 * t.pollLimit; omega
  | write => show t.pollLimit + (t.pollLimit + (t.pollLimit + 0)) = 3 * t.pollLimit; omega
  | flush => show t.pollLimit + (t.pollLimit + 0) = 2 * t.pollLimit; omega

theorem Target.patience_probeWaits (t : Target) : patience t.probeWaits = 2 * t.pollLimit + 1 := by
  show 1 + (t.pollLimit + (t.pollLimit + 0)) = 2 * t.pollLimit + 1
  omega

variable {π : Type} [Ports π]

/-- A drive that is asked for is looked at once, and then in two waits. -/
theorem probe_bounded (t : Target) : Makes (t.probe (π := Traced π)) fun r made =>
    (statuses (events t made)).length ≤ 2 * t.pollLimit + 1 ∧
      Waited t.probeWaits (r.map fun _ => ()) (events t made) := by
  apply probe_goes.mono
  intro r made hmade
  have hwaited : Waited t.probeWaits _ _ := hmade.waited t.probe_verdict_ne_timeout
  exact ⟨t.patience_probeWaits ▸ hwaited.length_le, hwaited⟩

theorem Drive.Performed.waited {t : Target} {call : Call} {r : Answer} (h : Performed t call r l) :
    (statuses l).length ≤ (call.waits t).length * t.pollLimit ∧ Waited (call.waits t) (r.map fun _ => ()) l := by
  have hwaited := h.1.waited (call.waits_stages t ▸ call.verdict_ne_timeout t)
  rw [call.waits_stages t] at hwaited
  exact ⟨call.patience_waits t ▸ hwaited.length_le, hwaited⟩

/-! ## Bits -/

/-- Which bits of a status are meant: the drive is busy, wants data, reports an error, has a fault. -/
theorem Status.bits (status : UInt8) : isBusy status = status.toNat.testBit 7 ∧
    requestsData status = status.toNat.testBit 3 ∧ hasError status = status.toNat.testBit 0 ∧
      hasFault status = (status.toNat.testBit 0 || status.toNat.testBit 5) := by
  have hall : ∀ n < 256, isBusy (UInt8.ofNat n) = n.testBit 7 ∧ requestsData (UInt8.ofNat n) = n.testBit 3 ∧
      hasError (UInt8.ofNat n) = n.testBit 0 ∧ hasFault (UInt8.ofNat n) = (n.testBit 0 || n.testBit 5) := by
    decide +kernel
  have hstatus := hall status.toNat status.toNat_lt
  rwa [UInt8.ofNat_toNat] at hstatus

/-- A wait for an idle drive ends with the values of which the highest bit is clear. -/
theorem Target.untilIdle_accept (t : Target) (verdict : UInt8 → Option DeviceError) (status : UInt8) :
    (t.untilIdle verdict).accept status = !status.toNat.testBit 7 := by
  obtain ⟨hbusy, -⟩ := Status.bits status
  simp only [untilIdle, hbusy]

/-- A wait for data ends with those of which one of three other bits is set as well. -/
theorem Target.untilData_accept (t : Target) (status : UInt8) : t.untilData.accept status =
    (!status.toNat.testBit 7 && (status.toNat.testBit 0 || status.toNat.testBit 5 || status.toNat.testBit 3)) := by
  obtain ⟨hbusy, hdata, -, hfault⟩ := Status.bits status
  simp only [untilData, hbusy, hdata, hfault]

/-- A drive asks for the data of a command with three bits clear and one set. -/
theorem invited_iff {code : UInt8} : Invited code l ↔
    ∃ before refused status, l = before ++ .command code :: (refused ++ [status]).map .look ∧
      status.toNat.testBit 7 = false ∧ status.toNat.testBit 0 = false ∧ status.toNat.testBit 5 = false ∧
        status.toNat.testBit 3 = true := by
  refine exists_congr fun before => exists_congr fun refused => exists_congr fun status => ?_
  obtain ⟨hbusy, hdata, -, hfault⟩ := Status.bits status
  rw [hbusy, hdata, hfault, Bool.or_eq_false_iff, and_assoc]

/-! ## Bounds -/

/-- **Calls to a drive are bounded and move a whole sector or nothing**, whatever the ports answer and however patient
the drive is. To ask for a drive takes one look at the status and two waits; a call that is out of range touches no
port; any other looks at the status in two or three waits at most, gives up exactly if one of these waits does, and
moves the words of a whole sector, when the drive asked for them, or none. A buffer to read into holds the block after
a success, and after an error what it held before. -/
theorem Drive.bounded_transfers (t : Target) (d : Drive (Traced π)) (call : Call) (index : Nat) (buffer : Block) :
    (Makes (t.probe (π := Traced π)) fun r made =>
      (statuses (events t made)).length ≤ 2 * t.pollLimit + 1 ∧
        Waited t.probeWaits (r.map fun _ => ()) (events t made)) ∧
    ((call.perform (δ := Drive (Traced π))).Ensures d fun r d' =>
      (¬call.InRange d ∧ r = .error .outOfRange ∧ d' = d) ∨
        (call.InRange d ∧ ∃ made, d'.ports.accesses.toList = d.ports.accesses.toList ++ made ∧
          (statuses (events d.target made)).length ≤ (call.waits d.target).length * d.target.pollLimit ∧
          Waited (call.waits d.target) (r.map fun _ => ()) (events d.target made) ∧
          call.Whole r (events d.target made))) ∧
    (readInto index).Ensures (d, buffer) fun r s => s.1 = (BlockDevice.read index d).state ∧
      ((∃ b, (BlockDevice.read index d).result = .ok b ∧ r = .ok () ∧ s.2 = b) ∨
        ∃ e, (BlockDevice.read index d).result = .error e ∧ r = .error e ∧ s.2 = buffer) := by
  refine ⟨probe_bounded t, ?_, ?_⟩
  · apply (call_goes d call).mono
    rintro r d' (houtside | ⟨hinside, made, hmade, hperformed⟩)
    · exact Or.inl houtside
    · exact Or.inr ⟨hinside, made, hmade, hperformed.waited.1, hperformed.waited.2, hperformed.whole⟩
  · rw [readInto_eq]
    exact ensures_storing (BlockDevice.read index) d buffer

end BlockVolume.Ata
