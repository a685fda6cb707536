import BlockVolume.Ata.Script
import BlockVolume.Proofs.Ata.Conversation

/-!
# `Proofs.Ata.Readiness` — whether a drive is seen to be ready before it is given a command

A drive takes a command when it is not busy, so a command should come after a look that finds it so, with nothing in
between that could make it busy again. A command for a transfer comes right after a wait for that, and so does the
command to flush where it is asked for. After a sector was written, though, the command to flush comes right after
the last word, and nobody looks whether the drive is still busy with the words.

## Contents
- **`Ready`**: the drive was last seen not to be busy; `ready_of_wait` and `not_ready_of_words`.
- **`Follows.of_command`**: which stages precede a command.
- `Call.unannounced`: the one command that does not wait.
- **`commands_ready`**: which commands of a call find the drive ready, with `flush_while_busy`.
-/

namespace BlockVolume.Ata

open BlockVolume.Action

/-- The drive was seen not to be busy, and nothing but looks came after that: neither a command nor a word. -/
def Ready (l : List Event) : Prop :=
  ∃ front status later, l = front ++ .look status :: later ∧ Status.isBusy status = false ∧
    ∀ e ∈ later, ∃ s, e = .look s

variable {t : Target} {stages : List Stage} {r : Except DeviceError Unit} {l l' front before after : List Event}
  {code : UInt8}

/-- After words a drive need not be ready: the last of them comes after every look. -/
theorem not_ready_of_words {words : List UInt16} (hwords : words ≠ []) : ¬Ready (l ++ words.map .given) := by
  rintro ⟨front, status, later, heq, -, hlater⟩
  obtain ⟨words, word, rfl⟩ := (List.eq_nil_or_concat words).resolve_left hwords
  rw [List.concat_eq_append] at heq
  have hlast : (Event.given word) ∈ Event.look status :: later := by
    have hgiven : (l ++ (words ++ [word]).map Event.given).getLast? = some (.given word) := by simp
    rw [heq, List.getLast?_append, Option.or_of_isSome (by simp)] at hgiven
    exact List.mem_of_getLast? hgiven
  rcases List.mem_cons.mp hlast with heq | hmem
  · cases heq
  · obtain ⟨s, hs⟩ := hlater _ hmem
    cases hs

/-- After a wait for a drive that is not busy, it is ready. -/
theorem ready_of_wait {verdict : UInt8 → Option DeviceError}
    (h : Follows [.wait (t.untilIdle verdict)] (.ok ()) l) : Ready l := by
  cases h with
  | @met _ refused status _ _ _ _ haccept _ _ hdone =>
    cases hdone with
    | done =>
      refine ⟨refused.map .look, status, [], ?_, (Bool.not_eq_true' _).mp haccept, fun e he => by cases he⟩
      rw [List.append_nil, List.map_append]
      rfl

/-! ## What precedes a command -/

/-- What is not in the first part of a list comes after this part. -/
theorem after_of_notMem {α : Type} {x : α} {l₀ l before after : List α} (hx : x ∉ l₀)
    (heq : l₀ ++ l = before ++ x :: after) : ∃ before', before = l₀ ++ before' ∧ l = before' ++ x :: after := by
  rcases List.append_eq_append_iff.mp heq with ⟨before', rfl, hl⟩ | ⟨rest, rfl, hrest⟩
  · exact ⟨before', rfl, hl⟩
  · cases rest with
    | nil => exact ⟨[], by simp, hrest.symm⟩
    | cons y rest =>
      obtain ⟨rfl, -⟩ := List.cons.inj hrest
      exact absurd (List.mem_append_right _ List.mem_cons_self) hx

/-- Events of another kind are no commands. -/
theorem command_notMem_map {ι : Type} {f : ι → Event} (hf : ∀ i, f i ≠ .command code) (is : List ι) :
    .command code ∉ is.map f := by
  intro hmem
  obtain ⟨i, -, hi⟩ := List.mem_map.mp hmem
  exact hf i hi

theorem command_notMem_looks (found : List UInt8) : .command code ∉ found.map Event.look :=
  command_notMem_map (fun _ h => by cases h) found

/-- **A command is a stage of its own, and the stages before it have been gone through.** -/
theorem Follows.of_command (h : Follows stages r (before ++ .command code :: after)) :
    ∃ s₁ s₂, stages = s₁ ++ .command code :: s₂ ∧ Follows s₁ (.ok ()) before := by
  generalize hl : before ++ .command code :: after = l at h
  induction h generalizing before with
  | done => cases before <;> cases hl
  | met hrefused haccept hpatience hverdict _ ih =>
    obtain ⟨before', rfl, hrest⟩ := after_of_notMem (command_notMem_looks _) hl.symm
    obtain ⟨s₁, s₂, rfl, hs₁⟩ := ih hrest.symm
    exact ⟨_ :: s₁, s₂, rfl, .met hrefused haccept hpatience hverdict hs₁⟩
  | ended =>
    have hmem : .command code ∈ before ++ .command code :: after := List.mem_append_right _ List.mem_cons_self
    exact absurd (hl ▸ hmem) (command_notMem_looks _)
  | lost =>
    have hmem : .command code ∈ before ++ .command code :: after := List.mem_append_right _ List.mem_cons_self
    exact absurd (hl ▸ hmem) (command_notMem_looks _)
  | @command code' stages _ _ _ ih =>
    cases before with
    | nil =>
      obtain ⟨he, -⟩ := List.cons.inj hl
      obtain rfl := Event.command.inj he
      exact ⟨[], stages, rfl, .done⟩
    | cons e before =>
      obtain ⟨rfl, hrest⟩ := List.cons.inj hl
      obtain ⟨s₁, s₂, rfl, hs₁⟩ := ih hrest
      exact ⟨_ :: s₁, s₂, rfl, .command code' hs₁⟩
  | take words _ ih =>
    have hwords : .command code ∉ words.map Event.taken := command_notMem_map (fun _ h => by cases h) words
    obtain ⟨before', rfl, hrest⟩ := after_of_notMem hwords hl.symm
    obtain ⟨s₁, s₂, rfl, hs₁⟩ := ih hrest.symm
    exact ⟨_ :: s₁, s₂, rfl, .take words hs₁⟩
  | give words _ ih =>
    have hwords : .command code ∉ words.map Event.given := command_notMem_map (fun _ h => by cases h) words
    obtain ⟨before', rfl, hrest⟩ := after_of_notMem hwords hl.symm
    obtain ⟨s₁, s₂, rfl, hs₁⟩ := ih hrest.symm
    exact ⟨_ :: s₁, s₂, rfl, .give words hs₁⟩

/-! ## Where the commands stand -/

variable {s₁ s₂ rest : List Stage}

/-- The command of a transfer comes after its first wait, and any other command after its beginning. -/
theorem opening_command {issued : UInt8} (h : t.opening issued ++ rest = s₁ ++ .command code :: s₂) :
    (s₁ = [.wait (t.untilIdle fun _ => none)] ∧ code = issued) ∨
      ∃ s', s₁ = t.opening issued ++ s' ∧ rest = s' ++ .command code :: s₂ := by
  unfold Target.opening at h ⊢
  rcases s₁ with _ | ⟨first, _ | ⟨second, _ | ⟨third, s'⟩⟩⟩
  · simp at h
  · simp only [List.cons_append, List.nil_append, List.cons.injEq, Stage.command.injEq] at h
    exact Or.inl ⟨congrArg (fun s => [s]) h.1.symm, h.2.1.symm⟩
  · simp at h
  · simp only [List.cons_append, List.nil_append, List.cons.injEq] at h
    obtain ⟨rfl, rfl, rfl, h⟩ := h
    exact Or.inr ⟨s', rfl, h⟩

/-- After a stage that is no command, the command to flush is the only one. -/
theorem closing_command {stage : Stage} (hstage : stage ≠ .command code)
    (h : stage :: t.closing = s₁ ++ .command code :: s₂) : s₁ = [stage] ∧ code = Command.flushCache := by
  unfold Target.closing at h
  rcases s₁ with _ | ⟨first, _ | ⟨second, _ | ⟨third, s'⟩⟩⟩
  · exact absurd (List.cons.inj h).1 hstage
  · simp only [List.cons_append, List.nil_append, List.cons.injEq, Stage.command.injEq] at h
    exact ⟨congrArg (fun s => [s]) h.1.symm, h.2.1.symm⟩
  · simp at h
  · simp at h

/-! ## Calls -/

/-- A command that a call gives without another look at the drive: the one to flush, after it wrote a sector. -/
def Call.Unseen : Call → UInt8 → Prop
  | write _ _, code => code = Command.flushCache
  | read _, _ | flush, _ => False

/-- A command comes when the drive is ready, or right after the words that were written. -/
theorem Drive.Performed.command_cases {call : Call} {r : Answer}
    (h : Performed t call r (before ++ .command code :: after)) : (Ready before ∧ ¬call.Unseen code) ∨
      (call.Unseen code ∧ ∃ i b front, call = .write i b ∧ before = front ++ (Target.wordsOfBlock b).map .given) := by
  obtain ⟨s₁, s₂, hstages, hbefore⟩ := h.1.of_command
  cases call with
  | read i =>
    rcases opening_command hstages with ⟨rfl, -⟩ | ⟨s', -, hrest⟩
    · exact Or.inl ⟨ready_of_wait hbefore, id⟩
    · cases s' <;> simp at hrest
  | write i b =>
    rcases opening_command hstages with ⟨rfl, rfl⟩ | ⟨s', rfl, hrest⟩
    · have hne : Command.writeSector ≠ Command.flushCache := by decide
      exact Or.inl ⟨ready_of_wait hbefore, hne⟩
    · obtain ⟨rfl, rfl⟩ := closing_command (fun h => by cases h) hrest
      rcases hbefore.of_append with ⟨front, given, rfl, -, hgiven⟩ | ⟨⟨e, he⟩, -⟩
      · cases hgiven with
        | give words hdone =>
          cases hdone with
          | done => exact Or.inr ⟨rfl, i, b, front, rfl, by rw [List.append_nil]⟩
      · cases he
  | flush =>
    obtain ⟨rfl, -⟩ := closing_command (fun h => by cases h) hstages
    exact Or.inl ⟨ready_of_wait hbefore, id⟩

theorem wordsOfBlock_ne_nil (b : Block) : Target.wordsOfBlock b ≠ [] := by
  rw [Target.wordsOfBlock, ne_eq, List.map_eq_nil_iff, List.range_eq_nil]
  decide

variable {π : Type} [Ports π]

/-- **Which commands of a call find the drive ready**, whatever the ports answer: every command comes after a look that
found the drive not busy, with neither a word nor a command in between, except for the command to flush after a sector
was written. That one comes right after the last word of the sector, without a look. -/
theorem Drive.commands_ready (d : Drive (Traced π)) (call : Call) :
    (call.perform (δ := Drive (Traced π))).Ensures d fun _ d' =>
      ∃ made, d'.ports.accesses.toList = d.ports.accesses.toList ++ made ∧
        ∀ before code after, events d.target made = before ++ .command code :: after →
          (Ready before ↔ ¬call.Unseen code) ∧
          (call.Unseen code → ∃ i b front, call = .write i b ∧
            before = front ++ (Target.wordsOfBlock b).map .given) := by
  apply (call_goes d call).mono
  rintro r d' (⟨-, -, rfl⟩ | ⟨-, made, hmade, hperformed⟩)
  · refine ⟨[], (List.append_nil _).symm, fun before code after h => ?_⟩
    cases before <;> cases h
  · refine ⟨made, hmade, fun before code after h => ?_⟩
    rw [h] at hperformed
    rcases hperformed.command_cases with ⟨hready, hseen⟩ | ⟨hunseen, i, b, front, hcall, rfl⟩
    · exact ⟨iff_of_true hready hseen, fun hunseen => absurd hunseen hseen⟩
    · refine ⟨iff_of_false (not_ready_of_words (wordsOfBlock_ne_nil b)) fun hseen => hseen hunseen, fun _ => ?_⟩
      exact ⟨i, b, front, hcall, rfl⟩

/-- A drive of one block that takes the words of a sector and is then busy with them for a while. -/
def slowDrive : Drive (Traced Script) :=
  ⟨.ofPorts ⟨.primary, [(0x40, 1), (0x48, 1), (0x80, 2)], 0x40, 0, 0, []⟩, ⟨.primary, .master, 4⟩,
    ⟨⟨1, false, Vector.replicate _ 0⟩, Vector.replicate _ 0⟩⟩

/-- How the write of a sector to this drive ends. -/
theorem events_slowDrive : (events slowDrive.target
      ((Call.write 0 Block.zero).perform slowDrive).state.ports.accesses.toList).drop 259 =
    [.command Command.flushCache, .look 0x80, .look 0x80, .look 0x40] := by
  decide +kernel

/-- **A command may find the drive busy**: the one to flush comes without a look at it, and the next look finds it
still busy with what was written. -/
theorem flush_while_busy : ∃ before after, ¬Ready before ∧
    events slowDrive.target ((Call.write 0 Block.zero).perform slowDrive).state.ports.accesses.toList =
      before ++ .command Command.flushCache :: .look 0x80 :: after := by
  have hends := List.take_append_drop 259 (events slowDrive.target
    ((Call.write 0 Block.zero).perform slowDrive).state.ports.accesses.toList)
  rw [events_slowDrive] at hends
  refine ⟨_, _, ?_, hends.symm⟩
  rcases Drive.call_goes slowDrive (.write 0 Block.zero) with ⟨houtside, -⟩ | ⟨-, made, hmade, hperformed⟩
  · exact absurd ⟨Nat.one_pos, by decide⟩ houtside
  · have hstart : slowDrive.ports.accesses.toList = [] := rfl
    rw [hstart, List.nil_append] at hmade
    rw [← hmade, ← hends] at hperformed
    rcases hperformed.command_cases with ⟨-, hseen⟩ | ⟨-, i, b, front, -, hbefore⟩
    · exact absurd rfl hseen
    · rw [hbefore]
      exact not_ready_of_words (wordsOfBlock_ne_nil b)

end BlockVolume.Ata
