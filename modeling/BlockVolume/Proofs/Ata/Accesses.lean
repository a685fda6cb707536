import BlockVolume.Ata.Drive
import BlockVolume.Ata.Trace
import BlockVolume.Proofs.Action.Ensures

/-!
# `Proofs.Ata.Accesses` — the accesses that an operation makes

Ports that record their accesses show what an operation did with them, whatever the ports answered. Here every part of
a call to a drive is specified by the accesses that it adds to the record, word for word and look for look.

## Contents
- **`Makes`**: the result of an operation and the accesses that it makes, with its rules for sequences.
- `readRegister_makes`, `writeRegister_makes`, `readWords_accesses` and `writeWords_accesses`: registers and words.
- **`poll_accesses`** and **`await_makes`**: the looks of a wait, and how many there are.
-/

namespace BlockVolume.Ata

open BlockVolume.Action

variable {π : Type} [Ports π] {α β : Type} {t : Target}

/-- Wherever the operation begins, its result and the accesses that it makes satisfy `post`. -/
def Makes (x : Action DeviceError (Traced π) α) (post : Except DeviceError α → List Access → Prop) : Prop :=
  ∀ p, x.Ensures p fun r p' => ∃ made, p'.accesses.toList = p.accesses.toList ++ made ∧ post r made

namespace Makes

omit [Ports π] in
theorem mono {x : Action DeviceError (Traced π) α} {post post' : Except DeviceError α → List Access → Prop}
    (h : Makes x post) (hle : ∀ r made, post r made → post' r made) : Makes x post' := by
  intro p
  apply (h p).mono
  rintro r p' ⟨made, hmade, hpost⟩
  exact ⟨made, hmade, hle r made hpost⟩

omit [Ports π] in
theorem pure (a : α) : Makes (Pure.pure a : Action DeviceError (Traced π) α) fun r made => r = .ok a ∧ made = [] :=
  fun _ => ⟨[], (List.append_nil _).symm, rfl, rfl⟩

omit [Ports π] in
/-- The accesses of a sequence are those of its first part and, after a success, of the second one. -/
theorem bind {x : Action DeviceError (Traced π) α} {f : α → Action DeviceError (Traced π) β}
    {mid : Except DeviceError α → List Access → Prop} {post : Except DeviceError β → List Access → Prop}
    (hx : Makes x mid) (hok : ∀ a made, mid (.ok a) made → Makes (f a) fun r more => post r (made ++ more))
    (herror : ∀ e made, mid (.error e) made → post (.error e) made) : Makes (x >>= f) post := by
  intro p
  apply (hx p).bind
  · rintro a p' ⟨made, hmade, hmid⟩
    apply (hok a made hmid p').mono
    rintro r p'' ⟨more, hmore, hpost⟩
    exact ⟨made ++ more, by rw [hmore, hmade, List.append_assoc], hpost⟩
  · rintro e p' ⟨made, hmade, hmid⟩
    exact ⟨made, hmade, herror e made hmid⟩

omit [Ports π] in
/-- A sequence whose first part cannot fail. -/
theorem andThen {x : Action DeviceError (Traced π) α} {f : α → Action DeviceError (Traced π) β} {a : α}
    {mid : List Access → Prop} {post : Except DeviceError β → List Access → Prop}
    (hx : Makes x fun r made => r = .ok a ∧ mid made)
    (hf : ∀ made, mid made → Makes (f a) fun r more => post r (made ++ more)) : Makes (x >>= f) post := by
  apply hx.bind
  · rintro a' made ⟨ha, hmade⟩
    obtain rfl := Except.ok.inj ha
    exact hf made hmade
  · rintro e made ⟨he, -⟩
    cases he

end Makes

/-! ## Registers and words -/

theorem readRegister_makes (register : UInt16) : Makes (t.readRegister (π := Traced π) register) fun r made =>
    ∃ value, r = .ok value ∧ made = [.readByte (t.port register) value] :=
  fun _ => ⟨_, Array.toList_push, _, rfl, rfl⟩

theorem writeRegister_makes (register : UInt16) (value : UInt8) :
    Makes (t.writeRegister (π := Traced π) register value) fun r made =>
      r = .ok () ∧ made = [.writeByte (t.port register) value] :=
  fun _ => ⟨_, Array.toList_push, rfl, rfl⟩

/-- The registers have ports of their own. -/
theorem port_inj {register register' : UInt16} : t.port register = t.port register' ↔ register = register' := by
  rw [Target.port, Target.port, UInt16.add_right_inj]

omit [Ports π] in
/-- Access after access adds up. -/
theorem foldl_accesses {ι : Type} {step : Traced π → ι → Traced π} {Q : Access → Prop}
    (hstep : ∀ p i, ∃ a, (step p i).accesses.toList = p.accesses.toList ++ [a] ∧ Q a) (is : List ι) (p : Traced π) :
    ∃ made, (is.foldl step p).accesses.toList = p.accesses.toList ++ made ∧ ∀ a ∈ made, Q a := by
  induction is generalizing p with
  | nil => exact ⟨[], (List.append_nil _).symm, fun a ha => by cases ha⟩
  | cons i is ih =>
    obtain ⟨a, ha, hQ⟩ := hstep p i
    obtain ⟨made, hmade, hQ'⟩ := ih (step p i)
    refine ⟨a :: made, ?_, fun b hb => ?_⟩
    · rw [List.foldl_cons, hmade, ha, List.append_assoc, List.singleton_append]
    · rcases List.mem_cons.mp hb with rfl | hb
      · exact hQ
      · exact hQ' b hb

/-- As many words are read as are asked for. -/
theorem length_readWords (n : Nat) (p : π) : (t.readWords n p).1.length = n := by
  induction n generalizing p with
  | zero => rfl
  | succ n ih => exact congrArg (· + 1) (ih (Ports.readWord (t.port Register.data) p).2)

/-- Every word is read by one access. -/
theorem readWords_accesses (n : Nat) (p : Traced π) : (t.readWords n p).2.accesses.toList =
    p.accesses.toList ++ (t.readWords n p).1.map (.readWord (t.port Register.data)) := by
  induction n generalizing p with
  | zero => exact (List.append_nil _).symm
  | succ n ih =>
    have hwords := ih (Ports.readWord (t.port Register.data) p).2
    have hword : (Ports.readWord (t.port Register.data) p).2.accesses.toList = p.accesses.toList ++
        [.readWord (t.port Register.data) (Ports.readWord (t.port Register.data) p).1] := Array.toList_push
    rw [hword, List.append_assoc, List.singleton_append] at hwords
    exact hwords

/-- Every word is handed over by one access. -/
theorem writeWords_accesses (words : List UInt16) (p : Traced π) :
    (t.writeWords words p).accesses.toList =
      p.accesses.toList ++ words.map (.writeWord (t.port Register.data)) := by
  induction words generalizing p with
  | nil => exact (List.append_nil _).symm
  | cons word words ih =>
    have hword : (Ports.writeWord (t.port Register.data) word p).accesses.toList = p.accesses.toList ++
        [.writeWord (t.port Register.data) word] := Array.toList_push
    have hwords := ih (Ports.writeWord (t.port Register.data) word p)
    rw [hword, List.append_assoc, List.singleton_append] at hwords
    exact hwords

/-! ## Waiting -/

/-- Looks at the status that find these values. -/
def looks (t : Target) (statuses : List UInt8) : List Access :=
  statuses.map (.readByte (t.port Register.status))

/-- A wait looks at the status until it finds a value that it accepts, or has looked often enough. -/
theorem poll_accesses (accept : UInt8 → Bool) (n : Nat) (p : Traced π) :
    ∃ refused : List UInt8, (∀ status ∈ refused, accept status = false) ∧
      (∀ status ∈ (t.poll accept n p).1, accept status = true ∧ refused.length < n) ∧
      ((t.poll accept n p).1 = none → refused.length = n) ∧
      (t.poll accept n p).2.accesses.toList =
        p.accesses.toList ++ looks t (refused ++ (t.poll accept n p).1.toList) := by
  induction n generalizing p with
  | zero => exact ⟨[], (fun _ h => by cases h), (fun _ h => by cases h), (fun _ => rfl), (List.append_nil _).symm⟩
  | succ n ih =>
    have hlook : (Ports.readByte (t.port Register.status) p).2.accesses.toList = p.accesses.toList ++
        looks t [(Ports.readByte (t.port Register.status) p).1] := Array.toList_push
    rw [Target.poll]
    dsimp only
    generalize Ports.readByte (t.port Register.status) p = look at hlook
    split
    · rename_i haccept
      refine ⟨[], (fun _ h => by cases h), fun status hstatus => ?_, nofun, hlook⟩
      obtain rfl := Option.some.inj hstatus
      exact ⟨haccept, Nat.succ_pos n⟩
    · rename_i hrefuse
      obtain ⟨refused, hrefused, haccepted, hpatience, haccesses⟩ := ih look.2
      refine ⟨look.1 :: refused, fun status hstatus => ?_, fun status hstatus => ?_, fun hnone => ?_, ?_⟩
      · rcases List.mem_cons.mp hstatus with rfl | hstatus
        · exact Bool.eq_false_iff.mpr hrefuse
        · exact hrefused status hstatus
      · obtain ⟨haccept, hlength⟩ := haccepted status hstatus
        exact ⟨haccept, Nat.succ_lt_succ hlength⟩
      · exact congrArg (· + 1) (hpatience hnone)
      · rw [haccesses, hlook, List.append_assoc, looks, looks, ← List.map_append]
        rfl

/-- A wait ends with the first value that it accepts, or with its patience. -/
theorem await_makes (accept : UInt8 → Bool) (complaint : String) :
    Makes (t.await (π := Traced π) accept complaint) fun r made =>
      ∃ refused : List UInt8, (∀ status ∈ refused, accept status = false) ∧
        ((∃ status, r = .ok status ∧ accept status = true ∧ refused.length < t.pollLimit ∧
            made = looks t (refused ++ [status])) ∨
          (r = .error .timeout ∧ refused.length = t.pollLimit ∧ made = looks t refused)) := by
  intro p
  obtain ⟨refused, hrefused, haccepted, hpatience, haccesses⟩ := poll_accesses (t := t) accept t.pollLimit p
  unfold Ensures Target.await
  generalize t.poll accept t.pollLimit p = polled at haccepted hpatience haccesses
  obtain ⟨found, p'⟩ := polled
  cases found with
  | some status =>
    obtain ⟨haccept, hlength⟩ := haccepted status rfl
    exact ⟨_, haccesses, refused, hrefused, Or.inl ⟨status, rfl, haccept, hlength, rfl⟩⟩
  | none =>
    rw [Option.toList_none, List.append_nil] at haccesses
    exact ⟨_, haccesses, refused, hrefused, Or.inr ⟨rfl, hpatience rfl, rfl⟩⟩

end BlockVolume.Ata
