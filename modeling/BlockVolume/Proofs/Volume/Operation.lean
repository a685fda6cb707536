import BlockVolume.Proofs.Volume.Mount

/-!
# `Proofs.Volume.Operation` — what may be asked of a volume

All operations as one type, so that statements can speak of any of them and of lists of them. Of each it
is said which kinds of steps it may take, and which more of them if the device refuses a request.

## Contents
- **`Operation`** and `perform`; **`acts`** and **`faults`**, the kinds of its steps.
- **`OnlyMistakes`**: a check that fails for mistakes only; `onlyMistakes_stat` and its like, for the questions.
- **`Operation.walk`**: every operation but mounting is a sequence of such steps.
-/

namespace BlockVolume

open BlockVolume.Action

/-- What may be asked of a volume. -/
inductive Operation where
  | create (path : String) (kind : EntryKind)
  | delete (path : String)
  | openPath (path : String) (mode : Mode)
  | read (h : Handle) (length : Nat)
  | write (h : Handle) (data : List UInt8)
  | seek (h : Handle) (offset : Nat)
  | tell (h : Handle)
  | close (h : Handle)
  | flush
  | list (path : String)
  | stat (path : String)
  | stats
  | format
  | unmount
  | mount
  deriving DecidableEq

namespace Operation

open Volume

variable {δ : Type} [BlockDevice δ]

/-- Carries the operation out; what it yields is not kept. -/
def perform : Operation → VolumeAction δ Unit
  | .create path kind => Volume.create path kind
  | .delete path => Volume.delete path
  | .openPath path mode => do let _ ← Volume.openPath path mode
  | .read h length => do let _ ← Volume.read h length
  | .write h data => do let _ ← Volume.write h data
  | .seek h offset => do let _ ← Volume.seek h offset
  | .tell h => do let _ ← (← Action.get).tell h
  | .close h => Volume.close h
  | .flush => Volume.flush
  | .list path => do let _ ← (← Action.get).list path
  | .stat path => do let _ ← (← Action.get).stat path
  | .stats => do let _ ← (← Action.get).stats
  | .format => Volume.format
  | .unmount => Volume.unmount
  | .mount => Volume.mount

/-- The volume after an operation. -/
def after (op : Operation) (v : Volume δ) : Volume δ := (op.perform v).state

theorem after_openPath (path : String) (mode : Mode) (v : Volume δ) :
    after (.openPath path mode) v = (Volume.openPath path mode v).state := by
  show ((Volume.openPath path mode >>= fun _ => pure () : VolumeAction δ Unit) v).state = _
  rw [bind_apply]
  rcases Volume.openPath path mode v with ⟨⟨⟩ | ⟨⟩, _, _⟩ <;> rfl

/-- The kinds of steps that an operation other than mounting may take, however it ends. -/
def acts (v : Volume δ) : Operation → List Change
  | .create path _ =>
    match Path.ofString? path with
    | some p => [.insert p, .store]
    | none => []
  | .delete path =>
    match v.slotOf? path with
    | some slot => [.remove slot, .store]
    | none => []
  | .openPath path mode =>
    match Path.ofString? path with
    | some p => opening p mode
    | none => []
  | .read _ _ => reading
  | .write h _ =>
    match v.handles.file? h with
    | some f => writing f.slot
    | none => []
  | .seek _ _ => [.place]
  | .close _ => closing
  | .flush => [.store]
  | .format => [.clear, .store]
  | .unmount => [.writeBack, .store, .leave]
  | .tell _ | .list _ | .stat _ | .stats | .mount => []

/-- The kinds of steps that it may take besides if the device refuses a request. -/
def faults (v : Volume δ) : Operation → List Change
  | .close h =>
    match v.handles.file? h with
    | some f => [.fault, .discard f.slot]
    | none => []
  | _ => [.fault]

end Operation

namespace Volume

variable {δ : Type} [BlockDevice δ] [LawfulDevice δ] {v w : Volume δ}

/-- What an operation yields does not matter to the steps that it takes. -/
theorem ensures_walk_discard {α : Type} {x : VolumeAction δ α} {acts faults : List Change}
    (h : x.Ensures v (Walk acts faults v)) :
    (x >>= fun _ => pure () : VolumeAction δ Unit).Ensures v (Walk acts faults v) := by
  rw [ensures_bind]
  apply h.mono
  intro r w hr
  cases r with
  | ok a => exact hr.congr (by simp)
  | error e => exact hr.congr (by simp)

/-- A question changes nothing. -/
theorem ensures_walk_question {α : Type} {q : Volume δ → Except Error α} {acts faults : List Change}
    (hq : ¬IsIo (q v)) :
    (Action.get >>= fun v => liftM (q v) >>= fun _ => pure () : VolumeAction δ Unit).Ensures v
      (Walk acts faults v) := by
  simp only [ensures_bind, ensures_get, ensures_liftM, ensures_pure]
  cases hr : q v with
  | ok a => exact .refl (not_isIo_ok _)
  | error e => exact .refl (by rw [hr] at hq; simpa using hq)

end Volume

/-! ## Questions fail for mistakes only -/

/-- Where a check fails, the caller is to blame. -/
def OnlyMistakes {α : Type} (r : Except Error α) : Prop := ∀ e, r = .error e → e.isMistake = true

namespace OnlyMistakes

variable {α β : Type}

theorem ok (a : α) : OnlyMistakes (.ok a : Except Error α) := fun _ he => by cases he

theorem error {e : Error} (he : e.isMistake = true) : OnlyMistakes (.error e : Except Error α) :=
  fun _ h => Except.error.inj h ▸ he

theorem bind {x : Except Error α} {f : α → Except Error β} (hx : OnlyMistakes x) (hf : ∀ a, OnlyMistakes (f a)) :
    OnlyMistakes (x >>= f) := by
  cases x with
  | ok a => exact hf a
  | error e => exact fun e' he => hx e' (by cases he; rfl)

theorem not_isIo {r : Except Error α} (h : OnlyMistakes r) : ¬IsIo r :=
  fun ⟨d, hd⟩ => Error.not_io_of_isMistake (h (.io d) hd) d rfl

end OnlyMistakes

namespace Volume

variable {δ : Type} {v : Volume δ}

theorem onlyMistakes_ensureMounted : OnlyMistakes v.ensureMounted := by
  unfold ensureMounted
  split
  · exact .ok _
  · exact .error rfl

theorem onlyMistakes_resolve (path : String) : OnlyMistakes (resolve path) := fun _ => isMistake_of_resolve

theorem onlyMistakes_lookup (p : Path) : OnlyMistakes (v.lookup p) := by
  unfold lookup
  split
  · exact .ok _
  · exact .error rfl

theorem onlyMistakes_tell (h : Handle) : OnlyMistakes (v.tell h) := by
  have hopen : OnlyMistakes (v.openFile h) := by
    unfold openFile
    split
    · exact .ok _
    · exact .error rfl
  exact hopen.bind fun _ => .ok _

theorem onlyMistakes_stats : OnlyMistakes v.stats :=
  onlyMistakes_ensureMounted.bind fun _ => .ok _

theorem onlyMistakes_stat (path : String) : OnlyMistakes (v.stat path) := by
  refine onlyMistakes_ensureMounted.bind fun _ => (onlyMistakes_resolve path).bind fun p => ?_
  split
  · exact .ok _
  · exact (onlyMistakes_lookup p).bind fun _ => .ok _

theorem onlyMistakes_list (path : String) : OnlyMistakes (v.list path) := by
  refine onlyMistakes_ensureMounted.bind fun _ => (onlyMistakes_resolve path).bind fun p => ?_
  split
  · exact .ok _
  · refine (onlyMistakes_lookup p).bind fun slot => ?_
    split
    · exact .ok _
    · exact .error rfl

end Volume

/-! ## Operations as steps -/

namespace Operation

open Volume

variable {δ : Type} [BlockDevice δ] [LawfulDevice δ] {v w : Volume δ} {op : Operation}

/-- **An operation other than mounting walks from a sound volume to the one that it leaves.** -/
theorem walk (h : v.Sound) (hop : op ≠ .mount) :
    (op.perform : VolumeAction δ Unit).Ensures v (Walk (op.acts v) (op.faults v) v) := by
  -- what an operation has declined is a walk of no steps, whatever its kinds are
  cases op with
  | create path kind =>
    apply (create_cases h path kind).mono
    rintro r w (⟨p, r', hp, -, -, hadded, rfl⟩ | hdeclined)
    · simp only [acts, hp]
      exact hadded.walk.congr (by cases r' <;> simp [Except.map])
    · exact hdeclined.walk _ _
  | delete path =>
    apply (delete_cases h path).mono
    rintro r w (⟨slot, hslot, hwalk, -⟩ | hdeclined)
    · simp only [acts, hslot]
      exact hwalk
    · exact hdeclined.walk _ _
  | openPath path mode =>
    apply ensures_walk_discard
    apply (openPath_cases h path mode).mono
    rintro r w (⟨p, hp, hopened⟩ | hdeclined)
    · simp only [acts, hp]
      exact hopened.walk
    · exact hdeclined.walk _ _
  | read hd length =>
    apply ensures_walk_discard
    apply (read_cases h hd length).mono
    rintro r w (⟨f, -, -, hwalk, -⟩ | ⟨hdeclined, -⟩)
    · exact hwalk
    · exact hdeclined.walk _ _
  | write hd data =>
    apply ensures_walk_discard
    apply (write_cases h hd data).mono
    rintro r w (⟨f, r', hf, -, hwalk, -, -⟩ | ⟨hdeclined, -⟩)
    · simp only [acts, hf]
      exact hwalk
    · exact hdeclined.walk _ _
  | seek hd offset =>
    apply ensures_walk_discard
    apply (seek_cases hd offset).mono
    rintro r w (⟨f, -, rfl, -, hs⟩ | hdeclined)
    · exact .step hs (by simp [acts]) (not_isIo_ok _)
    · exact hdeclined.walk _ _
  | tell hd => exact ensures_walk_question (onlyMistakes_tell hd).not_isIo
  | close hd =>
    apply (close_cases h hd).mono
    rintro r w (⟨f, hf, hwalk, -⟩ | hdeclined)
    · simp only [faults, hf]
      exact hwalk
    · exact hdeclined.walk _ _
  | flush => exact (flush_walk h).mono fun _ _ hr => hr.1
  | list path => exact ensures_walk_question (onlyMistakes_list path).not_isIo
  | stat path => exact ensures_walk_question (onlyMistakes_stat path).not_isIo
  | stats => exact ensures_walk_question onlyMistakes_stats.not_isIo
  | format => exact format_walk h
  | unmount =>
    apply (unmount_cases h).mono
    rintro r w (⟨hwalk, -⟩ | ⟨-, hdeclined⟩)
    · exact hwalk
    · exact hdeclined.walk _ _
  | mount => exact absurd rfl hop

end Operation

end BlockVolume
