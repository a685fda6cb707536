import BlockVolume.Proofs.Volume.View

/-!
# `Proofs.Volume.Walk` — operations as sequences of steps

An operation of which it is known what steps it takes leaves everything that these steps leave. The
steps after which the result is an I/O error are listed apart, because without such an error none of
them was taken; and such an error is never due to a reliable device.

## Contents
- **`IsIo`**: the result of an operation that the device let down; `Error.isMistake`: the caller is to blame.
- **`Walk`**: the steps from a volume to the one that an operation leaves, with `Walk.after` for sequences.
- **`Declined`**: an operation that was refused before its first step.
- **`Walk.unnoticed`**: steps that leave the table and the contents of all files.
- `ensures_onDevice_read`: a request to the device of a volume; `fileAt?_editFile` and its like: one open
  file changed.
-/

namespace BlockVolume

open BlockVolume.Action

/-- The device has refused a request. -/
def IsIo {α : Type} (r : Except Error α) : Prop := ∃ e, r = .error (.io e)

@[simp] theorem not_isIo_ok {α : Type} (a : α) : ¬IsIo (.ok a : Except Error α) := fun ⟨_, h⟩ => by cases h

@[simp] theorem isIo_error {α : Type} {e : Error} : IsIo (.error e : Except Error α) ↔ ∃ d, e = .io d :=
  ⟨fun ⟨d, h⟩ => ⟨d, Except.error.inj h⟩, fun ⟨d, h⟩ => ⟨d, congrArg _ h⟩⟩

theorem isIo_io {α : Type} (d : DeviceError) : IsIo (.error (.io d) : Except Error α) := ⟨d, rfl⟩

theorem isIo_map {α β : Type} {r : Except Error α} {g : α → β} : IsIo (r.map g) ↔ IsIo r := by
  cases r with
  | ok a => exact iff_of_false (not_isIo_ok _) (not_isIo_ok a)
  | error e => rw [Except.map, isIo_error, isIo_error]

/-- The caller is to blame: neither the device, nor what is on it, nor that it is full. -/
def Error.isMistake : Error → Bool
  | .unformatted | .corrupted | .diskFull | .fragmented | .io _ | .outOfBounds => false
  | _ => true

theorem Error.not_io_of_isMistake {e : Error} (h : e.isMistake = true) (d : DeviceError) : e ≠ .io d := by
  rintro rfl
  cases h

namespace Volume

variable {δ : Type} [BlockDevice δ] [LawfulDevice δ] {α β : Type}

/-- The steps that lead from `v` to `w`, where the result is `r`: those of the kinds `acts`, and those of
the kinds `faults` after an I/O error only, which the device is to blame for. -/
structure Walk (acts faults : List Change) (v : Volume δ) (r : Except Error α) (w : Volume δ) : Prop where
  trace : Trace (fun c => c ∈ acts ∨ (IsIo r ∧ c ∈ faults)) v w
  unreliable : IsIo r → ¬Reliable v.device

namespace Walk

variable {acts acts' faults faults' : List Change} {u v w : Volume δ} {r : Except Error α}

/-- No step at all. -/
theorem refl (hr : ¬IsIo r) : Walk acts faults v r v :=
  ⟨.refl, fun h => absurd h hr⟩

theorem step {c : Change} (hs : Step c v w) (hc : c ∈ acts) (hr : ¬IsIo r) : Walk acts faults v r w :=
  ⟨.single hs (Or.inl hc), fun h => absurd h hr⟩

/-- A refused request. -/
theorem fault (hs : Step .fault v w) (hf : Change.fault ∈ faults) (hr : IsIo r) :
    Walk acts faults v r w :=
  ⟨.single hs (Or.inr ⟨hr, hf⟩), fun _ h => (hs.reliable h).1 rfl⟩

/-- Steps after which there was a value, and then further steps. -/
theorem after {a : β} (h : Walk acts faults v (.ok a : Except Error β) u) (h' : Walk acts faults u r w) :
    Walk acts faults v r w := by
  constructor
  · -- there was a value, so none of the first steps came with an I/O error
    refine (h.trace.mono ?_).trans h'.trace
    rintro c (hc | ⟨hio, -⟩)
    · exact Or.inl hc
    · exact absurd hio (not_isIo_ok a)
  · intro hr hv
    exact h'.unreliable hr (h.trace.reliable hv)

theorem mono (h : Walk acts faults v r w) (ha : acts ⊆ acts') (hf : faults ⊆ faults') :
    Walk acts' faults' v r w :=
  ⟨h.trace.mono fun _ hc => hc.imp (fun h => ha h) fun h => ⟨h.1, hf h.2⟩, h.unreliable⟩

/-- The value does not matter to a walk, only whether there is an I/O error. -/
theorem congr {r' : Except Error β} (h : Walk acts faults v r w) (hr : IsIo r ↔ IsIo r') :
    Walk acts faults v r' w :=
  ⟨h.trace.mono fun _ hc => hc.imp id fun h => ⟨hr.mp h.1, h.2⟩, fun h' => h.unreliable (hr.mpr h')⟩

theorem sound (h : Walk acts faults v r w) (hv : v.Sound) : w.Sound := h.trace.sound hv

theorem reliable (h : Walk acts faults v r w) (hv : Reliable v.device) : Reliable w.device :=
  h.trace.reliable hv

/-- Steps after which the operation went on, whatever came of them, and then further steps. -/
theorem join {r₁ : Except Error β} {γ : Type} {r₂ : Except Error γ} (h₁ : Walk acts faults v r₁ u)
    (h₂ : Walk acts faults u r₂ w) (hr : IsIo r ↔ IsIo r₁ ∨ IsIo r₂) : Walk acts faults v r w := by
  refine ⟨(h₁.trace.mono ?_).trans (h₂.trace.mono ?_), ?_⟩
  · intro c hc
    exact hc.imp id fun h => ⟨hr.mpr (Or.inl h.1), h.2⟩
  · intro c hc
    exact hc.imp id fun h => ⟨hr.mpr (Or.inr h.1), h.2⟩
  · intro hio hv
    rcases hr.mp hio with h | h
    · exact h₁.unreliable h hv
    · exact h₂.unreliable h (h₁.trace.reliable hv)

/-- Without an I/O error there was no step of the kinds `faults`. -/
theorem trace_of_not_isIo (h : Walk acts faults v r w) (hr : ¬IsIo r) : Trace (· ∈ acts) v w :=
  h.trace.mono fun _ hc => hc.resolve_right fun h => hr h.1

end Walk

/-- The operation was refused for a reason that is not the device, and nothing happened. -/
def Declined (v : Volume δ) (r : Except Error α) (w : Volume δ) : Prop :=
  ∃ e, (∀ d, e ≠ Error.io d) ∧ r = .error e ∧ w = v

omit [BlockDevice δ] [LawfulDevice δ] in
theorem declined {v : Volume δ} {e : Error} (he : ∀ d, e ≠ .io d) : Declined v (.error e : Except Error α) v :=
  ⟨e, he, rfl, rfl⟩

omit [BlockDevice δ] [LawfulDevice δ] in
theorem Declined.not_isIo {v w : Volume δ} {r : Except Error α} (h : Declined v r w) : ¬IsIo r := by
  obtain ⟨e, he, rfl, -⟩ := h
  exact fun ⟨d, hd⟩ => he d (Except.error.inj hd)

theorem Declined.walk {v w : Volume δ} {r : Except Error α} (h : Declined v r w) (acts faults : List Change) :
    Walk acts faults v r w := by
  have hr := h.not_isIo
  obtain ⟨e, he, rfl, rfl⟩ := h
  exact .refl hr

/-- A sequence walks where its parts walk. -/
theorem ensures_walk_bind {x : VolumeAction δ α} {f : α → VolumeAction δ β} {v : Volume δ}
    {acts faults : List Change} {post : Except Error β → Volume δ → Prop}
    (hx : x.Ensures v fun r w => Walk acts faults v r w ∧
      match r with
      | .ok a => (f a).Ensures w fun r' w' => Walk acts faults w r' w' ∧ post r' w'
      | .error e => post (.error e) w) :
    (x >>= f).Ensures v fun r w => Walk acts faults v r w ∧ post r w := by
  rw [ensures_bind]
  apply hx.mono
  rintro r w ⟨hwalk, h⟩
  cases r with
  | ok a => exact h.mono fun r' w' h' => ⟨hwalk.after h'.1, h'.2⟩
  | error e => exact ⟨hwalk.congr (by simp), h⟩

/-! ## Requests to the device, and changes of an open file -/

omit [BlockDevice δ] [LawfulDevice δ] in
@[simp] theorem ensures_onDevice {x : Action DeviceError δ α} {v : Volume δ}
    {post : Except Error α → Volume δ → Prop} : (onDevice x).Ensures v post ↔
      x.Ensures v.device fun r d => post (r.mapError Error.io) { v with device := d } := Iff.rfl

omit [BlockDevice δ] [LawfulDevice δ] in
/-- What every operation checks first: that the volume is mounted. -/
theorem ensures_whenMounted {k : Volume δ → VolumeAction δ α} {v : Volume δ}
    {post : Except Error α → Volume δ → Prop} :
    (Action.get >>= fun v => liftM v.ensureMounted >>= fun _ => k v).Ensures v post ↔
      (v.mounted = true → (k v).Ensures v post) ∧ (v.mounted = false → post (.error .notMounted) v) := by
  simp only [ensures_bind, ensures_get, ensures_liftM, ensureMounted]
  cases v.mounted <;> simp

omit [BlockDevice δ] [LawfulDevice δ] in
/-- An operation that is declined unless the volume is mounted. -/
theorem ensures_mounted_or_declined {k : Volume δ → VolumeAction δ α} {v : Volume δ}
    {post : Except Error α → Volume δ → Prop}
    (h : v.mounted = true → (k v).Ensures v fun r w => post r w ∨ Declined v r w) :
    (Action.get >>= fun v => liftM v.ensureMounted >>= fun _ => k v).Ensures v fun r w =>
      post r w ∨ Declined v r w :=
  ensures_whenMounted.mpr ⟨h, fun _ => Or.inr (declined (by simp))⟩

omit [BlockDevice δ] [LawfulDevice δ] in
/-- What every operation on an open file checks first: that the volume is mounted, and the handle open. -/
theorem ensures_whenOpen {hd : Handle} {k : Volume δ → OpenFile → VolumeAction δ α} {v : Volume δ}
    {post : Except Error α → Volume δ → Prop} (hfail : ∀ e, e.isMistake = true → post (.error e) v)
    (hk : v.mounted = true → ∀ f, v.handles.file? hd = some f → (k v f).Ensures v post) :
    (Action.get >>= fun v => liftM v.ensureMounted >>= fun _ => liftM (v.openFile hd) >>= k v).Ensures v post := by
  refine ensures_whenMounted.mpr ⟨fun hm => ?_, fun _ => hfail .notMounted rfl⟩
  rw [ensures_bind, ensures_liftM, openFile]
  cases hf : v.handles.file? hd with
  | none => exact hfail .invalidHandle rfl
  | some f => exact hk hm f hf

omit [BlockDevice δ] [LawfulDevice δ] in
theorem fileAt_eq_ok {v : Volume δ} {p : Place} {f : OpenFile} (hp : v.handles.fileAt? p = some f) :
    v.fileAt p = .ok f := by
  unfold fileAt
  rw [hp]

omit [BlockDevice δ] [LawfulDevice δ] in
theorem fileAt?_editFile {v : Volume δ} {p : Place} {f : OpenFile} {g : OpenFile → OpenFile}
    (hp : v.handles.fileAt? p = some f) : (v.editFile p g).handles.fileAt? p = some (g f) := by
  unfold editFile
  rw [Pool.fileAt?_modifyFile, if_pos rfl, hp, Option.map_some]

omit [BlockDevice δ] [LawfulDevice δ] in
/-- What a change makes of the file at its place is all that matters of it. -/
theorem editFile_congr {v : Volume δ} {p : Place} {f : OpenFile} {g g' : OpenFile → OpenFile}
    (hp : v.handles.fileAt? p = some f) (hg : g f = g' f) : v.editFile p g = v.editFile p g' := by
  unfold editFile
  rw [Pool.modifyFile_congr hp hg]

omit [BlockDevice δ] [LawfulDevice δ] in
theorem editFile_eq_self {v : Volume δ} {p : Place} {f : OpenFile} {g : OpenFile → OpenFile}
    (hp : v.handles.fileAt? p = some f) (hg : g f = f) : v.editFile p g = v := by
  unfold editFile
  rw [Pool.modifyFile_eq_self hp hg]

/-- A block is read, and nothing else changes, or the device refuses. -/
theorem ensures_onDevice_read {v : Volume δ} {i : Nat} (hi : i < deviceSize v.device) :
    (onDevice (BlockDevice.read i)).Ensures v fun r w => ∃ d, w = { v with device := d } ∧
      content d = content v.device ∧
      ((r = .ok (content v.device i) ∧ Served v.device d) ∨
        ∃ e, r = .error (.io e) ∧ Refused v.device d) := by
  rw [ensures_onDevice]
  apply (LawfulDevice.read_cases hi).mono
  rintro r d ⟨hc, ⟨rfl, hd⟩ | ⟨e, rfl, hd⟩⟩
  · exact ⟨d, rfl, hc, Or.inl ⟨rfl, hd⟩⟩
  · exact ⟨d, rfl, hc, Or.inr ⟨e, rfl, hd⟩⟩

/-! ## What is left alone -/

end Volume

/-- Whether a change of this kind may change the table or the space. -/
def Change.describes : Change → Bool
  | .grow _ | .put _ | .insert _ | .remove _ | .clear => true
  | _ => false

/-- Whether a change of this kind is one that no user of a file notices. -/
def Change.isQuiet : Change → Bool
  | .store | .writeBack | .load | .place | .fault => true
  | _ => false

theorem Change.not_describes_of_isQuiet {c : Change} (h : c.isQuiet = true) : c.describes = false := by
  cases c <;> first | rfl | cases h

theorem Change.not_alters_of_isQuiet {c : Change} (h : c.isQuiet = true) (slot : Slot) :
    c.alters slot = false := by
  cases c <;> first | rfl | cases h

/-- Whether a change of this kind may open or close a handle. -/
def Change.opensOrCloses : Change → Bool
  | .acquire | .release | .discard _ | .leave | .clear => true
  | _ => false

namespace Volume

variable {δ : Type} [BlockDevice δ] [LawfulDevice δ] {v w : Volume δ}

theorem Trace.description_eq {allowed : Change → Prop} (ht : Trace allowed v w)
    (hc : ∀ c, allowed c → c.describes = false) : w.space = v.space ∧ w.directory = v.directory := by
  induction ht with
  | refl => exact ⟨rfl, rfl⟩
  | tail _ hs hallowed ih =>
    have hkind := hc _ hallowed
    cases hs with
    | grow _ _ _ => cases hkind
    | put _ _ _ _ _ _ => cases hkind
    | insert _ _ _ _ _ => cases hkind
    | remove _ _ _ _ _ => cases hkind
    | clear => cases hkind
    | _ => exact ih

/-- Steps that nobody notices leave the table and all contents. -/
theorem Trace.unnoticed {allowed : Change → Prop} (ht : Trace allowed v w) (h : v.Sound)
    (hc : ∀ c, allowed c → c.isQuiet = true) :
    w.directory = v.directory ∧ ∀ slot, w.contents slot = v.contents slot := by
  constructor
  · exact (ht.description_eq fun c ha => Change.not_describes_of_isQuiet (hc c ha)).2
  · intro slot
    exact ht.contents_eq h fun c ha => Change.not_alters_of_isQuiet (hc c ha) slot

theorem Walk.description_eq {α : Type} {acts faults : List Change} {r : Except Error α}
    (hw : Walk acts faults v r w) (hacts : ∀ c ∈ acts, c.describes = false)
    (hfaults : ∀ c ∈ faults, c.describes = false) : w.space = v.space ∧ w.directory = v.directory :=
  hw.trace.description_eq fun c hc => hc.elim (hacts c) fun hc => hfaults c hc.2

theorem Walk.unnoticed {α : Type} {acts faults : List Change} {r : Except Error α}
    (hw : Walk acts faults v r w) (h : v.Sound) (hacts : ∀ c ∈ acts, c.isQuiet = true)
    (hfaults : ∀ c ∈ faults, c.isQuiet = true) :
    w.directory = v.directory ∧ ∀ slot, w.contents slot = v.contents slot := by
  apply hw.trace.unnoticed h
  rintro c (hc | ⟨-, hc⟩)
  · exact hacts c hc
  · exact hfaults c hc

omit [BlockDevice δ] [LawfulDevice δ] in
theorem isSome_file?_editFile (v : Volume δ) (p : Place) (g : OpenFile → OpenFile) (hd : Handle) :
    ((v.editFile p g).handles.file? hd).isSome = (v.handles.file? hd).isSome := by
  unfold editFile
  rw [Pool.file?_modifyFile]
  split
  · rw [Option.isSome_map]
  · rfl

/-- Handles stay open while others are not opened or closed either. -/
theorem Trace.isSome_file?_eq {allowed : Change → Prop} (ht : Trace allowed v w)
    (hc : ∀ c, allowed c → c.opensOrCloses = false) (hd : Handle) :
    (w.handles.file? hd).isSome = (v.handles.file? hd).isSome := by
  induction ht with
  | refl => rfl
  | @tail u x c _ hs hallowed ih =>
    refine Eq.trans ?_ ih
    have hkind := hc _ hallowed
    cases hs with
    | writeBack _ _ _ _ => exact isSome_file?_editFile { u with device := _ } _ _ hd
    | forget _ _ => exact isSome_file?_editFile u _ _ hd
    | load _ _ _ _ _ => exact isSome_file?_editFile { u with device := _ } _ _ hd
    | place _ _ => exact isSome_file?_editFile u _ _ hd
    | put _ _ _ _ _ _ => exact isSome_file?_editFile u _ _ hd
    | acquire _ _ _ _ => cases hkind
    | release _ _ => cases hkind
    | discard _ => cases hkind
    | leave _ => cases hkind
    | clear => cases hkind
    | _ => rfl

end Volume

end BlockVolume
