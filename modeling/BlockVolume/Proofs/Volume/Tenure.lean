import BlockVolume.Proofs.Volume.Turnover

/-!
# `Proofs.Volume.Tenure` — how long a handle stands for its file

A handle stands for the file that it was issued for as long as its place is not emptied. From then on it
is dead: whatever is asked through it fails and changes nothing, also when the place has been taken again.
Generations are counted in 32 bits, so this holds unless the place was emptied a multiple of `2 ^ 32` times.
The device may be any, and its requests may fail at any time.

## Contents
- **`emptyings`**: how often a run empties a place; `run_guarded`, **`run_generationAt`**, **`run_retained`**.
- `openPath_issued`: a handle is issued for an empty place.
- **`Held`** and **`Dead`**: what a handle is good for; **`tenure`**: it is held, and then dead.
-/

namespace BlockVolume

open BlockVolume.Action

namespace Volume

variable {δ : Type} [BlockDevice δ] {v w : Volume δ} {p : Place} {f : OpenFile} {mode : Mode}

/-! ## Runs -/

/-- How often a run empties a place. -/
def emptyings (p : Place) : List Operation → Volume δ → Nat
  | [], _ => 0
  | op :: ops, v => op.emptyings v p + emptyings p ops (op.after v)

/-- What changes of the places keep holds of what an operation leaves. -/
theorem after_turnover (h : v.Guarded) (op : Operation) :
    Turnover (op.touches v) v (op.emptyings v) (op.after v) :=
  op.turnover h

omit [BlockDevice δ] in
theorem guarded_ofDevice (d : δ) : (ofDevice d).Guarded :=
  .of_no_files fun p => by simp [ofDevice, Pool.empty, Pool.fileAt?]

theorem run_guarded (h : v.Guarded) (ops : List Operation) : (run ops v).Guarded := by
  induction ops generalizing v with
  | nil => exact h
  | cons op ops ih => exact ih ((after_turnover h op).guarded h)

/-- **The generation of a place counts how often a run empties it.** -/
theorem run_generationAt (h : v.Guarded) (p : Place) (ops : List Operation) :
    (run ops v).handles.generationAt p = v.handles.generationAt p + UInt32.ofNat (emptyings p ops v) := by
  induction ops generalizing v with
  | nil => exact (UInt32.add_zero _).symm
  | cons op ops ih =>
    have hstep := after_turnover h op
    rw [run_cons, ih (hstep.guarded h), hstep.generationAt_eq p, emptyings, UInt32.ofNat_add, UInt32.add_assoc]

/-- **A file stays open, and the file of its slot, as long as a run does not empty its place.** -/
theorem run_retained (h : v.Guarded) {ops : List Operation} (hp : v.handles.fileAt? p = some f)
    (hn : emptyings p ops v = 0) : ∃ f', Retained (fun _ => True) v (run ops v) p f f' := by
  induction ops generalizing v f with
  | nil => exact ⟨f, hp, rfl, rfl, fun _ => rfl, rfl⟩
  | cons op ops ih =>
    obtain ⟨hop, hrest⟩ := Nat.add_eq_zero_iff.mp hn
    have hstep := after_turnover h op
    obtain ⟨f₁, hr₁⟩ := hstep.retained h hp hop
    obtain ⟨f₂, hr₂⟩ := ih (hstep.guarded h) hr₁.file hrest
    exact ⟨f₂, hr₁.weaken.trans hr₂⟩

/-- Closing a handle that is open empties its place. -/
theorem emptyings_close (h : v.Guarded) {hd : Handle} (hf : v.handles.file? hd = some f) :
    emptyings hd.place [.close hd] v = 1 := by
  have ho : (v.handles.file? hd).isSome = true := by rw [hf]; rfl
  simp [emptyings, Operation.emptyings, h.mounted_of_file? hf, ho]

/-! ## Issuing a handle -/

theorem createEntry_sameHandles (path : Path) (kind : EntryKind) :
    (createEntry path kind : VolumeAction δ Slot).Respects SameHandles := by
  intro v
  apply ensures_createEntry fun _ _ => refl v
  intro slot _ _ _ _
  have hadded : SameHandles v (v.withEntry slot path kind) := ⟨rfl⟩
  exact ((respects_get.bind fun _ => onDevice_sameHandles _).bind fun _ => respects_pure _).after hadded

theorem openPath_guarded (h : v.Guarded) (path : String) (mode : Mode) :
    (openPath path mode v).state.Guarded := by
  rw [← Operation.after_openPath]
  exact run_guarded h [.openPath path mode]

/-- What a handle was issued for: a file that begins at its start, at a place that was empty. -/
def Issued (v w : Volume δ) (mode : Mode) (r : Except Error Handle) : Prop :=
  ∀ h, r = .ok h → v.handles.fileAt? h.place = none ∧
    ∃ slot, w.handles.file? h = some (OpenFile.start slot mode)

omit [BlockDevice δ] in
theorem not_issued (e : Error) : Issued v w mode (.error e) := fun _ he => by cases he

omit [BlockDevice δ] in
theorem acquireFile_issued (name : String) (slot : Slot) (mode : Mode) :
    (acquireFile name slot mode).Ensures v fun r w => Issued v w mode r := by
  apply ensures_acquireFile fun e _ _ => not_issued e
  intro hd handles _ _ ha h he
  obtain rfl := Except.ok.inj he
  exact ⟨(Pool.acquire?_eq_some ha).1, slot, Pool.file?_of_acquire? ha⟩

theorem openPath_issued (path : String) (mode : Mode) :
    (openPath path mode : VolumeAction δ Handle).Ensures v fun r w => Issued v w mode r := by
  apply ensures_openPath (fun e _ => not_issued e)
    fun _ p slot _ _ => acquireFile_issued p.text slot mode
  rintro _ _ rfl p _
  refine Ensures.bind (createEntry_sameHandles p .file v) ?_ fun e _ _ => not_issued e
  intro slot w hw
  apply (acquireFile_issued p.text slot .write).mono
  intro r w' hr
  unfold Issued at hr ⊢
  rwa [hw.handles] at hr

/-! ## Holding a handle -/

/-- Why a dead handle is refused. -/
def refusal (v : Volume δ) : Error := if v.mounted then .invalidHandle else .notMounted

/-- The handle stands for the file in `slot`, opened in `mode`. No other handle is issued that equals it, and
what is done through any other does not reach its file. -/
structure Held (v : Volume δ) (h : Handle) (slot : Slot) (mode : Mode) : Prop where
  file : ∃ f, v.handles.file? h = some f ∧ f.slot = slot ∧ f.mode = mode
  unique (path : String) (mode' : Mode) {h' : Handle} : (openPath path mode' v).result = .ok h' → h' ≠ h
  separate {op : Operation} {h' : Handle} : op.handle? = some h' → h' ≠ h →
    (op.after v).handles.file? h = v.handles.file? h

/-- Whatever is asked through the handle fails, and changes and records nothing. -/
structure Dead (v : Volume δ) (h : Handle) : Prop where
  read (length : Nat) : Volume.read h length v = ⟨.error v.refusal, v, []⟩
  write (data : List UInt8) : Volume.write h data v = ⟨.error v.refusal, v, []⟩
  seek (offset : Nat) : Volume.seek h offset v = ⟨.error v.refusal, v, []⟩
  close : Volume.close h v = ⟨.error v.refusal, v, []⟩
  tell : v.tell h = .error .invalidHandle

omit [BlockDevice δ] in
/-- What asks for the file of a handle that is not open goes no further. -/
theorem refused_of_closed {α : Type} {hd : Handle} {k : Volume δ → OpenFile → VolumeAction δ α}
    (hf : v.handles.file? hd = none) :
    (Action.get >>= fun v => liftM v.ensureMounted >>= fun _ => liftM (v.openFile hd) >>= k v) v =
      ⟨.error v.refusal, v, []⟩ := by
  have hopen : v.openFile hd = .error .invalidHandle := by rw [openFile, hf]
  cases hm : v.mounted <;> simp [bind_apply, liftM_apply, ensureMounted, refusal, hm, hopen]

theorem dead_of_closed {hd : Handle} (hf : v.handles.file? hd = none) : Dead v hd where
  read _ := refused_of_closed hf
  write _ := refused_of_closed hf
  seek _ := refused_of_closed hf
  close := by
    have hrelease : v.handles.release? hd = none := by rw [Pool.release?, hf, Option.map_none]
    unfold Volume.close
    cases hm : v.mounted <;> simp [bind_apply, liftM_apply, ensureMounted, refusal, hm, hrelease]
  tell := by
    have hopen : v.openFile hd = .error .invalidHandle := by rw [openFile, hf]
    rw [Volume.tell, hopen]
    rfl

/-- A handle that is open is held. -/
theorem held_of_open (h : v.Guarded) {hd : Handle} (hf : v.handles.file? hd = some f) :
    Held v hd f.slot f.mode := by
  have ho : (v.handles.file? hd).isSome = true := by rw [hf]; rfl
  refine ⟨⟨f, hf, rfl, rfl⟩, ?_, ?_⟩
  · rintro path mode' h' hr rfl
    -- a handle is issued for an empty place
    have hempty := (openPath_issued path mode' h' hr).1
    rw [Pool.fileAt?_of_file? hf] at hempty
    cases hempty
  · intro op h' hop hne
    have huntouched : ¬op.touches v hd.place := by
      rintro (rfl | ⟨k, hk, hko, hplace⟩)
      · cases hop
      · obtain rfl := Option.some.inj (hk.symm.trans hop)
        exact hne (Pool.handle_eq hko ho hplace)
    have hzero := Operation.emptyings_of_not_touches hop huntouched
    have hstep := after_turnover h op
    obtain ⟨f', hr⟩ := hstep.retained h (Pool.fileAt?_of_file? hf) hzero
    obtain rfl := hr.untouched huntouched
    have hg := hstep.generationAt_eq hd.place
    rw [hzero] at hg
    rw [hf, Pool.file?_eq_some_iff]
    exact ⟨(hg.trans (UInt32.add_zero _)).trans (Pool.file?_eq_some_iff.mp hf).1, hr.file⟩

/-- A place that was emptied is of another generation, unless the count has gone round. -/
theorem add_ofNat_ne {g : UInt32} {n : Nat} (hn : ¬UInt32.size ∣ n) : g + UInt32.ofNat n ≠ g := by
  intro he
  have hzero : UInt32.ofNat n = 0 := by simpa using he
  apply hn
  have hmod := congrArg UInt32.toNat hzero
  rw [UInt32.toNat_ofNat'] at hmod
  exact Nat.dvd_of_mod_eq_zero hmod

/-- A handle that is open stays held while its place is not emptied, and is dead after that. -/
theorem held_or_dead (h : v.Guarded) {hd : Handle} (hf : v.handles.file? hd = some f) (ops : List Operation) :
    (emptyings hd.place ops v = 0 → Held (run ops v) hd f.slot f.mode) ∧
      (¬UInt32.size ∣ emptyings hd.place ops v → Dead (run ops v) hd) := by
  have hgen := run_generationAt h hd.place ops
  rw [(Pool.file?_eq_some_iff.mp hf).1] at hgen
  constructor
  · intro hn
    obtain ⟨f', hr⟩ := run_retained h (Pool.fileAt?_of_file? hf) hn
    have hf' : (run ops v).handles.file? hd = some f' := by
      rw [Pool.file?_eq_some_iff, hgen, hn]
      exact ⟨UInt32.add_zero _, hr.file⟩
    rw [← hr.slot, ← hr.mode]
    exact held_of_open (run_guarded h ops) hf'
  · intro hn
    apply dead_of_closed
    apply Pool.file?_eq_none
    rw [hgen]
    exact add_ofNat_ne hn

/-- **A handle is held until its place is emptied, and dead from then on**, unless the place was emptied a
multiple of `2 ^ 32` times. -/
theorem tenure_of_handle (d : δ) (before : List Operation) {path : String} {mode : Mode} {h : Handle}
    (hopen : (openPath path mode (run before (ofDevice d))).result = .ok h) :
    ∃ slot,
      (∀ h', ((run before (ofDevice d)).handles.file? h').isSome = true → h' ≠ h) ∧
      ∀ ops,
        let u := (openPath path mode (run before (ofDevice d))).state
        (emptyings h.place ops u = 0 → Held (run ops u) h slot mode) ∧
        (¬UInt32.size ∣ emptyings h.place ops u → Dead (run ops u) h) := by
  have hv := run_guarded (guarded_ofDevice d) before
  obtain ⟨hempty, slot, hfile⟩ := openPath_issued path mode h hopen
  refine ⟨slot, ?_, fun ops => held_or_dead (openPath_guarded hv path mode) hfile ops⟩
  rintro h' ho rfl
  obtain ⟨f, hf⟩ := Option.isSome_iff_exists.mp ho
  rw [Pool.fileAt?_of_file? hf] at hempty
  cases hempty

/-- A run of a new device begins by formatting and mounting it. -/
theorem run_formatted (d : δ) (ops : List Operation) :
    run ops (formatted d) = run (.format :: .mount :: ops) (ofDevice d) := rfl

/-- The handle to a new file is held until it is closed. -/
theorem tenure_of_new_file :
    let v := run [.format, .mount] (ofDevice (MemoryDisk.blank 1024))
    ∃ h slot, (openPath "/a" .write v).result = .ok h ∧
      Held (openPath "/a" .write v).state h slot .write ∧
      Dead (run [.close h] (openPath "/a" .write v).state) h := by
  have hp : Path.ofString? "/a" = some ⟨"/a", by decide, by decide⟩ := by decide
  obtain ⟨hbegun, hrel⟩ := begun_of_reliable (d := MemoryDisk.blank 1024)
    (Nat.le_of_eq (MemoryDisk.deviceSize_blank 1024).symm) (MemoryDisk.reliable_of_writable rfl)
  rw [← run_nil (formatted _), run_formatted] at hbegun hrel
  obtain ⟨h, slot, hopen, -⟩ := hbegun.openPath_created hrel hp (by decide) (by decide)
  obtain ⟨slot, -, ht⟩ := tenure_of_handle (MemoryDisk.blank 1024) [.format, .mount] hopen
  have hheld := (ht []).1 rfl
  rw [run_nil] at hheld
  obtain ⟨f, hf, -⟩ := id hheld.file
  have hguarded := openPath_guarded (run_guarded (guarded_ofDevice (MemoryDisk.blank 1024)) [.format, .mount])
    "/a" .write
  exact ⟨h, slot, hopen, hheld, (ht [.close h]).2 (by rw [emptyings_close hguarded hf]; decide)⟩

end Volume

end BlockVolume
