import BlockVolume.Proofs.Volume.Operation

/-!
# `Proofs.Volume.Run` — what a volume can become

A run is a list of operations, carried out one after the other whatever each of them returns. It begins
with a volume that was formatted and mounted. Mounting again takes the volume back to what is stored,
so it is harmless as long as everything that was to be stored was; a device that has refused a request
may hold parts of two descriptions.

## Contents
- **`Invariant`**: a property of space and directory that no step ends; **`perform_kept`**, **`run_kept`**.
- **`run`**, `AllServed` and `Orderly`; `run_reliable`.
- **`Begun`** and **`Reached`**: the beginnings of runs, and the volumes that runs lead to.
- **`Begun.run_kept`**, **`Reached.sound`**.
- **`formatted`**: the volume of a new device, with `reached_of_reliable` and `reached_with_file`.
-/

namespace BlockVolume

open BlockVolume.Action

namespace Volume

variable {δ : Type} [BlockDevice δ] [LawfulDevice δ] {u v w : Volume δ}

/-! ## What the steps of an operation keep -/

/-- The steps of an operation are of the allowed kinds, wherever it is carried out. -/
def Admitted (allowed : Change → Prop) (op : Operation) : Prop :=
  ∀ (δ : Type) (v : Volume δ) (c : Change), c ∈ op.acts v ∨ c ∈ op.faults v → allowed c

/-- A property of space and directory that an empty volume has and that no step of the allowed kinds ends. -/
structure Invariant (P : Space → Directory → Prop) (allowed : Change → Prop) : Prop where
  fresh : P Space.fresh Directory.empty
  migrate {s : Space} {d : Directory} : P s d → P s d.migrate
  step {δ : Type} [BlockDevice δ] [LawfulDevice δ] {c : Change} {v w : Volume δ} : Step c v w → v.Sound →
    allowed c → P v.space v.directory → P w.space w.directory

namespace Invariant

variable {P : Space → Directory → Prop} {allowed allowed' : Change → Prop}

theorem mono (hP : Invariant P allowed) (hle : ∀ c, allowed' c → allowed c) : Invariant P allowed' :=
  ⟨hP.fresh, hP.migrate, fun hs h hc => hP.step hs h (hle _ hc)⟩

/-- Nothing at all is an invariant of all steps. -/
theorem trivial : Invariant (fun _ _ => True) fun _ => True :=
  ⟨True.intro, fun _ => True.intro, fun _ _ _ _ => True.intro⟩

end Invariant

/-- The device describes a space and a directory that go together and have the property `P`. -/
def Stored (P : Space → Directory → Prop) (v : Volume δ) : Prop :=
  ∃ s d, Persisted (content v.device) s d ∧ Allocated s d ∧ P s d

variable {P : Space → Directory → Prop} {allowed : Change → Prop} {c : Change}

theorem Trace.invariant (hP : Invariant P allowed) (ht : Trace allowed v w) (h : v.Sound)
    (hv : P v.space v.directory) : P w.space w.directory := by
  induction ht with
  | refl => exact hv
  | tail ht hs hc ih => exact hP.step hs (ht.sound h) hc ih

/-- What is stored stays so, or is replaced by the volume in memory. -/
theorem Step.stored (hs : Step c v w) (h : v.Sound) (hc : c ≠ .fault) (hv : P v.space v.directory)
    (hst : Stored P v) : Stored P w := by
  obtain ⟨s, d, hp, hall, hP⟩ := hst
  -- of the steps on the device, only storing and faults reach the blocks below `firstDataBlock`
  cases hs with
  | store _ hp' _ => exact ⟨v.space, v.directory, hp', h.allocated, hv⟩
  | @writeBack _ _ _ _ d' hq hb _ hd =>
    have hdata := (h.owned_bounds ((h.coherent hq).owned_of_pending hb)).1
    refine ⟨s, d, hp.congr ?_, hall, hP⟩
    intro i hi
    show content d' i = content v.device i
    rw [hd, Function.update_of_ne (Nat.ne_of_lt (Nat.lt_of_lt_of_le hi hdata))]
  | load _ _ _ _ hd => exact ⟨s, d, hp.congr fun i _ => congrFun hd i, hall, hP⟩
  | fault _ _ => exact absurd rfl hc
  | _ => exact ⟨s, d, hp, hall, hP⟩

theorem Trace.stored (hP : Invariant P allowed) (ht : Trace allowed v w) (h : v.Sound)
    (hc : ∀ c, allowed c → c ≠ .fault) (hv : P v.space v.directory) (hst : Stored P v) : Stored P w := by
  induction ht with
  | refl => exact hst
  | tail ht hs hallowed ih => exact hs.stored (ht.sound h) (hc _ hallowed) (ht.invariant hP h hv) ih

/-! ## What an operation keeps -/

/-- What holds after an operation that began in `v`, where the result is `r`. -/
structure Kept (P : Space → Directory → Prop) (v : Volume δ) (r : Except Error Unit) (w : Volume δ) : Prop where
  sound : w.Sound
  holds : P w.space w.directory
  stored : ¬IsIo r → Stored P v → Stored P w
  reliable : Reliable v.device → ¬IsIo r ∧ Reliable w.device

omit [BlockDevice δ] [LawfulDevice δ] in
theorem fault_not_mem_acts (op : Operation) (v : Volume δ) : .fault ∉ op.acts v := by
  cases op with
  | create path kind => cases hp : Path.ofString? path <;> simp [Operation.acts, hp]
  | delete path => cases hs : v.slotOf? path <;> simp [Operation.acts, hs]
  | openPath path mode =>
    cases hp : Path.ofString? path <;> cases mode <;> simp [Operation.acts, hp, opening]
  | write hd data => cases hf : v.handles.file? hd <;> simp [Operation.acts, hf, writing]
  | _ => simp [Operation.acts, reading, closing]

theorem Restored.synced {s : Space} {d : Directory} (h : Restored v w s d) : w.Synced := by
  unfold Synced
  rw [h.space, h.directory]
  exact h.persisted

theorem Restored.sound {s : Space} {d : Directory} (h : Restored v w s d)
    (hn : volumeBlocks ≤ deviceSize v.device) (hall : Allocated s d) : w.Sound := by
  refine .of_no_files ?_ (le_deviceSize h.served.info hn) h.files
  rw [h.space, h.directory]
  exact hall.migrate

/-- Mounting keeps what is stored, or stays with what was there if the device refuses a request. -/
theorem mount_kept (hP : Invariant P allowed) (h : v.Sound) (hv : P v.space v.directory) (hst : Stored P v) :
    (mount : VolumeAction δ Unit).Ensures v (Kept P v) := by
  obtain ⟨s, d, hp, hall, hholds⟩ := hst
  apply (mount_of_persisted h.size_le hp hall).mono
  rintro r w (⟨rfl, hm⟩ | ⟨hio, hm⟩)
  · have hst' : Stored P w := ⟨s, d.migrate, hm.persisted, hall.migrate, hP.migrate hholds⟩
    refine ⟨hm.sound h.size_le hall, ?_, fun _ _ => hst', fun hrel => ⟨not_isIo_ok _, hm.served.reliable hrel⟩⟩
    rw [hm.space, hm.directory]
    exact hP.migrate hholds
  · have hnone : ∀ p, w.handles.fileAt? p = none := by
      intro p
      rw [hm.handles]
      exact Pool.fileAt?_reset _ _
    have hsize : volumeBlocks ≤ deviceSize w.device := le_deviceSize hm.info h.size_le
    refine ⟨.of_no_files ?_ hsize hnone, ?_, fun hno => absurd hio hno, fun hrel => absurd hrel hm.unreliable⟩
    -- space and directory are both the old ones or both the stored ones
    · rcases hm.loaded with ⟨hs, hd⟩ | ⟨hs, hd⟩ <;> rw [hs, hd]
      · exact h.allocated
      · exact hall.migrate
    · rcases hm.loaded with ⟨hs, hd⟩ | ⟨hs, hd⟩ <;> rw [hs, hd]
      · exact hv
      · exact hP.migrate hholds

/-- **An operation keeps the volume sound and every invariant of its steps.** -/
theorem perform_kept (hP : Invariant P allowed) {op : Operation} (hop : Admitted allowed op) (h : v.Sound)
    (hv : P v.space v.directory) (hst : op = .mount → Stored P v) :
    (op.perform : VolumeAction δ Unit).Ensures v (Kept P v) := by
  by_cases hmount : op = .mount
  · subst hmount
    exact mount_kept hP h hv (hst rfl)
  · apply (op.walk h hmount).mono
    intro r w hwalk
    refine ⟨hwalk.sound h, ?_, ?_, fun hrel => ⟨fun hio => hwalk.unreliable hio hrel, hwalk.reliable hrel⟩⟩
    · exact (hwalk.trace.mono fun c hc => hop δ v c (hc.imp id And.right)).invariant hP h hv
    · intro hr hst
      have htrace : Trace (fun c => allowed c ∧ c ≠ .fault) v w :=
        (hwalk.trace_of_not_isIo hr).mono fun c hc =>
          ⟨hop δ v c (Or.inl hc), fun he => fault_not_mem_acts op v (he ▸ hc)⟩
      exact htrace.stored (hP.mono fun c hc => hc.1) h (fun c hc => hc.2) hv hst

/-! ## Runs -/

/-- The volume after operations that are carried out one after the other, whatever each returns. -/
def run (ops : List Operation) (v : Volume δ) : Volume δ :=
  ops.foldl (fun v op => op.after v) v

omit [LawfulDevice δ] in
@[simp] theorem run_nil (v : Volume δ) : run [] v = v := rfl

omit [LawfulDevice δ] in
@[simp] theorem run_cons (op : Operation) (ops : List Operation) (v : Volume δ) :
    run (op :: ops) v = run ops (op.after v) := rfl

/-- No operation of the run reports that the device has refused a request. -/
def AllServed : List Operation → Volume δ → Prop
  | [], _ => True
  | op :: ops, v => ¬IsIo (op.perform v).result ∧ AllServed ops (op.after v)

/-- Once the device has refused a request the volume is not mounted again. -/
def Orderly : List Operation → Volume δ → Prop
  | [], _ => True
  | op :: ops, v => (IsIo (op.perform v).result → .mount ∉ ops) ∧ Orderly ops (op.after v)

omit [LawfulDevice δ] in
theorem AllServed.orderly {ops : List Operation} (h : AllServed ops v) : Orderly ops v := by
  induction ops generalizing v with
  | nil => trivial
  | cons op ops ih => exact ⟨fun hio => absurd hio h.1, ih h.2⟩

omit [LawfulDevice δ] in
/-- A run without mounting is orderly, however often the device refuses. -/
theorem orderly_of_not_mem {ops : List Operation} (h : .mount ∉ ops) : Orderly ops v := by
  induction ops generalizing v with
  | nil => trivial
  | cons op ops ih =>
    have hrest : .mount ∉ ops := fun hm => h (List.mem_cons_of_mem _ hm)
    exact ⟨fun _ => hrest, ih hrest⟩

/-- **An orderly run keeps the volume sound and every invariant of its steps.** -/
theorem run_kept (hP : Invariant P allowed) {ops : List Operation} (hops : ∀ op ∈ ops, Admitted allowed op)
    (h : v.Sound) (hv : P v.space v.directory) (hst : .mount ∈ ops → Stored P v) (ho : Orderly ops v) :
    (run ops v).Sound ∧ P (run ops v).space (run ops v).directory := by
  induction ops generalizing v with
  | nil => exact ⟨h, hv⟩
  | cons op ops ih =>
    have hkept : Kept P v (op.perform v).result (op.after v) :=
      perform_kept hP (hops op List.mem_cons_self) h hv fun he => hst (by rw [he]; exact List.mem_cons_self)
    -- what is stored matters only if the volume is mounted again, and then the device served the operation
    refine ih (fun op hop => hops op (List.mem_cons_of_mem _ hop)) hkept.sound hkept.holds ?_ ho.2
    intro hm
    exact hkept.stored (fun hio => ho.1 hio hm) (hst (List.mem_cons_of_mem _ hm))

/-- A reliable device serves all requests of a run and stays reliable. -/
theorem run_reliable {ops : List Operation} (h : v.Sound) (hst : Stored (fun _ _ => True) v)
    (hr : Reliable v.device) : AllServed ops v ∧ Reliable (run ops v).device := by
  induction ops generalizing v with
  | nil => exact ⟨trivial, hr⟩
  | cons op ops ih =>
    have hkept : Kept (fun _ _ => True) v (op.perform v).result (op.after v) :=
      perform_kept .trivial (fun _ _ _ _ => trivial) h trivial fun _ => hst
    obtain ⟨hserved, hrel⟩ := hkept.reliable hr
    obtain ⟨hall, hend⟩ := ih hkept.sound (hkept.stored hserved hst) hrel
    exact ⟨⟨hserved, hall⟩, hend⟩

omit [BlockDevice δ] [LawfulDevice δ] in
theorem leave_not_mem {op : Operation} (hop : op ≠ .unmount) (v : Volume δ) :
    .leave ∉ op.acts v ∧ .leave ∉ op.faults v := by
  cases op with
  | create path kind => cases hp : Path.ofString? path <;> simp [Operation.acts, Operation.faults, hp]
  | delete path => cases hs : v.slotOf? path <;> simp [Operation.acts, Operation.faults, hs]
  | openPath path mode =>
    cases hp : Path.ofString? path <;> cases mode <;> simp [Operation.acts, Operation.faults, hp, opening]
  | write hd data => cases hf : v.handles.file? hd <;> simp [Operation.acts, Operation.faults, hf, writing]
  | close hd => cases hf : v.handles.file? hd <;> simp [Operation.acts, Operation.faults, hf, closing]
  | unmount => exact absurd rfl hop
  | _ => simp [Operation.acts, Operation.faults, reading]

/-- A run that neither mounts nor leaves the volume does not change whether it is mounted. -/
theorem run_mounted {ops : List Operation} (h : v.Sound) (hmount : .mount ∉ ops) (hunmount : .unmount ∉ ops) :
    (run ops v).mounted = v.mounted := by
  induction ops generalizing v with
  | nil => rfl
  | cons op ops ih =>
    obtain ⟨hne, hmount⟩ := not_or.mp (mt List.mem_cons.mpr hmount)
    obtain ⟨hne', hunmount⟩ := not_or.mp (mt List.mem_cons.mpr hunmount)
    have hwalk : Walk (op.acts v) (op.faults v) v (op.perform v).result (op.after v) := op.walk h (Ne.symm hne)
    have hleave := leave_not_mem (Ne.symm hne') v
    have hstep := hwalk.trace.mounted_eq (not_or.mpr ⟨hleave.1, fun hc => hleave.2 hc.2⟩)
    exact (ih (hwalk.sound h) hmount hunmount).trans hstep

/-! ## Beginnings -/

/-- A volume that was formatted and then mounted; mounting a device without a superblock does both. -/
inductive Begun : Volume δ → Prop
  | formatted {v : Volume δ} : (format v).result = .ok () → (mount (format v).state).result = .ok () →
      Begun (mount (format v).state).state
  | unformatted {v : Volume δ} : volumeBlocks ≤ deviceSize v.device →
      (Space.read (content v.device)).superblock.magic ≠ volumeMagic → (mount v).result = .ok () →
      Begun (mount v).state

/-- The volumes that orderly runs lead to. -/
def Reached (v : Volume δ) : Prop :=
  ∃ u ops, Begun u ∧ Orderly ops u ∧ run ops u = v

/-- A beginning is a mounted volume without entries, in memory and on the device. -/
theorem Begun.restored (h : Begun u) :
    ∃ v : Volume δ, volumeBlocks ≤ deviceSize v.device ∧ Restored v u Space.fresh Directory.empty := by
  cases h with
  | @formatted v hformat hmount =>
    rcases format_cases v with ⟨-, hio, -⟩ | ⟨hn, ⟨-, hs⟩ | ⟨hio, -⟩⟩
    · rw [hformat] at hio
      exact absurd hio (not_isIo_ok _)
    · have hsize := (hs.sound (sound_cleared hn)).size_le
      have hp : Persisted (content (format v).state.device) Space.fresh Directory.empty := hs.persisted_of_store
      rcases mount_of_persisted hsize hp .fresh with ⟨-, hm⟩ | ⟨hio, -⟩
      · exact ⟨_, hsize, hm⟩
      · rw [hmount] at hio
        exact absurd hio (not_isIo_ok _)
    · rw [hformat] at hio
      exact absurd hio (not_isIo_ok _)
  | @unformatted v hn hmagic hmount =>
    rcases mount_of_unformatted hn hmagic with ⟨-, hm⟩ | ⟨hio, -⟩
    · exact ⟨v, hn, hm⟩
    · rw [hmount] at hio
      exact absurd hio (not_isIo_ok _)

namespace Begun

theorem sound (h : Begun u) : u.Sound := by
  obtain ⟨v, hn, hm⟩ := h.restored
  exact hm.sound hn .fresh

theorem space (h : Begun u) : u.space = Space.fresh := by
  obtain ⟨v, -, hm⟩ := h.restored
  exact hm.space

theorem directory (h : Begun u) : u.directory = Directory.empty := by
  obtain ⟨v, -, hm⟩ := h.restored
  rw [hm.directory, Directory.migrate_empty]

theorem mounted (h : Begun u) : u.mounted = true := by
  obtain ⟨v, -, hm⟩ := h.restored
  exact hm.mounted

theorem fileAt? (h : Begun u) (p : Place) : u.handles.fileAt? p = none := by
  obtain ⟨v, -, hm⟩ := h.restored
  exact hm.files p

theorem stored (h : Begun u) (hP : P Space.fresh Directory.empty) : Stored P u := by
  obtain ⟨v, -, hm⟩ := h.restored
  exact ⟨_, _, Directory.migrate_empty ▸ hm.persisted, .fresh, hP⟩

/-- **An invariant of the steps of a run holds at its end.** -/
theorem run_kept (h : Begun u) (hP : Invariant P allowed) {ops : List Operation}
    (hops : ∀ op ∈ ops, Admitted allowed op) (ho : Orderly ops u) :
    (run ops u).Sound ∧ P (run ops u).space (run ops u).directory := by
  refine Volume.run_kept hP hops h.sound ?_ (fun _ => h.stored hP.fresh) ho
  rw [h.space, h.directory]
  exact hP.fresh

/-- The runs of a reliable device are runs in which all requests are served. -/
theorem run_reliable (h : Begun u) (hr : Reliable u.device) (ops : List Operation) :
    AllServed ops u ∧ Reliable (run ops u).device :=
  Volume.run_reliable h.sound (h.stored trivial) hr

/-- A file at the top can be created and opened at the beginning. -/
theorem openPath_created (h : Begun u) (hr : Reliable u.device) {path : String} {p : Path}
    (hp : Path.ofString? path = some p) (hroot : p.isRoot = false) (hparent : Path.parentOf p.text = "/") :
    (openPath path .write).Ensures u fun r w =>
      ∃ hd slot, r = .ok hd ∧ w.handles.file? hd = some (OpenFile.start slot .write) := by
  have hfind : u.directory.find? p.text = none := by rw [h.directory, Directory.find?_empty]
  have hfree : u.directory.freeSlot? = some 0 := by rw [h.directory, Directory.freeSlot?_empty]
  have hparent' : u.ensureParent p = .ok () := if_pos hparent
  have hfull : u.handles.isFull = false := Pool.isFull_eq_false (h.fileAt? 0)
  apply (Volume.openPath_created h.sound h.mounted hfull hp hroot hfind hparent' hfree).mono
  intro r w hopened
  have hio := fun hio => hopened.walk.unreliable hio hr
  cases hopened with
  | found _ ha _ => exact ⟨_, _, rfl, Pool.file?_of_acquire? ha⟩
  | created _ _ ha _ => exact ⟨_, _, rfl, Pool.file?_of_acquire? ha⟩
  | unstored _ _ => exact absurd (isIo_io _) hio

end Begun

/-- The volume of a device that was formatted and mounted, if the device served all requests. -/
def formatted (d : δ) : Volume δ :=
  (mount (format (ofDevice d)).state).state

/-- A reliable device that is large enough can be formatted and mounted. -/
theorem begun_of_reliable {d : δ} (hn : volumeBlocks ≤ deviceSize d) (hr : Reliable d) :
    Begun (formatted d) ∧ Reliable (formatted d).device := by
  unfold formatted
  have hcleared : Reliable (ofDevice d).cleared.device := by
    unfold cleared
    exact hr
  rcases format_cases (ofDevice d) with ⟨hlt, -⟩ | ⟨-, ⟨hformat, hs⟩ | ⟨-, hs⟩⟩
  · exact absurd hn (Nat.not_le.mpr hlt)
  · have hsound := hs.sound (sound_cleared hn)
    have hrel := (hs.reliable hcleared).2
    have hp : Persisted (content (format (ofDevice d)).state.device) Space.fresh Directory.empty :=
      hs.persisted_of_store
    rcases mount_of_persisted hsound.size_le hp .fresh with ⟨hmount, hm⟩ | ⟨-, hm⟩
    · exact ⟨.formatted hformat hmount, hm.served.reliable hrel⟩
    · exact absurd hrel hm.unreliable
  · exact absurd rfl (hs.reliable hcleared).1

/-- **A volume that was reached is sound.** -/
theorem Reached.sound (h : Reached v) : v.Sound := by
  obtain ⟨u, ops, hb, ho, rfl⟩ := h
  exact (hb.run_kept .trivial (fun _ _ _ _ _ _ => trivial) ho).1

/-- Every run of a reliable device leads to a volume that was reached. -/
theorem reached_of_reliable {d : δ} (hn : volumeBlocks ≤ deviceSize d) (hr : Reliable d)
    (ops : List Operation) : Reached (run ops (formatted d)) := by
  obtain ⟨hb, hrel⟩ := begun_of_reliable hn hr
  exact ⟨_, ops, hb, (hb.run_reliable hrel ops).1.orderly, rfl⟩

/-- On a reliable device a file can be created and opened first of all. -/
theorem reached_with_file {d : δ} (hn : volumeBlocks ≤ deviceSize d) (hr : Reliable d) {path : String}
    {p : Path} (hp : Path.ofString? path = some p) (hroot : p.isRoot = false)
    (hparent : Path.parentOf p.text = "/") :
    Reached (run [.openPath path .write] (formatted d)) ∧
      Reliable (run [.openPath path .write] (formatted d)).device ∧
      ∃ hd slot, (run [.openPath path .write] (formatted d)).handles.file? hd =
        some (OpenFile.start slot .write) := by
  obtain ⟨hbegun, hrel⟩ := begun_of_reliable hn hr
  refine ⟨reached_of_reliable hn hr _, (hbegun.run_reliable hrel _).2, ?_⟩
  obtain ⟨hd, slot, -, hf⟩ := hbegun.openPath_created hrel hp hroot hparent
  rw [run_cons, run_nil, Operation.after_openPath]
  exact ⟨hd, slot, hf⟩

end Volume

end BlockVolume
