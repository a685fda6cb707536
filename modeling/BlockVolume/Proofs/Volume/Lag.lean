import BlockVolume.Proofs.Volume.Frame
import BlockVolume.Proofs.Volume.Names

/-!
# `Proofs.Volume.Lag` — how far the device is behind the volume

Entries are created and removed on the device at once, but the size and the run of a file that is being
written reach it only when somebody stores the description. Until then the device describes an earlier
volume. It is earlier in the files that are open for writing and in nothing else: whatever closes a writer
or drops the handles stores the description as well.

## Contents
- **`Lags`**: the device is behind by what writers have not stored yet; `Synced.lags`.
- **`Step.lags`** for the steps that the device need not follow at once, **`Operation.lags`** for all others.
- **`Mirrored`** and **`run_mirrored`**: so it stays along every run of a reliable device.
-/

namespace BlockVolume

open BlockVolume.Action Space

/-- Whether the device may be left behind by a change of this kind, which then concerns nothing but a file
that is open for writing. -/
def Change.defers : Change → Bool
  | .store | .writeBack | .load | .place | .grow _ | .put _ | .acquire => true
  | _ => false

namespace Volume

variable {δ : Type} [BlockDevice δ] [LawfulDevice δ] {u v w : Volume δ} {s : Space} {d : Directory}
  {c : Change} {slot : Slot} {touched : Place → Prop}

/-- Nobody has the file in a slot open for writing. -/
def NoWriter (v : Volume δ) (slot : Slot) : Prop :=
  ∀ p f, v.handles.fileAt? p = some f → f.slot = slot → f.mode ≠ .write

/-- The device describes the space `s` and the directory `d`, which go together. They have the names and
kinds of the volume in memory, and the same entry for every file that nobody is writing. -/
structure Lags (v : Volume δ) (s : Space) (d : Directory) : Prop where
  persisted : Persisted (content v.device) s d
  allocated : Allocated s d
  label (slot : Slot) : (d.get slot).label = (v.directory.get slot).label
  entry {slot : Slot} : v.NoWriter slot → d.get slot = v.directory.get slot

/-- A device that describes the volume is not behind. -/
theorem Synced.lags (hs : v.Synced) (h : v.Sound) : Lags v v.space v.directory :=
  ⟨hs, h.allocated, fun _ => rfl, fun _ => rfl⟩

/-- The device stays as far behind if the description on it stays, nothing is opened, closed or renamed, and
entries change under writers only. -/
theorem Lags.of_frame (hl : Lags v s d) (hf : Frame touched v w)
    (hb : ∀ b < firstDataBlock, content w.device b = content v.device b)
    (hd : ∀ slot, v.NoWriter slot → w.directory.get slot = v.directory.get slot) : Lags w s d where
  persisted := hl.persisted.congr hb
  allocated := hl.allocated
  label slot := (hl.label slot).trans (hf.label slot).symm
  entry {slot} hno := by
    have hno' : v.NoWriter slot := by
      intro p f hp hs hm
      obtain ⟨f', hp', hs', hm'⟩ := hf.file_cases hp
      exact hno p f' hp' (hs'.trans hs) (hm'.trans hm)
    rw [hl.entry hno', hd slot hno']

/-- **A step that the device need not follow leaves it behind by what writers do at most.** -/
theorem Step.lags (hs : Step c v w) (h : v.Sound) (hc : c.defers = true) (hl : Lags v s d) :
    ∃ s d, Lags w s d := by
  have hedit (d' : δ) (p : Place) {g : OpenFile → OpenFile} (hg : ∀ f, (g f).claim = f.claim) :
      Frame (fun _ => True) v (editFile { v with device := d' } p g) :=
    IsTrans.trans _ _ _ (Frame.of_device d') (Frame.of_edit trivial hg)
  have hentry {f : OpenFile} {p : Place} (hp : v.handles.fileAt? p = some f) (hm : f.mode = .write) (e : Entry)
      (slot : Slot) (hno : v.NoWriter slot) : (v.directory.set f.slot e).get slot = v.directory.get slot :=
    (Directory.get_set _ _ _ _).trans (if_neg fun he => hno p f hp he.symm hm)
  have hsound := hs.sound h
  cases hs with
  | store _ hp _ => exact ⟨_, _, Synced.lags hp hsound⟩
  | @writeBack _ p f b d' hp hb _ hcontent =>
    refine ⟨s, d, hl.of_frame (hedit d' p fun _ => rfl) ?_ fun _ _ => rfl⟩
    intro i hi
    have hdata := (h.owned_bounds ((h.coherent hp).owned_of_pending hb)).1
    show content d' i = content v.device i
    rw [hcontent, Function.update_of_ne (Nat.ne_of_lt (Nat.lt_of_lt_of_le hi hdata))]
  | @forget _ p _ _ _ =>
    exact ⟨s, d, hl.of_frame (hedit v.device p fun _ => rfl) (fun _ _ => rfl) fun _ _ => rfl⟩
  | @load _ p _ _ d' _ _ _ _ hcontent =>
    exact ⟨s, d, hl.of_frame (hedit d' p fun _ => rfl) (fun b _ => congrFun hcontent b) fun _ _ => rfl⟩
  | @place _ p _ _ _ _ =>
    exact ⟨s, d, hl.of_frame (hedit v.device p fun _ => rfl) (fun _ _ => rfl) fun _ _ => rfl⟩
  | @grow _ p f g hp hm hg =>
    obtain ⟨-, -, -, -, he⟩ := grow_eq_ok hg
    have hframe : Frame (fun _ => True) v { v with space := g.space, directory := v.directory.set f.slot g.entry } :=
      (refl v : Frame _ v v).with_entry (Prod.ext he.nameField he.kind) _
    exact ⟨s, d, hl.of_frame hframe (fun _ _ => rfl) (hentry hp hm _)⟩
  | @put _ p f b base bytes hp hm _ _ _ _ =>
    have hfile := hedit v.device p (g := fun f => putFile f b base bytes) fun _ => rfl
    have hput : (putEntry (v.directory.get f.slot) (f.position + bytes.length)).label =
        (v.directory.get f.slot).label := rfl
    have hframe := hfile.with_entry hput v.space
    exact ⟨s, d, hl.of_frame hframe (fun _ _ => rfl) (hentry hp hm _)⟩
  | @acquire _ _ _ hd handles _ _ _ ha =>
    refine ⟨s, d, hl.persisted, hl.allocated, hl.label, fun hno => hl.entry fun p f hp => hno p f ?_⟩
    -- who was writing before has not lost the place
    have hne : p ≠ hd.place := by
      rintro rfl
      rw [(Pool.acquire?_eq_some ha).1] at hp
      cases hp
    exact ((Pool.acquire?_places ha p).1.trans (if_neg hne)).trans hp
  | _ => cases hc

theorem Trace.lags {allowed : Change → Prop} (ht : Trace allowed v w) (h : v.Sound)
    (hc : ∀ c, allowed c → c.defers = true) (hl : Lags v s d) : ∃ s d, Lags w s d := by
  induction ht with
  | refl => exact ⟨s, d, hl⟩
  | tail ht hs hallowed ih =>
    obtain ⟨s', d', hl'⟩ := ih
    exact hs.lags (ht.sound h) (hc _ hallowed) hl'

/-! ## Operations -/

theorem Declined.lags {α : Type} {r : Except Error α} (hd : Declined v r w) (hl : Lags v s d) :
    ∃ s d, Lags w s d := by
  obtain ⟨_, _, _, rfl⟩ := hd
  exact ⟨s, d, hl⟩

/-- Opening a file stores a new entry first, and takes a place then. -/
theorem openPath_lags (h : v.Sound) (hl : Lags v s d) (path : String) (mode : Mode) :
    (openPath path mode).Ensures v fun r w => ¬IsIo r → ∃ s d, Lags w s d := by
  apply (openPath_cases h path mode).mono
  rintro r w (⟨p, -, hopened⟩ | hdeclined) hr
  · cases hopened with
    | found _ _ hs => exact hs.lags h rfl hl
    | created _ hadded _ hs =>
      obtain ⟨slot, -, -, hinsert, ⟨-, hstore⟩ | ⟨hio, -⟩⟩ := hadded
      · have hsound := hstore.sound (hinsert.sound h)
        exact hs.lags hsound rfl (hstore.synced.lags hsound)
      · exact absurd hio (not_isIo_ok _)
    | unstored _ _ => exact absurd (isIo_io _) hr
  · exact hdeclined.lags hl

/-- **After an operation that was served the device is behind by what writers have not stored yet.** -/
theorem lags_of_perform {op : Operation} (h : v.Sound) (hop : op ≠ .mount) (hl : Lags v s d) :
    (op.perform : VolumeAction δ Unit).Ensures v fun r w => ¬IsIo r → ∃ s d, Lags w s d := by
  have hdefers (hacts : ∀ c ∈ op.acts v, c.defers = true) :
      (op.perform : VolumeAction δ Unit).Ensures v fun r w => ¬IsIo r → ∃ s d, Lags w s d :=
    (op.walk h hop).mono fun r w hwalk hr => (hwalk.trace_of_not_isIo hr).lags h hacts hl
  cases op with
  | create path kind =>
    apply ((create_cases h path kind).and (Operation.walk h hop)).mono
    rintro r w ⟨⟨p, r', -, -, -, ⟨slot, -, -, -, ⟨rfl, hs⟩ | ⟨⟨e, rfl⟩, -⟩⟩, rfl⟩ | hdeclined, hwalk⟩ hr
    · exact ⟨_, _, hs.synced.lags (hwalk.sound h)⟩
    · exact absurd (isIo_io e) hr
    · exact hdeclined.lags hl
  | delete path =>
    apply (delete_cases h path).mono
    rintro r w (⟨slot, -, hwalk, hsynced⟩ | hdeclined) hr
    · exact ⟨_, _, (hsynced hr).lags (hwalk.sound h)⟩
    · exact hdeclined.lags hl
  | openPath path mode =>
    refine Ensures.bind (openPath_lags h hl path mode) ?_ ?_
    · exact fun _ _ hw _ => hw (not_isIo_ok _)
    · exact fun e w hw hr => hw (by simpa using hr)
  | close hd =>
    apply (close_cases h hd).mono
    rintro r w (⟨f, -, hwalk, hsynced⟩ | hdeclined) hr
    · exact ⟨_, _, (hsynced hr).lags (hwalk.sound h)⟩
    · exact hdeclined.lags hl
  | format =>
    apply (format_cases v).mono
    rintro r w (⟨-, hio, -⟩ | ⟨hn, ⟨-, hs⟩ | ⟨hio, -⟩⟩) hr
    · exact absurd hio hr
    · exact ⟨_, _, hs.synced.lags (hs.sound (sound_cleared hn))⟩
    · exact absurd hio hr
  | unmount =>
    apply (unmount_cases h).mono
    rintro r w (⟨hwalk, ⟨-, -, hsynced⟩ | hio⟩ | ⟨-, hdeclined⟩) hr
    · exact ⟨_, _, hsynced.lags (hwalk.sound h)⟩
    · exact absurd hio hr
    · exact hdeclined.lags hl
  | write hd data =>
    apply hdefers
    cases hf : v.handles.file? hd <;> simp [Operation.acts, hf, writing, Change.defers]
  | mount => exact absurd rfl hop
  | _ => exact hdefers (by simp [Operation.acts, reading, Change.defers])

/-! ## Runs -/

/-- The volume is sound, its names are ones that mounting keeps, and the device is behind by what writers
have not stored yet. -/
structure Mirrored (v : Volume δ) : Prop where
  sound : v.Sound
  absolute : v.directory.Absolute
  lags : ∃ s d, Lags v s d

/-- The names on the device are those in memory. -/
theorem Lags.absolute (hl : Lags v s d) (ha : v.directory.Absolute) : d.Absolute := by
  intro i hused
  have hname : (d.get i).nameField = (v.directory.get i).nameField := congrArg Prod.fst (hl.label i)
  have hkind : (d.get i).kind = (v.directory.get i).kind := congrArg Prod.snd (hl.label i)
  rw [Entry.name_congr hname]
  exact ha i ((Entry.isEmpty_congr hkind).symm.trans hused)

namespace Mirrored

theorem of_synced (h : v.Sound) (ha : v.directory.Absolute) (hs : v.Synced) : Mirrored v :=
  ⟨h, ha, _, _, hs.lags h⟩

/-- **Whatever is asked of a volume on a reliable device, the device follows.** -/
theorem perform (hm : Mirrored v) (hr : Reliable v.device) (op : Operation) :
    (op.perform : VolumeAction δ Unit).Ensures v fun _ w => Mirrored w ∧ Reliable w.device := by
  obtain ⟨s, d, hl⟩ := hm.lags
  have hadmitted : Admitted (fun _ => True) op := fun _ _ _ _ => trivial
  have hstored : Stored (fun _ d => d.Absolute) v :=
    ⟨s, d, hl.persisted, hl.allocated, hl.absolute hm.absolute⟩
  have hkept := perform_kept absoluteInvariant hadmitted hm.sound hm.absolute fun _ => hstored
  have hlags : (op.perform : VolumeAction δ Unit).Ensures v fun r w => ¬IsIo r → ∃ s d, Lags w s d := by
    by_cases hop : op = .mount
    · subst hop
      apply (mount_of_persisted hm.sound.size_le hl.persisted hl.allocated).mono
      rintro r w (⟨-, hw⟩ | ⟨hio, -⟩) hno
      · exact ⟨_, _, hw.synced.lags (hw.sound hm.sound.size_le hl.allocated)⟩
      · exact absurd hio hno
    · exact lags_of_perform hm.sound hop hl
  apply (hkept.and hlags).mono
  rintro r w ⟨hk, hl⟩
  obtain ⟨hno, hrel⟩ := hk.reliable hr
  exact ⟨⟨hk.sound, hk.holds, hl hno⟩, hrel⟩

end Mirrored

/-- Along every run of a reliable device the device follows. -/
theorem run_mirrored (hm : Mirrored v) (hr : Reliable v.device) (ops : List Operation) :
    Mirrored (run ops v) ∧ Reliable (run ops v).device := by
  induction ops generalizing v with
  | nil => exact ⟨hm, hr⟩
  | cons op ops ih =>
    obtain ⟨hm', hr'⟩ := hm.perform hr op
    exact ih hm' hr'

/-! ## Beginnings -/

/-- A volume that was formatted just now, by itself or when it was mounted. -/
inductive Fresh : Volume δ → Prop
  | formatted {v : Volume δ} : (format v).result = .ok () → Fresh (format v).state
  | begun {v : Volume δ} : Begun v → Fresh v

theorem Fresh.mirrored (h : Fresh u) : Mirrored u := by
  cases h with
  | @formatted v hformat =>
    rcases format_cases v with ⟨-, hio, -⟩ | ⟨hn, ⟨-, hs⟩ | ⟨hio, -⟩⟩
    · rw [hformat] at hio
      exact absurd hio (not_isIo_ok _)
    · refine .of_synced (hs.sound (sound_cleared hn)) ?_ hs.synced
      rw [hs.eq_of_store]
      exact absoluteInvariant.fresh
    · rw [hformat] at hio
      exact absurd hio (not_isIo_ok _)
  | begun h =>
    obtain ⟨v, hn, hm⟩ := h.restored
    refine .of_synced h.sound ?_ hm.synced
    rw [h.directory]
    exact absoluteInvariant.fresh

end Volume

end BlockVolume
