import BlockVolume.Proofs.Device.ImageFile
import BlockVolume.Proofs.Volume.Visit
import BlockVolume.Tool.Session

/-!
# `Proofs.Tool.Session` — images between runs of the tool

A run of the tool is one visit to the volume in the image, whatever its command comes to. So every image that
was missing at first and was touched by the tool alone holds a volume that was left in order, and the next run
takes up just this volume.

## Contents
- **`Call`** and **`runs`**: the tool run again and again on one image.
- `Command.Performs`: the operations of a command, with **`execute_respects`** and **`execute_steady`**.
- **`working`**: the volume on which a command works. **`session_visit`**: a session is the command and leaving.
- **`Kept`**: images that hold a volume left in order; **`run_kept`** and **`runs_kept`**.
-/

namespace BlockVolume.Tool

open BlockVolume.Action
open Volume (Admitted Invariant Ready Resumed Stowed)

/-! ## Runs of the tool -/

/-- A run of the tool: the command line, the setting for records, and the files of the host. -/
structure Call where
  args : List String
  setting : Option String
  files : HostFiles

/-- The image after runs of the tool, one after the other. -/
def runs (calls : List Call) (image : Option ImageFile) : Option ImageFile :=
  calls.foldl (fun image c => (run c.args c.setting c.files image).image) image

/-- A run with a wrong command line does nothing to the image. -/
theorem run_of_wrong {args : List String} (h : Invocation.parse? args = none) (setting : Option String)
    (files : HostFiles) (image : Option ImageFile) : (run args setting files image).image = image := by
  rw [run, h]

/-- What a run with a command line that is understood leaves, and what it tells, is what its session ends in. -/
theorem run_of_parse {args : List String} {inv : Invocation} (h : Invocation.parse? args = some inv)
    (setting : Option String) (files : HostFiles) {image : Option ImageFile}
    {post : Except Failure String → Volume ImageFile → Prop}
    (hsession : (session inv files).Ensures (Volume.ofDevice (image.getD .empty)) post) :
    ∃ r v, post r v ∧ (run args setting files image).image = some v.device ∧
      ((run args setting files image).status = 0 ↔ ∃ text, r = .ok text) ∧
      ∀ text, r = .ok text → (run args setting files image).output = text := by
  refine ⟨_, _, hsession, ?_⟩
  have hrun : run args setting files image = runInvocation inv (.ofSetting setting) files image := by
    simp only [run, h]
  rw [hrun]
  unfold runInvocation
  cases hr : (session inv files (Volume.ofDevice (image.getD .empty))).result with
  | ok text => simp [hr]
  | error failure => simp [hr]

/-- Replacing a file, with what is deleted before it as one step. -/
theorem replace_eq (path : String) (data : List UInt8) : replace path data = (do
    let v ← Action.get
    let _ ← (if isFile v path then Volume.delete path else pure () : VolumeAction ImageFile Unit)
    let h ← Volume.openPath path .write
    let written ← Action.attempt (Volume.write h data : VolumeAction ImageFile Nat)
    let closed ← Action.attempt (Volume.close h : VolumeAction ImageFile Unit)
    let count ← written
    closed
    pure count) := by
  unfold replace
  congr 1
  funext v
  split <;> rfl

/-! ## What commands ask of the volume -/

namespace Command

/-- The path of the file whose contents a command replaces, if it replaces any. -/
def replaces? : Command → Option String
  | .write path _ | .put path _ => some path
  | _ => none

/-- The path at which a command may add an entry, if it may add one. -/
def target? : Command → Option String
  | .touch path | .makeDirectory path | .write path _ | .put path _ => some path
  | _ => none

/-- The operations that a command may carry out on the volume. -/
inductive Performs : Command → Operation → Prop
  | openRead {path : String} : Performs (.print path) (.openPath path .read)
  | read {path : String} {hd : Handle} {n : Nat} : Performs (.print path) (.read hd n)
  | closeRead {path : String} {hd : Handle} : Performs (.print path) (.close hd)
  | touch {path : String} : Performs (.touch path) (.create path .file)
  | makeDirectory {path : String} : Performs (.makeDirectory path) (.create path .directory)
  | remove {path : String} : Performs (.remove path) (.delete path)
  | clear {command : Command} {path : String} : command.replaces? = some path → Performs command (.delete path)
  | openWrite {command : Command} {path : String} : command.replaces? = some path →
      Performs command (.openPath path .write)
  | write {command : Command} {path : String} {hd : Handle} {data : List UInt8} : command.replaces? = some path →
      Performs command (.write hd data)
  | closeWrite {command : Command} {path : String} {hd : Handle} : command.replaces? = some path →
      Performs command (.close hd)

theorem target?_of_replaces {command : Command} {path : String} (h : command.replaces? = some path) :
    command.target? = some path := by
  cases command with
  | write _ _ | put _ _ => exact h
  | _ => cases h

variable {command : Command} {op : Operation}

/-- An operation of a command adds an entry only where the command may add one. -/
theorem Performs.target {text : String} (h : command.Performs op) (ht : op.target? = some text) :
    command.target? = some text := by
  cases h with
  | touch | makeDirectory => exact ht
  | openWrite hr => exact (target?_of_replaces hr).trans ht
  | _ => cases ht

/-- A command neither mounts the volume nor leaves it. -/
theorem Performs.inside (h : command.Performs op) : op ≠ .mount ∧ op ≠ .unmount := by
  cases h <;> simp

end Command

section

variable {R : Volume ImageFile → Volume ImageFile → Prop} [IsPreorder (Volume ImageFile) R]

theorem readUpTo_respects {hd : Handle} (hread : ∀ n, (Volume.read hd n : VolumeAction ImageFile _).Respects R)
    (n : Nat) : (readUpTo hd n).Respects R := by
  induction n with
  | zero => exact respects_pure _
  | succ n ih =>
    refine (hread _).bind fun bytes => ?_
    split
    · exact respects_pure _
    · exact ih.bind fun _ => respects_pure _

theorem readAll_respects {path : String} (hopen : (Volume.openPath path .read : VolumeAction ImageFile _).Respects R)
    (hread : ∀ hd n, (Volume.read hd n : VolumeAction ImageFile _).Respects R)
    (hclose : ∀ hd, (Volume.close hd : VolumeAction ImageFile _).Respects R) : (readAll path).Respects R := by
  refine hopen.bind fun hd => ?_
  refine respects_get.bind fun v => (respects_liftM _).bind fun file => respects_get.bind fun u => ?_
  refine (readUpTo_respects (hread hd) _).attempt.bind fun bytes => (hclose hd).attempt.bind fun closed => ?_
  exact (respects_liftM bytes).bind fun _ => (respects_liftM closed).bind fun _ => respects_pure _

theorem replace_respects {path : String} (hdelete : (Volume.delete path : VolumeAction ImageFile _).Respects R)
    (hopen : (Volume.openPath path .write : VolumeAction ImageFile _).Respects R)
    (hwrite : ∀ hd data, (Volume.write hd data : VolumeAction ImageFile _).Respects R)
    (hclose : ∀ hd, (Volume.close hd : VolumeAction ImageFile _).Respects R) (data : List UInt8) :
    (replace path data).Respects R := by
  have hclear (v : Volume ImageFile) : (if isFile v path then Volume.delete path else pure () :
      VolumeAction ImageFile Unit).Respects R := by
    split
    · exact hdelete
    · exact respects_pure _
  rw [replace_eq]
  refine respects_get.bind fun v => (hclear v).bind fun _ => hopen.bind fun hd => ?_
  refine (hwrite hd data).attempt.bind fun written => (hclose hd).attempt.bind fun closed => ?_
  exact (respects_liftM written).bind fun _ => (respects_liftM closed).bind fun _ => respects_pure _

/-- **A command respects what its operations respect.** -/
theorem execute_respects {command : Command} (hformat : command ≠ .format)
    (h : ∀ op, command.Performs op → (op.perform : VolumeAction ImageFile Unit).Respects R) (files : HostFiles) :
    (execute command files).Respects R := by
  have hreplace {path : String} (hr : command.replaces? = some path) (data : List UInt8) :
      (replace path data).Respects R :=
    replace_respects (h _ (.clear hr)) (respects_discard.mp (h _ (.openWrite hr)))
      (fun _ _ => respects_discard.mp (h _ (.write hr))) (fun _ => h _ (.closeWrite hr)) data
  cases command with
  | format => exact absurd rfl hformat
  | list _ | describe _ | usage =>
    exact (respects_get.bind fun _ => respects_liftM _).mapError.bind fun _ => respects_pure _
  | print path =>
    have hread := readAll_respects (respects_discard.mp (h _ .openRead)) (fun _ _ => respects_discard.mp (h _ .read))
      fun _ => h _ .closeRead
    exact hread.mapError.bind fun _ => respects_pure _
  | touch path =>
    refine respects_get.bind fun v => ?_
    split
    · exact respects_pure _
    · exact (h _ .touch).mapError.bind fun _ => respects_pure _
  | makeDirectory path => exact (h _ .makeDirectory).mapError.bind fun _ => respects_pure _
  | remove path => exact (h _ .remove).mapError.bind fun _ => respects_pure _
  | write path words => exact (hreplace rfl _).mapError.bind fun _ => respects_pure _
  | put path hostFile =>
    have hread : (readHostFile files hostFile).Respects R := by
      unfold readHostFile
      split
      · exact respects_get.bind fun _ => respects_pure _
      · exact respects_pure _
      · exact respects_throw _
    exact hread.bind fun data => (hreplace rfl data).mapError.bind fun _ => respects_pure _

end

/-- What is ready before is ready afterwards. -/
def Steady (P : Space → Directory → Prop) (v w : Volume ImageFile) : Prop :=
  v.Ready P → w.Ready P

instance {P : Space → Directory → Prop} : IsPreorder (Volume ImageFile) (Steady P) where
  refl _ := id
  trans _ _ _ h h' := fun hv => h' (h hv)

/-- **A command leaves a volume that is ready as ready, whether it succeeds or not.** -/
theorem execute_steady {P : Space → Directory → Prop} {Q : Path → Prop}
    (hP : Invariant P fun c => ∀ path, c = .insert path → Q path) {command : Command}
    (hcommand : ∀ text p, command.target? = some text → Path.ofString? text = some p → Q p)
    (hformat : command ≠ .format) (files : HostFiles) : (execute command files).Respects (Steady P) := by
  refine execute_respects hformat ?_ files
  intro op hop v hv
  have hadmitted : Admitted (fun c => ∀ path, c = .insert path → Q path) op :=
    Volume.admitted_of_target fun text p ht => hcommand text p (hop.target ht)
  exact (hv.perform hP hadmitted hop.inside.1 hop.inside.2).2

/-- Whether the call may add entries only at paths with the property `Q`. -/
def Call.Targets (Q : Path → Prop) (c : Call) : Prop :=
  ∀ inv, Invocation.parse? c.args = some inv →
    ∀ text p, inv.command.target? = some text → Path.ofString? text = some p → Q p

/-! ## Visits -/

/-- The volume of an image that was opened and not mounted yet. -/
def opened (image : Option ImageFile) : Volume ImageFile :=
  Volume.ofDevice ((image.getD .empty).extend volumeBlocks)

/-- The volume on which a command works. -/
def working (image : Option ImageFile) : Volume ImageFile :=
  (Volume.mount (opened image)).state

/-- The volume that a command leaves behind. -/
def worked (command : Command) (files : HostFiles) (image : Option ImageFile) : Volume ImageFile :=
  (execute command files (working image)).state

/-- If there is an image, a volume that has `P` was stowed in it. -/
def Kept (P : Space → Directory → Prop) (image : Option ImageFile) : Prop :=
  ∀ file, image = some file → ∃ w : Volume ImageFile, w.device = file ∧ w.Stowed P

theorem openImage_ensures (name : String) (image : Option ImageFile) :
    (openImage name).Ensures (Volume.ofDevice (image.getD .empty)) fun r w => r = .ok () ∧ w = opened image := by
  unfold openImage opened
  generalize image.getD .empty = file
  rw [ensures_bind, ensures_get]
  show Ensures (if (Volume.ofDevice file).device.size < volumeBlocks * blockSize then _ else _) _ _
  rw [Volume.device_ofDevice]
  split
  · simp only [ensures_bind, ensures_note, ensures_modify, ensures_get, true_and]
    rfl
  · rename_i hlarge
    have hextend : file.extend volumeBlocks = file := if_neg hlarge
    simp only [ensures_bind, ensures_note, ensures_get, hextend, and_self]

section

variable {P : Space → Directory → Prop} {Q : Path → Prop} {image : Option ImageFile}

/-- What was stowed in an image is taken up again, and mounting leaves the image as it is. -/
theorem working_resumed {w : Volume ImageFile} (h : w.Stowed P) (ha : w.directory.Absolute) :
    (Volume.mount (opened (some w.device))).result = .ok () ∧ (working (some w.device)).Ready P ∧
      Resumed w (working (some w.device)) ∧ (working (some w.device)).device = w.device := by
  have hextend : w.device.extend volumeBlocks = w.device := ImageFile.extend_of_le h.sound.size_le
  have hopened : (opened (some w.device)).device = w.device := hextend
  obtain ⟨hok, hready, hresumed, hdevice⟩ := h.mount ha hopened
  rw [hopened, ImageFile.readOut_eq] at hdevice
  exact ⟨hok, hready, hresumed, hdevice⟩

/-- A file of zeros is no volume yet, and mounting makes one of it. -/
theorem begun_of_zeros {file : ImageFile} (hsize : deviceSize file = volumeBlocks)
    (hzero : ∀ i, content file i = Block.zero) :
    (Volume.mount : VolumeAction ImageFile Unit).Ensures (Volume.ofDevice file) fun r y => r = .ok () ∧ y.Begun := by
  have hmagic : (Space.read (content file)).superblock.magic ≠ volumeMagic := by
    show (Superblock.ofBlock (content file superblockBlock)).magic ≠ volumeMagic
    rw [hzero]
    decide
  exact Volume.begun_of_unformatted (v := Volume.ofDevice file) (Nat.le_of_eq hsize.symm) (ImageFile.reliable _) hmagic

theorem opened_none : opened none = Volume.ofDevice (ImageFile.empty.extend volumeBlocks) := by
  rw [opened, Option.getD_none]

/-- On the first visit the volume is at its beginning. -/
theorem working_none : (Volume.mount (opened none)).result = .ok () ∧ (working none).Begun := by
  have hlarge : 0 < volumeBlocks := by decide
  have hmount := begun_of_zeros (ImageFile.deviceSize_extend_empty hlarge) (ImageFile.content_extend_empty hlarge)
  rw [← opened_none] at hmount
  rw [working]
  generalize opened none = v at hmount ⊢
  exact hmount

/-- What was opened has the size of a volume. -/
theorem Kept.large (hk : Kept P image) : volumeBlocks ≤ deviceSize (opened image).device := by
  cases image with
  | none =>
    rw [opened_none, Volume.device_ofDevice, ImageFile.deviceSize_extend_empty (by decide)]
  | some file =>
    obtain ⟨w, rfl, hw⟩ := hk file rfl
    have hopened : (opened (some w.device)).device = w.device := ImageFile.extend_of_le hw.sound.size_le
    rw [hopened]
    exact hw.sound.size_le

/-- A command always finds a volume that is ready. -/
theorem Kept.working {allowed : Change → Prop} (hk : Kept P image) (hP : Invariant P allowed)
    (habs : ∀ s d, P s d → d.Absolute) :
    (Volume.mount (opened image)).result = .ok () ∧ (working image).Ready P ∧
      ∀ p, (working image).handles.fileAt? p = none := by
  cases image with
  | none =>
    obtain ⟨hok, hbegun⟩ := working_none
    exact ⟨hok, hbegun.ready (ImageFile.reliable _) hP, hbegun.fileAt?⟩
  | some file =>
    obtain ⟨w, rfl, hw⟩ := hk file rfl
    obtain ⟨hok, hready, hresumed, -⟩ := working_resumed hw (habs _ _ hw.holds)
    exact ⟨hok, hready, hresumed.files⟩

/-- What a run of the tool is for a command that works on a mounted volume. -/
structure Visited (P : Space → Directory → Prop) (command : Command) (files : HostFiles) (image : Option ImageFile)
    (finished : Finished) : Prop where
  ready : (worked command files image).Ready P
  left : finished.image = some (Volume.unmount (worked command files image)).state.device
  status : finished.status = 0 ↔ ∃ text, (execute command files (working image)).result = .ok text
  output : ∀ text, (execute command files (working image)).result = .ok text → finished.output = text

/-- A session is the command on the volume that is found, and leaving what the command leaves. -/
theorem session_visit (hP : Invariant P fun c => ∀ path, c = .insert path → Q path)
    (habs : ∀ s d, P s d → d.Absolute) (hk : Kept P image) {inv : Invocation} (hformat : inv.command ≠ .format)
    (hinv : ∀ text p, inv.command.target? = some text → Path.ofString? text = some p → Q p) (files : HostFiles) :
    (session inv files).Ensures (Volume.ofDevice (image.getD .empty)) fun r w =>
      r = (execute inv.command files (working image)).result ∧
        w = (Volume.unmount (worked inv.command files image)).state ∧ (worked inv.command files image).Ready P := by
  obtain ⟨hok, hready, -⟩ := hk.working hP habs
  have hworked : (worked inv.command files image).Ready P := execute_steady hP hinv hformat files _ hready
  unfold session
  refine (openImage_ensures inv.image image).andThen fun v hv => ?_
  subst hv
  rw [if_neg hformat]
  have hmount : (onVolume (Volume.mount : VolumeAction ImageFile Unit)).Ensures (opened image) fun r w =>
      r = .ok () ∧ w = working image := ⟨congrArg (Except.mapError Failure.volume) hok, rfl⟩
  refine hmount.andThen fun v hv => ?_
  subst hv
  have hexecute : (attempt (execute inv.command files) : ToolAction (Except Failure String)).Ensures (working image)
      fun r w => r = .ok (execute inv.command files (working image)).result ∧ w = worked inv.command files image :=
    ⟨rfl, rfl⟩
  refine hexecute.andThen fun v hv => ?_
  subst hv
  have hleave : (attempt (onVolume Volume.unmount) : ToolAction (Except Failure Unit)).Ensures
      (worked inv.command files image) fun r w =>
        r = .ok (.ok ()) ∧ w = (Volume.unmount (worked inv.command files image)).state :=
    ⟨congrArg (fun r => Except.ok (Except.mapError Failure.volume r)) hworked.unmount.1, rfl⟩
  refine hleave.andThen fun v hv => ?_
  subst hv
  cases (execute inv.command files (working image)).result with
  | ok text => exact ⟨rfl, rfl, hworked⟩
  | error failure => exact ⟨rfl, rfl, hworked⟩

/-- A run with a command line that is understood is a visit. -/
theorem run_visited (hP : Invariant P fun c => ∀ path, c = .insert path → Q path)
    (habs : ∀ s d, P s d → d.Absolute) (hk : Kept P image) {args : List String} {inv : Invocation}
    (hparse : Invocation.parse? args = some inv) (hformat : inv.command ≠ .format)
    (hinv : ∀ text p, inv.command.target? = some text → Path.ofString? text = some p → Q p)
    (setting : Option String) (files : HostFiles) :
    Visited P inv.command files image (run args setting files image) := by
  obtain ⟨r, w, ⟨hr, rfl, hready⟩, hleft, hstatus, houtput⟩ :=
    run_of_parse hparse setting files (session_visit hP habs hk hformat hinv files)
  subst hr
  exact ⟨hready, hleft, hstatus, houtput⟩

/-- Formatting replaces whatever is in the image. -/
theorem run_format (hP : Invariant P fun c => ∀ path, c = .insert path → Q path) (hk : Kept P image)
    {args : List String} {inv : Invocation} (hparse : Invocation.parse? args = some inv)
    (hformat : inv.command = .format) (setting : Option String) (files : HostFiles) :
    Kept P (run args setting files image).image := by
  have hsession : (session inv files).Ensures (Volume.ofDevice (image.getD .empty)) fun _ w => w.Stowed P := by
    unfold session
    refine (openImage_ensures inv.image image).andThen fun v hv => ?_
    subst hv
    rw [if_pos hformat, formatImage, ensures_bind, onVolume, ensures_mapError]
    have hmounted : (opened image).mounted = false := rfl
    apply (Volume.stowed_of_format hP hk.large (ImageFile.reliable _) hmounted).mono
    rintro r w ⟨rfl, hw⟩
    exact hw
  obtain ⟨-, w, hw, hleft, -⟩ := run_of_parse hparse setting files hsession
  rintro file hfile
  exact ⟨w, Option.some.inj (hleft.symm.trans hfile), hw⟩

/-- Whatever a visit does, the volume is stowed at its end. -/
theorem Visited.kept {command : Command} {files : HostFiles} {finished : Finished}
    (h : Visited P command files image finished) : Kept P finished.image := by
  rintro file hfile
  obtain ⟨-, hstowed, -⟩ := h.ready.unmount
  exact ⟨_, Option.some.inj (h.left.symm.trans hfile), hstowed⟩

/-- **Every run of the tool leaves an image in which the volume was stowed.** -/
theorem run_kept (hP : Invariant P fun c => ∀ path, c = .insert path → Q path)
    (habs : ∀ s d, P s d → d.Absolute) (hk : Kept P image) {c : Call} (hc : c.Targets Q) :
    Kept P (run c.args c.setting c.files image).image := by
  cases hparse : Invocation.parse? c.args with
  | none => rwa [run_of_wrong hparse]
  | some inv =>
    by_cases hformat : inv.command = .format
    · exact run_format hP hk hparse hformat c.setting c.files
    · exact (run_visited hP habs hk hparse hformat (hc inv hparse) c.setting c.files).kept

/-- So do runs one after the other. -/
theorem runs_kept (hP : Invariant P fun c => ∀ path, c = .insert path → Q path)
    (habs : ∀ s d, P s d → d.Absolute) (hk : Kept P image) {calls : List Call} (hcalls : ∀ c ∈ calls, c.Targets Q) :
    Kept P (runs calls image) := by
  induction calls generalizing image with
  | nil => exact hk
  | cons c calls ih =>
    exact ih (run_kept hP habs hk (hcalls c List.mem_cons_self)) fun c hc => hcalls c (List.mem_cons_of_mem _ hc)

/-- In an image that is missing nothing is stowed. -/
theorem kept_none : Kept P none := fun _ hfile => by cases hfile

end

end BlockVolume.Tool
