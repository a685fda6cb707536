import BlockVolume.Proofs.Text.Lossy
import BlockVolume.Proofs.Tool.Inspection
import BlockVolume.Proofs.Tool.WholeFile

/-!
# `Proofs.Tool.Memory` — what was written to an image is remembered

A file that a run of the tool has written is left alone by later runs, whatever they come to, as long as they
do not format the image and do not rewrite this file. It can be printed and described then under every text that
names its path. Command lines hold no NULs, so that no two entries have one name.

## Contents
- `Call.NulFree`, and `Invocation.target_mem_args`: what a command adds is named in the command line.
- `Command.payload?`, and **`run_stores`**: what a command makes the contents of a file; `run_begun`: a run that does.
- `Command.Spares`, **`execute_spares`** and **`run_spares`**: commands that leave a file alone.
- `run_prints`, `run_describes` and `Report.description_of_file`: what is told of a file.
- **`runs_remember`**, with two words that are printed and described after other runs.
-/

namespace BlockVolume.Tool

open BlockVolume.Action
open Volume (Beheld Holding Ready Rooted rootedInvariant)

/-! ## Command lines without NULs -/

/-- No argument holds a NUL. -/
def Call.NulFree (c : Call) : Prop :=
  ∀ arg ∈ c.args, '\x00' ∉ arg.toList

theorem Command.operands?_subset {args operands : List String} (h : operands? args = some operands) :
    operands ⊆ args := by
  induction args generalizing operands with
  | nil =>
    obtain rfl := Option.some.inj h
    exact List.Subset.refl _
  | cons arg rest ih =>
    rw [operands?] at h
    split at h
    · obtain rfl := Option.some.inj h
      exact List.subset_cons_self _ _
    · split at h
      · cases h
      · obtain ⟨operands', h', rfl⟩ := Option.map_eq_some_iff.mp h
        exact List.cons_subset_cons _ (ih h')

/-- The path at which a command may add an entry is an operand. -/
theorem Command.target_mem_operands {name text : String} {operands : List String} {command : Command}
    (h : ofOperands? name operands = some command) (ht : command.target? = some text) : text ∈ operands := by
  unfold ofOperands? at h
  split at h <;> cases h <;> cases ht <;> exact List.mem_cons_self

theorem Invocation.target_mem_args {args : List String} {inv : Invocation} {text : String}
    (h : parse? args = some inv) (ht : inv.command.target? = some text) : text ∈ args := by
  unfold parse? at h
  split at h
  · split at h
    · cases h
    · obtain ⟨operands, hoperands, h⟩ := Option.bind_eq_some_iff.mp h
      obtain ⟨command, hcommand, h⟩ := Option.bind_eq_some_iff.mp h
      obtain rfl := Option.some.inj h
      have hmem := Command.operands?_subset hoperands (Command.target_mem_operands hcommand ht)
      exact List.mem_cons_of_mem _ (List.mem_cons_of_mem _ hmem)
  · cases h

namespace Call

variable {c : Call}

theorem NulFree.target (h : c.NulFree) {inv : Invocation} (hparse : Invocation.parse? c.args = some inv)
    {text : String} (ht : inv.command.target? = some text) : '\x00' ∉ text.toList :=
  h text (Invocation.target_mem_args hparse ht)

theorem NulFree.targets (h : c.NulFree) : c.Targets fun p => '\x00' ∉ p.text.toList :=
  fun _ hparse _ _ ht hp hnul => h.target hparse ht ((Path.nul_mem_text hp).mp hnul)

end Call

/-- Runs without NULs keep entries in order. -/
theorem kept_of_nulFree {image : Option ImageFile} (hk : Kept Rooted image) {calls : List Call}
    (h : ∀ c ∈ calls, c.NulFree) : Kept Rooted (runs calls image) :=
  runs_kept rootedInvariant (fun _ _ hd => hd.absolute) hk fun c hc => (h c hc).targets

/-- A run without NULs is a visit. -/
theorem visited_of_nulFree {image : Option ImageFile} (hk : Kept Rooted image) {args : List String}
    {inv : Invocation} (hparse : Invocation.parse? args = some inv) (hformat : inv.command ≠ .format)
    (hnul : ∀ text, inv.command.target? = some text → '\x00' ∉ text.toList) (setting : Option String)
    (files : HostFiles) : Visited Rooted inv.command files image (run args setting files image) :=
  run_visited rootedInvariant (fun _ _ hd => hd.absolute) hk hparse hformat
    (fun text _ ht hp hmem => hnul text ht ((Path.nul_mem_text hp).mp hmem)) setting files

/-! ## What an image holds -/

/-- A volume was stowed in the image that holds `data` at a path. -/
def HeldIn (image : Option ImageFile) (p : Path) (data : List UInt8) : Prop :=
  ∃ (w : Volume ImageFile) (slot : Slot), image = some w.device ∧ w.Stowed Rooted ∧ w.Holds slot p data

variable {image : Option ImageFile} {p : Path} {slot : Slot} {data : List UInt8}

theorem HeldIn.kept (h : HeldIn image p data) : Kept Rooted image := by
  obtain ⟨w, -, rfl, hw, -⟩ := h
  rintro file hfile
  exact ⟨w, Option.some.inj hfile, hw⟩

/-- What is held in an image is held by the volume on which a command works. -/
theorem HeldIn.working (h : HeldIn image p data) : ∃ slot, (working image).Holding slot p data ∧
    ∀ q, (Tool.working image).handles.fileAt? q = none := by
  obtain ⟨w, slot, rfl, hw, hh⟩ := h
  obtain ⟨-, hready, hresumed, -⟩ := working_resumed hw hw.holds.absolute
  have hholds := hh.congr (congrArg (Directory.get · slot) hresumed.directory) (hresumed.contents slot)
  exact ⟨slot, ⟨hready, hholds, .of_no_files hresumed.files⟩, hresumed.files⟩

/-- What a command leaves is held in the image that its run leaves. -/
theorem Visited.heldIn {command : Command} {files : HostFiles} {finished : Finished}
    (h : Visited Rooted command files image finished) (hh : (worked command files image).Holds slot p data) :
    HeldIn finished.image p data := by
  obtain ⟨-, hstowed, -, hdirectory, hcontents⟩ := h.ready.unmount
  exact ⟨_, slot, h.left, hstowed, hh.congr (congrArg (Directory.get · slot) hdirectory) (hcontents slot)⟩

/-! ## Storing -/

/-- The file whose contents a command replaces, and by what: words with spaces between them, or a file of the
host. The image itself is such a file; it reads as it is at the moment. -/
def Command.payload? (files : HostFiles) (v : Volume ImageFile) : Command → Option (String × List UInt8)
  | .write path words => some (path, (" ".intercalate words).toUTF8.data.toList)
  | .put path hostFile =>
    match files hostFile with
    | .ok .image => some (path, v.device.toList)
    | .ok (.other bytes) => some (path, bytes)
    | .error _ => none
  | _ => none

/-- A host file is read as it is said to be, if it can be. -/
theorem readHostFile_payload {files : HostFiles} {v : Volume ImageFile} {path path' hostFile : String}
    (h : (Command.put path' hostFile).payload? files v = some (path, data)) :
    path' = path ∧ (readHostFile files hostFile).Ensures v fun r w => r = .ok data ∧ w = v := by
  unfold readHostFile
  unfold Command.payload? at h
  dsimp only at h
  cases hfile : files hostFile with
  | error e =>
    rw [hfile] at h
    cases h
  | ok file =>
    rw [hfile] at h
    cases file with
    | image =>
      obtain ⟨rfl, rfl⟩ := Prod.ext_iff.mp (Option.some.inj h)
      exact ⟨rfl, rfl, rfl⟩
    | other bytes =>
      obtain ⟨rfl, rfl⟩ := Prod.ext_iff.mp (Option.some.inj h)
      exact ⟨rfl, rfl, rfl⟩

/-- What is replaced is added where there was nothing. -/
theorem Command.target?_of_payload {files : HostFiles} {v : Volume ImageFile} {command : Command} {path : String}
    (h : command.payload? files v = some (path, data)) : command.target? = some path := by
  cases command with
  | write path' words =>
    obtain ⟨rfl, -⟩ := Prod.ext_iff.mp (Option.some.inj h)
    rfl
  | put path' hostFile => rw [target?, (readHostFile_payload h).1]
  | _ => cases h

/-- **A command that succeeds in replacing a file leaves one that holds what it was replaced by.** -/
theorem execute_stores {v : Volume ImageFile} (h : v.Ready Rooted) {command : Command} {files : HostFiles}
    {path : String} (hpayload : command.payload? files v = some (path, data)) (hnul : '\x00' ∉ path.toList) :
    (execute command files).Ensures v fun r w => ∀ text, r = .ok text →
      ∃ p slot, Path.ofString? path = some p ∧ p.isRoot = false ∧ w.Holds slot p data := by
  have hreplace : (onVolume (replace path data) >>= fun count => pure (Report.written count) :
      ToolAction String).Ensures v fun r w => ∀ text, r = .ok text →
        ∃ p slot, Path.ofString? path = some p ∧ p.isRoot = false ∧ w.Holds slot p data := by
    rw [ensures_bind, onVolume, ensures_mapError]
    apply (replace_holds h hnul data).mono
    intro r w hr
    cases r with
    | ok n => exact fun _ _ => hr n rfl
    | error e => exact fun _ hok => by cases hok
  cases command with
  | write path' words =>
    obtain ⟨rfl, rfl⟩ := Prod.ext_iff.mp (Option.some.inj hpayload)
    exact hreplace
  | put path' hostFile =>
    obtain ⟨rfl, hread⟩ := readHostFile_payload hpayload
    unfold execute
    refine hread.andThen fun w hw => ?_
    rw [hw]
    exact hreplace
  | _ => cases hpayload

/-- **What a run has replaced is held in the image that it leaves.** -/
theorem run_stores (hk : Kept Rooted image) {args : List String} {inv : Invocation}
    (hparse : Invocation.parse? args = some inv) (hnul : ∀ text, inv.command.target? = some text → '\x00' ∉ text.toList)
    {setting : Option String} {files : HostFiles} {path : String}
    (hpayload : inv.command.payload? files (working image) = some (path, data))
    (hok : (run args setting files image).status = 0) :
    ∃ p, Path.ofString? path = some p ∧ p.isRoot = false ∧ HeldIn (run args setting files image).image p data := by
  have htarget := Command.target?_of_payload hpayload
  have hformat : inv.command ≠ .format := fun he => by rw [he] at htarget; cases htarget
  have hvisited := visited_of_nulFree hk hparse hformat hnul setting files
  obtain ⟨text, htext⟩ := hvisited.status.mp hok
  obtain ⟨-, hready, -⟩ := hk.working rootedInvariant fun _ _ hd => hd.absolute
  obtain ⟨p, slot, hp, hroot, hholds⟩ := execute_stores hready hpayload (hnul path htarget) text htext
  exact ⟨p, hp, hroot, hvisited.heldIn hholds⟩

/-- At the beginning words that fit into a block can be written to a file at the top. -/
theorem execute_begun {v : Volume ImageFile} (h : v.Begun) {path : String} {words : List String}
    (hp : Path.ofString? path = some p) (hroot : p.isRoot = false) (hparent : Path.parentOf p.text = "/")
    (hne : (" ".intercalate words).toUTF8.data.toList ≠ [])
    (hlen : (" ".intercalate words).toUTF8.data.toList.length ≤ blockSize) (files : HostFiles) :
    (execute (.write path words) files).Ensures v fun r _ => ∃ text, r = .ok text := by
  unfold execute
  rw [ensures_bind, onVolume, ensures_mapError]
  apply (replace_begun h hp hroot hparent hne hlen).mono
  rintro r w rfl
  exact ⟨_, rfl⟩

/-- So they can be written to an image that is missing. -/
theorem run_begun {args : List String} {name path : String} {words : List String}
    (hparse : Invocation.parse? args = some ⟨name, .write path words⟩) (hp : Path.ofString? path = some p)
    (hroot : p.isRoot = false) (hparent : Path.parentOf p.text = "/") (hnul : '\x00' ∉ path.toList)
    (hne : (" ".intercalate words).toUTF8.data.toList ≠ [])
    (hlen : (" ".intercalate words).toUTF8.data.toList.length ≤ blockSize) (setting : Option String)
    (files : HostFiles) : (run args setting files none).status = 0 := by
  have htarget (text : String) (ht : (Command.write path words).target? = some text) : '\x00' ∉ text.toList :=
    Option.some.inj ht ▸ hnul
  have hvisited := visited_of_nulFree kept_none hparse (by simp) htarget setting files
  exact hvisited.status.mpr (execute_begun working_none.2 hp hroot hparent hne hlen files)

/-! ## Sparing -/

namespace Command

/-- The path of the file that a command replaces or deletes, if it does that. -/
def rewrites? : Command → Option String
  | .write path _ | .put path _ | .remove path => some path
  | _ => none

/-- A command spares the file at a path if it neither formats the image nor rewrites this file. -/
def Spares (path : String) (command : Command) : Prop :=
  command ≠ .format ∧ ∀ other, command.rewrites? = some other → Path.canonicalize other ≠ Path.canonicalize path

theorem rewrites?_of_replaces {command : Command} {path : String} (h : command.replaces? = some path) :
    command.rewrites? = some path := by
  cases command with
  | write _ _ | put _ _ => exact h
  | _ => cases h

end Command

/-- What is held by a volume in which nobody has it open is held so afterwards. -/
def Keeping (slot : Slot) (p : Path) (data : List UInt8) (v w : Volume ImageFile) : Prop :=
  v.Holding slot p data → w.Holding slot p data

instance : IsPreorder (Volume ImageFile) (Keeping slot p data) where
  refl _ := id
  trans _ _ _ h h' := h' ∘ h

/-- **A command that changes the volume and spares a file keeps it, whether it succeeds or not.** -/
theorem execute_keeping {command : Command} {path : String} (h : command.Spares path)
    (hp : Path.ofString? path = some p) (hnul : ∀ text, command.target? = some text → '\x00' ∉ text.toList)
    (hchanges : command.inspects = false) (files : HostFiles) :
    (execute command files).Respects (Keeping slot p data) := by
  have hother {other : String} (hr : command.rewrites? = some other) (p' : Path) (hp' : Path.ofString? other = some p') :
      p'.text ≠ p.text := by
    rw [Path.text_of_ofString? hp, Path.text_of_ofString? hp']
    exact h.2 other hr
  refine execute_respects h.1 ?_ files
  intro op hop v hv
  cases hop with
  | openRead | read | closeRead => cases hchanges
  | touch | makeDirectory =>
    exact hv.perform (hnul _ rfl) (by simp) (by simp) (by simp) (by simp) (by simp)
  | remove => exact hv.delete (hother rfl)
  | clear hr => exact hv.delete (hother (Command.rewrites?_of_replaces hr))
  | openWrite hr =>
    have hopen := hv.openPath (hnul _ (Command.target?_of_replaces hr)) (hother (Command.rewrites?_of_replaces hr))
    exact hopen.yielding
  | write _ | closeWrite _ => exact hv.perform trivial (by simp) (by simp) (by simp) (by simp) (by simp)

/-- So does a command that only looks, also at this file. -/
theorem execute_spares {command : Command} {path : String} (h : command.Spares path)
    (hp : Path.ofString? path = some p) (hnul : ∀ text, command.target? = some text → '\x00' ∉ text.toList)
    (files : HostFiles) {v : Volume ImageFile} (hv : v.Holding slot p data) (hfiles : ∀ q, v.handles.fileAt? q = none) :
    (execute command files).Ensures v fun _ w => w.Holds slot p data := by
  cases hlook : command.inspects with
  | true =>
    have hquiet : v.Quiet := ⟨hv.ready.sound, hv.ready.reliable, .of_no_files hfiles⟩
    apply (execute_looked hlook files v).mono
    intro r w hw
    have hbeheld : Beheld v w := hw hquiet
    exact hv.holds.congr (congrArg (Directory.get · slot) hbeheld.directory) (hbeheld.contents hquiet slot)
  | false => exact (execute_keeping h hp hnul hlook files v).mono fun r w hw => (hw hv).holds

/-- **What is held in an image is held in it after a run that spares it.** -/
theorem run_spares (h : HeldIn image p data) {path : String} (hp : Path.ofString? path = some p) {c : Call}
    (hnul : c.NulFree) (hc : ∀ inv, Invocation.parse? c.args = some inv → inv.command.Spares path) :
    HeldIn (run c.args c.setting c.files image).image p data := by
  cases hparse : Invocation.parse? c.args with
  | none => rwa [run_of_wrong hparse]
  | some inv =>
    have hspares := hc inv hparse
    have htarget : ∀ text, inv.command.target? = some text → '\x00' ∉ text.toList := fun _ ht => hnul.target hparse ht
    obtain ⟨slot, hholding, hfiles⟩ := h.working
    have hvisited := visited_of_nulFree h.kept hparse hspares.1 htarget c.setting c.files
    exact hvisited.heldIn (execute_spares hspares hp htarget c.files hholding hfiles)

/-- So it is after runs one after the other. -/
theorem runs_spare (h : HeldIn image p data) {path : String} (hp : Path.ofString? path = some p) {calls : List Call}
    (hnul : ∀ c ∈ calls, c.NulFree)
    (hcalls : ∀ c ∈ calls, ∀ inv, Invocation.parse? c.args = some inv → inv.command.Spares path) :
    HeldIn (runs calls image) p data := by
  induction calls generalizing image with
  | nil => exact h
  | cons c calls ih =>
    exact ih (run_spares h hp (hnul c List.mem_cons_self) (hcalls c List.mem_cons_self))
      (fun c hc => hnul c (List.mem_cons_of_mem _ hc)) fun c hc => hcalls c (List.mem_cons_of_mem _ hc)

/-! ## Telling -/

/-- What a command yields is what its run tells. -/
theorem Visited.tells {command : Command} {files : HostFiles} {finished : Finished} {text : String}
    (h : Visited Rooted command files image finished)
    (hresult : (execute command files).Ensures (working image) fun r _ => r = .ok text) :
    finished.status = 0 ∧ finished.output = text :=
  ⟨h.status.mpr ⟨text, hresult⟩, h.output text hresult⟩

/-- **What is held in an image is printed.** -/
theorem run_prints (h : HeldIn image p data) {q : String} (hq : Path.ofString? q = some p) (hroot : p.isRoot = false)
    {args : List String} {name : String} (hparse : Invocation.parse? args = some ⟨name, .print q⟩)
    (setting : Option String) (files : HostFiles) :
    (run args setting files image).status = 0 ∧ (run args setting files image).output = Text.Lossy.decode data := by
  obtain ⟨slot, hholding, hfiles⟩ := h.working
  have hvisited := visited_of_nulFree h.kept hparse (by simp) (fun _ ht => by cases ht) setting files
  refine hvisited.tells ?_
  unfold execute
  rw [ensures_bind, onVolume, ensures_mapError]
  apply (readAll_holds hholding.ready hfiles hq hroot hholding.holds).mono
  rintro r w rfl
  rfl

/-- **And it is described**, with the blocks that it needs. -/
theorem run_describes (h : HeldIn image p data) {q : String} (hq : Path.ofString? q = some p)
    (hroot : p.isRoot = false) {args : List String} {name : String}
    (hparse : Invocation.parse? args = some ⟨name, .describe q⟩) (setting : Option String) (files : HostFiles) :
    ∃ info : EntryInfo, ((run args setting files image).status = 0 ∧
      (run args setting files image).output = Report.description info) ∧ info.path = p.text ∧ info.kind = .file ∧
        info.size = data.length ∧ info.blocks = blocksFor data.length := by
  obtain ⟨slot, hholding, -⟩ := h.working
  have hh := hholding.holds
  have hvisited := visited_of_nulFree h.kept hparse (by simp) (fun _ ht => by cases ht) setting files
  have hstat := stat_found hholding.ready.mounted hq hroot (hh.find? hholding.ready.holds)
  refine ⟨.ofEntry ((working image).directory.get slot), hvisited.tells ?_, ?_⟩
  · unfold execute ask
    rw [ensures_bind, onVolume, ensures_mapError, ensures_bind, ensures_get]
    simp only [ensures_liftM, hstat]
    rfl
  · dsimp only [EntryInfo.ofEntry]
    exact ⟨hh.name, hh.kind, hh.size, hh.blocks⟩

/-- A line tells the size of a file, and another one its blocks. -/
theorem Report.description_of_file {info : EntryInfo} (hkind : info.kind = .file) : description info =
    "path:        " ++ info.path ++ "\n" ++
    "type:        " ++ "file" ++ "\n" ++
    "size:        " ++ toString info.size ++ "\n" ++
    "first block: " ++ toString info.firstBlock ++ "\n" ++
    "blocks:      " ++ toString info.blocks ++ "\n" := by
  have hword : kindWord info.kind = "file" := by rw [hkind, kindWord]
  unfold description
  rw [hword]

/-! ## Remembering -/

/-- A path is known by its canonical form. -/
theorem ofString?_congr {path q : String} (h : Path.canonicalize q = Path.canonicalize path) :
    Path.ofString? q = Path.ofString? path := by
  unfold Path.ofString?
  simp only [h]

/-- **What a run has written is remembered**: it is printed, and described with its size and with the blocks that this
takes, rounded up, under all texts that name its path and after whatever runs that neither format the image nor rewrite
the file. -/
theorem runs_remember {before later : List Call} {c : Call} {inv : Invocation} {path q : String}
    (hnul : ∀ d ∈ before ++ c :: later, d.NulFree) (hparse : Invocation.parse? c.args = some inv)
    (hpayload : inv.command.payload? c.files (working (runs before none)) = some (path, data))
    (hok : (run c.args c.setting c.files (runs before none)).status = 0)
    (hlater : ∀ d ∈ later, ∀ inv, Invocation.parse? d.args = some inv → inv.command.Spares path)
    (hq : Path.canonicalize q = Path.canonicalize path) (args : List String) (name : String)
    (setting : Option String) (files : HostFiles) :
    let finished := run args setting files (runs (before ++ c :: later) none)
    (Invocation.parse? args = some ⟨name, .print q⟩ →
      finished.status = 0 ∧ finished.output = Text.Lossy.decode data) ∧
    (Invocation.parse? args = some ⟨name, .describe q⟩ → finished.status = 0 ∧ ∃ start : Nat, finished.output =
      "path:        " ++ Path.canonicalize path ++ "\n" ++
      "type:        " ++ "file" ++ "\n" ++
      "size:        " ++ toString data.length ++ "\n" ++
      "first block: " ++ toString start ++ "\n" ++
      "blocks:      " ++ toString ((data.length + 511) / 512) ++ "\n") := by
  have hbefore : ∀ d ∈ before, d.NulFree := fun d hd => hnul d (List.mem_append_left _ hd)
  have hc : c.NulFree := hnul c (List.mem_append_right _ List.mem_cons_self)
  have hafter : ∀ d ∈ later, d.NulFree := fun d hd => hnul d (List.mem_append_right _ (List.mem_cons_of_mem _ hd))
  have hk := kept_of_nulFree kept_none hbefore
  obtain ⟨p, hp, hroot, hheld⟩ := run_stores hk hparse (fun _ ht => hc.target hparse ht) hpayload hok
  have hruns : runs (before ++ c :: later) none =
      runs later (run c.args c.setting c.files (runs before none)).image := by
    rw [runs, List.foldl_append]
    rfl
  have hremembered := runs_spare hheld hp hafter hlater
  rw [← hruns] at hremembered
  have hqp : Path.ofString? q = some p := (ofString?_congr hq).trans hp
  refine ⟨fun hprint => run_prints hremembered hqp hroot hprint setting files, fun hdescribe => ?_⟩
  obtain ⟨info, ⟨hstatus, houtput⟩, hpath, hkind, hsize, hblocks⟩ :=
    run_describes hremembered hqp hroot hdescribe setting files
  refine ⟨hstatus, info.firstBlock, houtput.trans ?_⟩
  rw [Report.description_of_file hkind, hpath, Path.text_of_ofString? hp, hsize, hblocks]
  rfl

/-- Words are printed and described after a run that fails for the lack of a file and one that makes a directory. -/
theorem runs_remember_words :
    let files : HostFiles := fun _ => .error .missing
    let first : Call := ⟨["disk", "write", "/a", "two", "words"], none, files⟩
    let later : List Call := [⟨["disk", "put", "/b", "missing"], none, files⟩, ⟨["disk", "mkdir", "/d"], none, files⟩]
    let image := runs (first :: later) none
    (run ["disk", "cat", "a/"] none files image).output = "two words" ∧
      ∃ start : Nat, (run ["disk", "stat", "a/"] none files image).output =
        "path:        " ++ "/a" ++ "\n" ++
        "type:        " ++ "file" ++ "\n" ++
        "size:        " ++ "9" ++ "\n" ++
        "first block: " ++ toString start ++ "\n" ++
        "blocks:      " ++ "1" ++ "\n" := by
  intro files first later image
  have hnul : ∀ d ∈ [] ++ first :: later, d.NulFree := by
    simp only [List.nil_append, List.forall_mem_cons, first, later, Call.NulFree]
    decide
  have hwrite : Invocation.parse? first.args = some ⟨"disk", .write "/a" ["two", "words"]⟩ := by decide
  have hput : Invocation.parse? ["disk", "put", "/b", "missing"] = some ⟨"disk", .put "/b" "missing"⟩ := by decide
  have hmkdir : Invocation.parse? ["disk", "mkdir", "/d"] = some ⟨"disk", .makeDirectory "/d"⟩ := by decide
  have hspares : ∀ d ∈ later, ∀ inv, Invocation.parse? d.args = some inv → inv.command.Spares "/a" := by
    intro d hd inv hinv
    obtain rfl | hd := List.mem_cons.mp hd
    · obtain rfl := Option.some.inj (hput.symm.trans hinv)
      refine ⟨by simp, fun other hr => ?_⟩
      obtain rfl := Option.some.inj hr
      decide
    · obtain rfl := List.mem_singleton.mp hd
      obtain rfl := Option.some.inj (hmkdir.symm.trans hinv)
      exact ⟨by simp, fun other hr => by cases hr⟩
  have hp : Path.ofString? "/a" = some ⟨"/a", by decide, by decide⟩ := by decide
  have hstatus : (run first.args first.setting first.files (runs [] none)).status = 0 :=
    run_begun hwrite hp (by decide) (by decide) (by decide) (by decide) (by decide) none files
  have hq : Path.canonicalize "a/" = Path.canonicalize "/a" := by decide
  obtain ⟨hprint, -⟩ := runs_remember hnul hwrite rfl hstatus hspares hq ["disk", "cat", "a/"] "disk" none files
  obtain ⟨-, hdescribe⟩ := runs_remember hnul hwrite rfl hstatus hspares hq ["disk", "stat", "a/"] "disk" none files
  obtain ⟨-, hprinted⟩ := hprint (by decide)
  obtain ⟨-, start, hdescribed⟩ := hdescribe (by decide)
  have hsize : (" ".intercalate ["two", "words"]).toUTF8.data.toList.length = 9 := by decide
  have hpath : Path.canonicalize "/a" = "/a" := by decide
  rw [hsize, hpath] at hdescribed
  exact ⟨hprinted.trans ((Text.Lossy.decode_toUTF8 _).trans (by decide)), start, hdescribed⟩

end BlockVolume.Tool
