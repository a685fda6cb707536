import BlockVolume.Proofs.Tool.Session
import BlockVolume.Proofs.Volume.Readers

/-!
# `Proofs.Tool.Inspection` — commands that only look

A run of the tool mounts the volume, and when it leaves it writes the description anew, whatever the command.
For a command that only looks at the volume this makes no difference: the blocks that are written are those
that were read, for a volume that was left is described by its blocks in one way alone.

## Contents
- `Command.inspects`, and **`execute_looked`**: what such commands leave of the volume.
- `run_isSome`: a run leaves an image.
- **`image_of_inspection`**: the image after a look at what runs have left.
-/

namespace BlockVolume.Tool

open BlockVolume.Action
open Volume (Beheld Quiet)

/-- Whether a command only looks at the volume. -/
def Command.inspects : Command → Bool
  | .list _ | .print _ | .describe _ | .usage => true
  | _ => false

theorem Command.ne_format_of_inspects {command : Command} (h : command.inspects = true) : command ≠ .format := by
  rintro rfl
  cases h

/-! ## What looking leaves of the volume -/

/-- A volume that nobody writes was looked at. -/
def Looked (v w : Volume ImageFile) : Prop :=
  v.Quiet → Beheld v w

instance : IsPreorder (Volume ImageFile) Looked where
  refl _ := .refl
  trans _ _ _ h h' := fun hv => (h hv).trans (h' (h hv).quiet)

/-- **Looking leaves the volume as it is, whether there is something to see or not.** -/
theorem execute_looked {command : Command} (h : command.inspects = true) (files : HostFiles) :
    (execute command files).Respects Looked := by
  refine execute_respects (Command.ne_format_of_inspects h) (fun op hop => ?_) files
  cases hop with
  | openRead => exact respects_discard.mpr fun _ hv => Volume.openPath_beheld hv _
  | read => exact respects_discard.mpr fun _ hv => Volume.read_beheld hv _ _
  | closeRead => exact fun _ hv => Volume.close_beheld hv _
  | touch | makeDirectory | remove => cases h
  | clear hr | openWrite hr | write hr | closeWrite hr =>
    cases command with
    | write _ _ | put _ _ => cases h
    | _ => cases hr

/-! ## What looking leaves of the image -/

/-- A run with a command line that is understood leaves an image. -/
theorem run_isSome {args : List String} (h : (Invocation.parse? args).isSome) (setting : Option String)
    (files : HostFiles) (image : Option ImageFile) : (run args setting files image).image.isSome := by
  obtain ⟨inv, hparse⟩ := Option.isSome_iff_exists.mp h
  have hsession : (session inv files).Ensures (Volume.ofDevice (image.getD .empty)) fun _ _ => True := trivial
  obtain ⟨-, v, -, hleft, -⟩ := run_of_parse hparse setting files hsession
  rw [hleft]
  rfl

/-- So do runs one after the other, if there is one. -/
theorem runs_isSome {calls : List Call} (hne : calls ≠ []) (h : ∀ c ∈ calls, (Invocation.parse? c.args).isSome)
    (image : Option ImageFile) : (runs calls image).isSome := by
  induction calls generalizing image with
  | nil => exact absurd rfl hne
  | cons c calls ih =>
    have hfirst := run_isSome (h c List.mem_cons_self) c.setting c.files image
    cases calls with
    | nil => exact hfirst
    | cons c' calls => exact ih (by simp) (fun c hc => h c (List.mem_cons_of_mem _ hc)) _

/-- **Looking at a volume that was stowed leaves the image as it is.** -/
theorem image_of_kept {file : ImageFile} (hk : Kept (fun _ d => d.Absolute) (some file)) {args : List String}
    {inv : Invocation} (hparse : Invocation.parse? args = some inv) (hlook : inv.command.inspects = true)
    (setting : Option String) (files : HostFiles) : (run args setting files (some file)).image = some file := by
  have hP : Volume.Invariant (fun _ d => d.Absolute) fun c => ∀ path, c = .insert path → True :=
    Volume.absoluteInvariant.mono fun _ _ => trivial
  have htarget : ∀ text p, inv.command.target? = some text → Path.ofString? text = some p → True :=
    fun _ _ _ _ => trivial
  have hvisited := run_visited hP (fun _ _ h => h) hk hparse (Command.ne_format_of_inspects hlook) htarget setting files
  obtain ⟨w, rfl, hw⟩ := hk file rfl
  obtain ⟨-, hready, hresumed, hdevice⟩ := working_resumed hw hw.holds
  have hquiet : (working (some w.device)).Quiet := ⟨hready.sound, hready.reliable, .of_no_files hresumed.files⟩
  have hbeheld : Beheld (working (some w.device)) (worked inv.command files (some w.device)) :=
    execute_looked hlook files _ hquiet
  obtain ⟨hleft, hsynced⟩ := Volume.unmount_beheld hbeheld.quiet hvisited.ready.mounted
  -- the volume was described by the image before as it is afterwards
  have hbefore : (working (some w.device)).Synced := by
    unfold Volume.Synced
    rw [hdevice, hresumed.space, hresumed.directory]
    exact hw.synced
  have hall := hbeheld.trans hleft
  have hsame := (ImageFile.sameShape_of_requests hall.requests).eq (hall.content_eq hbefore hsynced)
  rw [hvisited.left, hsame, hdevice]

/-- **Looking at what runs of the tool have left leaves the image as it is**, whatever these runs came to and
whether there is something to see or not. -/
theorem image_of_inspection {calls : List Call} (hne : calls ≠ [])
    (haccepted : ∀ c ∈ calls, (Invocation.parse? c.args).isSome) :
    ∃ file, runs calls none = some file ∧ ∀ args inv setting files, Invocation.parse? args = some inv →
      inv.command.inspects = true → (run args setting files (some file)).image = some file := by
  obtain ⟨file, hfile⟩ := Option.isSome_iff_exists.mp (runs_isSome hne haccepted none)
  have hP : Volume.Invariant (fun _ d => d.Absolute) fun c => ∀ path, c = .insert path → True :=
    Volume.absoluteInvariant.mono fun _ _ => trivial
  have htargets : ∀ c ∈ calls, c.Targets fun _ => True := fun _ _ _ _ _ _ _ _ => trivial
  have hk := runs_kept hP (fun _ _ h => h) kept_none htargets
  rw [hfile] at hk
  exact ⟨file, hfile, fun args inv setting files hparse hlook => image_of_kept hk hparse hlook setting files⟩

/-- A listing and a file that is missing are looked at after a command that succeeds and one that fails. -/
theorem image_of_looks :
    let calls : List Call := [⟨["disk", "write", "/a", "words"], none, fun _ => .error .missing⟩,
      ⟨["disk", "put", "/b", "nothing"], none, fun _ => .error .missing⟩]
    ∃ file, runs calls none = some file ∧
      (run ["disk", "ls"] none (fun _ => .error .missing) (some file)).image = some file ∧
      (run ["disk", "cat", "/b"] none (fun _ => .error .missing) (some file)).image = some file := by
  intro calls
  have hne : calls ≠ [] := by simp [calls]
  have haccepted : ∀ c ∈ calls, (Invocation.parse? c.args).isSome := by decide
  obtain ⟨file, hfile, hlook⟩ := image_of_inspection hne haccepted
  have hlist : Invocation.parse? ["disk", "ls"] = some ⟨"disk", .list "/"⟩ := by decide
  have hprint : Invocation.parse? ["disk", "cat", "/b"] = some ⟨"disk", .print "/b"⟩ := by decide
  exact ⟨file, hfile, hlook _ _ _ _ hlist rfl, hlook _ _ _ _ hprint rfl⟩

end BlockVolume.Tool
