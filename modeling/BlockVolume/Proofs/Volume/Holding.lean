import BlockVolume.Proofs.Volume.Ancestry
import BlockVolume.Proofs.Volume.Compact
import BlockVolume.Proofs.Volume.Isolation
import BlockVolume.Proofs.Volume.Readers
import BlockVolume.Proofs.Volume.Visit

/-!
# `Proofs.Volume.Holding` — a file that is kept

A file that nobody has open is kept by all that is done with other files, and by everything that adds entries.
Other files are those at other paths: as long as no path with a NUL is added, the entry that answers at a path is
the only one of this name.

## Contents
- `Rooted`, and **`Holds`**: the file at a path has given contents, and no more blocks than these need.
- **`Holding`**: nobody has it open, in a volume that is ready.
- **`Holding.perform`**, **`Holding.delete`** and **`Holding.openPath`**: what keeps it.
-/

namespace BlockVolume.Volume

open BlockVolume.Action

variable {δ : Type} [BlockDevice δ] [LawfulDevice δ] {v w : Volume δ} {slot slot' : Slot} {p p' : Path}
  {data : List UInt8}

/-- Entries have the names of paths, no name twice, and each has its parent. -/
def Rooted (_ : Space) (d : Directory) : Prop :=
  d.Hierarchical

/-- It stays so as long as no path with a NUL is added. -/
theorem rootedInvariant : Invariant Rooted fun c => ∀ path, c = .insert path → '\x00' ∉ path.text.toList :=
  hierarchicalInvariant

/-- The file at a path is in a slot. It holds `data`, and has no more blocks than these need. -/
structure Holds (v : Volume δ) (slot : Slot) (p : Path) (data : List UInt8) : Prop where
  kind : (v.directory.get slot).kind = .file
  name : (v.directory.get slot).name = p.text
  contents : v.contents slot = data
  blocks : (v.directory.get slot).blocks.toNat = blocksFor data.length

namespace Holds

theorem congr (h : v.Holds slot p data) (hentry : w.directory.get slot = v.directory.get slot)
    (hcontents : w.contents slot = v.contents slot) : w.Holds slot p data where
  kind := by rw [hentry, h.kind]
  name := by rw [hentry, h.name]
  contents := hcontents.trans h.contents
  blocks := by rw [hentry, h.blocks]

theorem used (h : v.Holds slot p data) : (v.directory.get slot).isEmpty = false := by
  rw [Entry.isEmpty, h.kind]
  rfl

/-- It is what is found at the path. -/
theorem find? (h : v.Holds slot p data) (hn : v.directory.Hierarchical) : v.directory.find? p.text = some slot :=
  (Directory.find?_eq_some_iff hn.absolute hn.distinct).mpr ⟨h.used, h.name⟩

theorem size (h : v.Holds slot p data) : (v.directory.get slot).size.toNat = data.length := by
  rw [← length_contents, h.contents]

end Holds

/-- What is found at another path is another entry. -/
theorem Holds.ne_of_find? (h : v.Holds slot p data) (hn : v.directory.Hierarchical) (hother : p'.text ≠ p.text)
    (hfind : v.directory.find? p'.text = some slot') : slot' ≠ slot := by
  rintro rfl
  obtain ⟨-, hname⟩ := (Directory.find?_eq_some_iff hn.absolute hn.distinct).mp hfind
  exact hother (hname.symm.trans h.name)

/-- The file is held in a volume that is ready, and nobody has it open. -/
structure Holding (slot : Slot) (p : Path) (data : List UInt8) (v : Volume δ) : Prop where
  ready : v.Ready Rooted
  holds : v.Holds slot p data
  unopened : v.Claims fun slot' _ => slot' ≠ slot

omit [BlockDevice δ] [LawfulDevice δ] in
/-- Only opening a file takes a step that opens one. -/
theorem acquire_not_mem {op : Operation} (hop : ∀ path mode, op ≠ .openPath path mode) (v : Volume δ) :
    .acquire ∉ op.acts v ∧ .acquire ∉ op.faults v := by
  cases op with
  | create path kind => cases hp : Path.ofString? path <;> simp [Operation.acts, Operation.faults, hp]
  | delete path => cases hs : v.slotOf? path <;> simp [Operation.acts, Operation.faults, hs]
  | openPath path mode => exact absurd rfl (hop path mode)
  | write hd data => cases hf : v.handles.file? hd <;> simp [Operation.acts, Operation.faults, hf, writing]
  | close hd => cases hf : v.handles.file? hd <;> simp [Operation.acts, Operation.faults, hf, closing]
  | _ => simp [Operation.acts, Operation.faults, reading]

namespace Holding

/-- What is done through a handle does not concern a file that nobody has open. -/
theorem not_concerns (h : v.Holding slot p data) {op : Operation} (hmount : op ≠ .mount) (hformat : op ≠ .format)
    (hdelete : ∀ path, op = .delete path → v.slotOf? path ≠ some slot) : ¬op.Concerns v slot := by
  cases op with
  | write hd data | close hd =>
    rintro ⟨f, hf, hslot⟩
    exact h.unopened _ f (Pool.fileAt?_of_file? hf) hslot
  | delete path => exact hdelete path rfl
  | format => exact absurd rfl hformat
  | mount => exact absurd rfl hmount
  | _ => exact id

/-- **Operations that open no file keep what nobody has open, if they do not delete it.** -/
theorem perform (h : v.Holding slot p data) {op : Operation} (hnul : op.NulFree) (hmount : op ≠ .mount)
    (hunmount : op ≠ .unmount) (hformat : op ≠ .format) (hopen : ∀ path mode, op ≠ .openPath path mode)
    (hdelete : ∀ path, op = .delete path → v.slotOf? path ≠ some slot) :
    (op.perform : VolumeAction δ Unit).Ensures v fun _ w => w.Holding slot p data := by
  have hready := h.ready.perform rootedInvariant (admitted_of_nulFree hnul) hmount hunmount
  have hleaves := leaves_unconcerned h.ready.sound h.holds.used (h.not_concerns hmount hformat hdelete)
  obtain ⟨hacts, hfaults⟩ := acquire_not_mem hopen v
  apply ((hready.and hleaves).and (op.walk h.ready.sound hmount)).mono
  rintro r w ⟨⟨⟨-, hw⟩, -, hleaves⟩, hwalk⟩
  have hclaims := hwalk.trace.claims (not_or.mpr ⟨hacts, fun hc => hfaults hc.2⟩) h.unopened
  exact ⟨hw, h.holds.congr hleaves.entry hleaves.contents, hclaims⟩

/-- Deleting what is at another path is such an operation. -/
theorem delete (h : v.Holding slot p data) {path : String}
    (hother : ∀ p', Path.ofString? path = some p' → p'.text ≠ p.text) :
    (Volume.delete path : VolumeAction δ Unit).Ensures v fun _ w => w.Holding slot p data := by
  refine h.perform (show Operation.NulFree (.delete path) from trivial) (by simp) (by simp) (by simp) (by simp) ?_
  rintro _ heq hslot
  obtain rfl := Operation.delete.inj heq
  obtain ⟨p', hp', hfind⟩ := Option.bind_eq_some_iff.mp hslot
  exact h.holds.ne_of_find? h.ready.holds (hother p' hp') hfind rfl

/-- **So does opening a file at another path for writing, whether it is created or not.** -/
theorem openPath (h : v.Holding slot p data) {path : String} (hnul : '\x00' ∉ path.toList)
    (hother : ∀ p', Path.ofString? path = some p' → p'.text ≠ p.text) :
    (Volume.openPath path .write : VolumeAction δ Handle).Ensures v fun _ w => w.Holding slot p data := by
  have hadmitted := admitted_of_nulFree (show Operation.NulFree (.openPath path .write) from hnul)
  have hready := ensures_discard.mp (h.ready.perform rootedInvariant hadmitted (by simp) (by simp))
  have hconcerns : ¬(Operation.openPath path .write).Concerns v slot := id
  have hleaves := ensures_discard.mp (leaves_unconcerned h.ready.sound h.holds.used hconcerns)
  apply ((hready.and hleaves).and (openPath_cases h.ready.sound path .write)).mono
  rintro r w ⟨⟨⟨-, hw⟩, -, hleaves⟩, hcases⟩
  refine ⟨hw, h.holds.congr hleaves.entry hleaves.contents, ?_⟩
  rcases hcases with ⟨p', hp', hopened⟩ | ⟨e, -, -, rfl⟩
  · cases hopened with
    | found hfind ha _ => exact h.unopened.acquire (h.holds.ne_of_find? h.ready.holds (hother p' hp') hfind) ha
    | @created _ slot' _ _ _ hadded ha _ =>
      -- the slot of the new file was free before
      have hfree : slot' ≠ slot := by
        rintro rfl
        cases h.holds.used.symm.trans hadded.entry.2.2.1
      exact (hadded.walk.trace.claims (by simp) h.unopened).acquire hfree ha
    | unstored _ hadded => exact hadded.walk.trace.claims (by simp) h.unopened
  · exact h.unopened

end Holding

end BlockVolume.Volume
