import BlockVolume.Proofs.Namespace.Hierarchy
import BlockVolume.Proofs.Volume.Names

/-!
# `Proofs.Volume.Ancestry` — no entry is an orphan

Where an entry is created its parent is looked up; where one is removed the table is searched for entries
below it. The second test is coarser than the first, since it sets slashes at the beginning aside, so every
entry that was let in under a directory keeps the directory in place.

## Contents
- **`Entry.WellNamed`**: the stored form of a path other than the root.
- **`Directory.Hierarchical`**: all names are well-formed and different, and every parent is a directory;
  `Directory.find?_eq_some_iff`.
- **`Step.hierarchical`** and **`hierarchicalInvariant`**.
- **`Begun.parents`**: no run leaves an orphan.
-/

namespace BlockVolume

open BlockVolume.Action

/-! ## Names -/

namespace Entry

/-- The field holds the UTF-8 of a path that is not the root. -/
structure WellNamed (e : Entry) : Prop where
  utf8 : String.fromUTF8? ⟨e.nameBytes.toArray⟩ = some e.name
  two_le : 2 ≤ e.nameBytes.length
  le : e.nameBytes.length ≤ maxPathBytes
  head : e.name.toList.head? = some '/'
  last : e.name.toList.getLast? ≠ some '/'

theorem WellNamed.congr {e e' : Entry} (he : e.WellNamed) (h : e'.nameField = e.nameField) : e'.WellNamed := by
  have hname := name_congr h
  have hbytes : e'.nameBytes = e.nameBytes := by rw [nameBytes, nameBytes, h]
  exact ⟨by rw [hbytes, hname, he.utf8], hbytes ▸ he.two_le, hbytes ▸ he.le, hname ▸ he.head, hname ▸ he.last⟩

/-- A path without a NUL is stored whole. -/
theorem wellNamed_ofPath {p : Path} (hroot : p.isRoot = false) (hnul : '\x00' ∉ p.text.toList)
    (kind : EntryKind) : (ofName p.text kind).WellNamed := by
  have hname : (ofName p.text kind).name = p.text := by rw [name_ofPath, Text.untilNul_eq_self hnul]
  have hlength : (ofName p.text kind).nameBytes.length = p.text.utf8ByteSize := by
    rw [nameBytes_ofName p.short, Text.untilNul_eq_self hnul]
    rfl
  refine ⟨?_, ?_, ?_, ?_, ?_⟩
  · rw [fromUTF8?_ofName p.short, name_ofPath]
  · rw [hlength]
    exact Path.two_le_utf8ByteSize hroot
  · rw [hlength]
    exact p.short
  · rw [hname]
    exact p.head?_text
  · rw [hname]
    exact Path.getLast?_text hroot

theorem isEmpty_of_isDirectory {e : Entry} (h : e.isDirectory = true) : e.isEmpty = false := by
  simp_all [isDirectory, isEmpty]

theorem WellNamed.utf8ByteSize_le {e : Entry} (he : e.WellNamed) : e.name.utf8ByteSize ≤ maxPathBytes := by
  have hbytes : e.name.utf8ByteSize = e.nameBytes.length :=
    congrArg ByteArray.size (Text.toByteArray_of_fromUTF8? he.utf8)
  rw [hbytes]
  exact he.le

theorem WellNamed.isAbsolute {e : Entry} (he : e.WellNamed) : Path.isAbsolute e.name = true :=
  decide_eq_true he.head

theorem WellNamed.basename_ne_empty {e : Entry} (he : e.WellNamed) : Path.basename e.name ≠ "" := by
  apply Path.basename_ne_empty _ he.last
  intro hempty
  have hhead := he.head
  rw [hempty] at hhead
  cases hhead

end Entry

/-! ## Tables -/

namespace Directory

variable {d d' : Directory} {slot : Slot} {path : String}

/-- The path is the root, or the name of a directory. -/
def HasDirectory (d : Directory) (path : String) : Prop :=
  path = "/" ∨ ∃ slot, (d.get slot).isDirectory = true ∧ (d.get slot).name = path

/-- Entries have the names of paths, no name twice, and each has its parent. -/
structure Hierarchical (d : Directory) : Prop where
  distinct : d.Distinct
  wellNamed (slot : Slot) : (d.get slot).isEmpty = false → (d.get slot).WellNamed
  parent (slot : Slot) : (d.get slot).isEmpty = false → d.HasDirectory (Path.parentOf (d.get slot).name)

theorem Hierarchical.absolute (h : d.Hierarchical) : d.Absolute :=
  fun slot hused => (h.wellNamed slot hused).isAbsolute

/-- Where all names begin with a slash, an entry answers to its name only. -/
theorem Absolute.answers_iff (h : d.Absolute) :
    answers (d.get slot) path = true ↔ (d.get slot).isEmpty = false ∧ (d.get slot).name = path := by
  unfold answers
  cases hused : (d.get slot).isEmpty with
  | true => simp
  | false => simp [h slot hused]

/-- The entry that is found at a path is the one that has it as its name. -/
theorem find?_eq_some_iff (ha : d.Absolute) (hd : d.Distinct) :
    d.find? path = some slot ↔ (d.get slot).isEmpty = false ∧ (d.get slot).name = path := by
  constructor
  · exact fun h => ha.answers_iff.mp (answers_of_find? h)
  · rintro ⟨hused, hname⟩
    cases h : d.find? path with
    | none => exact absurd hname (name_ne_of_find? h hused)
    | some i =>
      obtain ⟨hused', hname'⟩ := ha.answers_iff.mp (answers_of_find? h)
      rw [hd i slot hused' hused (hname'.trans hname.symm)]

/-- A path stays that of a directory as long as the directory of this name stays. -/
theorem HasDirectory.mono (h : d.HasDirectory path)
    (hkeep : ∀ slot, (d.get slot).isDirectory = true → (d.get slot).name = path →
      (d'.get slot).label = (d.get slot).label) : d'.HasDirectory path := by
  rcases h with hroot | ⟨slot, hdir, hname⟩
  · exact Or.inl hroot
  · have hlabel := hkeep slot hdir hname
    have hkind : (d'.get slot).kind = (d.get slot).kind := congrArg Prod.snd hlabel
    refine Or.inr ⟨slot, ?_, ?_⟩
    · rw [← hdir, Entry.isDirectory, Entry.isDirectory, hkind]
    · rw [← hname, Entry.name_congr (congrArg Prod.fst hlabel)]

namespace Hierarchical

theorem empty : Directory.empty.Hierarchical where
  distinct i _ hused := by cases (isEmpty_get_empty i).symm.trans hused
  wellNamed i hused := by cases (isEmpty_get_empty i).symm.trans hused
  parent i hused := by cases (isEmpty_get_empty i).symm.trans hused

/-- Only names and kinds matter. -/
theorem congr (h : d.Hierarchical) (hd : d'.Distinct)
    (hlabel : ∀ slot, (d'.get slot).label = (d.get slot).label) : d'.Hierarchical := by
  have hfield (slot : Slot) : (d'.get slot).nameField = (d.get slot).nameField := congrArg Prod.fst (hlabel slot)
  have hused (slot : Slot) : (d'.get slot).isEmpty = (d.get slot).isEmpty :=
    Entry.isEmpty_congr (congrArg Prod.snd (hlabel slot))
  refine ⟨hd, fun slot he => ?_, fun slot he => ?_⟩ <;> rw [hused slot] at he
  · exact (h.wellNamed slot he).congr (hfield slot)
  · rw [Entry.name_congr (hfield slot)]
    exact (h.parent slot he).mono fun slot _ _ => hlabel slot

/-- An entry may be added to a free slot if it has a parent. -/
theorem insert (h : d.Hierarchical) {e : Entry} (hd : (d.set slot e).Distinct)
    (hfree : (d.get slot).isEmpty = true) (he : e.WellNamed) (hparent : d.HasDirectory (Path.parentOf e.name)) :
    (d.set slot e).Hierarchical := by
  -- a directory is in use, so the slot that is filled was none's parent
  have hkeep {path : String} (hp : d.HasDirectory path) : (d.set slot e).HasDirectory path := by
    refine hp.mono fun i hdir _ => ?_
    rw [get_set, if_neg]
    rintro rfl
    cases hfree.symm.trans (Entry.isEmpty_of_isDirectory hdir)
  refine ⟨hd, fun i hused => ?_, fun i hused => ?_⟩ <;> rw [get_set] at hused ⊢ <;> split at hused
  · rwa [if_pos ‹_›]
  · rw [if_neg ‹_›]
    exact h.wellNamed i hused
  · rw [if_pos ‹_›]
    exact hkeep hparent
  · rw [if_neg ‹_›]
    exact hkeep (h.parent i hused)

/-- An entry may be removed unless it is a directory with children. -/
theorem remove (h : d.Hierarchical) (hd : (d.set slot Entry.unused).Distinct)
    (hchildren : ((d.get slot).isDirectory && d.hasChildren (d.get slot).name) = false) :
    (d.set slot Entry.unused).Hierarchical := by
  have hother {i : Slot} (hused : ((d.set slot Entry.unused).get i).isEmpty = false) :
      i ≠ slot ∧ (d.get i).isEmpty = false := by
    rw [get_set] at hused
    split at hused
    · cases hused
    · exact ⟨‹_›, hused⟩
  refine ⟨hd, fun i hused => ?_, fun i hused => ?_⟩ <;> obtain ⟨hi, hin⟩ := hother hused <;>
    rw [get_set, if_neg hi]
  · exact h.wellNamed i hin
  · refine (h.parent i hin).mono fun j hdir hname => ?_
    rw [get_set, if_neg]
    rintro rfl
    -- a name whose parent is removed lies below it, whatever slashes they begin with
    have hchild : Path.isDirectChild (d.get j).name (d.get i).name = true :=
      Path.isDirectChild_iff.mpr ⟨(h.wellNamed i hin).basename_ne_empty, congrArg _ (congrArg _ hname)⟩
    rw [hdir, hasChildren_eq_true.mpr ⟨i, hin, hchild⟩] at hchildren
    cases hchildren

end Hierarchical

end Directory

/-! ## Volumes -/

namespace Volume

variable {δ : Type} [BlockDevice δ] [LawfulDevice δ] {u v w : Volume δ} {c : Change}

omit [BlockDevice δ] [LawfulDevice δ] in
/-- What is checked before an entry is added. -/
theorem hasDirectory_of_ensureParent (h : v.directory.Hierarchical) {p : Path} (hp : v.ensureParent p = .ok ()) :
    v.directory.HasDirectory (Path.parentOf p.text) := by
  unfold ensureParent at hp
  dsimp only at hp
  split at hp
  · exact Or.inl ‹_›
  · cases hfind : v.directory.find? (Path.parentOf p.text) with
    | none => simp [hfind] at hp
    | some slot =>
      have hname := ((Directory.find?_eq_some_iff h.absolute h.distinct).mp hfind).2
      refine Or.inr ⟨slot, ?_, hname⟩
      cases hdir : (v.directory.get slot).isDirectory with
      | true => rfl
      | false => simp [hfind, hdir] at hp

/-- **A step that adds no path with a NUL makes no orphan.** -/
theorem Step.hierarchical (hs : Step c v w) (hc : ∀ path, c = .insert path → '\x00' ∉ path.text.toList)
    (h : v.directory.Hierarchical) : w.directory.Hierarchical := by
  have hd := hs.distinct hc h.distinct
  rcases hs.namespace_cases with hlabel | ⟨path, kind, slot, rfl, hroot, -, -, hparent, hfree, hdir⟩ |
    ⟨path, slot, hfind, hchildren, hdir⟩ | hdir
  · exact h.congr hd hlabel
  · have hnul := hc path rfl
    have hname : (Entry.ofName path.text kind).name = path.text := by
      rw [Entry.name_ofPath, Text.untilNul_eq_self hnul]
    rw [hdir] at hd ⊢
    refine h.insert hd (Directory.isEmpty_of_freeSlot? hfree) (Entry.wellNamed_ofPath hroot hnul kind) ?_
    rw [hname]
    exact hasDirectory_of_ensureParent h hparent
  · obtain ⟨-, hname⟩ := (Directory.find?_eq_some_iff h.absolute h.distinct).mp hfind
    rw [hdir] at hd ⊢
    exact h.remove hd (hname ▸ hchildren)
  · rw [hdir]
    exact .empty

/-- Without NULs no run makes an orphan. -/
theorem hierarchicalInvariant : Invariant (fun _ d => d.Hierarchical)
    (fun c => ∀ path, c = .insert path → '\x00' ∉ path.text.toList) where
  fresh := .empty
  migrate h := by rwa [h.absolute.migrate_eq]
  step hs _ hc h := hs.hierarchical hc h

theorem Begun.hierarchical {ops : List Operation} (h : Begun u) (ho : Orderly ops u)
    (hops : ∀ op ∈ ops, op.NulFree) : (run ops u).directory.Hierarchical :=
  (h.run_kept hierarchicalInvariant (fun op hop => admitted_of_nulFree (hops op hop)) ho).2

/-- **After every run that creates no path with a NUL each entry has the name of a path, and its parent is
the root or is found and is a directory.** -/
theorem Begun.parents {ops : List Operation} (h : Begun u) (ho : Orderly ops u) (hops : ∀ op ∈ ops, op.NulFree) :
    ∀ slot, ((run ops u).directory.get slot).isEmpty = false →
      let e := (run ops u).directory.get slot
      e.name.toList.head? = some '/' ∧ e.name.toList.getLast? ≠ some '/' ∧
      String.fromUTF8? ⟨e.nameBytes.toArray⟩ = some e.name ∧
      2 ≤ e.nameBytes.length ∧ e.nameBytes.length ≤ maxPathBytes ∧
      (Path.parentOf e.name = "/" ∨ ∃ parent, (run ops u).directory.find? (Path.parentOf e.name) = some parent ∧
        ((run ops u).directory.get parent).isDirectory = true) := by
  intro slot hused
  have hh := h.hierarchical ho hops
  have hname := hh.wellNamed slot hused
  refine ⟨hname.head, hname.last, hname.utf8, hname.two_le, hname.le, (hh.parent slot hused).imp id ?_⟩
  rintro ⟨parent, hdir, hparent⟩
  have hfind := (Directory.find?_eq_some_iff hh.absolute hh.distinct).mpr
    ⟨Entry.isEmpty_of_isDirectory hdir, hparent⟩
  exact ⟨parent, hfind, hdir⟩

/-- Paths that begin with several slashes, and directories that are deleted while something is below them. -/
theorem parents_of_run :
    let v := run [.create "/a" .directory, .create "//a/" .directory, .openPath "//a/ü" .write, .delete "/a",
      .delete "//a", .unmount, .mount] (formatted (MemoryDisk.blank 1024))
    ∀ slot, (v.directory.get slot).isEmpty = false →
      2 ≤ (v.directory.get slot).nameBytes.length ∧
      (Path.parentOf (v.directory.get slot).name = "/" ∨
        ∃ parent, v.directory.find? (Path.parentOf (v.directory.get slot).name) = some parent ∧
          (v.directory.get parent).isDirectory = true) := by
  obtain ⟨hbegun, hrel⟩ := begun_of_reliable (d := MemoryDisk.blank 1024)
    (Nat.le_of_eq (MemoryDisk.deviceSize_blank 1024).symm) (MemoryDisk.reliable_of_writable rfl)
  have hserved := (hbegun.run_reliable hrel [.create "/a" .directory, .create "//a/" .directory,
    .openPath "//a/ü" .write, .delete "/a", .delete "//a", .unmount, .mount]).1
  have hparents := Begun.parents hbegun hserved.orderly (by decide)
  refine fun slot hused => ?_
  obtain ⟨-, -, -, hlength, -, hparent⟩ := hparents slot hused
  exact ⟨hlength, hparent⟩

end Volume

end BlockVolume
