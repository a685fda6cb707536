import BlockVolume.Proofs.Volume.Listing
import BlockVolume.Proofs.Volume.Reload

/-!
# `Proofs.Volume.Listed` — what is listed and what can be looked up

A listing tells the names of entries as they are stored. A name of an entry is looked up like any path: it gains the
slash that it lacks, and must then not be longer than paths may be. Mounting puts the slash in front of every name that
has room for it, so what is left of names without one is too long by that slash, and what is listed under such a name is
not found under it. The same holds of a name that fills its field.

## Contents
- **`Directory.Clear`**: paths can tell the entries apart, with `Clear.migrate` and `Clear.find?_eq_some`.
- `mem_of_list`: what a listing is made of.
- **`stat_listed`**: whether a listed entry is found by the path that is told of it.
- **`listed_found`**: what is found after a mount, with `listed_not_found`.
-/

namespace BlockVolume

open BlockVolume.Action

/-! ## Tables -/

namespace Directory

/-- The entries in use have names that are texts, and no two of them have the same one, once a slash is put in front of
the names that lack it. -/
structure Clear (d : Directory) : Prop where
  named (slot : Slot) : (d.get slot).isEmpty = false → (d.get slot).name ≠ ""
  separate (i j : Slot) : (d.get i).isEmpty = false → (d.get j).isEmpty = false →
    Path.absolute (d.get i).name = Path.absolute (d.get j).name → i = j

variable {d : Directory} {slot : Slot}

theorem clear_empty : empty.Clear where
  named slot hused := absurd (isEmpty_get_empty slot) (Bool.eq_false_iff.mp hused)
  separate i _ hused := absurd (isEmpty_get_empty i) (Bool.eq_false_iff.mp hused)

/-- Migration puts no names together. -/
theorem Clear.migrate (h : d.Clear) : d.migrate.Clear where
  named slot := by
    rw [get_migrate, Entry.isEmpty_migrate]
    intro hused
    by_cases hm : (d.get slot).Migrates
    · intro hempty
      have habsolute := Entry.isAbsolute_name_migrate hm
      rw [hempty] at habsolute
      cases habsolute
    · rw [Entry.migrate_eq_self hm]
      exact h.named slot hused
  separate i j := by
    rw [get_migrate, get_migrate, Entry.isEmpty_migrate, Entry.isEmpty_migrate, Entry.absolute_migrate,
      Entry.absolute_migrate]
    exact h.separate i j

/-- An entry is found at its name with the slash. -/
theorem Clear.find?_eq_some (h : d.Clear) {p : Path} (hused : (d.get slot).isEmpty = false)
    (hname : Path.absolute (d.get slot).name = p.text) : d.find? p.text = some slot := by
  cases hfind : d.find? p.text with
  | none =>
    have hanswers : answers (d.get slot) p.text = true := Entry.answers_iff.mpr ⟨hused, hname⟩
    have hno : answers (d.get slot) p.text = false := findSlot?_eq_none.mp hfind slot
    cases hanswers.symm.trans hno
  | some i =>
    obtain ⟨hused', hname'⟩ := Entry.answers_iff.mp (answers_of_find? hfind)
    rw [h.separate i slot hused' hused (hname'.trans hname.symm)]

/-- Where no name is left to migrate, a name with the slash fits just if the name has the slash and fits itself. -/
theorem fits_iff (h : d.migrationCount = 0) (hused : (d.get slot).isEmpty = false) :
    (Path.absolute (d.get slot).name).utf8ByteSize ≤ maxPathBytes ↔
      Path.isAbsolute (d.get slot).name = true ∧ (d.get slot).name.utf8ByteSize ≤ maxPathBytes := by
  cases hname : Path.isAbsolute (d.get slot).name with
  | true =>
    rw [Path.absolute_of_isAbsolute hname]
    exact (and_iff_right rfl).symm
  | false =>
    have hstays : ¬(d.get slot).Migrates := Bool.eq_false_iff.mp (migrationCount_eq_zero_iff.mp h slot)
    refine iff_of_false (fun hfits => ?_) fun hfits => Bool.false_ne_true hfits.1
    rw [Path.absolute_of_not_isAbsolute hname, String.utf8ByteSize_append, Nat.add_comm] at hfits
    exact hstays (Entry.migrates_iff.mpr ⟨hused, hname, hfits⟩)

end Directory

/-- The path begins with a slash and is no longer than paths may be. -/
def EntryInfo.Fits (info : EntryInfo) : Prop :=
  Path.isAbsolute info.path = true ∧ info.path.utf8ByteSize ≤ maxPathBytes

namespace Volume

variable {δ : Type} {w : Volume δ} {dir : String} {infos : List EntryInfo} {info : EntryInfo}

/-! ## Listings -/

/-- What is listed are entries in use that lie below some path. -/
theorem mem_of_list (hl : w.list dir = .ok infos) (hinfo : info ∈ infos) :
    ∃ slot, (w.directory.get slot).isEmpty = false ∧ info = .ofEntry (w.directory.get slot) ∧
      Path.basename (w.directory.get slot).name ≠ "" := by
  obtain ⟨-, p, -, -, rfl⟩ := list_eq_ok_iff_found.mp hl
  obtain ⟨x, hx, rfl⟩ := List.mem_map.mp hinfo
  obtain ⟨hmem, hchild⟩ := List.mem_filter.mp hx
  obtain ⟨he, hused⟩ := Directory.mem_occupied.mp hmem
  rw [he] at hchild
  exact ⟨x.1, hused, by rw [he], (Path.isDirectChild_iff.mp hchild).1⟩

/-- A text with a last segment is a path if it is not too long with the slash, and then no root. -/
theorem resolve_cases {text : String} (hbasename : Path.basename text ≠ "") :
    ((Path.absolute text).utf8ByteSize ≤ maxPathBytes ∧
      ∃ p, resolve text = .ok p ∧ p.text = Path.absolute text ∧ p.isRoot = false) ∨
    (maxPathBytes < (Path.absolute text).utf8ByteSize ∧ resolve text = .error .pathTooLong) := by
  have hcanonical := Path.canonicalize_eq_absolute (Path.getLast?_of_basename hbasename)
  unfold resolve Path.ofString?
  by_cases hfits : (Path.canonicalize text).utf8ByteSize ≤ maxPathBytes
  · rw [dif_pos hfits]
    refine Or.inl ⟨hcanonical ▸ hfits, _, rfl, hcanonical, decide_eq_false fun hroot => ?_⟩
    have hagree : Path.Agree "/" text := by
      rw [← show Path.absolute text = "/" from hcanonical.symm.trans hroot]
      exact Path.agree_absolute text
    exact Path.not_agree_root hbasename hagree
  · rw [dif_neg hfits]
    exact Or.inr ⟨hcanonical ▸ Nat.lt_of_not_le hfits, rfl⟩

/-- What is found at a path is told of it. -/
theorem stat_of_lookup {path : String} {p : Path} {slot : Slot} (hm : w.mounted = true) (hp : resolve path = .ok p)
    (hroot : p.isRoot = false) (hslot : w.lookup p = .ok slot) :
    w.stat path = .ok (.ofEntry (w.directory.get slot)) := by
  simp [stat, ensureMounted, hm, hp, hroot, hslot, bind, Except.bind, pure, Except.pure]

/-- The path that is told of a listed entry leads to the entry, if it is not too long with the slash. -/
theorem stat_listed (hc : w.directory.Clear) (hl : w.list dir = .ok infos) (hinfo : info ∈ infos) :
    ((Path.absolute info.path).utf8ByteSize ≤ maxPathBytes ∧ w.stat info.path = .ok info ∧
      ∃ p slot, resolve info.path = .ok p ∧ w.lookup p = .ok slot ∧ .ofEntry (w.directory.get slot) = info) ∨
    (maxPathBytes < (Path.absolute info.path).utf8ByteSize ∧ w.stat info.path = .error .pathTooLong) := by
  have hm : w.mounted = true := (list_eq_ok_iff_found.mp hl).1
  obtain ⟨slot, hused, rfl, hbasename⟩ := mem_of_list hl hinfo
  rcases resolve_cases hbasename with ⟨hfits, p, hp, htext, hroot⟩ | ⟨hlong, hp⟩
  · have hslot : w.lookup p = .ok slot := by
      rw [lookup, hc.find?_eq_some hused htext.symm]
    exact Or.inl ⟨hfits, stat_of_lookup hm hp hroot hslot, p, slot, hp, hslot, rfl⟩
  · refine Or.inr ⟨hlong, ?_⟩
    have hresolve : resolve (EntryInfo.ofEntry (w.directory.get slot)).path = .error .pathTooLong := hp
    simp [stat, ensureMounted, hm, hresolve, bind, Except.bind]

/-! ## After a mount -/

variable [BlockDevice δ] [LawfulDevice δ] {v : Volume δ}

/-- What is loaded is as clear as what the device has. -/
theorem clear_of_mount (hok : (mount v).result = .ok ()) (hc : (Directory.read (content v.device)).Clear) :
    (mount v).state.directory.Clear := by
  rcases mount_directory v hok with hmigrated | ⟨-, hempty⟩
  · rw [hmigrated]
    exact hc.migrate
  · rw [hempty]
    exact Directory.clear_empty

/-- **What is listed after a mount is found by its path, if the path fits.** Whatever a device holds, as long as the
names in its directory are clear: once it is mounted, the path that a listing tells of an entry leads to this entry, and
the same is told of it there, if the path begins with a slash and is short enough for a path. A name that fills its
field does not fit, and neither does a name for whose slash there was no room; such a path is refused as too long. -/
theorem listed_found (hok : (mount v).result = .ok ()) (hc : (Directory.read (content v.device)).Clear) :
    ∀ dir infos, (mount v).state.list dir = .ok infos → ∀ info ∈ infos,
      (info.Fits → (mount v).state.stat info.path = .ok info ∧ ∃ p slot, resolve info.path = .ok p ∧
        (mount v).state.lookup p = .ok slot ∧ .ofEntry ((mount v).state.directory.get slot) = info) ∧
      (¬info.Fits → (mount v).state.stat info.path = .error .pathTooLong) := by
  intro dir infos hl info hinfo
  obtain ⟨slot, hused, hentry, -⟩ := mem_of_list hl hinfo
  have hfits : (Path.absolute info.path).utf8ByteSize ≤ maxPathBytes ↔ info.Fits := by
    rw [hentry]
    exact Directory.fits_iff (loaded_of_mount hok).names hused
  rcases stat_listed (clear_of_mount hok hc) hl hinfo with ⟨hshort, hfound⟩ | ⟨hlong, hrefused⟩
  · exact ⟨fun _ => hfound, fun hno => absurd (hfits.mp hshort) hno⟩
  · exact ⟨fun hyes => absurd (hfits.mpr hyes) (Nat.not_le_of_lt hlong), fun _ => hrefused⟩

/-! ## Tables with one name -/

/-- A table with nothing but a file of the given name. -/
def tableOf (name : String) : Directory := Directory.empty.set firstSlot (Entry.ofName name .file)

theorem get_tableOf (name : String) : (tableOf name).get firstSlot = Entry.ofName name .file := by
  rw [tableOf, Directory.get_set, if_pos rfl]

theorem name_tableOf {name : String} (hshort : name.utf8ByteSize ≤ maxPathBytes) (hnul : '\x00' ∉ name.toList) :
    ((tableOf name).get firstSlot).name = name := by
  rw [get_tableOf, Entry.name_ofName hshort, Text.untilNul_eq_self hnul]

theorem clear_tableOf {name : String} (hshort : name.utf8ByteSize ≤ maxPathBytes) (hnul : '\x00' ∉ name.toList)
    (hne : name ≠ "") : (tableOf name).Clear := by
  have honly (slot : Slot) (hused : ((tableOf name).get slot).isEmpty = false) : slot = firstSlot := by
    by_contra hslot
    rw [tableOf, Directory.get_set, if_neg hslot, Directory.isEmpty_get_empty] at hused
    cases hused
  constructor
  · intro slot hused
    rw [honly slot hused, name_tableOf hshort hnul]
    exact hne
  · intro i j hi hj _
    rw [honly i hi, honly j hj]

/-- A reliable device with this table is mounted, and what it has in it is listed. -/
theorem mount_tableOf (name : String) :
    let u := ofDevice (described (MemoryDisk.blank 1024) Space.fresh (tableOf name))
    Directory.read (content u.device) = tableOf name ∧ (mount u).result = .ok () ∧
      (mount u).state.mounted = true ∧ (mount u).state.directory = (tableOf name).migrate := by
  have hall : Allocated Space.fresh (tableOf name) :=
    Allocated.fresh.replace rfl (fun h => absurd rfl h) (Nat.zero_le _) fun _ => rfl
  obtain ⟨hp, hok, hm, -⟩ := restored_of_described hall
  exact ⟨hp.read.2, hok, hm.mounted, hm.directory⟩

omit [BlockDevice δ] [LawfulDevice δ] in
/-- An entry right below the root is listed there. -/
theorem mem_list_root (hm : w.mounted = true) {slot : Slot} (hused : (w.directory.get slot).isEmpty = false)
    (hchild : Path.isDirectChild "/" (w.directory.get slot).name = true) :
    ∃ infos, w.list "/" = .ok infos ∧ .ofEntry (w.directory.get slot) ∈ infos := by
  have hroot : Path.ofString? "/" = some ⟨"/", by decide, by decide⟩ := by decide
  refine ⟨_, list_eq_ok_iff_found.mpr ⟨hm, _, hroot, Or.inl rfl, rfl⟩, ?_⟩
  apply List.mem_map.mpr
  exact ⟨(slot, w.directory.get slot), List.mem_filter.mpr ⟨Directory.mem_occupied.mpr ⟨rfl, hused⟩, hchild⟩, rfl⟩

/-- A name that lacks its slash gains it, and is found with it. -/
theorem listed_found_of_legacy :
    let u := ofDevice (described (MemoryDisk.blank 1024) Space.fresh (tableOf "a"))
    (mount u).result = .ok () ∧ (Directory.read (content u.device)).Clear ∧
      ∃ infos info, (mount u).state.list "/" = .ok infos ∧ info ∈ infos ∧ info.path = "/a" ∧
        (mount u).state.stat "/a" = .ok info := by
  obtain ⟨hread, hok, hm, hdirectory⟩ := mount_tableOf "a"
  generalize ofDevice (described (MemoryDisk.blank 1024) Space.fresh (tableOf "a")) = u at hread hok hm hdirectory
  have hname : ((tableOf "a").get firstSlot).name = "a" := name_tableOf (by decide) (by decide)
  have hc : (Directory.read (content u.device)).Clear := by
    rw [hread]
    exact clear_tableOf (by decide) (by decide) (by decide)
  have hmigrates : ((tableOf "a").get firstSlot).Migrates := by
    rw [Entry.migrates_iff, hname]
    exact ⟨by rw [get_tableOf]; rfl, by decide, by decide⟩
  have hname' : ((mount u).state.directory.get firstSlot).name = "/a" := by
    rw [hdirectory, Directory.get_migrate, Entry.name_migrate hmigrates, hname]
    decide
  have hused : ((mount u).state.directory.get firstSlot).isEmpty = false := by
    rw [hdirectory, Directory.get_migrate, Entry.isEmpty_migrate, get_tableOf]
    rfl
  obtain ⟨infos, hl, hinfo⟩ := mem_list_root hm hused (by rw [hname']; decide)
  have hfits : Path.isAbsolute "/a" = true ∧ "/a".utf8ByteSize ≤ maxPathBytes := by decide
  rw [← hname'] at hfits
  have hfound := (listed_found hok hc "/" infos hl _ hinfo).1 hfits
  exact ⟨hok, hc, infos, _, hl, hinfo, hname', hname' ▸ hfound.1⟩

/-- A name for whose slash there is no room. -/
def fullName : String := "abcdefghijklmnopqrstuvwxyz01234"

/-- **What is listed after a mount need not be found by its path**: with its slash this name would be one byte too long
for a path, and so it is refused where the listing shows it without. -/
theorem listed_not_found :
    let u := ofDevice (described (MemoryDisk.blank 1024) Space.fresh (tableOf fullName))
    (mount u).result = .ok () ∧ (Directory.read (content u.device)).Clear ∧
      ∃ infos info, (mount u).state.list "/" = .ok infos ∧ info ∈ infos ∧ info.path = fullName ∧
        (mount u).state.stat fullName = .error .pathTooLong := by
  obtain ⟨hread, hok, hm, hdirectory⟩ := mount_tableOf fullName
  generalize ofDevice (described (MemoryDisk.blank 1024) Space.fresh (tableOf fullName)) = u at hread hok hm hdirectory
  have hname : ((tableOf fullName).get firstSlot).name = fullName := name_tableOf (by decide) (by decide)
  have hc : (Directory.read (content u.device)).Clear := by
    rw [hread]
    exact clear_tableOf (by decide) (by decide) (by decide)
  have hstays : ¬((tableOf fullName).get firstSlot).Migrates := by
    rw [Entry.migrates_iff, hname]
    rintro ⟨-, -, hroom⟩
    exact absurd hroom (by decide)
  have hget : (mount u).state.directory.get firstSlot = (tableOf fullName).get firstSlot := by
    rw [hdirectory, Directory.get_migrate, Entry.migrate_eq_self hstays]
  rw [← hget] at hname
  have hused : ((mount u).state.directory.get firstSlot).isEmpty = false := by
    rw [hget, get_tableOf]
    rfl
  obtain ⟨infos, hl, hinfo⟩ := mem_list_root hm hused (by rw [hname]; decide)
  refine ⟨hok, hc, infos, _, hl, hinfo, hname, ?_⟩
  rcases stat_listed (clear_of_mount hok hc) hl hinfo with ⟨hshort, -⟩ | ⟨-, hrefused⟩
  · have hpath : (EntryInfo.ofEntry ((mount u).state.directory.get firstSlot)).path = fullName := hname
    rw [hpath] at hshort
    exact absurd hshort (by decide)
  · exact hname ▸ hrefused

end Volume

end BlockVolume
