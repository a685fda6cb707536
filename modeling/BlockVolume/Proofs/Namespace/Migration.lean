import BlockVolume.Proofs.Format.Codec
import BlockVolume.Proofs.Namespace.Hierarchy

/-!
# `Proofs.Namespace.Migration` — names that gain a slash

Migration puts a slash in front of a name that lacks one, if there is room for it. An entry answers to a path with the
slash whether its name has it or not, and slashes at the beginning of a name do not matter to what it lies below, so
nothing that is looked up is found elsewhere afterwards. Since lookups take the first slot that answers, this is shown
slot by slot.

## Contents
- `Entry.nameField_migrate` and `Entry.name_migrate`: the name that an entry has afterwards; `Entry.migrate_fields` and
  `Entry.migrate_eq_self`: what stays. `Entry.migrate_done`: a migrated entry is not migrated again.
- **`Entry.answers_iff`**: what an entry answers to, with `Entry.answers_migrate`; `Entry.agree_migrate`: where it lies.
- **`Directory.migrate_invisible`**: migrating a table changes names and nothing that lookups see.
-/

namespace BlockVolume

open Directory (answers)

/-! ## Entries -/

namespace Entry

/-- The entry is one whose name migration changes. -/
def Migrates (e : Entry) : Prop := (e.isLegacy && e.hasRoomForSlash) = true

instance (e : Entry) : Decidable e.Migrates := inferInstanceAs (Decidable (_ = _))

variable {e : Entry}

theorem migrates_iff : e.Migrates ↔
    e.isEmpty = false ∧ Path.isAbsolute e.name = false ∧ e.name.utf8ByteSize + 1 ≤ maxPathBytes := by
  simp only [Migrates, isLegacy, hasRoomForSlash, Bool.and_eq_true, Bool.not_eq_true', decide_eq_true_eq, and_assoc]

/-- Migration changes names only. -/
theorem migrate_fields (e : Entry) : e.migrate.kind = e.kind ∧ e.migrate.size = e.size ∧
    e.migrate.firstBlock = e.firstBlock ∧ e.migrate.blocks = e.blocks := by
  unfold migrate setName
  by_cases h : (e.isLegacy && e.hasRoomForSlash) = true
  · simp only [if_pos h, and_self]
  · simp only [if_neg h, and_self]

theorem migrate_eq_self (h : ¬e.Migrates) : e.migrate = e := if_neg h

/-- Migration does not empty a slot. -/
theorem isEmpty_migrate (e : Entry) : e.migrate.isEmpty = e.isEmpty := isEmpty_congr e.migrate_fields.1

/-- A name that is migrated is stored as the path with the slash would be. -/
theorem nameField_migrate (h : e.Migrates) : ("/" ++ e.name).utf8ByteSize ≤ maxPathBytes ∧
    '\x00' ∉ ("/" ++ e.name).toList ∧ e.migrate.nameField = (ofName ("/" ++ e.name) e.kind).nameField := by
  obtain ⟨-, -, hroom⟩ := migrates_iff.mp h
  have hmigrate : e.migrate = e.setName ("/" ++ e.name) := if_pos h
  refine ⟨?_, ?_, ?_⟩
  · rw [String.utf8ByteSize_append, Nat.add_comm]
    exact hroom
  · rw [Path.toList_slash_append, List.mem_cons]
    exact not_or.mpr ⟨by decide, e.nul_not_mem_name⟩
  · rw [hmigrate]
    rfl

/-- **A slash in front of a name for which there is room is all that the name gains.** -/
theorem name_migrate (h : e.Migrates) : e.migrate.name = "/" ++ e.name := by
  obtain ⟨hsize, hnul, hfield⟩ := nameField_migrate h
  calc e.migrate.name = (ofName ("/" ++ e.name) e.kind).name := name_congr hfield
    _ = Text.untilNul ("/" ++ e.name) := name_ofName hsize e.kind
    _ = "/" ++ e.name := Text.untilNul_eq_self hnul

theorem isAbsolute_name_migrate (h : e.Migrates) : Path.isAbsolute e.migrate.name = true := by
  rw [name_migrate h]
  exact Path.isAbsolute_slash_append _

/-- The name with the slash is the same before and after. -/
theorem absolute_migrate (e : Entry) : Path.absolute e.migrate.name = Path.absolute e.name := by
  by_cases h : e.Migrates
  · rw [Path.absolute_of_isAbsolute (isAbsolute_name_migrate h), name_migrate h,
      Path.absolute_of_not_isAbsolute (migrates_iff.mp h).2.1]
  · rw [migrate_eq_self h]

/-- What is left after migration is not to be migrated. -/
theorem migrate_done (e : Entry) : ¬e.migrate.Migrates := by
  by_cases h : e.Migrates
  · intro hagain
    have hrelative := (migrates_iff.mp hagain).2.1
    rw [isAbsolute_name_migrate h] at hrelative
    cases hrelative
  · rwa [migrate_eq_self h]

/-- The name changes just if the entry does, and that is if it is one to migrate. -/
theorem name_migrate_ne_iff (e : Entry) : e.migrate.name ≠ e.name ↔ e.Migrates := by
  constructor
  · intro hne
    by_contra h
    exact hne (congrArg name (migrate_eq_self h))
  · intro h heq
    have hlength := congrArg (fun text : String => text.toList.length) heq
    simp only [name_migrate h, Path.toList_slash_append, List.length_cons] at hlength
    omega

/-- **An entry answers to a path just if the path is its name with the slash.** -/
theorem answers_iff {p : Path} :
    answers e p.text = true ↔ e.isEmpty = false ∧ Path.absolute e.name = p.text := by
  have hpath : Path.isAbsolute p.text = true := decide_eq_true p.head?_text
  simp only [answers, Bool.and_eq_true, Bool.not_eq_true', Bool.or_eq_true, decide_eq_true_eq]
  refine and_congr_right fun _ => ?_
  cases hname : Path.isAbsolute e.name with
  | true =>
    rw [Path.absolute_of_isAbsolute hname]
    exact or_iff_left fun h => Bool.false_ne_true h.1.symm
  | false =>
    have hslash : "/" ++ e.name = p.text ↔ p.text.toList = '/' :: e.name.toList := by
      rw [← String.toList_inj, Path.toList_slash_append]
      exact eq_comm
    rw [Path.absolute_of_not_isAbsolute hname, hslash]
    constructor
    · rintro (heq | ⟨-, heq⟩)
      · rw [heq, hpath] at hname
        cases hname
      · exact heq
    · exact fun heq => Or.inr ⟨rfl, heq⟩

/-- So it answers to the same paths before and after. -/
theorem answers_migrate (e : Entry) (p : Path) : answers e.migrate p.text = answers e p.text := by
  rw [Bool.eq_iff_iff, answers_iff, answers_iff, isEmpty_migrate, absolute_migrate]

/-- The name changes by slashes at its beginning only. -/
theorem agree_migrate (e : Entry) : Path.Agree e.migrate.name e.name := by
  have hmigrated := Path.agree_absolute e.migrate.name
  rw [absolute_migrate] at hmigrated
  exact hmigrated.symm.trans (Path.agree_absolute e.name)

/-- An entry lies below the same directories before and after. -/
theorem isDirectChild_migrate (e : Entry) (dir : String) :
    Path.isDirectChild dir e.migrate.name = Path.isDirectChild dir e.name := by
  have hagree : Path.dropStartSlashes e.migrate.name.toList = Path.dropStartSlashes e.name.toList := e.agree_migrate
  rw [Path.isDirectChild, Path.isDirectChild, hagree]

end Entry

/-! ## The table -/

namespace Directory

theorem get_migrate (d : Directory) (slot : Slot) : d.migrate.get slot = (d.get slot).migrate := by
  simp [migrate, get]

/-- There is no name to migrate if no slot holds one. -/
theorem migrationCount_eq_zero_iff {d : Directory} :
    d.migrationCount = 0 ↔ ∀ slot, ((d.get slot).isLegacy && (d.get slot).hasRoomForSlash) = false := by
  have hcount : d.migrationCount = 0 ↔ ∀ e ∈ d.entries, (e.isLegacy && e.hasRoomForSlash) = false := by
    simp [migrationCount]
  rw [hcount]
  constructor
  · intro h slot
    exact h _ (by simp [get])
  · intro h e he
    obtain ⟨i, hi, rfl⟩ := Vector.mem_iff_getElem.mp he
    exact h ⟨i, hi⟩

/-- A table with no name to migrate stays as it is. -/
theorem migrate_eq_self {d : Directory} (h : d.migrationCount = 0) : d.migrate = d := by
  apply ext_get
  intro slot
  rw [get_migrate, Entry.migrate, migrationCount_eq_zero_iff.mp h slot]
  rfl

theorem migrate_empty : empty.migrate = empty := by
  apply ext_get
  intro slot
  rw [get_migrate]
  simp [empty, get, Entry.migrate, Entry.isLegacy, Entry.isEmpty, Entry.unused]

theorem migrationCount_migrate (d : Directory) : d.migrate.migrationCount = 0 := by
  rw [migrationCount_eq_zero_iff]
  intro slot
  rw [get_migrate]
  exact Bool.eq_false_iff.mpr (Entry.migrate_done _)

theorem migrationCount_empty : empty.migrationCount = 0 := by
  rw [← migrate_empty]
  exact migrationCount_migrate _

/-- Every path leads to the same slot before and after. -/
theorem find?_migrate (d : Directory) (p : Path) : d.migrate.find? p.text = d.find? p.text := by
  have hanswers : (fun slot => answers (d.migrate.get slot) p.text) = fun slot => answers (d.get slot) p.text := by
    funext slot
    rw [get_migrate, Entry.answers_migrate]
  rw [find?, find?, findSlot?, findSlot?, hanswers]

theorem hasChildren_migrate (d : Directory) (dir : String) : d.migrate.hasChildren dir = d.hasChildren dir := by
  rw [Bool.eq_iff_iff, hasChildren_eq_true, hasChildren_eq_true]
  simp only [get_migrate, Entry.isEmpty_migrate, Entry.isDirectChild_migrate]

/-- The slots of the table, in their order, are all there are. -/
theorem toList_entries (d : Directory) : d.entries.toList = (List.finRange entryCount).map d.get := by
  apply List.ext_getElem
  · simp
  · intro i hi hi'
    simp [get]

/-- As many names are counted as change. -/
theorem migrationCount_eq (d : Directory) : d.migrationCount =
    (List.finRange entryCount).countP fun slot => (d.migrate.get slot).name ≠ (d.get slot).name := by
  have hslot (slot : Slot) : (d.migrate.get slot).name ≠ (d.get slot).name ↔ (d.get slot).Migrates := by
    rw [get_migrate]
    exact Entry.name_migrate_ne_iff _
  rw [migrationCount, ← Vector.countP_toList, toList_entries, List.countP_map]
  apply List.countP_congr
  intro slot _
  rw [decide_eq_true_iff, hslot]
  exact Iff.rfl

/-- **Migration changes nothing that lookups see**, whatever the table holds: every path leads to the same slot or to
none, every text has children or not, and what is not a name stays. Slots that are empty, or whose name begins with a
slash, stay as they are; the number of names that change is the one that is counted; and after that nothing is left to
migrate. -/
theorem migrate_invisible (d : Directory) :
    (∀ p : Path, d.migrate.find? p.text = d.find? p.text) ∧
    (∀ dir, d.migrate.hasChildren dir = d.hasChildren dir) ∧
    (∀ slot, (d.migrate.get slot).kind = (d.get slot).kind ∧ (d.migrate.get slot).size = (d.get slot).size ∧
      (d.migrate.get slot).firstBlock = (d.get slot).firstBlock ∧ (d.migrate.get slot).blocks = (d.get slot).blocks) ∧
    (∀ slot, (d.get slot).isEmpty = true ∨ Path.isAbsolute (d.get slot).name = true →
      d.migrate.get slot = d.get slot) ∧
    d.migrationCount =
      (List.finRange entryCount).countP (fun slot => (d.migrate.get slot).name ≠ (d.get slot).name) ∧
    d.migrate.migrationCount = 0 ∧ d.migrate.migrate = d.migrate := by
  refine ⟨d.find?_migrate, d.hasChildren_migrate, fun slot => ?_, fun slot hslot => ?_, d.migrationCount_eq,
    d.migrationCount_migrate, migrate_eq_self d.migrationCount_migrate⟩
  · rw [get_migrate]
    exact Entry.migrate_fields _
  · rw [get_migrate]
    apply Entry.migrate_eq_self
    intro h
    obtain ⟨hused, hrelative, -⟩ := Entry.migrates_iff.mp h
    rcases hslot with hempty | habsolute
    · exact Bool.false_ne_true (hused.symm.trans hempty)
    · exact Bool.false_ne_true (hrelative.symm.trans habsolute)

end Directory

end BlockVolume
