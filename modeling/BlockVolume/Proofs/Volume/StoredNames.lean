import BlockVolume.Proofs.Namespace.NameBytes
import BlockVolume.Proofs.Volume.Spared

/-!
# `Proofs.Volume.StoredNames` — what mounting leaves of stored names

Mounting migrates the names of the directory and stores them at once. So the names on the device are those
that it had, or migrated ones, wherever the device refuses a request, and a name whose bytes are those of a
text is still there. One whose bytes are not reads as the empty text, and is overwritten by a slash.

## Contents
- `MountEnds.migrated_or_same`: each entry on the device is as it was, or migrated.
- **`stored_names_survive`**: whose names are there after a migration and after a mount.
- **`stored_name_overwritten`**: a name that begins with a slash and is lost.
-/

namespace BlockVolume

open BlockVolume.Action Metered
open Text (slashByte Survives)

namespace Volume

variable {δ : Type} [BlockDevice δ] [LawfulDevice δ] {v w : Volume (Metered δ)} {r : Except Error Unit}

/-- A mount that ends anyhow leaves each entry of a volume that it recognises, or has migrated it. -/
theorem MountEnds.migrated_or_same (h : MountEnds v w r)
    (hmagic : (Superblock.ofBlock (content v.device superblockBlock)).magic = volumeMagic) (slot : Slot) :
    (Directory.read (content w.device)).get slot = (Directory.read (content v.device)).get slot ∨
      (Directory.read (content w.device)).get slot = (Directory.read (content v.device)).migrate.get slot := by
  rw [Directory.get_migrate]
  exact get_of_migrated (h.recognised hmagic) slot

/-- A mount that succeeds has stored all migrated names. -/
theorem directory_of_mount (hok : (mount v).result = .ok ())
    (hmagic : (Superblock.ofBlock (content v.device superblockBlock)).magic = volumeMagic) :
    Directory.read (content (mount v).state.device) = (Directory.read (content v.device)).migrate := by
  rw [(loaded_of_mount hok).directory]
  rcases mount_directory v hok with hmigrated | ⟨hforeign, -⟩
  · exact hmigrated
  · exact absurd hmagic hforeign

/-- **A migrated name survives just if its bytes are those of a text**, whatever the table holds; of any other
name a slash is left. So mounting loses no name that is legible, whatever the device holds and whichever
requests it refuses: each entry that it finds is on the device afterwards as it was or migrated, and after a
mount that succeeds all are migrated. -/
theorem stored_names_survive (v : Volume (Metered δ)) :
    (∀ (d : Directory) slot, (d.get slot).isEmpty = false →
      (Survives (d.get slot).nameBytes (d.migrate.get slot).nameBytes ↔ (d.get slot).Legible) ∧
        (¬(d.get slot).Legible → (d.migrate.get slot).nameBytes = [slashByte])) ∧
    (mount : VolumeAction (Metered δ) Unit).Ensures v fun r w =>
      (Superblock.ofBlock (content v.device superblockBlock)).magic = volumeMagic →
        (∀ slot, ((Directory.read (content v.device)).get slot).isEmpty = false →
          ((Directory.read (content v.device)).get slot).Legible →
            Survives ((Directory.read (content v.device)).get slot).nameBytes
              ((Directory.read (content w.device)).get slot).nameBytes) ∧
        (∀ slot, (Directory.read (content w.device)).get slot = (Directory.read (content v.device)).get slot ∨
          (Directory.read (content w.device)).get slot = (Directory.read (content v.device)).migrate.get slot) ∧
        (r = .ok () → Directory.read (content w.device) = (Directory.read (content v.device)).migrate) := by
  constructor
  · intro d slot hused
    rw [Directory.get_migrate]
    exact ⟨Entry.survives_migrate_iff hused, Entry.nameBytes_migrate_of_not_legible hused⟩
  · intro hmagic
    have hnames := (mount_ends v).migrated_or_same hmagic
    refine ⟨fun slot _ hlegible => ?_, hnames, fun hok => directory_of_mount hok hmagic⟩
    rcases hnames slot with hsame | hmigrated
    · rw [hsame]
      exact Or.inl rfl
    · rw [hmigrated, Directory.get_migrate]
      exact hlegible.survives

/-! ## A name that is lost -/

/-- The file whose name is a slash, a byte that is no part of any text, and a letter. -/
def illegibleEntry : Entry :=
  { Entry.unused with kind := .file, nameField := Vector.ofFn fun i => [0x2F, 0xFF, 0x61].getD i.val 0 }

/-- **A name need not survive a mount**: this one begins with a slash, and a slash is all that is left of it
on the device. -/
theorem stored_name_overwritten :
    let table := Directory.empty.set firstSlot illegibleEntry
    let u := ofDevice (described (MemoryDisk.blank 1024) Space.fresh table)
    let before := (Directory.read (content u.device)).get firstSlot
    let after := (Directory.read (content (mount u).state.device)).get firstSlot
    before.isEmpty = false ∧ before.nameBytes = [slashByte, 0xFF, 0x61] ∧ (mount u).result = .ok () ∧
      after.nameBytes = [slashByte] ∧ ¬Survives before.nameBytes after.nameBytes := by
  intro table u before after
  have hall : Allocated Space.fresh table :=
    Allocated.fresh.replace rfl (by decide) (by decide) (by decide)
  obtain ⟨hp, hok, hm, -⟩ := restored_of_described hall
  have hbefore : before = illegibleEntry := by
    show (Directory.read (content u.device)).get firstSlot = _
    rw [hp.read.2, Directory.get_set, if_pos rfl]
  have hafter : after = illegibleEntry.migrate := by
    show (Directory.read (content (mount u).state.device)).get firstSlot = _
    rw [hm.persisted.read.2, Directory.get_migrate, Directory.get_set, if_pos rfl]
  rw [hbefore, hafter]
  refine ⟨rfl, by decide, hok, by decide, by decide⟩

end Volume

end BlockVolume
