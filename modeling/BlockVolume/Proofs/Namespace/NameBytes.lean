import BlockVolume.Proofs.Namespace.Migration

/-!
# `Proofs.Namespace.NameBytes` — the bytes of names that gain a slash

Migration puts the slash in front of the text of a name, and the text is decoded from the bytes. Bytes that
are those of some text are not lost that way: they stay, or stand behind a slash. All other bytes read as the
empty text, and then the slash is all that is left of them, also where they begin with a slash.

## Contents
- `Text.isAbsolute_of_head?`: a text begins with a slash if its bytes do.
- **`Entry.Legible`**: the bytes of the name are those of a text.
- **`Entry.nameBytes_migrate`**: the bytes that an entry has afterwards.
- **`Text.Survives`**: the bytes are still there, and **`Entry.survives_migrate_iff`**: whose bytes are.
-/

namespace BlockVolume

/-! ## Texts that begin with a slash -/

namespace Text

/-- The byte of a slash. -/
def slashByte : UInt8 := 0x2F

/-- The bytes of a text, one after the other. -/
def bytes (text : String) : List UInt8 := text.toByteArray.data.toList

theorem bytes_eq_flatMap (text : String) : bytes text = text.toList.flatMap String.utf8EncodeChar :=
  toList_toUTF8 text

theorem bytes_slash_append (text : String) : bytes ("/" ++ text) = slashByte :: bytes text := by
  rw [bytes_eq_flatMap, Path.toList_slash_append, List.flatMap_cons, bytes_eq_flatMap]
  rfl

/-- No other character is encoded by bytes that begin with the one of a slash. -/
theorem eq_slash_of_head? {c : Char} (h : (String.utf8EncodeChar c).head? = some slashByte) : c = '/' := by
  apply Char.ext
  apply UInt32.toNat_inj.mp
  show c.val.toNat = 0x2F
  unfold String.utf8EncodeChar at h
  dsimp only at h
  generalize c.val.toNat = v at h
  split at h
  · rename_i hshort
    simp only [slashByte, List.head?_cons, Option.some.injEq, ← UInt8.toNat_inj, UInt8.toNat_ofNat'] at h
    have hv : v % 2 ^ 8 = 0x2F := h
    omega
  · -- the first byte of a longer encoding has its highest bit set
    repeat' split at h
    all_goals
      simp only [slashByte, List.head?_cons, Option.some.injEq, ← UInt8.toNat_inj, UInt8.toNat_ofNat'] at h
      have hfirst := h.trans (show (0x2F : UInt8).toNat = 0x2F from rfl)
      omega

/-- A text begins with a slash if its bytes do. -/
theorem isAbsolute_of_head? {text : String} (h : (bytes text).head? = some slashByte) : Path.isAbsolute text = true := by
  rw [bytes_eq_flatMap] at h
  unfold Path.isAbsolute
  cases hchars : text.toList with
  | nil =>
    rw [hchars] at h
    cases h
  | cons c cs =>
    rw [hchars, List.flatMap_cons, List.head?_append] at h
    rcases Option.or_eq_some_iff.mp h with hfirst | ⟨hnone, -⟩
    · rw [eq_slash_of_head? hfirst]
      rfl
    · exact absurd (List.head?_eq_none_iff.mp hnone) String.utf8EncodeChar_ne_nil

/-! ## Bytes that are still there -/

/-- Of the bytes `old` nothing is lost among the bytes `new`: they are the same, or a slash that `old` did not
begin with was put in front of them. -/
def Survives (old new : List UInt8) : Prop :=
  new = old ∨ (old.head? ≠ some slashByte ∧ new = slashByte :: old)

instance (old new : List UInt8) : Decidable (Survives old new) := inferInstanceAs (Decidable (_ ∨ _))

end Text

open Text (slashByte Survives)

namespace Entry

variable {e : Entry}

/-! ## Legible names -/

/-- The bytes of the name are those of some text. -/
def Legible (e : Entry) : Prop := ∃ text, Text.bytes text = e.nameBytes

/-- What a legible name reads as has the same bytes. -/
theorem Legible.bytes_name (h : e.Legible) : Text.bytes e.name = e.nameBytes := by
  obtain ⟨text, htext⟩ := h
  have hbytes : (⟨e.nameBytes.toArray⟩ : ByteArray) = text.toByteArray := by
    rw [← htext, Text.bytes, Array.toArray_toList]
  rw [name, hbytes, Text.fromUTF8?_toByteArray, Option.getD_some, htext]

/-- A name that is not legible reads as the empty text. -/
theorem name_of_not_legible (h : ¬e.Legible) : e.name = "" := by
  unfold name
  cases hdecoded : String.fromUTF8? ⟨e.nameBytes.toArray⟩ with
  | none => rfl
  | some text =>
    have hbytes := congrArg (fun b => b.data.toList) (Text.toByteArray_of_fromUTF8? hdecoded)
    exact absurd ⟨text, hbytes⟩ h

/-! ## Migration -/

/-- The bytes of a name that is migrated are a slash and those of the text that the name reads as. -/
theorem nameBytes_migrate (h : e.Migrates) : e.migrate.nameBytes = slashByte :: Text.bytes e.name := by
  obtain ⟨hsize, hnul, hfield⟩ := nameField_migrate h
  calc e.migrate.nameBytes = (ofName ("/" ++ e.name) e.kind).nameBytes := by rw [nameBytes, nameBytes, hfield]
    _ = Text.bytes (Text.untilNul ("/" ++ e.name)) := nameBytes_ofName hsize e.kind
    _ = slashByte :: Text.bytes e.name := by rw [Text.untilNul_eq_self hnul, Text.bytes_slash_append]

/-- A legible name stays, or gains the slash that it lacks. -/
theorem Legible.survives (h : e.Legible) : Survives e.nameBytes e.migrate.nameBytes := by
  by_cases hm : e.Migrates
  · rw [nameBytes_migrate hm, h.bytes_name]
    refine Or.inr ⟨fun hhead => ?_, rfl⟩
    have habsolute : Path.isAbsolute e.name = true := Text.isAbsolute_of_head? (h.bytes_name ▸ hhead)
    exact Bool.false_ne_true ((migrates_iff.mp hm).2.1.symm.trans habsolute)
  · rw [migrate_eq_self hm]
    exact Or.inl rfl

/-- Of a name that is not legible the slash is all that there is afterwards. -/
theorem nameBytes_migrate_of_not_legible (hused : e.isEmpty = false) (h : ¬e.Legible) :
    e.migrate.nameBytes = [slashByte] := by
  have hname := name_of_not_legible h
  have hm : e.Migrates := by
    rw [migrates_iff, hname]
    exact ⟨hused, by decide, by decide⟩
  rw [nameBytes_migrate hm, hname]
  rfl

/-- **The names that survive are the legible ones.** -/
theorem survives_migrate_iff (hused : e.isEmpty = false) :
    Survives e.nameBytes e.migrate.nameBytes ↔ e.Legible := by
  refine ⟨fun hsurvives => ?_, Legible.survives⟩
  by_contra hno
  rw [nameBytes_migrate_of_not_legible hused hno] at hsurvives
  -- a slash, and nothing, are the bytes of texts
  rcases hsurvives with hsame | ⟨-, hslashed⟩
  · exact hno ⟨"/", hsame⟩
  · exact hno ⟨"", (List.cons.inj hslashed).2⟩

end Entry

end BlockVolume
