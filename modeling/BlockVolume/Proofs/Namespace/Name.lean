import BlockVolume.Directory
import Mathlib.Data.List.TakeWhile

/-!
# `Proofs.Namespace.Name` — paths and the names that are stored of them

The field of a name ends at its first zero. UTF-8 uses the zero byte for NUL and for nothing else, so
what is read back of a path is the path itself if it holds no NUL, and otherwise what stands before it.

## Contents
- **`Text.untilNul`**: the text that a field can hold; `Text.takeWhile_flatMap_utf8EncodeChar`.
- **`Entry.name_ofName`**, on `Entry.nameBytes_ofName`, and **`Entry.nul_not_mem_name`**: the names of new
  entries, and of all.
- `Path.nul_mem_text`, `Path.isAbsolute_untilNul`: canonical paths.
-/

namespace BlockVolume

/-! ## Zero bytes in UTF-8 -/

namespace Text

/-- The text up to its first NUL. -/
def untilNul (text : String) : String :=
  String.ofList (text.toList.takeWhile (· ≠ '\x00'))

theorem untilNul_eq_self {text : String} (h : '\x00' ∉ text.toList) : untilNul text = text := by
  have hall : ∀ c ∈ text.toList, decide (c ≠ '\x00') = true := fun c hc =>
    decide_eq_true fun he => h (he ▸ hc)
  rw [untilNul, List.takeWhile_eq_self_iff.mpr hall, String.ofList_toList]

theorem utf8EncodeChar_nul : String.utf8EncodeChar '\x00' = [0] := by
  decide

/-- No other character has a zero byte in its encoding. -/
theorem zero_not_mem_utf8EncodeChar {c : Char} (hc : c ≠ '\x00') : (0 : UInt8) ∉ String.utf8EncodeChar c := by
  have hpos : c.val.toNat ≠ 0 := fun h => hc (Char.ext (UInt32.toNat_inj.mp h))
  intro h
  unfold String.utf8EncodeChar at h
  dsimp only at h
  generalize c.val.toNat = v at hpos h
  split at h
  · simp only [List.mem_singleton, ← UInt8.toNat_inj, UInt8.toNat_ofNat', UInt8.toNat_zero] at h
    omega
  · -- every byte of a longer encoding has its highest bit set
    repeat' split at h
    all_goals
      simp only [List.mem_cons, List.not_mem_nil, or_false, ← UInt8.toNat_inj, UInt8.toNat_ofNat',
        UInt8.toNat_zero] at h
      omega

theorem toList_utf8Encode (cs : List Char) : cs.utf8Encode.data.toList = cs.flatMap String.utf8EncodeChar := by
  simp [List.utf8Encode]

theorem toList_toUTF8 (text : String) :
    text.toUTF8.data.toList = text.toList.flatMap String.utf8EncodeChar := by
  rw [← toList_utf8Encode, String.utf8Encode_toList]
  rfl

/-- Cutting an encoding at its first zero is cutting the text at its first NUL. -/
theorem takeWhile_flatMap_utf8EncodeChar (cs : List Char) :
    (cs.flatMap String.utf8EncodeChar).takeWhile (· ≠ 0) =
      (cs.takeWhile (· ≠ '\x00')).flatMap String.utf8EncodeChar := by
  induction cs with
  | nil => rfl
  | cons c cs ih =>
    by_cases hc : c = '\x00'
    · subst hc
      simp [utf8EncodeChar_nul]
    · have hbytes : ∀ b ∈ String.utf8EncodeChar c, decide (b ≠ 0) = true := fun b hb =>
        decide_eq_true fun he => zero_not_mem_utf8EncodeChar hc (he ▸ hb)
      rw [List.flatMap_cons, List.takeWhile_append_of_pos hbytes, ih]
      simp [hc]

theorem fromUTF8?_toByteArray (text : String) : String.fromUTF8? text.toByteArray = some text := by
  unfold String.fromUTF8?
  rw [dif_pos text.isValidUTF8]
  rfl

theorem toByteArray_of_fromUTF8? {b : ByteArray} {text : String} (h : String.fromUTF8? b = some text) :
    text.toByteArray = b := by
  unfold String.fromUTF8? at h
  split at h
  · cases h
    rfl
  · cases h

end Text

/-! ## Names in their fields -/

namespace Entry

theorem name_congr {e e' : Entry} (h : e'.nameField = e.nameField) : e'.name = e.name := by
  rw [name, name, nameBytes, nameBytes, h]

theorem isEmpty_congr {e e' : Entry} (h : e'.kind = e.kind) : e'.isEmpty = e.isEmpty := by
  rw [isEmpty, isEmpty, h]

/-- The field of a path that fits holds the path, and zeros after it. -/
theorem toList_fieldOf {text : String} (h : text.utf8ByteSize ≤ maxPathBytes) :
    (fieldOf text).toList =
      text.toUTF8.data.toList ++ List.replicate (nameFieldSize - text.utf8ByteSize) 0 := by
  have hsize : text.toUTF8.data.size = text.utf8ByteSize := rfl
  have hshort : text.utf8ByteSize < nameFieldSize := Nat.lt_of_le_of_lt h (by decide)
  refine List.ext_getElem? ?_
  intro i
  rw [Vector.getElem?_toList, fieldOf, Vector.getElem?_ofFn]
  by_cases hi : i < text.utf8ByteSize
  · rw [dif_pos (Nat.lt_trans hi hshort), if_pos (Nat.lt_of_lt_of_le hi h),
      List.getElem?_append_left (by rwa [Array.length_toList, hsize]), Array.getElem?_toList,
      Array.getElem?_eq_getElem (by rwa [hsize])]
    rfl
  · have hnone : text.toUTF8.data[i]? = none := Array.getElem?_eq_none (by rw [hsize]; omega)
    rw [List.getElem?_append_right (by rw [Array.length_toList, hsize]; omega), List.getElem?_replicate,
      Array.length_toList, hsize]
    simp only [hnone, Option.getD_none, ite_self]
    by_cases hfield : i < nameFieldSize
    · rw [dif_pos hfield, if_pos (by omega)]
    · rw [dif_neg hfield, if_neg (by omega)]

/-- The bytes of the name of a new entry are those of its path up to the first NUL. -/
theorem nameBytes_ofName {text : String} (h : text.utf8ByteSize ≤ maxPathBytes) (kind : EntryKind) :
    (ofName text kind).nameBytes = (Text.untilNul text).toByteArray.data.toList := by
  have hzeros : (List.replicate (nameFieldSize - text.utf8ByteSize) (0 : UInt8)).takeWhile (· ≠ 0) = [] := by
    simp
  show (fieldOf text).toList.takeWhile (· ≠ 0) = _
  -- the zeros behind the path end the name, if no zero within the path does
  rw [Text.untilNul, String.toByteArray_ofList, Text.toList_utf8Encode,
    ← Text.takeWhile_flatMap_utf8EncodeChar, ← Text.toList_toUTF8, toList_fieldOf h, List.takeWhile_append,
    hzeros, List.append_nil]
  split
  · rename_i hlength
    exact ((List.takeWhile_prefix _).eq_of_length hlength).symm
  · rfl

/-- The name of a new entry is stored as UTF-8. -/
theorem fromUTF8?_ofName {text : String} (h : text.utf8ByteSize ≤ maxPathBytes) (kind : EntryKind) :
    String.fromUTF8? ⟨(ofName text kind).nameBytes.toArray⟩ = some (Text.untilNul text) := by
  rw [nameBytes_ofName h, Array.toArray_toList]
  exact Text.fromUTF8?_toByteArray _

/-- **The name of a new entry is its path up to the first NUL.** -/
theorem name_ofName {text : String} (h : text.utf8ByteSize ≤ maxPathBytes) (kind : EntryKind) :
    (ofName text kind).name = Text.untilNul text := by
  rw [name, fromUTF8?_ofName h]
  rfl

theorem isEmpty_ofName (text : String) {kind : EntryKind} (hk : kind ≠ .empty) : (ofName text kind).isEmpty = false :=
  decide_eq_false hk

/-- **No name holds a NUL.** -/
theorem nul_not_mem_name (e : Entry) : '\x00' ∉ e.name.toList := by
  intro hmem
  unfold name at hmem
  cases h : String.fromUTF8? ⟨e.nameBytes.toArray⟩ with
  | none => simp [h] at hmem
  | some text =>
    rw [h, Option.getD_some] at hmem
    have hbytes : text.toUTF8.data.toList = e.nameBytes :=
      congrArg (fun b => b.data.toList) (Text.toByteArray_of_fromUTF8? h)
    have hzero : (0 : UInt8) ∈ e.nameBytes := by
      rw [← hbytes, Text.toList_toUTF8, List.mem_flatMap]
      exact ⟨'\x00', hmem, by simp [Text.utf8EncodeChar_nul]⟩
    simpa using List.mem_takeWhile_imp hzero

end Entry

/-! ## Canonical paths -/

namespace Path

/-- Canonical paths gain and lose slashes only. -/
theorem mem_canonicalChars {c : Char} (hc : c ≠ '/') (cs : List Char) : c ∈ canonicalChars cs ↔ c ∈ cs := by
  have hbody : c ∈ dropEndSlashes cs ↔ c ∈ cs := by
    have hreverse : c ∈ cs.reverse ↔ c ∈ cs := List.mem_reverse
    rw [dropEndSlashes, List.mem_reverse, ← hreverse]
    constructor
    · exact fun h => (List.dropWhile_sublist _).subset h
    · intro h
      rw [← List.takeWhile_append_dropWhile (p := fun c => decide (c = '/')) (l := cs.reverse),
        List.mem_append] at h
      apply h.resolve_left
      intro hslash
      exact hc (by simpa using List.mem_takeWhile_imp hslash)
  unfold canonicalChars
  dsimp only
  split
  · exact hbody
  · rw [List.mem_cons, hbody]
    exact or_iff_right hc

theorem text_of_ofString? {path : String} {p : Path} (h : ofString? path = some p) :
    p.text = canonicalize path := by
  unfold ofString? at h
  split at h
  · cases h
    rfl
  · cases h

theorem nul_mem_text {path : String} {p : Path} (h : ofString? path = some p) :
    '\x00' ∈ p.text.toList ↔ '\x00' ∈ path.toList := by
  rw [text_of_ofString? h, canonicalize, String.toList_ofList, mem_canonicalChars (by decide)]

/-- A path begins with a slash. -/
theorem head?_text (p : Path) : p.text.toList.head? = some '/' := by
  rw [← p.canonical, canonicalize, String.toList_ofList, canonicalChars]
  split
  · assumption
  · rfl

/-- What is stored of a path begins with a slash too. -/
theorem isAbsolute_untilNul (p : Path) : isAbsolute (Text.untilNul p.text) = true := by
  have hhead := p.head?_text
  rw [isAbsolute, Text.untilNul, String.toList_ofList, List.head?_takeWhile, hhead]
  decide

end Path

end BlockVolume
