import BlockVolume.Path.Packed
import BlockVolume.Proofs.Namespace.NameBytes
import BlockVolume.Volume.Basic

/-!
# `Proofs.Namespace.Canonical` — canonical paths, in buffers and in entries

A text names the path that is left of it when the slashes at its end are dropped and one is put in front if there is
none. A path that is held in a buffer is never built as a text: its bytes are laid down behind a slash that is there
already, and are decoded when the text is wanted. Here it is shown that nothing else than the canonical form is decoded
then, and that the same holds of the name field of an entry on the device.

## Contents
- **`canonicalize_eq_absolute_trimmed`**: the canonical form by way of `trimmed`, with `exists_slashes`,
  `trimmed_append_slashes` and `getLast?_trimmed`.
- `Packed.ofText`: a text in a buffer, with **`Packed.fromUTF8?_ofText`**; **`Packed.ofString_eq`**: the path that a text
  names is its canonical form in a buffer.
- `Packed.name_ofName` and `Packed.answers_ofName`: the entry that is made with such a path.
- **`canonical_form_kept`**: which form it is, and that buffers and entries hold it.
-/

namespace BlockVolume.Path

/-! ## Canonical form -/

/-- `n` slashes. -/
def slashes (n : Nat) : String := String.ofList (List.replicate n '/')

/-- Slashes are all that a text loses at its end. -/
theorem exists_slashes (path : String) : ∃ n, path = trimmed path ++ slashes n := by
  have hall : ∀ c ∈ path.toList.reverse.takeWhile (· = '/'), c = '/' := fun c hc => by
    simpa using List.mem_takeWhile_imp hc
  refine ⟨(path.toList.reverse.takeWhile (· = '/')).length, String.toList_inj.mp ?_⟩
  rw [String.toList_append, trimmed, slashes, String.toList_ofList, String.toList_ofList, dropEndSlashes,
    ← List.reverse_inj, List.reverse_append, List.reverse_reverse, List.reverse_replicate,
    ← List.eq_replicate_of_mem hall, List.takeWhile_append_dropWhile]

/-- Slashes at the end do not count. -/
theorem trimmed_append_slashes (path : String) (n : Nat) : trimmed (path ++ slashes n) = trimmed path := by
  have hall : ∀ c ∈ List.replicate n '/', decide (c = '/') = true := fun c hc =>
    decide_eq_true (List.eq_of_mem_replicate hc)
  rw [trimmed, trimmed, String.toList_append, slashes, String.toList_ofList, dropEndSlashes, List.reverse_append,
    List.reverse_replicate, List.dropWhile_append_of_pos hall, dropEndSlashes]

theorem getLast?_trimmed (path : String) : (trimmed path).toList.getLast? ≠ some '/' := by
  rw [trimmed, String.toList_ofList]
  exact getLast?_dropEndSlashes _

/-- **The canonical form is the text without the slashes at its end, with one in front.** -/
theorem canonicalize_eq_absolute_trimmed (path : String) : canonicalize path = absolute (trimmed path) := by
  have htrimmed : canonicalize (trimmed path) = canonicalize path := by
    rw [canonicalize, canonicalize, trimmed, String.toList_ofList, canonicalChars, dropEndSlashes_dropEndSlashes]
    rfl
  rw [← htrimmed]
  exact canonicalize_eq_absolute (getLast?_trimmed path)

theorem canonicalize_append_slashes (path : String) (n : Nat) :
    canonicalize (path ++ slashes n) = canonicalize path := by
  rw [canonicalize_eq_absolute_trimmed, canonicalize_eq_absolute_trimmed, trimmed_append_slashes]

/-- The canonical form takes a single byte only if it is the root. -/
theorem utf8ByteSize_canonicalize {path : String} (h : (canonicalize path).utf8ByteSize ≤ maxPathBytes) :
    (canonicalize path).utf8ByteSize = 1 ↔ canonicalize path = "/" := by
  constructor
  · intro hone
    by_contra hne
    have htwo : 2 ≤ (canonicalize path).utf8ByteSize :=
      two_le_utf8ByteSize (p := ⟨canonicalize path, canonicalize_canonicalize path, h⟩) (decide_eq_false hne)
    omega
  · intro hroot
    rw [hroot]
    decide

/-! ## Buffers -/

namespace Packed

/-- A text laid down at the beginning of a buffer. -/
def ofText (text : String) : Packed := ⟨laid 0 (Text.bytes text), text.utf8ByteSize⟩

@[simp] theorem size_ofText (text : String) : (ofText text).size = text.utf8ByteSize := rfl

/-- The slash of the buffer counts where nothing is laid over it. -/
theorem laid_one (data : List UInt8) : laid 1 data = laid 0 (Text.slashByte :: data) := by
  apply Vector.ext
  intro i hi
  simp only [laid, Vector.getElem_ofFn, List.length_cons]
  cases i with
  | zero => simp [slashed, Text.slashByte]
  | succ i =>
    have hcovered : (1 ≤ i + 1 ∧ i + 1 < 1 + data.length) ↔ (0 ≤ i + 1 ∧ i + 1 < 0 + (data.length + 1)) := by omega
    simp only [hcovered]
    rfl

/-- Bytes that fit are there as they were laid down. -/
theorem take_laid {data : List UInt8} (h : data.length ≤ maxPathBytes) :
    (laid 0 data).toList.take data.length = data := by
  apply List.ext_getElem
  · rw [List.length_take, Vector.length_toList]
    exact Nat.min_eq_left h
  · intro i hi hi'
    have hcovered : 0 ≤ i ∧ i < 0 + data.length := ⟨Nat.zero_le i, by rwa [Nat.zero_add]⟩
    simp only [List.getElem_take, Vector.getElem_toList, laid, Vector.getElem_ofFn, if_pos hcovered, Nat.sub_zero,
      List.getElem?_eq_getElem hi', Option.getD_some]

/-- **A text that fits into a buffer is decoded from it.** -/
theorem fromUTF8?_ofText {text : String} (h : text.utf8ByteSize ≤ maxPathBytes) :
    String.fromUTF8? ⟨(ofText text).bytes.toArray⟩ = some text := by
  have hbytes : (ofText text).bytes = Text.bytes text := take_laid h
  rw [hbytes, Text.bytes, Array.toArray_toList]
  exact Text.fromUTF8?_toByteArray text

theorem text_ofText {text : String} (h : text.utf8ByteSize ≤ maxPathBytes) : (ofText text).text = text := by
  rw [Packed.text, fromUTF8?_ofText h]
  rfl

/-- **The path that a text names is its canonical form in a buffer**, unless it is too long for one. -/
theorem ofString_eq (path : String) : ofString path =
    if (canonicalize path).utf8ByteSize ≤ maxPathBytes then .ok (ofText (canonicalize path))
    else .error .pathTooLong := by
  rw [canonicalize_eq_absolute_trimmed]
  unfold ofString
  generalize trimmed path = body
  by_cases hempty : body = ""
  · subst hempty
    decide
  -- the slash that is missing in front is that of the buffer
  have hlaid : (⟨laid (if isAbsolute body then 0 else 1) body.toUTF8.data.toList,
      body.utf8ByteSize + if isAbsolute body then 0 else 1⟩ : Packed) = ofText (absolute body) := by
    cases habsolute : isAbsolute body with
    | true =>
      rw [absolute_of_isAbsolute habsolute]
      rfl
    | false =>
      rw [absolute_of_not_isAbsolute habsolute, ofText, Text.bytes_slash_append, ← laid_one,
        String.utf8ByteSize_append, Nat.add_comm]
      rfl
  have hsize : body.utf8ByteSize + (if isAbsolute body then 0 else 1) = (absolute body).utf8ByteSize :=
    congrArg Packed.size hlaid
  dsimp only
  rw [if_neg hempty, hlaid, hsize]
  by_cases hfits : (absolute body).utf8ByteSize ≤ maxPathBytes
  · rw [if_neg (Nat.not_lt.mpr hfits), if_pos hfits]
  · rw [if_pos (Nat.lt_of_not_le hfits), if_neg hfits]

variable {path : String} {p : Packed}

/-- The canonical form decides. -/
theorem ofString_congr {other : String} (h : canonicalize other = canonicalize path) :
    ofString other = ofString path := by
  rw [ofString_eq, ofString_eq, h]

theorem ofString_eq_ok : ofString path = .ok p ↔
    (canonicalize path).utf8ByteSize ≤ maxPathBytes ∧ p = ofText (canonicalize path) := by
  rw [ofString_eq]
  by_cases hfits : (canonicalize path).utf8ByteSize ≤ maxPathBytes
  · rw [if_pos hfits, Except.ok.injEq, and_iff_right hfits]
    exact eq_comm
  · rw [if_neg hfits]
    exact iff_of_false (fun h => by cases h) fun h => hfits h.1

theorem ofString_eq_error :
    ofString path = .error .pathTooLong ↔ maxPathBytes < (canonicalize path).utf8ByteSize := by
  rw [ofString_eq]
  by_cases hfits : (canonicalize path).utf8ByteSize ≤ maxPathBytes
  · rw [if_pos hfits]
    exact iff_of_false (fun h => by cases h) (Nat.not_lt.mpr hfits)
  · rw [if_neg hfits]
    exact iff_of_true rfl (Nat.lt_of_not_le hfits)

theorem text_of_ofString (h : ofString path = .ok p) : p.text = canonicalize path := by
  obtain ⟨hfits, rfl⟩ := ofString_eq_ok.mp h
  exact text_ofText hfits

theorem isRoot_of_ofString (h : ofString path = .ok p) : p.isRoot = true ↔ canonicalize path = "/" := by
  obtain ⟨hfits, rfl⟩ := ofString_eq_ok.mp h
  rw [isRoot, decide_eq_true_iff, size_ofText]
  exact utf8ByteSize_canonicalize hfits

/-- Paths are the same just if their canonical forms are. -/
theorem eq_iff_of_ofString {other : String} {q : Packed} (hp : ofString path = .ok p) (hq : ofString other = .ok q) :
    p = q ↔ canonicalize path = canonicalize other := by
  constructor
  · intro heq
    rw [← text_of_ofString hp, ← text_of_ofString hq, heq]
  · intro heq
    rw [(ofString_eq_ok.mp hp).2, (ofString_eq_ok.mp hq).2, heq]

/-- Volumes resolve paths in the same way. -/
theorem resolve_eq (path : String) : (Volume.resolve path).map (fun p => (p.text, p.isRoot)) =
    (ofString path).map fun p => (p.text, p.isRoot) := by
  unfold Volume.resolve Path.ofString?
  by_cases hfits : (canonicalize path).utf8ByteSize ≤ maxPathBytes
  · have hp : ofString path = .ok (ofText (canonicalize path)) := ofString_eq_ok.mpr ⟨hfits, rfl⟩
    have hroot : decide (canonicalize path = "/") = (ofText (canonicalize path)).isRoot :=
      Bool.eq_iff_iff.mpr (decide_eq_true_iff.trans (isRoot_of_ofString hp).symm)
    rw [dif_pos hfits, hp, Except.map, Except.map, text_of_ofString hp, ← hroot]
    rfl
  · rw [dif_neg hfits, ofString_eq, if_neg hfits]
    rfl

/-! ## Entries -/

theorem nul_not_mem_text (h : ofString path = .ok p) (hnul : '\x00' ∉ path.toList) : '\x00' ∉ p.text.toList := by
  rwa [text_of_ofString h, canonicalize, String.toList_ofList, mem_canonicalChars (by decide)]

theorem utf8ByteSize_text (h : ofString path = .ok p) : p.text.utf8ByteSize ≤ maxPathBytes := by
  rw [text_of_ofString h]
  exact (ofString_eq_ok.mp h).1

/-- A path without a NUL is the name of an entry that is made with it. -/
theorem name_ofName (h : ofString path = .ok p) (hnul : '\x00' ∉ path.toList) (kind : EntryKind) :
    (Entry.ofName p.text kind).name = canonicalize path := by
  rw [Entry.name_ofName (utf8ByteSize_text h), Text.untilNul_eq_self (nul_not_mem_text h hnul), text_of_ofString h]

/-- And the entry answers to it. -/
theorem answers_ofName (h : ofString path = .ok p) (hnul : '\x00' ∉ path.toList) {kind : EntryKind}
    (hkind : kind ≠ .empty) : Directory.answers (Entry.ofName p.text kind) p.text = true :=
  Directory.answers_ofName (utf8ByteSize_text h) (nul_not_mem_text h hnul) hkind

end Packed

/-! ## What is kept -/

/-- **Every text names one path in canonical form, and buffers and entries hold this form unchanged.** The form has no
slash at its end and one in front. If it is too long the text names no path, and otherwise the path decodes to it from a
buffer; the form names the path again, slashes at the end of a text do not count, and paths are the same just if their
forms are. Volumes resolve texts to the same paths. A path without a NUL is the name of an entry that was written with it
and read again, and where there is no other entry this one is found under every text with the form. -/
theorem canonical_form_kept (path : String) :
    (∃ t n, path = t ++ slashes n ∧ t.toList.getLast? ≠ some '/' ∧
      canonicalize path = if t = "" then "/" else if isAbsolute t then t else "/" ++ t) ∧
    (Packed.ofString path = .error .pathTooLong ↔ maxPathBytes < (canonicalize path).utf8ByteSize) ∧
    ((canonicalize path).utf8ByteSize ≤ maxPathBytes → ∃ p, Packed.ofString path = .ok p ∧
      String.fromUTF8? ⟨p.bytes.toArray⟩ = some (canonicalize path) ∧ p.text = canonicalize path ∧
      (p.isRoot = true ↔ canonicalize path = "/") ∧ Packed.ofString (canonicalize path) = .ok p) ∧
    (∀ n, Packed.ofString (path ++ slashes n) = Packed.ofString path) ∧
    (∀ other p q, Packed.ofString path = .ok p → Packed.ofString other = .ok q →
      (p = q ↔ canonicalize path = canonicalize other)) ∧
    (Volume.resolve path).map (fun p => (p.text, p.isRoot)) = (Packed.ofString path).map (fun p => (p.text, p.isRoot)) ∧
    ∀ p, Packed.ofString path = .ok p → '\x00' ∉ path.toList → ∀ (kind : EntryKind) (block : Block) (offset : Nat),
      offset + entrySize ≤ blockSize →
      let e := Entry.ofBlock (block.overlay offset (Entry.ofName p.text kind).toList) offset
      e.name = canonicalize path ∧
        (kind ≠ .empty → ∀ (d : Directory) (slot : Slot), d.get slot = e →
          (∀ i, i ≠ slot → (d.get i).isEmpty = true) → ∀ other, canonicalize other = canonicalize path →
          ∃ q, Packed.ofString other = .ok q ∧ d.find? q.text = some slot) := by
  refine ⟨?_, Packed.ofString_eq_error, ?_, ?_, ?_, Packed.resolve_eq path, ?_⟩
  · obtain ⟨n, hn⟩ := exists_slashes path
    refine ⟨trimmed path, n, hn, getLast?_trimmed path, ?_⟩
    rw [canonicalize_eq_absolute_trimmed]
    by_cases hempty : trimmed path = ""
    · rw [if_pos hempty, hempty]
      decide
    · rw [if_neg hempty, absolute]
  · intro hfits
    have hp : Packed.ofString path = .ok (Packed.ofText (canonicalize path)) := Packed.ofString_eq_ok.mpr ⟨hfits, rfl⟩
    have hagain := Packed.ofString_congr (canonicalize_canonicalize path)
    exact ⟨_, hp, Packed.fromUTF8?_ofText hfits, Packed.text_of_ofString hp, Packed.isRoot_of_ofString hp,
      hagain.trans hp⟩
  · exact fun n => Packed.ofString_congr (canonicalize_append_slashes path n)
  · exact fun other p q hp hq => Packed.eq_iff_of_ofString hp hq
  · intro p hp hnul kind block offset hoffset e
    have he : e = Entry.ofName p.text kind := Entry.ofBlock_overlay block _ hoffset
    rw [he]
    refine ⟨Packed.name_ofName hp hnul kind, fun hkind d slot hslot hothers other hother => ?_⟩
    refine ⟨p, (Packed.ofString_congr hother).trans hp, Directory.find?_of_only hothers ?_⟩
    rw [hslot]
    exact Packed.answers_ofName hp hnul hkind

-- fifteen letters of two bytes fill a path behind the slash, and one byte more is too many
example : (Packed.ofString "äääääääääääääää//").map Packed.text = .ok "/äääääääääääääää" ∧
    Packed.ofString "äääääääääääääääb" = .error .pathTooLong := by
  decide

end BlockVolume.Path
