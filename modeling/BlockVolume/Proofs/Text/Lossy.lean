import BlockVolume.Proofs.Namespace.Name
import BlockVolume.Text.Lossy

/-!
# `Proofs.Text.Lossy` — UTF-8 is read as the text that it encodes

Reading is done byte by byte, and every byte either opens a character, continues the one that is open, or completes
it. The bytes that may follow the first one are bounded just so that every character passes.

## Contents
- `step_two`, `step_three`, `step_four`: a character is opened; `step_continued` and `step_last`.
- `absorb_utf8EncodeChar`: the bytes of a character; **`decode_toUTF8`**: those of a text.
-/

namespace BlockVolume.Text.Lossy

variable {p : Pending} {n v : Nat}

/-! ## Bytes -/

/-- A character of two bytes is opened. -/
theorem step_two (h : 2 ≤ n) (h' : n < 0x20) : step none (n + 0xC0) = ([], some ⟨1, 0x80, 0xBF, n⟩) := by
  show first (n + 0xC0) = _
  rw [first, if_neg (by omega), if_neg (by omega), if_pos (by omega), Nat.add_sub_cancel]

/-- One of three bytes is opened. The next byte must make it neither too small nor a surrogate. -/
theorem step_three : ∀ {n : Nat}, n < 0x10 → step none (n + 0xE0) =
    ([], some ⟨2, if n = 0 then 0xA0 else 0x80, if n = 0xD then 0x9F else 0xBF, n⟩) := by
  decide

/-- One of four bytes is opened. The next byte must make it neither too small nor too large. -/
theorem step_four : ∀ {n : Nat}, n < 5 → step none (n + 0xF0) =
    ([], some ⟨3, if n = 0 then 0x90 else 0x80, if n = 4 then 0x8F else 0xBF, n⟩) := by
  decide

/-- An open character is continued by six bits. -/
theorem step_continued (hlow : p.low ≤ n + 0x80) (hhigh : n + 0x80 ≤ p.high) (hmissing : 1 < p.missing) :
    step (some p) (n + 0x80) = ([], some ⟨p.missing - 1, 0x80, 0xBF, p.bits * 64 + n⟩) := by
  simp only [step, if_pos (And.intro hlow hhigh), if_neg (Nat.not_le.mpr hmissing), Nat.add_sub_cancel]

/-- And it is completed by six bits. Nothing else is asked of its last byte. -/
theorem step_last (h : n < 64) (bits : Nat) :
    step (some ⟨1, 0x80, 0xBF, bits⟩) (n + 0x80) = ([Char.ofNat (bits * 64 + n)], none) := by
  have hrange : 0x80 ≤ n + 0x80 ∧ n + 0x80 ≤ 0xBF := by omega
  simp only [step, if_pos hrange, Nat.le_refl, if_true, Nat.add_sub_cancel]

theorem absorb_eq (text : String) (pending : Option Pending) (b : UInt8) : absorb (text, pending) b =
    ((step pending b.toNat).1.foldl String.push text, (step pending b.toNat).2) := rfl

/-! ## Characters -/

/-- Two bytes make a character. -/
theorem absorb_two (text : String) (h : 0x7F < v) (h' : v ≤ 0x7FF) :
    [UInt8.ofNat (v / 64 % 32 + 192), UInt8.ofNat (v % 64 + 128)].foldl absorb (text, none) =
      (text.push (Char.ofNat v), none) := by
  have hlead : (v / 64 % 32 + 192) % 2 ^ 8 = v / 64 + 0xC0 := by omega
  have hlast : (v % 64 + 128) % 2 ^ 8 = v % 64 + 0x80 := by omega
  have hbits : v / 64 * 64 + v % 64 = v := by omega
  have hopened := step_two (n := v / 64) (by omega) (by omega)
  have hdone := step_last (n := v % 64) (by omega) (v / 64)
  rw [hbits] at hdone
  simp only [List.foldl_cons, List.foldl_nil, absorb_eq, UInt8.toNat_ofNat', hlead, hlast, hopened, hdone]

/-- So do three, if it is no surrogate. -/
theorem absorb_three (text : String) (h : 0x7FF < v) (h' : v ≤ 0xFFFF) (hvalid : v < 0xD800 ∨ 0xDFFF < v) :
    [UInt8.ofNat (v / 4096 % 16 + 224), UInt8.ofNat (v / 64 % 64 + 128), UInt8.ofNat (v % 64 + 128)].foldl absorb
      (text, none) = (text.push (Char.ofNat v), none) := by
  have hlead : (v / 4096 % 16 + 224) % 2 ^ 8 = v / 4096 + 0xE0 := by omega
  have hmiddle : (v / 64 % 64 + 128) % 2 ^ 8 = v / 64 % 64 + 0x80 := by omega
  have hlast : (v % 64 + 128) % 2 ^ 8 = v % 64 + 0x80 := by omega
  have hbits : (v / 4096 * 64 + v / 64 % 64) * 64 + v % 64 = v := by omega
  have hopened := step_three (n := v / 4096) (by omega)
  have hcontinued := step_continued
    (p := ⟨2, if v / 4096 = 0 then 0xA0 else 0x80, if v / 4096 = 0xD then 0x9F else 0xBF, v / 4096⟩)
    (n := v / 64 % 64) (by dsimp only; split <;> omega) (by dsimp only; split <;> omega) (Nat.lt_succ_self 1)
  have hdone := step_last (n := v % 64) (by omega) (v / 4096 * 64 + v / 64 % 64)
  rw [hbits] at hdone
  simp only [List.foldl_cons, List.foldl_nil, absorb_eq, UInt8.toNat_ofNat', hlead, hmiddle, hlast, hopened,
    hcontinued, hdone]

/-- And four. -/
theorem absorb_four (text : String) (h : 0xFFFF < v) (hvalid : v < 0x110000) :
    [UInt8.ofNat (v / 262144 % 8 + 240), UInt8.ofNat (v / 4096 % 64 + 128), UInt8.ofNat (v / 64 % 64 + 128),
      UInt8.ofNat (v % 64 + 128)].foldl absorb (text, none) = (text.push (Char.ofNat v), none) := by
  have hlead : (v / 262144 % 8 + 240) % 2 ^ 8 = v / 262144 + 0xF0 := by omega
  have hsecond : (v / 4096 % 64 + 128) % 2 ^ 8 = v / 4096 % 64 + 0x80 := by omega
  have hthird : (v / 64 % 64 + 128) % 2 ^ 8 = v / 64 % 64 + 0x80 := by omega
  have hlast : (v % 64 + 128) % 2 ^ 8 = v % 64 + 0x80 := by omega
  have hbits : ((v / 262144 * 64 + v / 4096 % 64) * 64 + v / 64 % 64) * 64 + v % 64 = v := by omega
  have hopened := step_four (n := v / 262144) (by omega)
  have hcontinued := step_continued
    (p := ⟨3, if v / 262144 = 0 then 0x90 else 0x80, if v / 262144 = 4 then 0x8F else 0xBF, v / 262144⟩)
    (n := v / 4096 % 64) (by dsimp only; split <;> omega) (by dsimp only; split <;> omega) (by dsimp only; omega)
  have hagain := step_continued (p := ⟨2, 0x80, 0xBF, v / 262144 * 64 + v / 4096 % 64⟩) (n := v / 64 % 64)
    (Nat.le_add_left _ _) (by dsimp only; omega) (Nat.lt_succ_self 1)
  have hdone := step_last (n := v % 64) (by omega) ((v / 262144 * 64 + v / 4096 % 64) * 64 + v / 64 % 64)
  rw [hbits] at hdone
  simp only [List.foldl_cons, List.foldl_nil, absorb_eq, UInt8.toNat_ofNat', hlead, hsecond, hthird, hlast, hopened,
    hcontinued, hagain, hdone]

/-- The encoding of a character is read as this character. -/
theorem absorb_utf8EncodeChar (text : String) (c : Char) :
    (String.utf8EncodeChar c).foldl absorb (text, none) = (text.push c, none) := by
  have hvalid : c.val.toNat < 0xD800 ∨ 0xDFFF < c.val.toNat ∧ c.val.toNat < 0x110000 := c.valid
  have hchar : Char.ofNat c.val.toNat = c := Char.ofNat_toNat c
  unfold String.utf8EncodeChar
  generalize c.val.toNat = v at hvalid hchar
  subst hchar
  dsimp only
  split
  case isTrue hone =>
    have hbyte : v % 2 ^ 8 = v := by omega
    have hfirst : step none v = ([Char.ofNat v], none) := if_pos (by omega)
    simp only [List.foldl_cons, List.foldl_nil, absorb_eq, UInt8.toNat_ofNat', hbyte, hfirst]
  split
  case isTrue htwo => exact absorb_two text (by omega) htwo
  split
  case isTrue hthree => exact absorb_three text (by omega) hthree (by omega)
  case isFalse hfour => exact absorb_four text (by omega) (by omega)

/-! ## Texts -/

theorem absorb_flatMap_utf8EncodeChar (text : String) (cs : List Char) :
    (cs.flatMap String.utf8EncodeChar).foldl absorb (text, none) = (text ++ String.ofList cs, none) := by
  induction cs generalizing text with
  | nil => rw [List.flatMap_nil, List.foldl_nil, String.ofList_nil, String.append_empty]
  | cons c cs ih =>
    have happend : text.push c ++ String.ofList cs = text ++ String.ofList (c :: cs) := by
      simp [← String.toList_inj]
    rw [List.flatMap_cons, List.foldl_append, absorb_utf8EncodeChar, ih, happend]

/-- **The UTF-8 of a text is read as the text.** -/
theorem decode_toUTF8 (text : String) : decode text.toUTF8.data.toList = text := by
  rw [toList_toUTF8, decode, absorb_flatMap_utf8EncodeChar, String.ofList_toList, String.empty_append]

/-- A character that breaks off is one U+FFFD, whatever there is of it. Each byte of a surrogate is one, and so is a
byte that begins no character. -/
example : decode [0x68, 0xE2, 0x82, 0x69, 0xED, 0xA0, 0x80, 0xFF] = "h\uFFFDi\uFFFD\uFFFD\uFFFD\uFFFD" := by decide

end BlockVolume.Text.Lossy
