/-!
# `BlockVolume.Text.Lossy` — reading bytes that may not be UTF-8

Every byte sequence has a text: each longest run of bytes that begins a UTF-8 character and cannot
be completed, and each byte that begins none, is read as one U+FFFD.

## Contents
- `Pending`: what is known of a character whose last byte has not come yet.
- `first` and `step`: what one byte adds to the text, between characters and in general.
- `decode`: the text of a byte sequence.
-/

namespace BlockVolume.Text.Lossy

/-- A character that lacks `missing` more bytes, the next of which lies in `low` to `high`. -/
structure Pending where
  missing : Nat
  low : Nat
  high : Nat
  /-- The bits of the code point read so far. -/
  bits : Nat
  deriving DecidableEq

/-- The character that stands for what cannot be read. -/
def replacement : Char := '\uFFFD'

/-- What the byte `b` adds between characters: the characters it completes, and the one it opens. -/
def first (b : Nat) : List Char × Option Pending :=
  if b < 0x80 then ([Char.ofNat b], none)
  else if b < 0xC2 then ([replacement], none)
  else if b < 0xE0 then ([], some ⟨1, 0x80, 0xBF, b - 0xC0⟩)
  else if b = 0xE0 then ([], some ⟨2, 0xA0, 0xBF, 0⟩)
  else if b = 0xED then ([], some ⟨2, 0x80, 0x9F, 0xD⟩)
  else if b < 0xF0 then ([], some ⟨2, 0x80, 0xBF, b - 0xE0⟩)
  else if b = 0xF0 then ([], some ⟨3, 0x90, 0xBF, 0⟩)
  else if b < 0xF4 then ([], some ⟨3, 0x80, 0xBF, b - 0xF0⟩)
  else if b = 0xF4 then ([], some ⟨3, 0x80, 0x8F, 4⟩)
  else ([replacement], none)

/-- What the byte `b` adds after `pending`. A byte that cannot continue an open character ends it
unread and begins anew. -/
def step (pending : Option Pending) (b : Nat) : List Char × Option Pending :=
  match pending with
  | none => first b
  | some p =>
    if p.low ≤ b ∧ b ≤ p.high then
      let bits := p.bits * 64 + (b - 0x80)
      if p.missing ≤ 1 then ([Char.ofNat bits], none)
      else ([], some ⟨p.missing - 1, 0x80, 0xBF, bits⟩)
    else
      let (chars, next) := first b
      (replacement :: chars, next)

/-- Reads one byte more: the text so far and the character that is open. -/
def absorb (state : String × Option Pending) (b : UInt8) : String × Option Pending :=
  let (chars, pending) := step state.2 b.toNat
  (chars.foldl String.push state.1, pending)

/-- The text of `bytes`, with U+FFFD for what is not UTF-8. -/
def decode (bytes : List UInt8) : String :=
  match bytes.foldl absorb ("", none) with
  | (text, none) => text
  | (text, some _) => text.push replacement

end BlockVolume.Text.Lossy
