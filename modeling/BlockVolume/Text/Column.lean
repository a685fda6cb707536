/-!
# `BlockVolume.Text.Column` — fixed columns and hexadecimal

Texts set to a least width, counted in characters, and numbers in base sixteen.

## Contents
- `alignRight` and `alignLeft`: the fill goes before, or after, the text; a longer text is kept whole.
- `hex`: lower-case digits, at least as many as asked for.
-/

namespace BlockVolume.Text

/-- `s` at the right end of a column of `width` characters. -/
def alignRight (width : Nat) (fill : Char) (s : String) : String :=
  String.ofList (List.replicate (width - s.length) fill ++ s.toList)

/-- `s` at the left end of a column of `width` characters. -/
def alignLeft (width : Nat) (fill : Char) (s : String) : String :=
  String.ofList (s.toList ++ List.replicate (width - s.length) fill)

/-- `n` in lower-case hexadecimal with at least `digits` digits. -/
def hex (digits n : Nat) : String :=
  alignRight digits '0' (String.ofList (Nat.toDigits 16 n))

end BlockVolume.Text
