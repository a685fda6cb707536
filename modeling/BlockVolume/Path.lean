import BlockVolume.Geometry

/-!
# `BlockVolume.Path` — paths over a flat namespace

An entry is stored under its whole path, and there is no other hierarchy: `/a/b` is a child of `/a`
because its text is that of `/a` with one more segment.

## Contents
- `canonicalize`: every text names one path in canonical form, which begins with a slash and ends
  with one only as the root; `canonicalize_canonicalize` says that it is a normal form.
- `Path`: a canonical path short enough to be stored, and `Path.ofString?`.
- `parentOf`, `basename` and `isDirectChild`: the hierarchy that texts spell.
-/

namespace BlockVolume

namespace Path

/-! ## Canonical form -/

/-- `cs` without the slashes that end it. -/
def dropEndSlashes (cs : List Char) : List Char :=
  (cs.reverse.dropWhile (· = '/')).reverse

/-- `cs` without the slashes that begin it. -/
def dropStartSlashes (cs : List Char) : List Char :=
  cs.dropWhile (· = '/')

/-- Whether a text begins with a slash. -/
def isAbsolute (text : String) : Bool :=
  text.toList.head? = some '/'

/-- The canonical form, as characters: no slash at the end, one at the beginning. -/
def canonicalChars (cs : List Char) : List Char :=
  let body := dropEndSlashes cs
  if body.head? = some '/' then body else '/' :: body

/-- The canonical form of a path. The empty text and slashes alone are the root. -/
def canonicalize (text : String) : String :=
  String.ofList (canonicalChars text.toList)

theorem dropWhile_dropWhile {α : Type} (p : α → Bool) (l : List α) :
    (l.dropWhile p).dropWhile p = l.dropWhile p := by
  induction l with
  | nil => rfl
  | cons a l ih => by_cases h : p a = true <;> simp [h, ih]

/-- What is left after the slashes at the end are dropped ends with none. -/
theorem dropEndSlashes_dropEndSlashes (cs : List Char) :
    dropEndSlashes (dropEndSlashes cs) = dropEndSlashes cs := by
  simp [dropEndSlashes, dropWhile_dropWhile]

/-- A slash in front of a text that does not end with one stays. -/
theorem dropEndSlashes_slash_cons {cs : List Char} (hne : cs ≠ []) (h : dropEndSlashes cs = cs) :
    dropEndSlashes ('/' :: cs) = '/' :: cs := by
  unfold dropEndSlashes at h ⊢
  rw [List.reverse_cons]
  have hd : cs.reverse.dropWhile (· = '/') = cs.reverse := by
    have := congrArg List.reverse h
    simpa using this
  cases hr : cs.reverse with
  | nil => exact absurd (List.reverse_eq_nil_iff.mp hr) hne
  | cons c rest =>
    have hc : decide (c = '/') = false := by
      cases hcc : decide (c = '/') with
      | false => rfl
      | true =>
        rw [hr, List.dropWhile_cons, hcc] at hd
        have := congrArg List.length hd
        have hle := (List.dropWhile_suffix (fun c => decide (c = '/')) (l := rest)).length_le
        simp at this
        omega
    rw [List.cons_append, List.dropWhile_cons, hc]
    simp only [Bool.false_eq_true, ↓reduceIte]
    rw [← List.cons_append, ← hr]
    simp

/-- The canonical form of a canonical form is itself. -/
theorem canonicalChars_canonicalChars (cs : List Char) :
    canonicalChars (canonicalChars cs) = canonicalChars cs := by
  by_cases hh : (dropEndSlashes cs).head? = some '/'
  · have h : canonicalChars cs = dropEndSlashes cs := by simp [canonicalChars, hh]
    rw [h]
    simp [canonicalChars, dropEndSlashes_dropEndSlashes, hh]
  · have h : canonicalChars cs = '/' :: dropEndSlashes cs := by simp [canonicalChars, hh]
    rw [h]
    by_cases hne : dropEndSlashes cs = []
    · rw [hne]
      decide
    · simp [canonicalChars, dropEndSlashes_slash_cons hne (dropEndSlashes_dropEndSlashes cs)]

/-- The canonical form of a canonical form is itself. -/
theorem canonicalize_canonicalize (text : String) : canonicalize (canonicalize text) = canonicalize text := by
  simp [canonicalize, canonicalChars_canonicalChars]

end Path

/-- A canonical path that fits a name field. -/
structure Path where
  text : String
  canonical : Path.canonicalize text = text
  short : text.utf8ByteSize ≤ maxPathBytes
  deriving DecidableEq

namespace Path

/-- The path that a text names, unless it is too long to be stored. -/
def ofString? (text : String) : Option Path :=
  if h : (canonicalize text).utf8ByteSize ≤ maxPathBytes then
    some ⟨canonicalize text, canonicalize_canonicalize text, h⟩
  else none

/-- Whether the path is the root. -/
def isRoot (p : Path) : Bool :=
  p.text = "/"

/-- The printed form of a path as a quoted text, if every character of it is a printable ASCII one. -/
def quoted? (p : Path) : Option String :=
  if p.text.toList.all fun c => 0x20 ≤ c.toNat && c.toNat ≤ 0x7E then
    some (String.ofList
      ('"' :: (p.text.toList.flatMap fun c => if c = '"' ∨ c = '\\' then ['\\', c] else [c]) ++ ['"']))
  else none

/-! ## Hierarchy -/

/-- The text before the last slash. A text without one, or with one at its beginning only, has the
root as its parent. -/
def parentOf (text : String) : String :=
  match (text.toList.reverse.dropWhile (· ≠ '/')).tail with
  | [] => "/"
  | before => String.ofList before.reverse

/-- The text after the last slash. -/
def basename (text : String) : String :=
  String.ofList (text.toList.reverse.takeWhile (· ≠ '/')).reverse

/-- Whether `candidate` lies one segment below `dir`. Slashes at the beginning of either do not
matter, so that names without one resolve alike. -/
def isDirectChild (dir candidate : String) : Bool :=
  let base := dropStartSlashes dir.toList
  let name := dropStartSlashes candidate.toList
  let stem := if base.isEmpty then [] else base ++ ['/']
  let segment := name.drop stem.length
  stem.isPrefixOf name && !segment.isEmpty && !segment.contains '/'

end Path

end BlockVolume
