import BlockVolume.Error
import BlockVolume.Path

/-!
# `BlockVolume.Path.Packed` — paths in buffers

A path is short enough to be held in a buffer of fixed size, as the bytes of its text and their number. Such a path is
made of the bytes of a text that need not be a path, without building the text of the path in between, and its own text
is decoded from the buffer again.

## Contents
- `trimmed`: a text without the slashes that end it.
- `Packed`: a buffer and the number of bytes in it, with `Packed.bytes`, `Packed.text` and `Packed.isRoot`.
- `Packed.ofString`: the path that a text names, laid down in a buffer.
-/

namespace BlockVolume.Path

/-- `path` without the slashes that end it. -/
def trimmed (path : String) : String :=
  String.ofList (dropEndSlashes path.toList)

/-- A path as bytes. -/
structure Packed where
  buffer : Vector UInt8 maxPathBytes
  /-- How many bytes of the buffer are those of the path. -/
  size : Nat
  deriving DecidableEq

namespace Packed

/-- A buffer with a slash, and zeros behind it. -/
def slashed : Vector UInt8 maxPathBytes :=
  (Vector.replicate maxPathBytes 0).set 0 0x2F

/-- The root. -/
def root : Packed := ⟨slashed, 1⟩

/-- The bytes of the path. -/
def bytes (p : Packed) : List UInt8 :=
  p.buffer.toList.take p.size

/-- The text of the path. Bytes that are no UTF-8 read as the root. -/
def text (p : Packed) : String :=
  (String.fromUTF8? ⟨p.bytes.toArray⟩).getD "/"

/-- Whether the path is the root. -/
def isRoot (p : Packed) : Bool :=
  p.size = 1

/-- `data` laid over the buffer of the root from `start` on. -/
def laid (start : Nat) (data : List UInt8) : Vector UInt8 maxPathBytes :=
  Vector.ofFn fun i =>
    if start ≤ i.val ∧ i.val < start + data.length then data[i.val - start]?.getD 0 else slashed[i]

/-- The path that a text names, unless it is too long: the bytes of the text without the slashes that end it, behind a
slash if there is none in front. -/
def ofString (path : String) : Except Error Packed :=
  let body := trimmed path
  if body = "" then .ok root
  else
    let start := if isAbsolute body then 0 else 1
    let size := body.utf8ByteSize + start
    if maxPathBytes < size then .error .pathTooLong
    else .ok ⟨laid start body.toUTF8.data.toList, size⟩

end Packed

end BlockVolume.Path
