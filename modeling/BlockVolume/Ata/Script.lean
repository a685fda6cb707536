import BlockVolume.Ata.Ports

/-!
# `BlockVolume.Ata.Script` — ports that follow a script

A controller whose answers are fixed beforehand and do not depend on what is written to it. The
status register goes through a list of values and then stays at one; the data port goes through a
list of words.

## Contents
- `Script`: the answers still to be given.
- `nextStatus`: the next value of the status register.
-/

namespace BlockVolume.Ata

/-- The answers of a channel that are still to be given. -/
structure Script where
  channel : Channel
  /-- Values of the status register, each with the number of times that it is read. -/
  status : List (UInt8 × Nat)
  /-- The status after that. -/
  idle : UInt8
  /-- The error register. -/
  error : UInt8
  /-- The alternate status. -/
  alternate : UInt8
  /-- Words from the data port; zeros follow. -/
  words : List UInt16

namespace Script

/-- The next value of the status register, and the values after it. -/
def nextStatus (idle : UInt8) : List (UInt8 × Nat) → UInt8 × List (UInt8 × Nat)
  | [] => (idle, [])
  | (_, 0) :: rest => nextStatus idle rest
  | (value, n + 1) :: rest => (value, (value, n) :: rest)

instance : Ports Script where
  readByte port s :=
    if port = s.channel.commandBase + Register.status then
      let (value, rest) := nextStatus s.idle s.status
      (value, { s with status := rest })
    else if port = s.channel.commandBase + Register.error then (s.error, s)
    else if port = s.channel.controlBase then (s.alternate, s)
    else (0, s)
  writeByte _ _ s := s
  readWord _ s :=
    match s.words with
    | [] => (0, s)
    | word :: rest => (word, { s with words := rest })
  writeWord _ _ s := s

end Script

end BlockVolume.Ata
