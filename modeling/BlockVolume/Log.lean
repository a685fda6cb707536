import BlockVolume.Text.Blank
import BlockVolume.Text.Column

/-!
# `BlockVolume.Log` — diagnostic records

Operations report what they do as records with a severity. A reader chooses a threshold and sees the
records at most as chatty as it.

## Contents
- `Level`: the five severities and their names.
- `Threshold`: what a reader wants to see; `Threshold.ofSetting` reads it from a setting.
- `Record`: a severity and a text; `Record.line` is its printed form.
-/

namespace BlockVolume.Log

/-- The severity of a record, the gravest first. -/
inductive Level where
  | error
  | warn
  | info
  | debug
  | trace
  deriving DecidableEq

namespace Level

/-- Every severity, the gravest first. -/
def all : List Level := [.error, .warn, .info, .debug, .trace]

/-- The higher, the chattier. -/
def rank : Level → Nat
  | .error => 1
  | .warn => 2
  | .info => 3
  | .debug => 4
  | .trace => 5

/-- The name under which a severity is printed and set. -/
def name : Level → String
  | .error => "ERROR"
  | .warn => "WARN"
  | .info => "INFO"
  | .debug => "DEBUG"
  | .trace => "TRACE"

end Level

/-- The chattiest severity that is shown, or `silent`. -/
inductive Threshold where
  | silent
  | upTo (level : Level)
  deriving DecidableEq

namespace Threshold

/-- The name under which a threshold is printed and set. -/
def name : Threshold → String
  | silent => "OFF"
  | upTo level => level.name

/-- Every threshold, the quietest first. -/
def all : List Threshold := silent :: Level.all.map upTo

/-- `t.admits l` says that records of severity `l` are shown. -/
def admits : Threshold → Level → Bool
  | silent, _ => false
  | upTo level, l => l.rank ≤ level.rank

/-- Equality of ASCII letters regardless of case. -/
def sameLetters (a b : String) : Bool :=
  a.toList.map Char.toLower == b.toList.map Char.toLower

/-- The threshold that a setting names; blanks around the name and its case do not matter, and a
missing or unknown name means warnings. -/
def ofSetting (value : Option String) : Threshold :=
  ((value.bind fun text => all.find? fun t => sameLetters t.name (Text.trim text))).getD (upTo .warn)

end Threshold

/-- One diagnostic message. -/
structure Record where
  level : Level
  text : String
  deriving DecidableEq

namespace Record

/-- The printed line of a record: its severity in a column of five, then its text. -/
def line (r : Record) : String :=
  Text.alignLeft 5 ' ' r.level.name ++ " " ++ r.text ++ "\n"

end Record

/-- The lines of those records that a reader with threshold `t` sees, in order. -/
def render (t : Threshold) (records : List Record) : String :=
  String.join ((records.filter fun r => t.admits r.level).map Record.line)

end BlockVolume.Log
