/-!
# `BlockVolume.Tool.Command` — the command line of the image tool

A command line names an image, a command and its operands. An argument that begins with a dash is an
option, and there are none; after the argument `--` every argument is an operand.

## Contents
- `Command`: what can be asked for.
- `Invocation` and `Invocation.parse?`: a command line understood.
-/

namespace BlockVolume.Tool

/-- What is done with an image. -/
inductive Command where
  /-- Write an empty volume. -/
  | format
  /-- List a directory. -/
  | list (path : String)
  /-- Print a file. -/
  | print (path : String)
  /-- Create an empty file where there is nothing. -/
  | touch (path : String)
  /-- Create a directory. -/
  | makeDirectory (path : String)
  /-- Delete a file or an empty directory. -/
  | remove (path : String)
  /-- Replace the contents of a file by words. -/
  | write (path : String) (words : List String)
  /-- Replace the contents of a file by those of a host file. -/
  | put (path : String) (hostFile : String)
  /-- Describe an entry. -/
  | describe (path : String)
  /-- Describe how full the volume is. -/
  | usage
  deriving DecidableEq

namespace Command

/-- Whether an argument is an option. A dash alone is an operand. -/
def isOption (arg : String) : Bool :=
  arg.toList.head? = some '-' && arg ≠ "-"

/-- The operands among the arguments of a command, unless there is an option among them. -/
def operands? : List String → Option (List String)
  | [] => some []
  | arg :: rest =>
    if arg = "--" then some rest
    else if isOption arg then none
    else (operands? rest).map (arg :: ·)

/-- The command with a name and operands. -/
def ofOperands? : String → List String → Option Command
  | "format", [] => some .format
  | "ls", [] => some (.list "/")
  | "ls", [path] => some (.list path)
  | "cat", [path] => some (.print path)
  | "touch", [path] => some (.touch path)
  | "mkdir", [path] => some (.makeDirectory path)
  | "rm", [path] => some (.remove path)
  | "write", path :: word :: words => some (.write path (word :: words))
  | "put", [path, hostFile] => some (.put path hostFile)
  | "stat", [path] => some (.describe path)
  | "df", [] => some .usage
  | _, _ => none

end Command

/-- A command line understood. -/
structure Invocation where
  /-- The name of the image file. -/
  image : String
  command : Command
  deriving DecidableEq

namespace Invocation

/-- Understands a command line; `none` for one that is wrong. -/
def parse? : List String → Option Invocation
  | image :: name :: args => do
    if Command.isOption image ∨ image = "--" then none
    else
      let operands ← Command.operands? args
      let command ← Command.ofOperands? name operands
      return ⟨image, command⟩
  | _ => none

/-- The host file that a command line wants to be read. -/
def hostFile? (inv : Invocation) : Option String :=
  match inv.command with
  | .put _ hostFile => some hostFile
  | _ => none

end Invocation

end BlockVolume.Tool
