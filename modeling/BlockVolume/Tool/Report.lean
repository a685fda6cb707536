import BlockVolume.Volume.Basic
import BlockVolume.Text.Column

/-!
# `BlockVolume.Tool.Report` — what the image tool prints

## Contents
- `listing`, `description` and `usage`: a directory, an entry and a volume as texts.
- `formatted` and `written`: what was done, as texts.
-/

namespace BlockVolume.Tool.Report

/-- The line of an entry in a listing. Directories have no size and end with a slash. -/
def listingLine (info : EntryInfo) : String :=
  if info.kind = .directory then
    "d " ++ Text.alignRight 8 ' ' "-" ++ "  " ++ info.name ++ "/\n"
  else
    "f " ++ Text.alignRight 8 ' ' (toString info.size) ++ "  " ++ info.name ++ "\n"

/-- A directory: a line for each entry, then their number. -/
def listing (entries : List EntryInfo) : String :=
  String.join (entries.map listingLine) ++ toString entries.length ++ " entries\n"

/-- The word for a kind. -/
def kindWord : EntryKind → String
  | .file => "file"
  | .directory => "directory"
  | .empty => "empty"

/-- An entry: a line for each thing that is known of it. -/
def description (info : EntryInfo) : String :=
  "path:        " ++ info.path ++ "\n" ++
  "type:        " ++ kindWord info.kind ++ "\n" ++
  "size:        " ++ toString info.size ++ "\n" ++
  "first block: " ++ toString info.firstBlock ++ "\n" ++
  "blocks:      " ++ toString info.blocks ++ "\n"

/-- A volume: how many of its blocks and entries are in use. -/
def usage (stats : Stats) : String :=
  "blocks: " ++ toString stats.totalBlocks ++ " total, " ++ toString stats.usedBlocks ++ " used, " ++
    toString stats.freeBlocks ++ " free\n" ++
  "entries: " ++ toString stats.entriesUsed ++ " used\n"

/-- That an empty volume was written. -/
def formatted : String :=
  "formatted " ++ toString volumeBlocks ++ " blocks\n"

/-- That the contents of a file were replaced by `count` bytes. -/
def written (count : Nat) : String :=
  "wrote " ++ toString count ++ " bytes\n"

end BlockVolume.Tool.Report
