import LevelPlay.Level.Error

/-! The lines of a level before its first segment: the format on the first, then directives that give the
theme and the name. -/

namespace LevelPlay.Header

def formatDirective : String := "#Format"

def formatName : String := "MDMF"

/-- The name of a format that is no longer read. -/
def legacyName : String := "4DGTrack"

/-- Checks that the first line names the format. -/
def check : List Line → Except FormatError Unit
  | [] => .error .empty
  | line :: _ =>
    match Text.cut ' ' line with
    | [] => .error (.noHeader line)
    | directive :: rest =>
      if directive = formatDirective then
        match rest with
        | [] => .error .unnamed
        | name :: _ =>
          if name = formatName then .ok ()
          else if name = legacyName then .error .legacy
          else .error (.unrecognized name)
      else .error (.noHeader line)

structure Metadata where
  theme : Option String := none
  name : Option String := none
  deriving DecidableEq, Repr

/-- Takes in one line before the first segment. A later directive counts more than an earlier one. -/
def Metadata.takeLine (metadata : Metadata) (line : Line) : Metadata :=
  let word := Text.firstWord line
  if word = "#Theme" then { metadata with theme := some (Text.afterFirstWord line) }
  else if word = "#Name" then { metadata with name := some (Text.afterFirstWord line) }
  else metadata

/-- The metadata on the lines after the first up to the first segment; nothing if there is no segment. -/
def metadata? (lines : List Line) : Option Metadata :=
  let directives := (lines.drop 1).takeWhile fun line => !Segment.isHeader line
  if directives.length < lines.length - 1 then some (directives.foldl Metadata.takeLine {}) else none

end LevelPlay.Header
