import LevelPlay.Import
import LevelPlay.Plane
import LevelPlay.Value.Error

/-! Why a level cannot be loaded. The first line may name no format that is known; a line may be out of
place, or hold something else than it should; triangles may name lines that are not there; and the file
may be unreadable. Line numbers count cleaned lines after imports have been replaced, from zero. -/

namespace LevelPlay

/-- What is wrong with the first line. -/
inductive FormatError
  | empty
  | noHeader (found : Line)
  | legacy
  | unrecognized (name : String)
  | unnamed
  deriving DecidableEq, Repr

def FormatError.message : FormatError → String
  | empty => "file is empty"
  | noHeader found => s!"expected '#Format MDMF' on the first line, found '{found}'"
  | legacy => "'4DGTrack' is the legacy track format; convert the level to MDMF"
  | unrecognized name => s!"unrecognized format '{name}'"
  | unnamed => "'#Format' names no format"

inductive StructuralError
  | segment (error : SegmentError)
  | importing (error : ImportError)
  | noSegments
  | noSectors
  | notDefine (found : Line)
  | unnamedDefine
  | repeatedMacro (name : Token)
  | notScript (found : Line)
  | repeatedScript (id : Int)
  | tokensAfterEnd
  | cutScript (id : Int)
  | openScript (id : Int)
  | repeatedLine (id : Int)
  deriving DecidableEq, Repr

def StructuralError.message : StructuralError → String
  | segment error => error.message
  | importing error => error.message
  | noSegments => "file has no segments"
  | noSectors => "level has no Sectors segment"
  | notDefine found => s!"expected '#define', found '{found}'"
  | unnamedDefine => "'#define' without a name"
  | repeatedMacro name => s!"macro '{name}' is defined more than once"
  | notScript found => s!"expected '@<id> begin', found '{found}'"
  | repeatedScript id => s!"script @{id} is defined more than once"
  | tokensAfterEnd => "unexpected tokens after 'end'"
  | cutScript id => s!"unexpected segment delimiter inside script @{id}; expected 'end'"
  | openScript id => s!"script @{id} reaches end-of-file before 'end'"
  | repeatedLine id => s!"line @{id} is defined more than once"

/-- What is wrong with the content of a line. -/
inductive ContentError
  | value (error : ValueError)
  | lineKey (found : Kind)
  | lineValue (id : Int) (found : Kind)
  | notSector (found : Kind)
  | trailing (found : Token)
  | badTriangle (slot : Nat) (sector index : Int) (count : Nat)

def ContentError.message : ContentError → String
  | value error => error.message
  | lineKey found => s!"line key must be an integer id, found a {found.text}"
  | lineValue id found => s!"line @{id} expects an autofield, found a {found.text}"
  | notSector found => s!"expected a [Sector] object, found a {found.text}"
  | trailing found => s!"unexpected trailing tokens starting at '{found}'"
  | badTriangle slot sector index count =>
    s!"triangle {slot} of sector {sector} references vertex {index}, but the sector has {count} vertices"

inductive LoadError
  | format (error : FormatError)
  | structural (line : Nat) (error : StructuralError)
  | content (line : Nat) (error : ContentError)
  | link (error : LinkError)
  | unreadable (path : Path) (fault : FileFault)

namespace LoadError

def message : LoadError → String
  | format error => s!"format error: {error.message}"
  | structural line error => structuralMessage line error.message
  | content line error => s!"value error at line {line}: {error.message}"
  | link error => s!"link error: {error.message}"
  | unreadable path fault => unreadableMessage path fault

/-- The line at which loading failed, if the failure belongs to one. -/
def line? : LoadError → Option Nat
  | format _ => some 0
  | structural line _ => some line
  | content line _ => some line
  | link _ => none
  | unreadable _ _ => none

/-- What lies behind a failure to link or to read, which reports tell apart from the failure itself. -/
def cause? : LoadError → Option String
  | link error => some error.message
  | unreadable _ fault => some fault.message
  | _ => none

end LoadError

end LevelPlay
