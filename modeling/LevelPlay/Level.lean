import LevelPlay.Level.Defines
import LevelPlay.Level.Header
import LevelPlay.Level.Lines
import LevelPlay.Level.Scripts
import LevelPlay.Level.Sectors

/-! Levels and how they are loaded: the header is checked, imports are replaced, and the four segments with
content are read in a fixed order, whatever their order in the file; then the triangles are linked to the
lines they name. -/

namespace LevelPlay

structure Level where
  theme : Option String
  name : Option String
  sectors : List Sector
  planes : Planes
  scripts : Scripts

namespace Level

/-- The body of the segment of a name, if the level has one. -/
def body? (lines : List Line) (index : SegmentIndex) (name : String) : Option SegmentBody :=
  (index.get? name).map (SegmentBody.ofHeader lines)

/-- Reads a segment's content; a segment that is absent has the given content. -/
def readSegment {α : Type} (lines : List Line) (index : SegmentIndex) (name : String) (absent : α)
    (read : SegmentBody → Except LoadError α) : Except LoadError α :=
  match body? lines index name with
  | none => .ok absent
  | some body => read body

/-- Reads the content of the segments among lines that no longer import. -/
def ofExpanded (mode : Mode) (metadata : Header.Metadata) (lines : List Line) : Except LoadError Level := do
  let index ← (SegmentIndex.ofLines mode lines).mapError fun e => .structural e.1 (.segment e.2)
  let table ← readSegment lines index "Defines" .empty (Defines.ofBody mode)
  let scripts ← readSegment lines index "Scripts" .empty (Scripts.ofBody mode table)
  let defs ← readSegment lines index "Lines" .empty (Lines.ofBody mode table)
  if !index.contains "Sectors" then slip mode (.structural lines.length .noSectors)
  let sectors ← readSegment lines index "Sectors" [] (Sectors.ofBody mode table)
  let planes ← (Planes.link defs sectors).mapError .link
  return { theme := metadata.theme, name := metadata.name, sectors, planes, scripts }

/-- Loads a level from cleaned lines. The paths of imports are seen from `folder`. -/
def ofLines (settings : Settings) (files : FileReader) (folder : Path) (lines : List Line) :
    Except LoadError Level := do
  (Header.check lines).mapError .format
  match Header.metadata? lines with
  | none => throw (.structural lines.length .noSegments)
  | some metadata =>
    let expansion ← (Import.expand settings files folder lines).mapError fun failure =>
      .structural failure.line (.importing failure.error)
    ofExpanded settings.mode metadata expansion.lines

/-- Loads a level from text. The paths of imports are seen from the working directory. -/
def ofText (settings : Settings) (files : FileReader) (text : String) : Except LoadError Level :=
  ofLines settings files "" (Line.ofText text)

/-- Loads a level from a file. The paths of imports are seen from the file's folder. -/
def ofFile (settings : Settings) (files : FileReader) (path : Path) : Except LoadError Level :=
  match files path with
  | .error fault => .error (.unreadable path fault)
  | .ok text => ofLines settings files path.folder (Line.ofText text)

/-- Whether the level has neither sectors nor planes. -/
def isEmpty (level : Level) : Bool :=
  level.sectors.isEmpty && level.planes.isEmpty

/-- The first sector of an id. -/
def sector? (level : Level) (id : Int) : Option Sector :=
  level.sectors.find? fun sector => sector.id == id

def toJson (level : Level) : Json :=
  .object
    [("theme", .optional .string level.theme), ("name", .optional .string level.name),
      ("level", .object
        [("sectors", .ofList Sector.toJson level.sectors), ("plane_defs", level.planes.toJson Plane.toJson)]),
      ("scripts", level.scripts.toJson Script.toJson)]

end Level

end LevelPlay
