import LevelPlay.Playback

/-! Summaries: a level is loaded and its sectors, planes and scripts are listed, or the whole level is
printed as a document. -/

namespace LevelPlay.Summary

structure Options where
  level : Path
  lenient : Bool
  asJson : Bool

def optionTable : CommandLine.OptionTable where
  flags := ["lenient", "json"]
  valued := []

/-- Reads a command line; nothing for a usage error. -/
def options? (arguments : List String) : Option Options := do
  let arguments ← CommandLine.scan optionTable arguments
  let lenient ← CommandLine.flag? arguments "lenient"
  let asJson ← CommandLine.flag? arguments "json"
  match CommandLine.plains arguments with
  | [text] =>
    let level ← CommandLine.path? text
    return { level, lenient, asJson }
  | _ => failure

def sectorLine (sector : Sector) : String :=
  let id := Text.alignRight 6 (toString sector.id)
  let floor := Text.alignRight 7 (Decimal.fixed 2 (.ofFloat32 sector.cellFloor))
  let ceiling := Text.alignRight 7 (Decimal.fixed 2 (.ofFloat32 sector.ceiling))
  let vertices := Text.alignRight 4 (toString sector.boundary.vertices.length)
  let triangles := Text.alignRight 4 (toString sector.boundary.triangles.length)
  s!"{id}  floor {floor}  ceiling {ceiling}  vertices {vertices}  triangles {triangles}"

def planeLine (plane : Plane) : String :=
  let id := Text.alignRight 6 (toString plane.id)
  let triangles := Text.alignRight 4 (toString plane.triangleCount)
  let tags := ", ".intercalate (plane.tags.toList.map Tag.name)
  s!"{id}  triangles {triangles}  [{tags}]"

def scriptLine (script : Script) : String :=
  let id := Text.alignRight 6 (toString script.id)
  s!"{id}  {script.size} instructions"

/-- The first line, with the name and the theme. -/
def titleLine (level : Level) : String :=
  let name := level.name.getD "<unnamed>"
  let theme := level.theme.getD "<none>"
  s!"level {name} (theme {theme})"

def lines (level : Level) : List String :=
  [titleLine level, s!"sectors: {level.sectors.length}"] ++ level.sectors.map sectorLine ++
    [s!"plane defs: {level.planes.size}"] ++ level.planes.values.map planeLine ++
    [s!"scripts: {level.scripts.size}"] ++ level.scripts.values.map scriptLine

def run (options : Options) (files : FileReader) : Run :=
  match Level.ofFile (.ofLenient options.lenient) files options.level with
  | .error e => .ofFailure (Playback.loadFailure s!"loading {options.level}" e)
  | .ok level =>
    if options.asJson then .ofActions [.print level.toJson.pretty]
    else .ofActions ((lines level).map .print)

end LevelPlay.Summary
