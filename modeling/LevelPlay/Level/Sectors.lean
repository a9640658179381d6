import LevelPlay.Level.Body

/-! The `Sectors` segment: one sector on each line, with triangles that stay within its vertices. -/

namespace LevelPlay.Sectors

def takeLine (mode : Mode) (table : MacroTable) (sectors : List Sector) (number : Nat) (line : Line) :
    Except LoadError (List Sector) := do
  let tokens := Token.ofLine table line
  let (value, last) ← readValue number tokens 0
  match value with
  | .object (.sector sector) =>
    endLine mode number tokens last
    match sector.badTriangle? with
    | some (slot, index) =>
      throw (.content number (.badTriangle slot sector.id index sector.boundary.vertices.length))
    | none => return sectors ++ [sector]
  | other => throw (.content number (.notSector other.kind))

def ofBody (mode : Mode) (table : MacroTable) (body : SegmentBody) : Except LoadError (List Sector) :=
  body.fold (takeLine mode table) []

end LevelPlay.Sectors
