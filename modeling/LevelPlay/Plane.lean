import LevelPlay.IdMap
import LevelPlay.Sector
import LevelPlay.Value.Json

/-! Planes: the triangles, from all sectors, that name one line. Linking walks the sectors and their
triangles in order and appends the corners of each triangle to the plane it names. -/

namespace LevelPlay

/-- The corners of the triangles that name a line, three vertices a triangle, with the tags of the line. -/
structure Plane where
  id : Int
  vertices : List Vec3
  tags : TagSet

namespace Plane

/-- The number of whole triangles. -/
def triangleCount (plane : Plane) : Nat :=
  plane.vertices.length / 3

/-- Vertices taken three at a time; one or two that are left over are dropped. -/
def inThrees : List Vec3 → List Corners
  | first :: second :: third :: rest => ⟨first, second, third⟩ :: inThrees rest
  | _ => []

def triangles (plane : Plane) : List Corners :=
  inThrees plane.vertices

/-- The plane with one more triangle. -/
def extend (plane : Plane) (corners : Corners) : Plane :=
  { plane with vertices := plane.vertices ++ corners.toList }

def toJson (plane : Plane) : Json :=
  .object
    [("id", .int plane.id), ("vertices", .ofList Vec3.toJson plane.vertices), ("tags", plane.tags.toJson)]

end Plane

inductive LinkError
  | unknownPlane (plane sector : Int)
  | vertexOutOfRange (sector index : Int) (count : Nat)
  deriving DecidableEq, Repr

def LinkError.message : LinkError → String
  | unknownPlane plane sector =>
    s!"sector {sector} references plane {plane}, which is not declared in the Lines segment"
  | vertexOutOfRange sector index count =>
    s!"sector {sector} references vertex {index} but only has {count} vertices"

abbrev Planes := IdMap Plane

namespace Planes

/-- One plane without triangles for each line. -/
def ofLines (lines : IdMap Autofield) : Planes :=
  lines.map fun id line => { id, vertices := [], tags := line.tags }

/-- Appends a triangle to the plane it names. A triangle without a line id or without vertex indices is
passed over. -/
def addTriangle (sector : Sector) (planes : Planes) (triangle : Autofield) : Except LinkError Planes :=
  match triangle.identifier?, triangle.intVector? with
  | some id, some indices =>
    if planes.contains id then
      match sector.corners indices with
      | .ok corners => .ok (planes.modify id fun plane => plane.extend corners)
      | .error index => .error (.vertexOutOfRange sector.id index sector.boundary.vertices.length)
    else .error (.unknownPlane id sector.id)
  | _, _ => .ok planes

/-- Appends the triangles of a sector to the planes they name. -/
def addSector (planes : Planes) (sector : Sector) : Except LinkError Planes :=
  sector.boundary.triangles.foldlM (addTriangle sector) planes

def link (lines : IdMap Autofield) (sectors : List Sector) : Except LinkError Planes :=
  sectors.foldlM addSector (ofLines lines)

end Planes

end LevelPlay
