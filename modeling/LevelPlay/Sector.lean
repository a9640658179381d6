import LevelPlay.Value.Autofield

/-! Sectors in the level: corners of their triangles, and baking the transform into the boundary. -/

namespace LevelPlay

/-- The image of a point of a sector in the level: scaled, rotated, then moved. -/
def Transform.apply (t : Transform) (point : Vec3) : Vec3 :=
  t.position + t.rotation.apply (t.scale * point)

structure Corners where
  first : Vec3
  second : Vec3
  third : Vec3

def Corners.toList (c : Corners) : List Vec3 :=
  [c.first, c.second, c.third]

namespace Sector

def ceiling (s : Sector) : Float32 :=
  s.cellFloor + s.cellHeight

/-- The vertex of an index; the index itself if it is negative or too large. -/
def vertex (s : Sector) (index : Int) : Except Int Vec3 :=
  if index < 0 then .error index
  else
    match s.boundary.vertices[index.toNat]? with
    | some v => .ok v
    | none => .error index

/-- The corners of a triangle; the first index that is no vertex otherwise. -/
def corners (s : Sector) (indices : IntVec3) : Except Int Corners := do
  let first ← s.vertex indices.x
  let second ← s.vertex indices.y
  let third ← s.vertex indices.z
  return ⟨first, second, third⟩

/-- Looks for an index that is no vertex among triangles that stand from `slot` on. -/
def badTriangleFrom? (s : Sector) (slot : Nat) : List Autofield → Option (Nat × Int)
  | [] => none
  | triangle :: rest =>
    match triangle.intVector?.map s.corners with
    | some (.error index) => some (slot, index)
    | _ => s.badTriangleFrom? (slot + 1) rest

/-- The first triangle with an index that is no vertex, and that index. -/
def badTriangle? (s : Sector) : Option (Nat × Int) :=
  s.badTriangleFrom? 0 s.boundary.triangles

/-- The vertices where they stand in the level. -/
def bakedVertices (s : Sector) : List Vec3 :=
  s.boundary.vertices.map s.transform.apply

def bakedKernel (s : Sector) : Vec3 :=
  s.transform.apply s.boundary.kernel

/-- The sector with its boundary moved to where it stands in the level, and nothing left to move. The vertices are
moved first, then the kernel, both by the transform, which is dropped last. -/
def bake (s : Sector) : Sector :=
  let s := { s with boundary := { s.boundary with vertices := s.bakedVertices } }
  let s := { s with boundary := { s.boundary with kernel := s.bakedKernel } }
  { s with transform := .identity }

end Sector

end LevelPlay
