import LevelPlay.Json
import LevelPlay.Value.Basic

/-! The JSON form of values: one member that names the shape, with its content. Vectors and rotations are
arrays, tags are names, and an object tells its type beside its fields. -/

namespace LevelPlay

def Vec3.toJson (v : Vec3) : Json :=
  .array [.number32 v.x, .number32 v.y, .number32 v.z]

def IntVec3.toJson (v : IntVec3) : Json :=
  .array [.int v.x, .int v.y, .int v.z]

/-- A rotation as an array, the scalar part last. -/
def Rotation.toJson (q : Rotation) : Json :=
  .array [.number32 q.x, .number32 q.y, .number32 q.z, .number32 q.w]

def TagSet.toJson (tags : TagSet) : Json :=
  .ofList (fun tag => .string tag.name) tags.toList

/-- How documents name a type: as level text does, but with a capital letter. -/
def TypeName.label : TypeName → String
  | float => "Float"
  | int => "Int"
  | type => type.name

def Kind.toJson : Kind → Json
  | number => .string "Number"
  | identifier => .string "Identifier"
  | vector => .string "Vector3"
  | intVector => .string "IntVector3"
  | rotation => .string "Orientation"
  | autofield => .string "Autofield"
  | object type => .object [("Object", .string (TypeName.object type).label)]
  | list element => .object [("List", .string element.label)]

def Transform.members (t : Transform) : List (String × Json) :=
  [("position", t.position.toJson), ("rotation", t.rotation.toJson), ("scale", t.scale.toJson)]

mutual

def Value.toJson : Value → Json
  | .number x => .object [("Number", .number64 x)]
  | .identifier id => .object [("Identifier", .int id)]
  | .vector v => .object [("Vector3", v.toJson)]
  | .intVector v => .object [("IntVector3", v.toJson)]
  | .rotation q => .object [("Orientation", q.toJson)]
  | .autofield a => .object [("Autofield", a.toJson)]
  | .object o => .object [("Object", o.toJson)]
  | .list element items =>
    .object [("List", .object [("element", .string element.label), ("items", .array (valuesToJson items))])]

def valuesToJson : List Value → List Json
  | [] => []
  | value :: rest => value.toJson :: valuesToJson rest

def autofieldsToJson : List Autofield → List Json
  | [] => []
  | a :: rest => a.toJson :: autofieldsToJson rest

def Autofield.toJson : Autofield → Json
  | ⟨tags, fields⟩ => .object [("tags", tags.toJson), ("fields", .array (valuesToJson fields))]

def Boundary.members : Boundary → List (String × Json)
  | ⟨kernel, vertices, triangles⟩ =>
    [("kernel", kernel.toJson), ("vertices", .ofList Vec3.toJson vertices),
      ("triangles", .array (autofieldsToJson triangles))]

def Sector.members : Sector → List (String × Json)
  | ⟨boundary, transform, cellFloor, cellHeight, id, tags⟩ =>
    [("boundary", .object boundary.members), ("transform", .object transform.members),
      ("cell_floor", .number32 cellFloor), ("cell_height", .number32 cellHeight), ("sector_id", .int id),
      ("tags", tags.toJson)]

def Object.toJson : Object → Json
  | .sector s => .object (("type", .string ObjectType.sector.name) :: s.members)
  | .boundary b => .object (("type", .string ObjectType.boundary.name) :: b.members)
  | .transform t => .object (("type", .string ObjectType.transform.name) :: t.members)

end

def Boundary.toJson (b : Boundary) : Json := .object b.members

def Transform.toJson (t : Transform) : Json := .object t.members

def Sector.toJson (s : Sector) : Json := .object s.members

end LevelPlay
