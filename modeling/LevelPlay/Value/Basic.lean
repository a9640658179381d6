import LevelPlay.Decimal.Binary
import LevelPlay.Geometry.Rotation
import LevelPlay.Value.Kind

/-! Values of level text. A value is a number, an id, a vector, a rotation, a bag of tags and values (an
autofield), an object with fields, or a list whose elements have a declared type. Sectors are objects
whose triangles and tags are autofields in turn, so all these types are defined together. -/

namespace LevelPlay

/-- Where a sector stands in the level: scale, then rotation, then position. -/
structure Transform where
  position : Vec3
  rotation : Rotation
  scale : Vec3

mutual

inductive Value
  | number (x : Float)
  | identifier (id : Int)
  | vector (v : Vec3)
  | intVector (v : IntVec3)
  | rotation (q : Rotation)
  | autofield (a : Autofield)
  | object (o : Object)
  | list (element : TypeName) (items : List Value)

/-- Tags, and values in the order in which they were added. -/
structure Autofield where
  tags : TagSet
  fields : List Value

/-- The shape of a sector before its transform: a point inside, the vertices, and the triangles. A triangle
is an autofield that may carry its three vertex indices and the id of the line that it belongs to. -/
structure Boundary where
  kernel : Vec3
  vertices : List Vec3
  triangles : List Autofield

/-- A room of the level. -/
structure Sector where
  boundary : Boundary
  transform : Transform
  cellFloor : Float32
  cellHeight : Float32
  id : Int
  tags : Autofield

/-- A value that is built field by field. -/
inductive Object
  | sector (s : Sector)
  | boundary (b : Boundary)
  | transform (t : Transform)

end

/-! ### Starting points -/

def Transform.identity : Transform where
  position := .zero
  rotation := .identity
  scale := .one

def Autofield.empty : Autofield where
  tags := .empty
  fields := []

def Boundary.empty : Boundary where
  kernel := .zero
  vertices := []
  triangles := []

def Sector.blank : Sector where
  boundary := .empty
  transform := .identity
  cellFloor := 0
  cellHeight := 0
  id := 0
  tags := .empty

def Object.blank : ObjectType → Object
  | .sector => .sector .blank
  | .boundary => .boundary .empty
  | .transform => .transform .identity

instance : Inhabited Transform := ⟨.identity⟩
instance : Inhabited Autofield := ⟨.empty⟩
instance : Inhabited Boundary := ⟨.empty⟩
instance : Inhabited Sector := ⟨.blank⟩
instance : Inhabited Value := ⟨.number 0.0⟩

/-! ### Kinds -/

def Object.type : Object → ObjectType
  | .sector _ => .sector
  | .boundary _ => .boundary
  | .transform _ => .transform

namespace Value

def kind : Value → Kind
  | number _ => .number
  | identifier _ => .identifier
  | vector _ => .vector
  | intVector _ => .intVector
  | rotation _ => .rotation
  | autofield _ => .autofield
  | object o => .object o.type
  | list element _ => .list element

/-- The id a value denotes: an identifier, or a whole number in the range of ids. -/
def toId? : Value → Option Int
  | identifier id => some id
  | number x => Decimal.idOfFloat? x
  | _ => none

/-- The value as an element of a list of the given type; nothing if it does not fit. It has to be of the
kind that the type names, except that a whole number fits among `int`s, as an identifier. -/
def fit? (type : TypeName) (value : Value) : Option Value :=
  match type, value with
  | .object type, object o => if o.type = type then some (object o) else none
  | .vector, vector v => some (vector v)
  | .intVector, intVector v => some (intVector v)
  | .rotation, rotation q => some (rotation q)
  | .autofield, autofield a => some (autofield a)
  | .float, number x => some (number x)
  | .int, identifier id => some (identifier id)
  | .int, number x => (Decimal.idOfFloat? x).map identifier
  | _, _ => none

/-! ### Items of one kind -/

def vectors (items : List Value) : List Vec3 :=
  items.filterMap fun
    | vector v => some v
    | _ => none

def autofields (items : List Value) : List Autofield :=
  items.filterMap fun
    | autofield a => some a
    | _ => none

def numbers (items : List Value) : List Float :=
  items.filterMap fun
    | number x => some x
    | _ => none

end Value

end LevelPlay
