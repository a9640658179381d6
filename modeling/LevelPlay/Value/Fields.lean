import LevelPlay.Value.Basic

/-! Fields of objects. Each object type has a table of its fields: the name, what the field expects, and how
a value is put into it. Setting a field changes that field alone, and a refused value changes nothing. -/

namespace LevelPlay

inductive FieldError
  | unknown
  | mismatch (expected : String) (found : Kind)
  deriving DecidableEq, Repr

/-- A field of objects of type `α`. -/
structure Field (α : Type) where
  /-- The name in level text. -/
  name : String
  /-- What messages say the field expects. -/
  expects : String
  /-- The object with the value in this field; nothing if the value is of the wrong kind. -/
  set? : α → Value → Option α

namespace Field

/-- Sets the field of the given name. -/
def assign {α : Type} (fields : List (Field α)) (target : α) (name : String) (value : Value) :
    Except FieldError α :=
  match fields.find? fun field => field.name == name with
  | none => .error .unknown
  | some field =>
    match field.set? target value with
    | none => .error (.mismatch field.expects value.kind)
    | some changed => .ok changed

end Field

def Sector.fields : List (Field Sector) :=
  [{ name := "Boundary", expects := "SectorBoundary"
     set? := fun
       | sector, .object (.boundary boundary) => some { sector with boundary }
       | _, _ => none },
   { name := "Transform", expects := "SectorTransform"
     set? := fun
       | sector, .object (.transform transform) => some { sector with transform }
       | _, _ => none },
   { name := "CellFloor", expects := "number"
     set? := fun
       | sector, .number x => some { sector with cellFloor := x.toFloat32 }
       | _, _ => none },
   { name := "CellHeight", expects := "number"
     set? := fun
       | sector, .number x => some { sector with cellHeight := x.toFloat32 }
       | _, _ => none },
   { name := "SectorId", expects := "integer id"
     set? := fun sector value => value.toId?.map fun id => { sector with id } },
   { name := "Tags", expects := "autofield"
     set? := fun
       | sector, .autofield tags => some { sector with tags }
       | _, _ => none }]

def Boundary.fields : List (Field Boundary) :=
  [{ name := "Kernel", expects := "Vector3"
     set? := fun
       | boundary, .vector kernel => some { boundary with kernel }
       | _, _ => none },
   { name := "Vertices", expects := "[Vector3] list"
     set? := fun
       | boundary, .list .vector items => some { boundary with vertices := Value.vectors items }
       | _, _ => none },
   { name := "Triangles", expects := "[Autofield] list"
     set? := fun
       | boundary, .list .autofield items => some { boundary with triangles := Value.autofields items }
       | _, _ => none }]

def Transform.fields : List (Field Transform) :=
  [{ name := "Position", expects := "Vector3"
     set? := fun
       | transform, .vector position => some { transform with position }
       | _, _ => none },
   { name := "Rotation", expects := "orientation"
     set? := fun
       | transform, .rotation rotation => some { transform with rotation }
       | _, _ => none },
   { name := "Scale", expects := "Vector3"
     set? := fun
       | transform, .vector scale => some { transform with scale }
       | _, _ => none }]

/-- Sets a field of an object. A field may be set again. -/
def Object.setField (object : Object) (name : String) (value : Value) : Except FieldError Object :=
  match object with
  | .sector s => (Field.assign Sector.fields s name value).map .sector
  | .boundary b => (Field.assign Boundary.fields b name value).map .boundary
  | .transform t => (Field.assign Transform.fields t name value).map .transform

end LevelPlay
