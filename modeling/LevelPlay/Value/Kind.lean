/-! Names that level text uses for tags and types, and the kinds of values. Both sets of names are closed:
a name that is not listed here is refused where it is read. -/

namespace LevelPlay

/-- A marker that an autofield may carry. -/
inductive Tag
  | noWall
  | bottomWall
  | topWall
  | holeWall
  | noCollision
  | noCeiling
  | noFloor
  | actorPasses
  | actorTouches
  | triggerOnce
  | triggerMultiple
  | triggerForwardOnly
  deriving DecidableEq, Repr

namespace Tag

/-- All tags, in the order in which sets of tags are listed. -/
def all : List Tag :=
  [noWall, bottomWall, topWall, holeWall, noCollision, noCeiling, noFloor, actorPasses, actorTouches,
    triggerOnce, triggerMultiple, triggerForwardOnly]

/-- The name of a tag in level text, where `#` stands before it. -/
def name : Tag → String
  | noWall => "NoWall"
  | bottomWall => "BottomWall"
  | topWall => "TopWall"
  | holeWall => "HoleWall"
  | noCollision => "NoCollision"
  | noCeiling => "NoCeiling"
  | noFloor => "NoFloor"
  | actorPasses => "ActorPasses"
  | actorTouches => "ActorTouches"
  | triggerOnce => "TriggerOnce"
  | triggerMultiple => "TriggerMultiple"
  | triggerForwardOnly => "TriggerForwardOnly"

def ofName? (name : String) : Option Tag :=
  all.find? fun tag => tag.name == name

theorem mem_all (tag : Tag) : tag ∈ all := by
  cases tag <;> decide

end Tag

/-- A set of tags, given by its members. -/
@[ext] structure TagSet where
  has : Tag → Bool

namespace TagSet

def empty : TagSet := ⟨fun _ => false⟩

instance : Inhabited TagSet := ⟨empty⟩

def insert (tags : TagSet) (tag : Tag) : TagSet :=
  ⟨fun other => other == tag || tags.has other⟩

/-- The members, each once, in the order of `Tag.all`. -/
def toList (tags : TagSet) : List Tag :=
  Tag.all.filter tags.has

def isEmpty (tags : TagSet) : Bool :=
  tags.toList.isEmpty

theorem mem_toList {tags : TagSet} {tag : Tag} : tag ∈ tags.toList ↔ tags.has tag = true := by
  simp [toList, Tag.mem_all]

@[simp] theorem has_insert (tags : TagSet) (tag other : Tag) :
    (tags.insert tag).has other = (other == tag || tags.has other) := rfl

end TagSet

/-- The types whose values are built field by field. -/
inductive ObjectType
  | sector
  | boundary
  | transform
  deriving DecidableEq, Repr

/-- The types that can be named in level text. -/
inductive TypeName
  | object (type : ObjectType)
  | vector
  | intVector
  | rotation
  | autofield
  | float
  | int
  deriving DecidableEq, Repr

namespace TypeName

def all : List TypeName :=
  [object .sector, object .boundary, object .transform, vector, intVector, rotation, autofield, float, int]

def name : TypeName → String
  | object .sector => "Sector"
  | object .boundary => "SectorBoundary"
  | object .transform => "SectorTransform"
  | vector => "Vector3"
  | intVector => "Vector3Int"
  | rotation => "Quaternion"
  | autofield => "Autofield"
  | float => "float"
  | int => "int"

def ofName? (name : String) : Option TypeName :=
  all.find? fun type => type.name == name

/-- The type as one whose values are built field by field, if it is one. -/
def objectType? : TypeName → Option ObjectType
  | object type => some type
  | _ => none

end TypeName

def ObjectType.name (type : ObjectType) : String :=
  (TypeName.object type).name

/-- The kind of a value. An autofield holds at most one value of each kind. -/
inductive Kind
  | number
  | identifier
  | vector
  | intVector
  | rotation
  | autofield
  | object (type : ObjectType)
  | list (element : TypeName)
  deriving DecidableEq, Repr

def Kind.text : Kind → String
  | number => "number"
  | identifier => "identifier"
  | vector => "Vector3"
  | intVector => "integer vector"
  | rotation => "orientation"
  | autofield => "autofield"
  | object type => type.name ++ " object"
  | list element => "[" ++ element.name ++ "] list"

end LevelPlay
