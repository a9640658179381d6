import LevelPlay.Value.Basic

/-! Building and asking autofields. Adding a tag twice changes nothing; a second value of a kind is
refused. -/

namespace LevelPlay.Autofield

def addTag (a : Autofield) (tag : Tag) : Autofield :=
  { a with tags := a.tags.insert tag }

def hasTag (a : Autofield) (tag : Tag) : Bool :=
  a.tags.has tag

def get? (a : Autofield) (kind : Kind) : Option Value :=
  a.fields.find? fun value => value.kind == kind

/-- The autofield with one more value; nothing if it holds one of that kind. -/
def insert? (a : Autofield) (value : Value) : Option Autofield :=
  if (a.get? value.kind).isSome then none else some { a with fields := a.fields ++ [value] }

theorem insert?_eq_none_iff {a : Autofield} {value : Value} :
    a.insert? value = none ↔ (a.get? value.kind).isSome = true := by
  by_cases h : (a.get? value.kind).isSome = true <;> simp [insert?, h]

def isEmpty (a : Autofield) : Bool :=
  a.tags.isEmpty && a.fields.isEmpty

/-! ### The value of each simple kind -/

def number? (a : Autofield) : Option Float :=
  match a.get? .number with
  | some (.number x) => some x
  | _ => none

def identifier? (a : Autofield) : Option Int :=
  match a.get? .identifier with
  | some (.identifier id) => some id
  | _ => none

def vector? (a : Autofield) : Option Vec3 :=
  match a.get? .vector with
  | some (.vector v) => some v
  | _ => none

def intVector? (a : Autofield) : Option IntVec3 :=
  match a.get? .intVector with
  | some (.intVector v) => some v
  | _ => none

def rotation? (a : Autofield) : Option Rotation :=
  match a.get? .rotation with
  | some (.rotation q) => some q
  | _ => none

end LevelPlay.Autofield
