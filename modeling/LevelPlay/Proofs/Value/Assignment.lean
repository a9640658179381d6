import LevelPlay.Proofs.Value.Fields

/-! Fields that are set in place. A setter takes a value apart and writes into the object that it is given, or hands the
value back; what it had written by then would stay. No setter writes anything before it hands a value back, so to set a
field in place is to set it, and a call that fails leaves the object as it was. -/

namespace LevelPlay

/-- A field with its setter. -/
structure Setter (α : Type) where
  name : String
  expects : String
  /-- Writes the value into the object, or hands it back. -/
  assign : Value → ExceptT Value (StateM α) Unit

namespace Setter

variable {α : Type}

def set (setters : List (Setter α)) (name : String) (value : Value) : ExceptT FieldError (StateM α) Unit :=
  match setters.find? fun setter => setter.name == name with
  | none => throw .unknown
  | some setter => (setter.assign value).adapt fun rejected => .mismatch setter.expects rejected.kind

/-- The setter does in place what setting the field does. -/
structure Implements (setter : Setter α) (field : Field α) : Prop where
  name : setter.name = field.name
  expects : setter.expects = field.expects
  run : ∀ target v, (setter.assign v).run.run target =
    match field.set? target v with
    | some changed => (.ok (), changed)
    | none => (.error v, target)

theorem adapt_run {ε ε' : Type} (f : ε → ε') (x : ExceptT ε (StateM α) Unit) (target : α) :
    (x.adapt f).run.run target = ((x.run.run target).1.mapError f, (x.run.run target).2) := rfl

theorem set_run {setters : List (Setter α)} {fields : List (Field α)} (h : List.Forall₂ Implements setters fields)
    (target : α) (name : String) (v : Value) :
    (set setters name v).run.run target =
      match Field.assign fields target name v with
      | .ok changed => (.ok (), changed)
      | .error error => (.error error, target) := by
  induction h with
  | nil => rfl
  | @cons setter field setters fields hfield hrest ih =>
      unfold set Field.assign at ih ⊢
      rw [List.find?_cons, List.find?_cons, hfield.name]
      cases hname : field.name == name with
      | false => exact ih
      | true =>
          dsimp only
          rw [adapt_run, hfield.run, hfield.expects]
          cases field.set? target v <;> rfl

end Setter

def Sector.setters : List (Setter Sector) :=
  [{ name := "Boundary", expects := "SectorBoundary"
     assign := fun
       | .object (.boundary boundary) => modify fun sector => { sector with boundary }
       | other => throw other },
   { name := "Transform", expects := "SectorTransform"
     assign := fun
       | .object (.transform transform) => modify fun sector => { sector with transform }
       | other => throw other },
   { name := "CellFloor", expects := "number"
     assign := fun
       | .number x => modify fun sector => { sector with cellFloor := x.toFloat32 }
       | other => throw other },
   { name := "CellHeight", expects := "number"
     assign := fun
       | .number x => modify fun sector => { sector with cellHeight := x.toFloat32 }
       | other => throw other },
   { name := "SectorId", expects := "integer id"
     assign := fun value =>
       match value.toId? with
       | some id => modify fun sector => { sector with id }
       | none => throw value },
   { name := "Tags", expects := "autofield"
     assign := fun
       | .autofield tags => modify fun sector => { sector with tags }
       | other => throw other }]

def Boundary.setters : List (Setter Boundary) :=
  [{ name := "Kernel", expects := "Vector3"
     assign := fun
       | .vector kernel => modify fun boundary => { boundary with kernel }
       | other => throw other },
   { name := "Vertices", expects := "[Vector3] list"
     assign := fun
       | .list .vector items => modify fun boundary => { boundary with vertices := Value.vectors items }
       | other => throw other },
   { name := "Triangles", expects := "[Autofield] list"
     assign := fun
       | .list .autofield items => modify fun boundary => { boundary with triangles := Value.autofields items }
       | other => throw other }]

def Transform.setters : List (Setter Transform) :=
  [{ name := "Position", expects := "Vector3"
     assign := fun
       | .vector position => modify fun transform => { transform with position }
       | other => throw other },
   { name := "Rotation", expects := "orientation"
     assign := fun
       | .rotation rotation => modify fun transform => { transform with rotation }
       | other => throw other },
   { name := "Scale", expects := "Vector3"
     assign := fun
       | .vector scale => modify fun transform => { transform with scale }
       | other => throw other }]

theorem Sector.implements_setters : List.Forall₂ Setter.Implements setters fields := by
  refine .cons ⟨rfl, rfl, ?_⟩ (.cons ⟨rfl, rfl, ?_⟩ (.cons ⟨rfl, rfl, ?_⟩ (.cons ⟨rfl, rfl, ?_⟩
    (.cons ⟨rfl, rfl, ?_⟩ (.cons ⟨rfl, rfl, ?_⟩ .nil))))) <;> intro s v
  · cases v with
    | object o => cases o <;> rfl
    | _ => rfl
  · cases v with
    | object o => cases o <;> rfl
    | _ => rfl
  · cases v <;> rfl
  · cases v <;> rfl
  · dsimp only
    cases v.toId? <;> rfl
  · cases v <;> rfl

theorem Boundary.implements_setters : List.Forall₂ Setter.Implements setters fields := by
  refine .cons ⟨rfl, rfl, ?_⟩ (.cons ⟨rfl, rfl, ?_⟩ (.cons ⟨rfl, rfl, ?_⟩ .nil)) <;> intro b v
  · cases v <;> rfl
  · cases v with
    | list element items => cases element <;> rfl
    | _ => rfl
  · cases v with
    | list element items => cases element <;> rfl
    | _ => rfl

theorem Transform.implements_setters : List.Forall₂ Setter.Implements setters fields := by
  refine .cons ⟨rfl, rfl, ?_⟩ (.cons ⟨rfl, rfl, ?_⟩ (.cons ⟨rfl, rfl, ?_⟩ .nil)) <;> intro t v
  · cases v <;> rfl
  · cases v <;> rfl
  · cases v <;> rfl

namespace Object

/-- Changes the record that an object is made of, and with it the object. -/
def within {α : Type} (make : α → Object) (record : α) (change : ExceptT FieldError (StateM α) Unit) :
    ExceptT FieldError (StateM Object) Unit := do
  let (result, record) := change.run.run record
  set (make record)
  ofExcept result

/-- Sets a field of an object in place. -/
def setInPlace (name : String) (value : Value) : ExceptT FieldError (StateM Object) Unit := do
  match ← get with
  | .sector s => within .sector s (Setter.set Sector.setters name value)
  | .boundary b => within .boundary b (Setter.set Boundary.setters name value)
  | .transform t => within .transform t (Setter.set Transform.setters name value)

theorem within_run {α : Type} {setters : List (Setter α)} {fields : List (Field α)}
    (h : List.Forall₂ Setter.Implements setters fields) (make : α → Object) (record : α) (name : String) (v : Value) :
    (within make record (Setter.set setters name v)).run.run (make record) =
      match (Field.assign fields record name v).map make with
      | .ok next => (.ok (), next)
      | .error error => (.error error, make record) := by
  unfold within
  rw [Setter.set_run h]
  cases Field.assign fields record name v <;> rfl

/-- To set a field in place is to set it, and where this fails nothing has changed. -/
theorem setInPlace_run (o : Object) (name : String) (v : Value) :
    (setInPlace name v).run.run o =
      match o.setField name v with
      | .ok next => (.ok (), next)
      | .error error => (.error error, o) := by
  cases o with
  | sector s => exact within_run Sector.implements_setters .sector s name v
  | boundary b => exact within_run Boundary.implements_setters .boundary b name v
  | transform t => exact within_run Transform.implements_setters .transform t name v

end Object

end LevelPlay
