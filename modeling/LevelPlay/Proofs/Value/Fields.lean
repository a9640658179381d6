import Mathlib.Data.List.Forall2
import Mathlib.Data.List.Pairwise
import LevelPlay.Proofs.Result
import LevelPlay.Value.Fields

/-! Setting fields. A field is a part of an object: a value is converted to the content of the part, if it can be, and
put there. The parts of an object do not overlap, so two fields may be set in either order, and all fields of an object
in any order. -/

namespace LevelPlay

universe u v

/-! ### Parts -/

/-- A part of an object: what a value is converted to for it, and how this is put in. -/
structure Part (α : Type) where
  Content : Type
  read : Value → Option Content
  write : Content → α → α

/-- To set the field is to put what the value is converted to into the part. -/
def Field.Sets {α : Type} (field : Field α) (part : Part α) : Prop :=
  ∀ target v, field.set? target v = (part.read v).map fun content => part.write content target

/-- The parts do not overlap. -/
def Part.Apart {α : Type} (part other : Part α) : Prop :=
  ∀ content content' target,
    part.write content (other.write content' target) = other.write content' (part.write content target)

namespace Value

def boundary? : Value → Option Boundary
  | object (.boundary b) => some b
  | _ => none

def transform? : Value → Option Transform
  | object (.transform t) => some t
  | _ => none

def number? : Value → Option Float
  | number x => some x
  | _ => none

def autofield? : Value → Option Autofield
  | autofield a => some a
  | _ => none

def vector? : Value → Option Vec3
  | vector v => some v
  | _ => none

def rotation? : Value → Option Rotation
  | rotation q => some q
  | _ => none

/-- The items of a value that is a list of the given type. -/
def itemsOf? (element : TypeName) : Value → Option (List Value)
  | list other items => if other = element then some items else none
  | _ => none

theorem boundary?_eq_some_iff {v : Value} {b : Boundary} : v.boundary? = some b ↔ v = .object (.boundary b) := by
  cases v with
  | object o => cases o <;> simp [boundary?]
  | _ => simp [boundary?]

theorem transform?_eq_some_iff {v : Value} {t : Transform} : v.transform? = some t ↔ v = .object (.transform t) := by
  cases v with
  | object o => cases o <;> simp [transform?]
  | _ => simp [transform?]

theorem number?_eq_some_iff {v : Value} {x : Float} : v.number? = some x ↔ v = .number x := by
  cases v <;> simp [number?]

theorem autofield?_eq_some_iff {v : Value} {a : Autofield} : v.autofield? = some a ↔ v = .autofield a := by
  cases v <;> simp [autofield?]

theorem vector?_eq_some_iff {v : Value} {x : Vec3} : v.vector? = some x ↔ v = .vector x := by
  cases v <;> simp [vector?]

theorem rotation?_eq_some_iff {v : Value} {q : Rotation} : v.rotation? = some q ↔ v = .rotation q := by
  cases v <;> simp [rotation?]

theorem itemsOf?_eq_some_iff {element : TypeName} {v : Value} {items : List Value} :
    v.itemsOf? element = some items ↔ v = .list element items := by
  cases v <;> simp [itemsOf?]

/-- An id is an identifier, or a whole number of 32 bits. -/
theorem toId?_eq_some_iff {v : Value} {id : Int} :
    v.toId? = some id ↔ v = .identifier id ∨
      ∃ x, v = .number x ∧ (Decimal.Binary.ofFloat x).toInt? = some id ∧ -2147483648 ≤ id ∧ id ≤ 2147483647 := by
  cases v <;> simp [toId?, Decimal.idOfFloat?, Decimal.isId, Option.filter_eq_some_iff]

theorem vectors_eq_filterMap (items : List Value) : vectors items = items.filterMap vector? := rfl

theorem autofields_eq_filterMap (items : List Value) : autofields items = items.filterMap autofield? := rfl

theorem numbers_eq_filterMap (items : List Value) : numbers items = items.filterMap number? := rfl

end Value

def Sector.parts : List (Part Sector) :=
  [⟨Boundary, Value.boundary?, fun boundary s => { s with boundary }⟩,
    ⟨Transform, Value.transform?, fun transform s => { s with transform }⟩,
    ⟨Float, Value.number?, fun x s => { s with cellFloor := x.toFloat32 }⟩,
    ⟨Float, Value.number?, fun x s => { s with cellHeight := x.toFloat32 }⟩,
    ⟨Int, Value.toId?, fun id s => { s with id }⟩,
    ⟨Autofield, Value.autofield?, fun tags s => { s with tags }⟩]

def Boundary.parts : List (Part Boundary) :=
  [⟨Vec3, Value.vector?, fun kernel b => { b with kernel }⟩,
    ⟨List Value, Value.itemsOf? .vector, fun items b => { b with vertices := Value.vectors items }⟩,
    ⟨List Value, Value.itemsOf? .autofield, fun items b => { b with triangles := Value.autofields items }⟩]

def Transform.parts : List (Part Transform) :=
  [⟨Vec3, Value.vector?, fun position t => { t with position }⟩,
    ⟨Rotation, Value.rotation?, fun rotation t => { t with rotation }⟩,
    ⟨Vec3, Value.vector?, fun scale t => { t with scale }⟩]

theorem exists_mem_of_forall₂ {α : Type u} {β : Type v} {R : α → β → Prop} {as : List α} {bs : List β}
    (h : List.Forall₂ R as bs) {a : α} (ha : a ∈ as) : ∃ b ∈ bs, R a b := by
  induction h with
  | nil => cases ha
  | cons hab _ ih =>
      rcases List.mem_cons.mp ha with rfl | ha
      · exact ⟨_, List.mem_cons_self, hab⟩
      · obtain ⟨b, hb, hab⟩ := ih ha
        exact ⟨b, List.mem_cons_of_mem _ hb, hab⟩

theorem Sector.sets_parts : List.Forall₂ Field.Sets fields parts := by
  refine .cons ?_ (.cons ?_ (.cons ?_ (.cons ?_ (.cons ?_ (.cons ?_ .nil))))) <;> intro s v
  · cases v with
    | object o => cases o <;> rfl
    | _ => rfl
  · cases v with
    | object o => cases o <;> rfl
    | _ => rfl
  · cases v <;> rfl
  · cases v <;> rfl
  · rfl
  · cases v <;> rfl

theorem Boundary.sets_parts : List.Forall₂ Field.Sets fields parts := by
  refine .cons ?_ (.cons ?_ (.cons ?_ .nil)) <;> intro b v
  · cases v <;> rfl
  · cases v with
    | list element items => cases element <;> rfl
    | _ => rfl
  · cases v with
    | list element items => cases element <;> rfl
    | _ => rfl

theorem Transform.sets_parts : List.Forall₂ Field.Sets fields parts := by
  refine .cons ?_ (.cons ?_ (.cons ?_ .nil)) <;> intro t v
  · cases v <;> rfl
  · cases v <;> rfl
  · cases v <;> rfl

theorem Sector.apart_parts : parts.Pairwise Part.Apart := by
  simp [parts, Part.Apart]

theorem Boundary.apart_parts : parts.Pairwise Part.Apart := by
  simp [parts, Part.Apart]

theorem Transform.apart_parts : parts.Pairwise Part.Apart := by
  simp [parts, Part.Apart]

/-! ### Tables of fields -/

theorem Field.assign_eq_ok_iff {α : Type} {fields : List (Field α)} {target changed : α} {name : String} {v : Value} :
    assign fields target name v = .ok changed ↔
      ∃ field, fields.find? (fun field => field.name == name) = some field ∧ field.set? target v = some changed := by
  rw [assign]
  cases fields.find? fun field => field.name == name with
  | none => simp
  | some field =>
      cases hset : field.set? target v with
      | none => simp [hset]
      | some changed' => simp [hset]

/-- The two fields may be set in either order. -/
def Field.Independent {α : Type} (field other : Field α) : Prop :=
  ∀ target v w, (field.set? target v).bind (fun next => other.set? next w) =
    (other.set? target w).bind fun next => field.set? next v

theorem Field.Sets.independent {α : Type} {field other : Field α} {part part' : Part α} (h : field.Sets part)
    (h' : other.Sets part') (hapart : part.Apart part') : field.Independent other := by
  intro target v w
  rw [h, h']
  cases hv : part.read v with
  | none =>
      cases hw : part'.read w with
      | none => rfl
      | some content' => simp [h _, hv]
  | some content =>
      cases hw : part'.read w with
      | none => simp [h' _, hw]
      | some content' => simp [h _, h' _, hv, hw, hapart content content' target]

theorem Field.independent_of_parts {α : Type} {fields : List (Field α)} {parts : List (Part α)}
    (h : List.Forall₂ Sets fields parts) (hapart : parts.Pairwise Part.Apart) : fields.Pairwise Independent := by
  induction h with
  | nil => exact .nil
  | @cons field part fields parts hfield hrest ih =>
      obtain ⟨hpart, hparts⟩ := List.pairwise_cons.mp hapart
      refine .cons (fun other hother => ?_) (ih hparts)
      obtain ⟨part', hpart', hother'⟩ := exists_mem_of_forall₂ hrest hother
      exact hfield.independent hother' (hpart part' hpart')

theorem Field.assign_comm {α : Type} {fields : List (Field α)} (hfields : fields.Pairwise Independent)
    {target next last : α} {name other : String} {v w : Value} (hne : name ≠ other)
    (h : assign fields target name v = .ok next) (h' : assign fields next other w = .ok last) :
    ∃ next', assign fields target other w = .ok next' ∧ assign fields next' name v = .ok last := by
  obtain ⟨field, hfind, hset⟩ := assign_eq_ok_iff.mp h
  obtain ⟨field', hfind', hset'⟩ := assign_eq_ok_iff.mp h'
  have hsymm : Std.Symm (Independent (α := α)) := ⟨fun _ _ hind target v w => (hind target w v).symm⟩
  -- A field has one name, so those that two names find are two.
  have hdistinct : field ≠ field' := by
    rintro rfl
    have hname : field.name = name := by simpa using List.find?_some hfind
    have hother : field.name = other := by simpa using List.find?_some hfind'
    exact hne (hname.symm.trans hother)
  have hind : field.Independent field' :=
    hfields.forall (List.mem_of_find?_eq_some hfind) (List.mem_of_find?_eq_some hfind') hdistinct
  have hlast : (field'.set? target w).bind (fun next => field.set? next v) = some last := by
    rw [← hind target v w, hset]
    exact hset'
  obtain ⟨next', hnext', hlast⟩ := Option.bind_eq_some_iff.mp hlast
  exact ⟨next', assign_eq_ok_iff.mpr ⟨field', hfind', hnext'⟩, assign_eq_ok_iff.mpr ⟨field, hfind, hlast⟩⟩

/-! ### Objects -/

namespace Object

theorem setField_comm_of_table {α : Type} {fields : List (Field α)} {parts : List (Part α)} {wrap : α → Object}
    (hwrap : ∀ a name v, (wrap a).setField name v = (Field.assign fields a name v).map wrap)
    (hsets : List.Forall₂ Field.Sets fields parts) (hapart : parts.Pairwise Part.Apart) {a : α} {next last : Object}
    {name other : String} {v w : Value} (hne : name ≠ other) (h : (wrap a).setField name v = .ok next)
    (h' : next.setField other w = .ok last) :
    ∃ next', (wrap a).setField other w = .ok next' ∧ next'.setField name v = .ok last := by
  rw [hwrap] at h
  obtain ⟨b, hb, rfl⟩ := Result.map_eq_ok_iff.mp h
  rw [hwrap] at h'
  obtain ⟨c, hc, rfl⟩ := Result.map_eq_ok_iff.mp h'
  obtain ⟨b', hb', hc'⟩ := Field.assign_comm (Field.independent_of_parts hsets hapart) hne hb hc
  exact ⟨wrap b', by rw [hwrap, hb']; rfl, by rw [hwrap, hc']; rfl⟩

/-- Of two fields that are set one after the other, the second may be set first. -/
theorem setField_comm {o next last : Object} {name other : String} {v w : Value} (hne : name ≠ other)
    (h : o.setField name v = .ok next) (h' : next.setField other w = .ok last) :
    ∃ next', o.setField other w = .ok next' ∧ next'.setField name v = .ok last := by
  cases o with
  | sector s => exact setField_comm_of_table (fun _ _ _ => rfl) Sector.sets_parts Sector.apart_parts hne h h'
  | boundary b => exact setField_comm_of_table (fun _ _ _ => rfl) Boundary.sets_parts Boundary.apart_parts hne h h'
  | transform t =>
      exact setField_comm_of_table (fun _ _ _ => rfl) Transform.sets_parts Transform.apart_parts hne h h'

/-- Fields of different names may be set in any order. -/
theorem foldlM_setField_perm {fields others : List (String × Value)} (h : fields.Perm others)
    (hdistinct : (fields.map Prod.fst).Nodup) {o built : Object}
    (hbuilt : fields.foldlM (fun o field => o.setField field.1 field.2) o = .ok built) :
    others.foldlM (fun o field => o.setField field.1 field.2) o = .ok built := by
  refine Result.foldlM_perm (R := fun field other => field.1 ≠ other.1) ?_ ?_ h (List.pairwise_map.mp hdistinct) hbuilt
  · exact fun hne => hne.symm
  · exact fun hne hnext hlast => setField_comm hne hnext hlast

end Object

end LevelPlay
