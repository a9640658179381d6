import Mathlib.Data.List.Nodup
import LevelPlay.Proofs.Value.Assignment

/-! Runs of calls that set fields. From outside, a field is what it is called, what a value is converted to for it, and
what it holds. A call sets the field of its name and spares all others, and a call that fails does nothing at all. So
whatever calls are made on an object, each field holds in the end what the last value that it took was converted to. -/

namespace LevelPlay

/-! ### Fields from outside -/

/-- A field as it is seen from outside: its name, what messages say it expects, what a value is converted to for it, and
what it holds. -/
structure Field.View (α : Type) where
  name : String
  expects : String
  Content : Type
  convert : Value → Option Content
  get : α → Content

/-- The part is what the view shows, and no other view shows anything of it. -/
def Part.Shown {α : Type} (views : List (Field.View α)) (part : Part α) (view : Field.View α) : Prop :=
  (∀ target v, (part.read v).map (fun content => view.get (part.write content target)) = view.convert v) ∧
    ∀ target content, ∀ other ∈ views, other.name ≠ view.name →
      other.get (part.write content target) = other.get target

def Sector.views : List (Field.View Sector) :=
  [⟨"Boundary", "SectorBoundary", Boundary, Value.boundary?, boundary⟩,
    ⟨"Transform", "SectorTransform", Transform, Value.transform?, transform⟩,
    ⟨"CellFloor", "number", Float32, fun v => v.number?.map Float.toFloat32, cellFloor⟩,
    ⟨"CellHeight", "number", Float32, fun v => v.number?.map Float.toFloat32, cellHeight⟩,
    ⟨"SectorId", "integer id", Int, Value.toId?, id⟩,
    ⟨"Tags", "autofield", Autofield, Value.autofield?, tags⟩]

def Boundary.views : List (Field.View Boundary) :=
  [⟨"Kernel", "Vector3", Vec3, Value.vector?, kernel⟩,
    ⟨"Vertices", "[Vector3] list", List Vec3, fun v => (v.itemsOf? .vector).map Value.vectors, vertices⟩,
    ⟨"Triangles", "[Autofield] list", List Autofield, fun v => (v.itemsOf? .autofield).map Value.autofields, triangles⟩]

def Transform.views : List (Field.View Transform) :=
  [⟨"Position", "Vector3", Vec3, Value.vector?, position⟩,
    ⟨"Rotation", "orientation", Rotation, Value.rotation?, rotation⟩,
    ⟨"Scale", "Vector3", Vec3, Value.vector?, scale⟩]

theorem Sector.eq_of_get_eq {s t : Sector} (h : ∀ view ∈ views, view.get s = view.get t) : s = t := by
  cases s
  cases t
  simpa [views] using h

theorem Boundary.eq_of_get_eq {b c : Boundary} (h : ∀ view ∈ views, view.get b = view.get c) : b = c := by
  cases b
  cases c
  simpa [views] using h

theorem Transform.eq_of_get_eq {t u : Transform} (h : ∀ view ∈ views, view.get t = view.get u) : t = u := by
  cases t
  cases u
  simpa [views] using h

namespace Field

variable {α : Type} {fields : List (Field α)} {views : List (View α)}

/-- The field is as the view shows it, and setting it changes what no other view shows. -/
structure Shows (views : List (View α)) (field : Field α) (view : View α) : Prop where
  name : field.name = view.name
  expects : field.expects = view.expects
  sets : ∀ target v, (field.set? target v).map view.get = view.convert v
  spares : ∀ {target v changed}, field.set? target v = some changed →
    ∀ other ∈ views, other.name ≠ view.name → other.get changed = other.get target

theorem Sets.shows {field : Field α} {part : Part α} {view : View α} (h : field.Sets part)
    (hshown : part.Shown views view) (hname : field.name = view.name) (hexpects : field.expects = view.expects) :
    field.Shows views view where
  name := hname
  expects := hexpects
  sets target v := by
    rw [h target v, Option.map_map]
    exact hshown.1 target v
  spares := by
    intro target v changed hset other hother hne
    rw [h target v] at hset
    obtain ⟨content, -, rfl⟩ := Option.map_eq_some_iff.mp hset
    exact hshown.2 target content other hother hne

/-- Fields are as the views show them if their parts are, and their texts. -/
theorem shows_of_parts {parts : List (Part α)} {shown : List (View α)} (hsets : List.Forall₂ Sets fields parts)
    (hparts : List.Forall₂ (Part.Shown views) parts shown)
    (htexts : fields.map (fun field => (field.name, field.expects)) =
      shown.map fun view => (view.name, view.expects)) : List.Forall₂ (Shows views) fields shown := by
  induction hsets generalizing shown with
  | nil =>
      cases hparts
      exact .nil
  | cons hfield _ ih =>
      cases hparts with
      | cons hpart hrest =>
          obtain ⟨hfirst, hothers⟩ := List.cons_eq_cons.mp htexts
          obtain ⟨hname, hexpects⟩ := Prod.mk.inj hfirst
          exact .cons (hfield.shows hpart hname hexpects) (ih hrest hothers)

end Field

theorem Sector.shows_views : List.Forall₂ (Field.Shows views) fields views :=
  Field.shows_of_parts sets_parts (by simp [parts, views, Part.Shown]) rfl

theorem Boundary.shows_views : List.Forall₂ (Field.Shows views) fields views :=
  Field.shows_of_parts sets_parts (by simp [parts, views, Part.Shown]) rfl

theorem Transform.shows_views : List.Forall₂ (Field.Shows views) fields views :=
  Field.shows_of_parts sets_parts (by simp [parts, views, Part.Shown]) rfl

/-! ### A call -/

namespace Field

variable {α : Type} {fields : List (Field α)} {views : List (View α)}

/-- What a call can do: the name is unknown, or the value is not converted, or its field, and no other, changes. -/
inductive Assigned (views : List (View α)) (target : α) (name : String) (v : Value) : Except FieldError α → Prop
  | unknown (hname : name ∉ views.map View.name) : Assigned views target name v (.error .unknown)
  | mismatch {view : View α} (hview : view ∈ views) (hname : view.name = name) (hv : view.convert v = none) :
      Assigned views target name v (.error (.mismatch view.expects v.kind))
  | ok {view : View α} {changed : α} (hview : view ∈ views) (hname : view.name = name)
      (hv : view.convert v = some (view.get changed))
      (hspares : ∀ other ∈ views, other.name ≠ name → other.get changed = other.get target) :
      Assigned views target name v (.ok changed)

theorem names_eq {shown : List (View α)} (h : List.Forall₂ (Shows views) fields shown) :
    fields.map name = shown.map View.name := by
  induction h with
  | nil => rfl
  | cons hfield _ ih => rw [List.map_cons, List.map_cons, hfield.name, ih]

theorem assigned_assign (h : List.Forall₂ (Shows views) fields views) (target : α) (name : String) (v : Value) :
    Assigned views target name v (assign fields target name v) := by
  rw [assign]
  cases hfind : fields.find? fun field => field.name == name with
  | none =>
      apply Assigned.unknown
      rw [← names_eq h]
      simpa using hfind
  | some field =>
      obtain ⟨view, hview, hshows⟩ := exists_mem_of_forall₂ h (List.mem_of_find?_eq_some hfind)
      have hname : view.name = name := by
        rw [← hshows.name]
        simpa using List.find?_some hfind
      have hsets := hshows.sets target v
      cases hset : field.set? target v with
      | none =>
          rw [hset] at hsets
          simp only [hset, hshows.expects]
          exact .mismatch hview hname hsets.symm
      | some changed =>
          rw [hset] at hsets
          simp only [hset]
          exact .ok hview hname hsets.symm (hname ▸ hshows.spares hset)

/-- What a call leaves in the field: what its value is converted to, if the call is for this field. -/
def View.taken (view : View α) (call : String × Value) : Option view.Content :=
  if call.1 = view.name then view.convert call.2 else none

/-- What the last call of a run that the field takes leaves in it. -/
def View.lastTaken (view : View α) (calls : List (String × Value)) : Option view.Content :=
  calls.reverse.findSome? view.taken

theorem View.lastTaken_cons (view : View α) (call : String × Value) (calls : List (String × Value)) :
    view.lastTaken (call :: calls) = (view.lastTaken calls).or (view.taken call) := by
  rw [lastTaken, lastTaken, List.reverse_cons, List.findSome?_append, List.findSome?_singleton]

end Field

namespace ObjectType

/-- What an object of the type is made of. -/
def Record : ObjectType → Type
  | sector => Sector
  | boundary => Boundary
  | transform => Transform

def object : (type : ObjectType) → type.Record → Object
  | sector => .sector
  | boundary => .boundary
  | transform => .transform

def blank : (type : ObjectType) → type.Record
  | sector => Sector.blank
  | boundary => Boundary.empty
  | transform => Transform.identity

def fields : (type : ObjectType) → List (Field type.Record)
  | sector => Sector.fields
  | boundary => Boundary.fields
  | transform => Transform.fields

def views : (type : ObjectType) → List (Field.View type.Record)
  | sector => Sector.views
  | boundary => Boundary.views
  | transform => Transform.views

variable {type : ObjectType}

theorem shows_views (type : ObjectType) : List.Forall₂ (Field.Shows type.views) type.fields type.views := by
  cases type with
  | sector => exact Sector.shows_views
  | boundary => exact Boundary.shows_views
  | transform => exact Transform.shows_views

/-- The fields are all that there is to an object. -/
theorem eq_of_get_eq {record other : type.Record} (h : ∀ view ∈ type.views, view.get record = view.get other) :
    record = other := by
  cases type with
  | sector => exact Sector.eq_of_get_eq h
  | boundary => exact Boundary.eq_of_get_eq h
  | transform => exact Transform.eq_of_get_eq h

theorem nodup_names (type : ObjectType) : (type.views.map Field.View.name).Nodup := by
  cases type <;> decide

theorem eq_of_name_eq {view other : Field.View type.Record} (hview : view ∈ type.views) (hother : other ∈ type.views)
    (hname : view.name = other.name) : view = other :=
  List.inj_on_of_nodup_map type.nodup_names hview hother hname

theorem object_blank (type : ObjectType) : type.object type.blank = Object.blank type := by
  cases type <;> rfl

theorem exists_object_eq (o : Object) : ∃ record, o.type.object record = o := by
  cases o <;> exact ⟨_, rfl⟩

theorem setField_object (record : type.Record) (name : String) (v : Value) :
    (type.object record).setField name v = (Field.assign type.fields record name v).map type.object := by
  cases type <;> rfl

theorem assigned_setField (record : type.Record) (name : String) (v : Value) :
    ∃ outcome, (type.object record).setField name v = outcome.map type.object ∧
      Field.Assigned type.views record name v outcome :=
  ⟨_, setField_object record name v, Field.assigned_assign type.shows_views record name v⟩

/-! ### What is taken -/

/-- The values that a field takes. A sector's id may be written as a whole number of 32 bits, and a list has to be of
the right element type. -/
inductive Takes : ObjectType → String → Value → Prop
  | boundary (b : Boundary) : Takes .sector "Boundary" (.object (.boundary b))
  | transform (t : Transform) : Takes .sector "Transform" (.object (.transform t))
  | cellFloor (x : Float) : Takes .sector "CellFloor" (.number x)
  | cellHeight (x : Float) : Takes .sector "CellHeight" (.number x)
  | identifier (id : Int) : Takes .sector "SectorId" (.identifier id)
  | whole {x : Float} {n : Int} (hx : (Decimal.Binary.ofFloat x).toInt? = some n)
      (hn : -2147483648 ≤ n ∧ n ≤ 2147483647) : Takes .sector "SectorId" (.number x)
  | tags (a : Autofield) : Takes .sector "Tags" (.autofield a)
  | kernel (v : Vec3) : Takes .boundary "Kernel" (.vector v)
  | vertices (items : List Value) : Takes .boundary "Vertices" (.list .vector items)
  | triangles (items : List Value) : Takes .boundary "Triangles" (.list .autofield items)
  | position (v : Vec3) : Takes .transform "Position" (.vector v)
  | rotation (q : Rotation) : Takes .transform "Rotation" (.rotation q)
  | scale (v : Vec3) : Takes .transform "Scale" (.vector v)

end ObjectType

theorem Sector.takes_of_convert {view : Field.View Sector} (hview : view ∈ views) {v : Value}
    {content : view.Content} (hv : view.convert v = some content) : ObjectType.Takes .sector view.name v := by
  simp only [views, List.mem_cons, List.not_mem_nil, or_false] at hview
  rcases hview with rfl | rfl | rfl | rfl | rfl | rfl
  · rw [Value.boundary?_eq_some_iff.mp hv]
    exact .boundary content
  · rw [Value.transform?_eq_some_iff.mp hv]
    exact .transform content
  · obtain ⟨x, hx, -⟩ := Option.map_eq_some_iff.mp hv
    rw [Value.number?_eq_some_iff.mp hx]
    exact .cellFloor x
  · obtain ⟨x, hx, -⟩ := Option.map_eq_some_iff.mp hv
    rw [Value.number?_eq_some_iff.mp hx]
    exact .cellHeight x
  · rcases Value.toId?_eq_some_iff.mp hv with rfl | ⟨x, rfl, hx, hn⟩
    · exact .identifier content
    · exact .whole hx hn
  · rw [Value.autofield?_eq_some_iff.mp hv]
    exact .tags content

theorem Boundary.takes_of_convert {view : Field.View Boundary} (hview : view ∈ views) {v : Value}
    {content : view.Content} (hv : view.convert v = some content) : ObjectType.Takes .boundary view.name v := by
  simp only [views, List.mem_cons, List.not_mem_nil, or_false] at hview
  rcases hview with rfl | rfl | rfl
  · rw [Value.vector?_eq_some_iff.mp hv]
    exact .kernel content
  · obtain ⟨items, hitems, -⟩ := Option.map_eq_some_iff.mp hv
    rw [Value.itemsOf?_eq_some_iff.mp hitems]
    exact .vertices items
  · obtain ⟨items, hitems, -⟩ := Option.map_eq_some_iff.mp hv
    rw [Value.itemsOf?_eq_some_iff.mp hitems]
    exact .triangles items

theorem Transform.takes_of_convert {view : Field.View Transform} (hview : view ∈ views) {v : Value}
    {content : view.Content} (hv : view.convert v = some content) : ObjectType.Takes .transform view.name v := by
  simp only [views, List.mem_cons, List.not_mem_nil, or_false] at hview
  rcases hview with rfl | rfl | rfl
  · rw [Value.vector?_eq_some_iff.mp hv]
    exact .position content
  · rw [Value.rotation?_eq_some_iff.mp hv]
    exact .rotation content
  · rw [Value.vector?_eq_some_iff.mp hv]
    exact .scale content

namespace ObjectType

variable {type : ObjectType}

theorem Takes.exists_convert {name : String} {v : Value} (h : Takes type name v) :
    ∃ view ∈ type.views, view.name = name ∧ ∃ content, view.convert v = some content := by
  cases h with
  | boundary b => exact ⟨_, List.mem_of_getElem? (i := 0) rfl, rfl, b, rfl⟩
  | transform t => exact ⟨_, List.mem_of_getElem? (i := 1) rfl, rfl, t, rfl⟩
  | cellFloor x => exact ⟨_, List.mem_of_getElem? (i := 2) rfl, rfl, x.toFloat32, rfl⟩
  | cellHeight x => exact ⟨_, List.mem_of_getElem? (i := 3) rfl, rfl, x.toFloat32, rfl⟩
  | identifier id => exact ⟨_, List.mem_of_getElem? (i := 4) rfl, rfl, id, rfl⟩
  | @whole x n hx hn =>
      exact ⟨_, List.mem_of_getElem? (i := 4) rfl, rfl, n, Value.toId?_eq_some_iff.mpr (.inr ⟨x, rfl, hx, hn⟩)⟩
  | tags a => exact ⟨_, List.mem_of_getElem? (i := 5) rfl, rfl, a, rfl⟩
  | kernel v => exact ⟨_, List.mem_of_getElem? (i := 0) rfl, rfl, v, rfl⟩
  | vertices items => exact ⟨_, List.mem_of_getElem? (i := 1) rfl, rfl, Value.vectors items, rfl⟩
  | triangles items => exact ⟨_, List.mem_of_getElem? (i := 2) rfl, rfl, Value.autofields items, rfl⟩
  | position v => exact ⟨_, List.mem_of_getElem? (i := 0) rfl, rfl, v, rfl⟩
  | rotation q => exact ⟨_, List.mem_of_getElem? (i := 1) rfl, rfl, q, rfl⟩
  | scale v => exact ⟨_, List.mem_of_getElem? (i := 2) rfl, rfl, v, rfl⟩

theorem takes_of_convert {view : Field.View type.Record} (hview : view ∈ type.views) {v : Value}
    {content : view.Content} (hv : view.convert v = some content) : Takes type view.name v := by
  cases type with
  | sector => exact Sector.takes_of_convert hview hv
  | boundary => exact Boundary.takes_of_convert hview hv
  | transform => exact Transform.takes_of_convert hview hv

/-- A field takes the values that are converted for it. -/
theorem takes_iff_convert {view : Field.View type.Record} (hview : view ∈ type.views) {v : Value} :
    Takes type view.name v ↔ (view.convert v).isSome = true := by
  constructor
  · intro h
    obtain ⟨other, hother, hname, content, hv⟩ := h.exists_convert
    cases type.eq_of_name_eq hother hview hname
    rw [hv]
    rfl
  · intro h
    obtain ⟨content, hv⟩ := Option.isSome_iff_exists.mp h
    exact takes_of_convert hview hv

/-- What a call on an object of the type does. -/
theorem setField_cases (record : type.Record) (name : String) (v : Value) :
    (name ∉ type.fields.map Field.name ∧ ¬Takes type name v ∧
        (type.object record).setField name v = .error .unknown) ∨
      (∃ view ∈ type.views, view.name = name ∧ ¬Takes type name v ∧
        (type.object record).setField name v = .error (.mismatch view.expects v.kind)) ∨
      ∃ view ∈ type.views, ∃ next, view.name = name ∧ Takes type name v ∧
        (type.object record).setField name v = .ok next := by
  obtain ⟨outcome, hset, houtcome⟩ := assigned_setField record name v
  rw [hset, Field.names_eq type.shows_views]
  cases houtcome with
  | unknown hname =>
      refine .inl ⟨hname, fun htakes => ?_, rfl⟩
      obtain ⟨view, hview, rfl, -⟩ := htakes.exists_convert
      exact hname (List.mem_map_of_mem hview)
  | @mismatch view hview hname hv =>
      subst hname
      exact .inr (.inl ⟨view, hview, rfl, by simp [takes_iff_convert hview, hv], rfl⟩)
  | @ok view changed hview hname hv _ =>
      subst hname
      exact .inr (.inr ⟨view, hview, _, rfl, takes_of_convert hview hv, rfl⟩)

end ObjectType

/-! ### Runs -/

namespace Object

open LevelPlay.Field (View)
open ObjectType (Takes)

/-- What a call that sets a field in place makes of the object, be it accepted or not. -/
def afterCall (o : Object) (call : String × Value) : Object :=
  ((setInPlace call.1 call.2).run.run o).2

def afterCalls (o : Object) (calls : List (String × Value)) : Object :=
  calls.foldl afterCall o

variable {type : ObjectType}

theorem afterCall_eq (o : Object) (call : String × Value) :
    o.afterCall call = (o.setField call.1 call.2).toOption.getD o := by
  rw [afterCall, setInPlace_run]
  cases o.setField call.1 call.2 <;> rfl

theorem afterCall_object (record : type.Record) (call : String × Value) :
    ∃ next, (type.object record).afterCall call = type.object next ∧
      ∀ view ∈ type.views, view.get next = (view.taken call).getD (view.get record) := by
  obtain ⟨outcome, hset, houtcome⟩ := ObjectType.assigned_setField record call.1 call.2
  rw [afterCall_eq, hset]
  cases houtcome with
  | unknown hname =>
      refine ⟨record, rfl, fun view hview => ?_⟩
      have hother : call.1 ≠ view.name := fun hsame => hname (hsame ▸ List.mem_map_of_mem hview)
      rw [View.taken, if_neg hother]
      rfl
  | mismatch hview hname hv =>
      refine ⟨record, rfl, fun other hother => ?_⟩
      rw [View.taken]
      split_ifs with hsame
      · cases ObjectType.eq_of_name_eq hview hother (hname.trans hsame)
        rw [hv]
        rfl
      · rfl
  | @ok view changed hview hname hv hspares =>
      refine ⟨changed, rfl, fun other hother => ?_⟩
      rw [View.taken]
      split_ifs with hsame
      · cases ObjectType.eq_of_name_eq hview hother (hname.trans hsame)
        rw [hv]
        rfl
      · exact hspares other hother (Ne.symm hsame)

theorem afterCalls_object (record : type.Record) (calls : List (String × Value)) :
    ∃ last, (type.object record).afterCalls calls = type.object last ∧
      ∀ view ∈ type.views, view.get last = (view.lastTaken calls).getD (view.get record) := by
  induction calls generalizing record with
  | nil => exact ⟨record, rfl, fun _ _ => rfl⟩
  | cons call calls ih =>
      obtain ⟨next, hnext, hcall⟩ := afterCall_object record call
      obtain ⟨last, hlast, hcalls⟩ := ih next
      refine ⟨last, ?_, fun view hview => ?_⟩
      · rw [afterCalls, List.foldl_cons, hnext]
        exact hlast
      · rw [hcalls view hview, hcall view hview, View.lastTaken_cons, Option.getD_or]

theorem setField_eq_ok_iff (record : type.Record) (name : String) (v : Value) :
    (∃ next, (type.object record).setField name v = .ok next) ↔ Takes type name v := by
  rcases ObjectType.setField_cases record name v with ⟨-, htakes, hset⟩ | ⟨view, -, -, htakes, hset⟩ |
    ⟨view, -, next, -, htakes, hset⟩ <;>
  simp [hset, htakes]

theorem setField_eq_unknown_iff (record : type.Record) (name : String) (v : Value) :
    (type.object record).setField name v = .error .unknown ↔ name ∉ type.fields.map Field.name := by
  rcases ObjectType.setField_cases record name v with ⟨hname, -, hset⟩ | ⟨view, hview, rfl, -, hset⟩ |
    ⟨view, hview, next, rfl, -, hset⟩
  · exact iff_of_true hset hname
  all_goals
    rw [hset, Field.names_eq type.shows_views]
    exact iff_of_false nofun (not_not_intro (List.mem_map_of_mem hview))

theorem setField_eq_mismatch_iff (record : type.Record) (name : String) (v : Value) (expected : String) (found : Kind) :
    (type.object record).setField name v = .error (.mismatch expected found) ↔
      (∃ view ∈ type.views, view.name = name ∧ view.expects = expected) ∧ ¬Takes type name v ∧ found = v.kind := by
  rcases ObjectType.setField_cases record name v with ⟨hname, -, hset⟩ | ⟨view, hview, rfl, htakes, hset⟩ |
    ⟨view, -, next, -, htakes, hset⟩
  · rw [hset]
    refine iff_of_false nofun ?_
    rintro ⟨⟨view, hview, rfl, -⟩, -⟩
    rw [Field.names_eq type.shows_views] at hname
    exact hname (List.mem_map_of_mem hview)
  · rw [hset]
    constructor
    · intro h
      cases h
      exact ⟨⟨view, hview, rfl, rfl⟩, htakes, rfl⟩
    · rintro ⟨⟨other, hother, hname, rfl⟩, -, rfl⟩
      rw [ObjectType.eq_of_name_eq hother hview hname]
  · rw [hset]
    exact iff_of_false nofun fun h => h.2.1 htakes

/-- Each field holds at last what the last call that it takes has left there, or what it held at first; and the fields
are all that there is to an object. Whether a call succeeds is a matter of the type of the object, the name and the
value alone. It fails with an unknown field where the table has no such name, with a mismatch where the field does not
take the value, and then it has done nothing, even where the field is set in place. -/
theorem setters_atomic_and_independent :
    (∀ (type : ObjectType) (calls : List (String × Value)), ∃ last : type.Record,
        (Object.blank type).afterCalls calls = type.object last ∧
          ∀ view ∈ type.views, view.get last = (view.lastTaken calls).getD (view.get type.blank)) ∧
      (∀ (type : ObjectType) (record other : type.Record),
        (∀ view ∈ type.views, view.get record = view.get other) → record = other) ∧
      (∀ (type : ObjectType), ∀ view ∈ type.views, ∀ v, (view.convert v).isSome = true ↔ Takes type view.name v) ∧
      ∀ (o : Object) (name : String) (v : Value),
        ((∃ next, o.setField name v = .ok next) ↔ Takes o.type name v) ∧
          (o.setField name v = .error .unknown ↔ name ∉ o.type.fields.map Field.name) ∧
          (∀ expected found, o.setField name v = .error (.mismatch expected found) ↔
            (∃ view ∈ o.type.views, view.name = name ∧ view.expects = expected) ∧ ¬Takes o.type name v ∧
              found = v.kind) ∧
          ((setInPlace name v).run.run o =
            match o.setField name v with
            | .ok next => (.ok (), next)
            | .error error => (.error error, o)) ∧
          ∀ error, o.setField name v = .error error → o.afterCall (name, v) = o := by
  refine ⟨fun type calls => ?_, fun _ _ _ => ObjectType.eq_of_get_eq,
    fun type view hview v => (ObjectType.takes_iff_convert hview).symm, fun o name v => ?_⟩
  · rw [← ObjectType.object_blank]
    exact afterCalls_object type.blank calls
  · obtain ⟨record, hrecord⟩ := ObjectType.exists_object_eq o
    have hok := setField_eq_ok_iff record name v
    have hunknown := setField_eq_unknown_iff record name v
    have hmismatch := setField_eq_mismatch_iff record name v
    rw [hrecord] at hok hunknown hmismatch
    refine ⟨hok, hunknown, hmismatch, setInPlace_run o name v, fun error herror => ?_⟩
    rw [afterCall_eq, herror]
    rfl

/-- Calls on a sector of which three are refused: one for a name that no field has, and two for their values. -/
def sectorCalls : List (String × Value) :=
  [("SectorId", .number 12.0), ("Heading", .number 1.0), ("CellFloor", .autofield .empty), ("SectorId", .identifier 9),
    ("SectorId", .number 1.5), ("Tags", .autofield ⟨.empty, [.identifier 3]⟩)]

theorem sectorCalls_last_taken :
    (∃ last : Sector, (Object.blank .sector).afterCalls sectorCalls = .sector last ∧ last.id = 9 ∧
        last.tags = ⟨.empty, [.identifier 3]⟩ ∧ last.cellFloor = 0) ∧
      (∀ s, (Object.sector s).setField "Heading" (.number 1.0) = .error .unknown ∧
        (Object.sector s).afterCall ("Heading", .number 1.0) = .sector s) ∧
      ∀ s, (Object.sector s).setField "SectorId" (.number 1.5) = .error (.mismatch "integer id" .number) ∧
        (Object.sector s).afterCall ("SectorId", .number 1.5) = .sector s := by
  have hhalf : Decimal.idOfFloat? 1.5 = none := by decide +kernel
  have hid : View.lastTaken ⟨"SectorId", "integer id", Int, Value.toId?, Sector.id⟩ sectorCalls = some 9 := by
    simp [View.lastTaken, View.taken, sectorCalls, Value.toId?, hhalf]
  obtain ⟨hruns, -, htakes, hcalls⟩ := setters_atomic_and_independent
  obtain ⟨last, hlast, hviews⟩ := hruns .sector sectorCalls
  refine ⟨⟨last, hlast, ?_, ?_, ?_⟩, fun s => ?_, fun s => ?_⟩
  · have hget := hviews _ (List.mem_of_getElem? (i := 4) rfl)
    exact hget.trans (congrArg (Option.getD · 0) hid)
  · exact hviews _ (List.mem_of_getElem? (i := 5) rfl)
  · exact hviews _ (List.mem_of_getElem? (i := 2) rfl)
  · obtain ⟨-, hunknown, -, -, hfails⟩ := hcalls (.sector s) "Heading" (.number 1.0)
    have hname : "Heading" ∉ (ObjectType.fields .sector).map Field.name := by decide
    have herror := hunknown.mpr hname
    exact ⟨herror, hfails _ herror⟩
  · obtain ⟨-, -, hmismatch, -, hfails⟩ := hcalls (.sector s) "SectorId" (.number 1.5)
    have hmem : ⟨"SectorId", "integer id", Int, Value.toId?, Sector.id⟩ ∈ ObjectType.views .sector :=
      List.mem_of_getElem? (i := 4) rfl
    have hrefused : ¬Takes .sector "SectorId" (.number 1.5) := by
      rw [← htakes .sector _ hmem]
      simp [Value.toId?, hhalf]
    have herror := (hmismatch "integer id" .number).mpr ⟨⟨_, hmem, rfl, rfl⟩, hrefused, rfl⟩
    exact ⟨herror, hfails _ herror⟩

end Object

end LevelPlay
