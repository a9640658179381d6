import Mathlib.Logic.Relation
import LevelPlay.Proofs.Value.Fields
import LevelPlay.Proofs.Value.Literal

/-! Values are well formed at every depth. The items of a list are of the kind that its type names, and an autofield
has one value of a kind. Whatever is read is so, all the way down through lists, autofields and objects, and so the
conversions of lists to vectors, autofields and numbers leave nothing out: a boundary has the vertices and triangles
that are written of it, in their order. -/

namespace LevelPlay

/-- The kind of the items of a list of the type. -/
def TypeName.itemKind : TypeName → Kind
  | object type => .object type
  | vector => .vector
  | intVector => .intVector
  | rotation => .rotation
  | autofield => .autofield
  | float => .number
  | int => .identifier

namespace Value

/-! ### Values inside a value -/

/-- The values directly inside a value: the items of a list, the values of an autofield, the triangles of a boundary,
and the boundary, the transform and the tags of a sector. -/
inductive Inside : Value → Value → Prop where
  | item {element : TypeName} {items : List Value} {item : Value} (hitem : item ∈ items) :
      Inside item (.list element items)
  | field {a : Autofield} {v : Value} (hfield : v ∈ a.fields) : Inside v (.autofield a)
  | triangle {b : Boundary} {triangle : Autofield} (htriangle : triangle ∈ b.triangles) :
      Inside (.autofield triangle) (.object (.boundary b))
  | boundary (s : Sector) : Inside (.object (.boundary s.boundary)) (.object (.sector s))
  | transform (s : Sector) : Inside (.object (.transform s.transform)) (.object (.sector s))
  | tags (s : Sector) : Inside (.autofield s.tags) (.object (.sector s))

/-- The first value is the second, or inside it at some depth. -/
def Within : Value → Value → Prop := Relation.ReflTransGen Inside

/-- The items of a list are of the kind that its type names, and the values of an autofield are of distinct kinds. -/
def Fitting : Value → Prop
  | list element items => ∀ item ∈ items, item.kind = element.itemKind
  | autofield a => (a.fields.map kind).Nodup
  | _ => True

/-- Lists and autofields are fitting at every depth. -/
def WellFormed (v : Value) : Prop := ∀ w, Within w v → w.Fitting

theorem wellFormed_iff {v : Value} : v.WellFormed ↔ v.Fitting ∧ ∀ w, Inside w v → w.WellFormed := by
  constructor
  · exact fun h => ⟨h v .refl, fun w hw u hu => h u (hu.tail hw)⟩
  · rintro ⟨hfitting, hinside⟩ u hu
    rcases hu.cases_tail with rfl | ⟨w, huw, hwv⟩
    · exact hfitting
    · exact hinside w hwv u huw

theorem WellFormed.of_within {v w : Value} (h : v.WellFormed) (hw : Within w v) : w.WellFormed :=
  fun u hu => h u (hu.trans hw)

theorem wellFormed_of_forall_not_inside {v : Value} (hfitting : v.Fitting) (h : ∀ w, ¬ Inside w v) : v.WellFormed :=
  wellFormed_iff.mpr ⟨hfitting, fun w hw => absurd hw (h w)⟩

theorem wellFormed_list_iff {element : TypeName} {items : List Value} :
    (list element items).WellFormed ↔ ∀ item ∈ items, item.kind = element.itemKind ∧ item.WellFormed := by
  rw [wellFormed_iff, forall₂_and]
  refine and_congr Iff.rfl ⟨fun h item hitem => h item (.item hitem), ?_⟩
  intro h w hw
  cases hw with
  | item hitem => exact h w hitem

theorem wellFormed_autofield_iff {a : Autofield} :
    (autofield a).WellFormed ↔ (a.fields.map kind).Nodup ∧ ∀ v ∈ a.fields, v.WellFormed := by
  rw [wellFormed_iff]
  refine and_congr Iff.rfl ⟨fun h v hv => h v (.field hv), ?_⟩
  intro h w hw
  cases hw with
  | field hfield => exact h w hfield

theorem wellFormed_boundary_iff {b : Boundary} :
    (object (.boundary b)).WellFormed ↔ ∀ triangle ∈ b.triangles, (autofield triangle).WellFormed := by
  rw [wellFormed_iff]
  constructor
  · exact fun h triangle htriangle => h.2 _ (.triangle htriangle)
  · refine fun h => ⟨trivial, fun w hw => ?_⟩
    cases hw with
    | triangle htriangle => exact h _ htriangle

theorem wellFormed_transform (t : Transform) : (object (.transform t)).WellFormed :=
  wellFormed_of_forall_not_inside trivial nofun

theorem wellFormed_sector_iff {s : Sector} :
    (object (.sector s)).WellFormed ↔ (object (.boundary s.boundary)).WellFormed ∧ (autofield s.tags).WellFormed := by
  rw [wellFormed_iff]
  constructor
  · exact fun h => ⟨h.2 _ (.boundary s), h.2 _ (.tags s)⟩
  · rintro ⟨hboundary, htags⟩
    refine ⟨trivial, fun w hw => ?_⟩
    cases hw with
    | boundary => exact hboundary
    | transform => exact wellFormed_transform s.transform
    | tags => exact htags

theorem wellFormed_blank (type : ObjectType) : (object (.blank type)).WellFormed := by
  have hboundary : (object (.boundary .empty)).WellFormed := wellFormed_boundary_iff.mpr nofun
  have htags : (autofield .empty).WellFormed := wellFormed_autofield_iff.mpr ⟨List.nodup_nil, nofun⟩
  cases type with
  | sector => exact wellFormed_sector_iff.mpr ⟨hboundary, htags⟩
  | boundary => exact hboundary
  | transform => exact wellFormed_transform .identity

/-! ### Items -/

/-- An item is of the kind that the type of its list names. It is the value that is written, or it is an id. -/
theorem fit?_cases {element : TypeName} {v item : Value} (h : fit? element v = some item) :
    item.kind = element.itemKind ∧ (item = v ∨ ∃ id, item = .identifier id) := by
  rw [fit?.eq_def] at h
  split at h
  · split at h
    · rename_i htype
      cases h
      exact ⟨congrArg Kind.object htype, .inl rfl⟩
    · cases h
  case h_8 =>
    obtain ⟨id, -, rfl⟩ := Option.map_eq_some_iff.mp h
    exact ⟨rfl, .inr ⟨id, rfl⟩⟩
  case h_9 => cases h
  all_goals
    cases h
    exact ⟨rfl, .inl rfl⟩

theorem WellFormed.fit? {element : TypeName} {v item : Value} (hv : v.WellFormed) (h : fit? element v = some item) :
    item.WellFormed := by
  rcases (fit?_cases h).2 with rfl | ⟨id, rfl⟩
  · exact hv
  · exact wellFormed_of_forall_not_inside trivial nofun

theorem eq_of_fit? {element : TypeName} {v item : Value} (helement : element ≠ .int)
    (h : fit? element v = some item) : item = v := by
  obtain ⟨hkind, hitem | ⟨id, rfl⟩⟩ := fit?_cases h
  · exact hitem
  · cases element <;> cases hkind
    exact absurd rfl helement

/-! ### Objects -/

/-- To put a well-formed value into the part of a well-formed object leaves it well formed. -/
def KeepsWellFormed {α : Type} (wrap : α → Object) (part : Part α) : Prop :=
  ∀ content target v, part.read v = some content → v.WellFormed → (object (wrap target)).WellFormed →
    (object (wrap (part.write content target))).WellFormed

theorem mem_autofields_iff {a : Autofield} {items : List Value} : a ∈ autofields items ↔ .autofield a ∈ items := by
  simp [autofields_eq_filterMap, autofield?_eq_some_iff]

theorem sector_keepsWellFormed : ∀ part ∈ Sector.parts, KeepsWellFormed .sector part := by
  simp only [Sector.parts, List.forall_mem_cons, List.not_mem_nil, false_implies, implies_true, and_true]
  refine ⟨?_, ?_, ?_, ?_, ?_, ?_⟩ <;> intro content s v hread hv hs <;> rw [wellFormed_sector_iff] at hs ⊢
  · exact ⟨boundary?_eq_some_iff.mp hread ▸ hv, hs.2⟩
  · exact hs
  · exact hs
  · exact hs
  · exact hs
  · exact ⟨hs.1, autofield?_eq_some_iff.mp hread ▸ hv⟩

theorem boundary_keepsWellFormed : ∀ part ∈ Boundary.parts, KeepsWellFormed .boundary part := by
  simp only [Boundary.parts, List.forall_mem_cons, List.not_mem_nil, false_implies, implies_true, and_true]
  refine ⟨?_, ?_, ?_⟩ <;> intro content b v hread hv hb <;> rw [wellFormed_boundary_iff] at hb ⊢
  · exact hb
  · exact hb
  · rw [itemsOf?_eq_some_iff.mp hread, wellFormed_list_iff] at hv
    exact fun triangle htriangle => (hv _ (mem_autofields_iff.mp htriangle)).2

theorem wellFormed_of_assign {α : Type} {fields : List (Field α)} {parts : List (Part α)} {wrap : α → Object}
    (hsets : List.Forall₂ Field.Sets fields parts) (hkeeps : ∀ part ∈ parts, KeepsWellFormed wrap part) {a : α}
    {name : String} {v : Value} {changed : Object} (h : (Field.assign fields a name v).map wrap = .ok changed)
    (ha : (object (wrap a)).WellFormed) (hv : v.WellFormed) : (object changed).WellFormed := by
  obtain ⟨b, hassign, rfl⟩ := Result.map_eq_ok_iff.mp h
  obtain ⟨field, hfind, hset⟩ := Field.assign_eq_ok_iff.mp hassign
  obtain ⟨part, hpart, hfield⟩ := exists_mem_of_forall₂ hsets (List.mem_of_find?_eq_some hfind)
  rw [hfield, Option.map_eq_some_iff] at hset
  obtain ⟨content, hread, rfl⟩ := hset
  exact hkeeps part hpart content a v hread hv ha

theorem WellFormed.setField {o changed : Object} {name : String} {v : Value} (ho : (object o).WellFormed)
    (hv : v.WellFormed) (h : o.setField name v = .ok changed) : (object changed).WellFormed := by
  cases o with
  | sector s => exact wellFormed_of_assign Sector.sets_parts sector_keepsWellFormed h ho hv
  | boundary b => exact wellFormed_of_assign Boundary.sets_parts boundary_keepsWellFormed h ho hv
  | transform t =>
      obtain ⟨t', -, rfl⟩ := Result.map_eq_ok_iff.mp h
      exact wellFormed_transform t'

theorem WellFormed.setFields {fields : List (String × Value)} {o built : Object} (ho : (object o).WellFormed)
    (hfields : ∀ field ∈ fields, field.2.WellFormed)
    (h : fields.foldlM (fun o field => o.setField field.1 field.2) o = .ok built) : (object built).WellFormed := by
  refine (Result.foldlM_induction (P := fun o => (object o).WellFormed) (Q := fun _ => True) ho h ?_).1
  exact fun field hfield _ _ hstate hset => ⟨hstate.setField (hfields field hfield) hset, trivial⟩

/-! ### Reading -/

/-- Each entry stands in a part of the tokens. -/
theorem Entries.exists_of_mem {α : Type} {entry : List Token → α → Prop} {tokens : List Token} {as : List α}
    (h : Entries entry tokens as) : ∀ a ∈ as, ∃ front, front.length ≤ tokens.length ∧ entry front a := by
  induction h with
  | none => exact nofun
  | @last tokens a hentry => exact List.forall_mem_singleton.mpr ⟨tokens, Nat.le_refl _, hentry⟩
  | @more front rest a as hentry _ ih =>
      refine List.forall_mem_cons.mpr ⟨⟨front, by simp, hentry⟩, fun a ha => ?_⟩
      obtain ⟨front', hle, hentry'⟩ := ih a ha
      exact ⟨front', by simp only [List.length_append, List.length_cons]; omega, hentry'⟩

theorem Denotes.wellFormed {tokens : List Token} {v : Value} (h : Denotes tokens v) : v.WellFormed := by
  refine h.induction (motive := fun _ v => v.WellFormed) ?_
  intro tokens v h hbody
  cases h with
  | number | identifier | vector | intVector | rotation => exact wellFormed_of_forall_not_inside trivial nofun
  | @object name _ inner fields o htype hentries _ hset =>
      refine (wellFormed_blank _).setFields (fun field hfield => ?_) hset
      obtain ⟨_, hle, ⟨_, hvalue⟩⟩ := hentries.exists_of_mem field hfield
      refine hbody ["[", name, "]", _] rfl hvalue ?_
      simp only [List.length_cons] at hle
      omega
  | @list name element inner values items htype hentries hfit =>
      rw [wellFormed_list_iff]
      intro item hitem
      obtain ⟨v, hv, hfit⟩ : ∃ v ∈ values, fit? element v = some item := exists_mem_of_forall₂ hfit.flip hitem
      obtain ⟨_, hle, hvalue⟩ := hentries.exists_of_mem v hv
      exact ⟨(fit?_cases hfit).1, (hbody ["[", name, "]", _] rfl hvalue hle).fit? hfit⟩
  | autofield hentries _ hfields hkinds =>
      refine wellFormed_autofield_iff.mpr ⟨hkinds, fun v hv => ?_⟩
      rw [hfields, List.mem_filterMap] at hv
      obtain ⟨member, hmember, hv⟩ := hv
      obtain ⟨_, hle, hmember⟩ := hentries.exists_of_mem member hmember
      cases hmember with
      | tag => cases hv
      | value hvalue =>
          cases hv
          exact hbody [_] rfl hvalue hle

/-! ### Conversions of lists -/

/-- If each value of the kind of the items is converted, the items that are converted are all of them. -/
theorem WellFormed.map_filterMap {α : Type} {element : TypeName} {items : List Value} {read : Value → Option α}
    {wrap : α → Value} (h : (list element items).WellFormed) (hread : ∀ {v a}, read v = some a ↔ v = wrap a)
    (hkind : ∀ v, v.kind = element.itemKind → ∃ a, v = wrap a) : (items.filterMap read).map wrap = items := by
  rw [wellFormed_list_iff] at h
  induction items with
  | nil => rfl
  | cons item items ih =>
      obtain ⟨hitem, hrest⟩ := List.forall_mem_cons.mp h
      obtain ⟨a, ha⟩ := hkind item hitem.1
      rw [List.filterMap_cons_some (hread.mpr ha), List.map_cons, ih hrest, ha]

theorem map_vectors {items : List Value} (h : (list .vector items).WellFormed) :
    (vectors items).map vector = items := by
  rw [vectors_eq_filterMap]
  refine h.map_filterMap vector?_eq_some_iff fun v hkind => ?_
  cases v <;> cases hkind
  exact ⟨_, rfl⟩

theorem map_autofields {items : List Value} (h : (list .autofield items).WellFormed) :
    (autofields items).map autofield = items := by
  rw [autofields_eq_filterMap]
  refine h.map_filterMap autofield?_eq_some_iff fun v hkind => ?_
  cases v <;> cases hkind
  exact ⟨_, rfl⟩

theorem map_numbers {items : List Value} (h : (list .float items).WellFormed) :
    (numbers items).map number = items := by
  rw [numbers_eq_filterMap]
  refine h.map_filterMap number?_eq_some_iff fun v hkind => ?_
  cases v <;> cases hkind
  exact ⟨_, rfl⟩

/-! ### What is written of a boundary -/

/-- The items of a list are the values that are written of them, if the list is not one of ids. -/
theorem forall₂_of_denotes_listLiteral {element : TypeName} {written : List (List Token)} {trailing : Bool}
    {v : Value} (hwritten : ∀ item ∈ written, ∃ v, Denotes item v)
    (h : Denotes (listLiteral element written trailing) v) (helement : element ≠ .int) :
    ∃ items, v = .list element items ∧ List.Forall₂ Denotes written items := by
  obtain ⟨-, values, items, hvalues, hfit, rfl⟩ := (denotes_listLiteral_iff hwritten).mp h
  have hself : List.Forall₂ (· = ·) values items := hfit.imp fun _ _ h => (eq_of_fit? helement h).symm
  rw [List.forall₂_eq_eq_eq] at hself
  subst hself
  exact ⟨values, rfl, hvalues⟩

/-- Any field of an object may be the last that is set. -/
theorem exists_setField_of_mem {fields : List (String × Value)} {o built : Object}
    (hdistinct : (fields.map Prod.fst).Nodup)
    (h : fields.foldlM (fun o field => o.setField field.1 field.2) o = .ok built) {field : String × Value}
    (hfield : field ∈ fields) : ∃ before : Object, before.setField field.1 field.2 = .ok built := by
  obtain ⟨front, back, rfl⟩ := List.append_of_mem hfield
  -- Which field comes last makes no difference, so this one may.
  have hperm : (front ++ field :: back).Perm (front ++ back ++ [field]) :=
    List.perm_middle.trans (List.perm_append_singleton _ _).symm
  have hlast := Object.foldlM_setField_perm hperm hdistinct h
  rw [List.foldlM_append] at hlast
  obtain ⟨before, -, hlast⟩ := Result.bind_eq_ok_iff.mp hlast
  rw [List.foldlM_cons] at hlast
  obtain ⟨_, hset, hnil⟩ := Result.bind_eq_ok_iff.mp hlast
  cases hnil
  exact ⟨before, hset⟩

theorem vertices_of_setField {o : Object} {items : List Value} {b : Boundary}
    (h : o.setField "Vertices" (.list .vector items) = .ok (.boundary b)) : b.vertices = vectors items := by
  cases o <;> cases h
  rfl

theorem triangles_of_setField {o : Object} {items : List Value} {b : Boundary}
    (h : o.setField "Triangles" (.list .autofield items) = .ok (.boundary b)) : b.triangles = autofields items := by
  cases o <;> cases h
  rfl

theorem boundary_of_setField {o : Object} {v : Value} {s : Sector} (h : o.setField "Boundary" v = .ok (.sector s)) :
    v = .object (.boundary s.boundary) := by
  cases o with
  | sector =>
      rcases v with _ | _ | _ | _ | _ | _ | (_ | _ | _) | _ <;> cases h
      rfl
  | boundary => cases h
  | transform => cases h

section Written

variable {written : List (Token × List Token)} {trailing trailing' : Bool}

/-- An object that is written with a field has the value that is written of it, as if it were the last that is set. -/
theorem exists_setField_of_written {type : ObjectType} {o : Object}
    (hwritten : ∀ field ∈ written, ∃ v, Denotes field.2 v)
    (h : Denotes (objectLiteral type written trailing) (.object o)) {name : Token} {tokens : List Token}
    (hfield : (name, tokens) ∈ written) :
    ∃ (before : Object) (v : Value), before.setField name v = .ok o ∧ Denotes tokens v := by
  obtain ⟨-, fields, built, hfields, hdistinct, hset, hbuilt⟩ := (denotes_objectLiteral_iff hwritten).mp h
  cases hbuilt
  obtain ⟨⟨_, v⟩, hmem, rfl, hvalue⟩ := exists_mem_of_forall₂ hfields hfield
  obtain ⟨before, hlast⟩ := exists_setField_of_mem hdistinct hset hmem
  exact ⟨before, v, hlast, hvalue⟩

variable {b : Boundary} {elements : List (List Token)}

theorem forall₂_vertices (hwritten : ∀ field ∈ written, ∃ v, Denotes field.2 v)
    (h : Denotes (objectLiteral .boundary written trailing) (.object (.boundary b)))
    (helements : ∀ element ∈ elements, ∃ v, Denotes element v)
    (hvertices : ("Vertices", listLiteral .vector elements trailing') ∈ written) :
    List.Forall₂ (fun element x => Denotes element (.vector x)) elements b.vertices := by
  obtain ⟨before, v, hset, hlist⟩ := exists_setField_of_written hwritten h hvertices
  obtain ⟨items, rfl, hitems⟩ := forall₂_of_denotes_listLiteral helements hlist nofun
  rw [← map_vectors hlist.wellFormed, List.forall₂_map_right_iff] at hitems
  rwa [vertices_of_setField hset]

theorem forall₂_triangles (hwritten : ∀ field ∈ written, ∃ v, Denotes field.2 v)
    (h : Denotes (objectLiteral .boundary written trailing) (.object (.boundary b)))
    (helements : ∀ element ∈ elements, ∃ v, Denotes element v)
    (htriangles : ("Triangles", listLiteral .autofield elements trailing') ∈ written) :
    List.Forall₂ (fun element a => Denotes element (.autofield a)) elements b.triangles := by
  obtain ⟨before, v, hset, hlist⟩ := exists_setField_of_written hwritten h htriangles
  obtain ⟨items, rfl, hitems⟩ := forall₂_of_denotes_listLiteral helements hlist nofun
  rw [← map_autofields hlist.wellFormed, List.forall₂_map_right_iff] at hitems
  rwa [triangles_of_setField hset]

theorem denotes_boundary {s : Sector} (hwritten : ∀ field ∈ written, ∃ v, Denotes field.2 v)
    (h : Denotes (objectLiteral .sector written trailing) (.object (.sector s))) {tokens : List Token}
    (hboundary : ("Boundary", tokens) ∈ written) : Denotes tokens (.object (.boundary s.boundary)) := by
  obtain ⟨before, v, hset, hvalue⟩ := exists_setField_of_written hwritten h hboundary
  rwa [boundary_of_setField hset] at hvalue

end Written

/-- What is read is well formed: at every depth the items of a list are of the kind that its type names, and the values
of an autofield are of distinct kinds. So no vector, autofield or number is lost when a list at any depth is converted:
the vertices and triangles of a boundary are, one by one, the elements that are written of them, and the boundary of a
sector is the one that is written of it. -/
theorem wellFormed_of_parseAt :
    (∀ (tokens : List Token) (start : Nat) (v : Value) (last : Nat), parseAt tokens start = .ok (v, last) →
      v.WellFormed ∧ ∀ items,
        (Within (.list .vector items) v → (vectors items).map .vector = items) ∧
        (Within (.list .autofield items) v → (autofields items).map .autofield = items) ∧
        (Within (.list .float items) v → (numbers items).map .number = items)) ∧
    ∀ (written : List (Token × List Token)) (trailing : Bool), (∀ field ∈ written, ∃ v, ReadsAs field.2 v) →
      (∀ b, ReadsAs (objectLiteral .boundary written trailing) (.object (.boundary b)) →
        ∀ (elements : List (List Token)) (trailing' : Bool), (∀ element ∈ elements, ∃ v, ReadsAs element v) →
          (("Vertices", listLiteral .vector elements trailing') ∈ written →
            List.Forall₂ (fun element x => ReadsAs element (.vector x)) elements b.vertices) ∧
          (("Triangles", listLiteral .autofield elements trailing') ∈ written →
            List.Forall₂ (fun element a => ReadsAs element (.autofield a)) elements b.triangles)) ∧
      ∀ s, ReadsAs (objectLiteral .sector written trailing) (.object (.sector s)) →
        ∀ tokens, ("Boundary", tokens) ∈ written → ReadsAs tokens (.object (.boundary s.boundary)) := by
  constructor
  · intro tokens start v last h
    have hv : v.WellFormed := (parseAt_eq_ok_iff.mp h).2.2.wellFormed
    exact ⟨hv, fun items => ⟨fun hlist => map_vectors (hv.of_within hlist),
      fun hlist => map_autofields (hv.of_within hlist), fun hlist => map_numbers (hv.of_within hlist)⟩⟩
  · simp only [readsAs_iff_denotes]
    intro written trailing hwritten
    refine ⟨fun b h elements trailing' helements => ?_, fun s h tokens => denotes_boundary hwritten h⟩
    exact ⟨forall₂_vertices hwritten h helements, forall₂_triangles hwritten h helements⟩

def writtenVertex : List Token := ["<", "1", ",", "2", ",", "3", ">"]

/-- What is written of two triangles, the second without values. -/
def writtenTriangles : List (List Token) :=
  [[Token.openAutofield, "@7", Token.closeAutofield], [Token.openAutofield, Token.closeAutofield]]

def writtenBoundary : List (Token × List Token) :=
  [("Vertices", listLiteral .vector [writtenVertex] false), ("Triangles", listLiteral .autofield writtenTriangles true)]

theorem exists_isNumber_of_isSome {token : Token} (h : Decimal.isLevelNumber token = true)
    (h' : (Decimal.number? token).isSome = true) : ∃ x, IsNumber token x := by
  obtain ⟨x, hx⟩ := Option.isSome_iff_exists.mp h'
  exact ⟨x, h, hx⟩

theorem exists_denotes_writtenVertex : ∃ v, Denotes writtenVertex (.vector v) := by
  obtain ⟨x, hx⟩ : ∃ x, IsNumber "1" x := exists_isNumber_of_isSome (by decide) (by decide)
  obtain ⟨y, hy⟩ : ∃ y, IsNumber "2" y := exists_isNumber_of_isSome (by decide) (by decide)
  obtain ⟨z, hz⟩ : ∃ z, IsNumber "3" z := exists_isNumber_of_isSome (by decide) (by decide)
  exact ⟨_, .vector (.mk hx hy hz)⟩

theorem forall₂_denotes_writtenTriangles : List.Forall₂ Denotes writtenTriangles
    [.autofield ⟨.empty, [.identifier 7]⟩, .autofield .empty] := by
  have hseven : Denotes ["@7"] (.identifier 7) := @Denotes.identifier "7" 7 rfl
  have hfirst : Denotes [Token.openAutofield, "@7", Token.closeAutofield] (.autofield ⟨.empty, [.identifier 7]⟩) :=
    .autofield (.last (.value hseven)) (by simp [TagSet.empty]) rfl (by decide)
  have hsecond : Denotes [Token.openAutofield, Token.closeAutofield] (.autofield .empty) :=
    .autofield .none (by simp [Autofield.empty, TagSet.empty]) rfl List.nodup_nil
  exact .cons hfirst (.cons hsecond .nil)

theorem exists_denotes_of_mem_writtenTriangles : ∀ element ∈ writtenTriangles, ∃ v, Denotes element v := by
  intro element helement
  obtain ⟨v, -, hv⟩ := exists_mem_of_forall₂ forall₂_denotes_writtenTriangles helement
  exact ⟨v, hv⟩

theorem exists_denotes_writtenBoundary : (∀ field ∈ writtenBoundary, ∃ v, Denotes field.2 v) ∧
    ∃ b, Denotes (objectLiteral .boundary writtenBoundary true) (.object (.boundary b)) := by
  obtain ⟨x, hvertex⟩ := exists_denotes_writtenVertex
  have hvertices : Denotes (listLiteral .vector [writtenVertex] false) (.list .vector [.vector x]) :=
    (denotes_listLiteral_iff (List.forall_mem_singleton.mpr ⟨_, hvertex⟩)).mpr
      ⟨nofun, _, _, .cons hvertex .nil, .cons rfl .nil, rfl⟩
  have htriangles : Denotes (listLiteral .autofield writtenTriangles true)
      (.list .autofield [.autofield ⟨.empty, [.identifier 7]⟩, .autofield .empty]) :=
    (denotes_listLiteral_iff exists_denotes_of_mem_writtenTriangles).mpr
      ⟨nofun, _, _, forall₂_denotes_writtenTriangles, .cons rfl (.cons rfl .nil), rfl⟩
  have hfields : ∀ field ∈ writtenBoundary, ∃ v, Denotes field.2 v :=
    List.forall_mem_cons.mpr ⟨⟨_, hvertices⟩, List.forall_mem_singleton.mpr ⟨_, htriangles⟩⟩
  have hwrites : List.Forall₂ Writes writtenBoundary [("Vertices", .list .vector [.vector x]),
      ("Triangles", .list .autofield [.autofield ⟨.empty, [.identifier 7]⟩, .autofield .empty])] :=
    .cons ⟨rfl, hvertices⟩ (.cons ⟨rfl, htriangles⟩ .nil)
  have hdistinct : ["Vertices", "Triangles"].Nodup := by decide
  exact ⟨hfields, _, (denotes_objectLiteral_iff hfields).mpr ⟨nofun, _, _, hwrites, hdistinct, rfl, rfl⟩⟩

/-- The vertex and the triangles that are written are those of the boundary. -/
theorem exists_readsAs_writtenBoundary :
    ∃ b, ReadsAs (objectLiteral .boundary writtenBoundary true) (.object (.boundary b)) ∧
      (Value.object (.boundary b)).WellFormed ∧
      List.Forall₂ (fun element x => ReadsAs element (.vector x)) [writtenVertex] b.vertices ∧
      List.Forall₂ (fun element a => ReadsAs element (.autofield a)) writtenTriangles b.triangles := by
  obtain ⟨hread, hwritten⟩ := wellFormed_of_parseAt
  obtain ⟨x, hvertex⟩ := exists_denotes_writtenVertex
  obtain ⟨hfields, b, hboundary⟩ := exists_denotes_writtenBoundary
  have htriangles := exists_denotes_of_mem_writtenTriangles
  simp only [← readsAs_iff_denotes] at hvertex hfields hboundary htriangles
  have ⟨last, hparse, _⟩ := hboundary
  exact ⟨b, hboundary, (hread _ _ _ _ hparse).1,
    ((hwritten _ true hfields).1 b hboundary [writtenVertex] false (List.forall_mem_singleton.mpr ⟨_, hvertex⟩)).1
      (by decide),
    ((hwritten _ true hfields).1 b hboundary writtenTriangles true htriangles).2 (by decide)⟩

end Value

end LevelPlay
