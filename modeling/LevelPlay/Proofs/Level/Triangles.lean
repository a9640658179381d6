import Mathlib.Data.List.Forall2
import LevelPlay.Proofs.Level.Linking

/-! What the triangles of a plane are. Linking appends to each plane the corners of the triangles that name its
line, and each triangle is resolved in its own sector. A plane keeps them as one list of vertices, which its
users take three at a time. Since nothing but whole triangles is ever appended, this gives back the triangles
as they were found, in the order of the sectors and of the triangles within each. -/

namespace LevelPlay

namespace Plane

/-! ### Vertices in threes -/

/-- Corners that are appended one after the other are taken apart where they were joined. -/
@[simp] theorem inThrees_flatMap (cs : List Corners) : inThrees (cs.flatMap Corners.toList) = cs := by
  induction cs with
  | nil => rfl
  | cons c cs ih =>
      rw [List.flatMap_cons]
      change c :: inThrees (cs.flatMap Corners.toList) = c :: cs
      rw [ih]

theorem length_flatMap_corners (cs : List Corners) :
    (cs.flatMap Corners.toList).length = 3 * cs.length := by
  induction cs with
  | nil => rfl
  | cons c cs ih =>
      rw [List.flatMap_cons, List.length_append, ih, List.length_cons, Nat.mul_succ, Nat.add_comm]
      rfl

end Plane

namespace Planes

/-! ### Triangles that name a line -/

/-- The sector resolves the three indices to these corners. -/
def Resolves (place : Sector × IntVec3) (corners : Corners) : Prop :=
  place.1.corners place.2 = .ok corners

/-- The vertex indices of those of some triangles of a sector that name a line, with the sector. -/
def placesIn (id : Int) (sector : Sector) (triangles : List Autofield) : List (Sector × IntVec3) :=
  triangles.filterMap fun triangle =>
    if triangle.identifier? = some id then triangle.intVector?.map fun indices => (sector, indices) else none

/-- The vertex indices of all triangles that name a line, in the order of the sectors and of the triangles
within each, with the sectors in which they are to be resolved. -/
def places (id : Int) (sectors : List Sector) : List (Sector × IntVec3) :=
  sectors.flatMap fun sector => placesIn id sector sector.boundary.triangles

/-! ### What a plane gains -/

/-- From one state of the planes to the next the plane of an id gains the corners of some triangles, and
nothing else about it changes. Without a plane there are no such triangles. -/
inductive Gains (planes next : Planes) (id : Int) : List (Sector × IntVec3) → Prop where
  | absent (hplane : planes.get? id = none) (hnext : next.get? id = none) : Gains planes next id []
  | present {plane : Plane} {added : List (Sector × IntVec3)} {cs : List Corners}
      (hplane : planes.get? id = some plane) (hcorners : List.Forall₂ Resolves added cs)
      (hnext : next.get? id = some { plane with vertices := plane.vertices ++ cs.flatMap Corners.toList }) :
      Gains planes next id added

theorem Gains.of_get?_eq {planes next : Planes} {id : Int} (h : next.get? id = planes.get? id) :
    Gains planes next id [] := by
  cases hplane : planes.get? id with
  | none => exact .absent hplane (h.trans hplane)
  | some plane =>
      refine .present hplane .nil ?_
      rw [h, hplane, List.flatMap_nil, List.append_nil]

theorem Gains.trans {planes next last : Planes} {id : Int} {added more : List (Sector × IntVec3)}
    (h : Gains planes next id added) (h' : Gains next last id more) : Gains planes last id (added ++ more) := by
  cases h with
  | absent hplane hnext =>
      cases h' with
      | absent _ hlast => exact .absent hplane hlast
      | present hnext' _ _ => cases hnext.symm.trans hnext'
  | present hplane hcorners hnext =>
      cases h' with
      | absent hnext' _ => cases hnext.symm.trans hnext'
      | present hnext' hmore hlast =>
          cases hnext.symm.trans hnext'
          refine .present hplane (List.rel_append hcorners hmore) ?_
          rw [hlast, List.flatMap_append, List.append_assoc]

theorem Gains.exists_of_some {planes next : Planes} {id : Int} {added : List (Sector × IntVec3)}
    (h : Gains planes next id added) {plane : Plane} (hplane : next.get? id = some plane) :
    ∃ first cs, planes.get? id = some first ∧ List.Forall₂ Resolves added cs ∧
      plane = { first with vertices := first.vertices ++ cs.flatMap Corners.toList } := by
  cases h with
  | absent _ hnext => cases hplane.symm.trans hnext
  | present hfirst hcorners hnext => exact ⟨_, _, hfirst, hcorners, Option.some.inj (hplane.symm.trans hnext)⟩

theorem Gains.eq_nil_of_none {planes next : Planes} {id : Int} {added : List (Sector × IntVec3)}
    (h : Gains planes next id added) (hplane : next.get? id = none) : added = [] := by
  cases h with
  | absent => rfl
  | present _ _ hnext => cases hplane.symm.trans hnext

theorem gains_addTriangle {planes next : Planes} {sector : Sector} {triangle : Autofield}
    (h : addTriangle sector planes triangle = .ok next) (id : Int) :
    Gains planes next id (placesIn id sector [triangle]) := by
  rcases addTriangle_eq_ok h with ⟨named, indices, corners, hid, hindices, hcontains, hcorners, rfl⟩ | ⟨hnone, rfl⟩
  · -- Only the plane that the triangle names has changed.
    by_cases hnamed : id = named
    · subst hnamed
      have hplaces : placesIn id sector [triangle] = [(sector, indices)] := by simp [placesIn, hid, hindices]
      obtain ⟨plane, hplane⟩ := Option.isSome_iff_exists.mp hcontains
      have hresolves : List.Forall₂ Resolves [(sector, indices)] [corners] := .cons hcorners .nil
      rw [hplaces]
      refine .present hplane hresolves ?_
      rw [IdMap.get?_modify, if_pos rfl, hplane]
      rfl
    · have hplaces : placesIn id sector [triangle] = [] := by simp [placesIn, hid, Ne.symm hnamed]
      rw [hplaces]
      refine .of_get?_eq ?_
      rw [IdMap.get?_modify, if_neg hnamed]
  · have hplaces : placesIn id sector [triangle] = [] := by
      rcases hnone with hnone | hnone
      · simp [placesIn, hnone]
      · simp [placesIn, hnone]
    rw [hplaces]
    exact .of_get?_eq rfl

theorem gains_addTriangles {sector : Sector} {triangles : List Autofield} {planes next : Planes}
    (h : triangles.foldlM (addTriangle sector) planes = .ok next) (id : Int) :
    Gains planes next id (placesIn id sector triangles) := by
  induction triangles generalizing planes with
  | nil =>
      cases h
      exact .of_get?_eq rfl
  | cons triangle rest ih =>
      rw [List.foldlM_cons] at h
      obtain ⟨middle, hfirst, hrest⟩ := Result.bind_eq_ok_iff.mp h
      have hgains := (gains_addTriangle hfirst id).trans (ih hrest)
      rwa [placesIn, placesIn, ← List.filterMap_append] at hgains

theorem gains_addSectors {sectors : List Sector} {planes next : Planes}
    (h : sectors.foldlM addSector planes = .ok next) (id : Int) :
    Gains planes next id (places id sectors) := by
  induction sectors generalizing planes with
  | nil =>
      cases h
      exact .of_get?_eq rfl
  | cons sector rest ih =>
      rw [List.foldlM_cons] at h
      obtain ⟨middle, hfirst, hrest⟩ := Result.bind_eq_ok_iff.mp h
      rw [places, List.flatMap_cons]
      exact (gains_addTriangles hfirst id).trans (ih hrest)

/-- After a link the plane of an id is that of a line, with the corners of the triangles that name it. -/
theorem exists_corners_of_link {lines : IdMap Autofield} {sectors : List Sector} {planes : Planes}
    (h : link lines sectors = .ok planes) {id : Int} {plane : Plane} (hplane : planes.get? id = some plane) :
    ∃ line cs, lines.get? id = some line ∧ List.Forall₂ Resolves (places id sectors) cs ∧
      plane = ⟨id, cs.flatMap Corners.toList, line.tags⟩ := by
  obtain ⟨first, cs, hfirst, hcorners, rfl⟩ := (gains_addSectors h id).exists_of_some hplane
  rw [ofLines, IdMap.get?_map] at hfirst
  obtain ⟨line, hline, rfl⟩ := Option.map_eq_some_iff.mp hfirst
  exact ⟨line, cs, hline, hcorners, rfl⟩

/-! ### Ids -/

theorem ids_addTriangle {planes next : Planes} {sector : Sector} {triangle : Autofield}
    (h : addTriangle sector planes triangle = .ok next) : next.ids = planes.ids := by
  rcases addTriangle_eq_ok h with ⟨_, _, _, -, -, -, -, rfl⟩ | ⟨-, rfl⟩
  · exact IdMap.ids_modify _ _ _
  · rfl

theorem ids_link {lines : IdMap Autofield} {sectors : List Sector} {planes : Planes}
    (h : link lines sectors = .ok planes) : planes.ids = lines.ids := by
  refine (Result.foldlM_induction (P := fun planes => planes.ids = lines.ids) (Q := fun _ => True)
    (IdMap.ids_map _ lines) h ?_).1
  intro sector _ state next hstate hsector
  refine ⟨?_, trivial⟩
  refine (Result.foldlM_induction (P := fun planes => planes.ids = lines.ids) (Q := fun _ => True)
    hstate hsector ?_).1
  intro triangle _ state next hstate hnext
  exact ⟨(ids_addTriangle hnext).trans hstate, trivial⟩

end Planes

/-! ### Triangles that do not count -/

/-- The triangle carries both the id of a line and vertex indices. -/
def Autofield.isLinked (triangle : Autofield) : Bool :=
  triangle.identifier?.isSome && triangle.intVector?.isSome

/-- The sector without the triangles that lack the id of a line or vertex indices. -/
def Sector.onlyLinked (s : Sector) : Sector :=
  { s with boundary := { s.boundary with triangles := s.boundary.triangles.filter Autofield.isLinked } }

namespace Planes

theorem addTriangle_of_not_isLinked {sector : Sector} {planes : Planes} {triangle : Autofield}
    (h : triangle.isLinked = false) : addTriangle sector planes triangle = .ok planes := by
  rw [addTriangle]
  split
  · rename_i hid hindices
    simp [Autofield.isLinked, hid, hindices] at h
  · rfl

theorem addSector_onlyLinked (planes : Planes) (sector : Sector) :
    addSector planes sector.onlyLinked = addSector planes sector := by
  have hstep : (fun planes triangle =>
      if triangle.isLinked then addTriangle sector planes triangle else .ok planes) = addTriangle sector := by
    funext planes triangle
    cases hlinked : triangle.isLinked with
    | true => rfl
    | false => exact (addTriangle_of_not_isLinked hlinked).symm
  calc addSector planes sector.onlyLinked
      = (sector.boundary.triangles.filter Autofield.isLinked).foldlM (addTriangle sector) planes := rfl
    _ = sector.boundary.triangles.foldlM (fun planes triangle =>
          if triangle.isLinked then addTriangle sector planes triangle else .ok planes) planes :=
        List.foldlM_filter
    _ = addSector planes sector := by rw [hstep]; rfl

/-- Triangles that lack the id of a line or vertex indices make no difference, not even to the error. -/
theorem link_onlyLinked (lines : IdMap Autofield) (sectors : List Sector) :
    link lines (sectors.map Sector.onlyLinked) = link lines sectors := by
  rw [link, link, List.foldlM_map]
  congr 1
  funext planes sector
  exact addSector_onlyLinked planes sector

/-- Linking loses, duplicates and reorders nothing. The planes are those of the lines, in number, ids and tags;
the triangles of a plane are those that name its line and have vertex indices, each once, resolved in its own
sector, in the order of the sectors and of the triangles within each; taken together they are its vertices.
No other triangle counts. -/
theorem link_regroups {lines : IdMap Autofield} {sectors : List Sector} {planes : Planes}
    (h : link lines sectors = .ok planes) :
    planes.ids = lines.ids ∧
      (∀ id plane, planes.get? id = some plane →
        plane.id = id ∧ (lines.get? id).map Autofield.tags = some plane.tags ∧
          List.Forall₂ Resolves (places id sectors) plane.triangles ∧
          plane.triangleCount = (places id sectors).length ∧
          plane.triangles.flatMap Corners.toList = plane.vertices) ∧
      (∀ id, planes.get? id = none → places id sectors = []) ∧
      link lines (sectors.map Sector.onlyLinked) = .ok planes := by
  refine ⟨ids_link h, fun id plane hplane => ?_, fun id hnone => (gains_addSectors h id).eq_nil_of_none hnone,
    (link_onlyLinked lines sectors).trans h⟩
  obtain ⟨first, cs, hfirst, hcorners, rfl⟩ := (gains_addSectors h id).exists_of_some hplane
  rw [ofLines, IdMap.get?_map] at hfirst
  obtain ⟨line, hline, rfl⟩ := Option.map_eq_some_iff.mp hfirst
  refine ⟨rfl, by rw [hline]; rfl, ?_, ?_, ?_⟩
  · simpa [Plane.triangles] using hcorners
  · change (cs.flatMap Corners.toList).length / 3 = _
    rw [Plane.length_flatMap_corners, Nat.mul_div_cancel_left _ (by decide), hcorners.length_eq]
  · simp [Plane.triangles]

/-! ### Two rooms and a door -/

/-- A triangle of a door, with its corners in some order. -/
def doorTriangle (indices : IntVec3) : Autofield := ⟨.empty, [.intVector indices, .identifier 7]⟩

/-- A room with a corner at a height and triangles. -/
def room (height : Float32) (triangles : List Autofield) : Sector :=
  { Sector.blank with boundary := ⟨.zero, [.zero, .one, ⟨0, 0, height⟩], triangles⟩ }

/-- Two rooms that share a door, and have a triangle that belongs to no line between those of the door. -/
def rooms : List Sector :=
  [room 2 [doorTriangle ⟨0, 1, 2⟩, ⟨.empty, [.intVector ⟨0, 0, 0⟩]⟩, doorTriangle ⟨2, 1, 0⟩],
    room 3 [doorTriangle ⟨1, 2, 0⟩]]

/-- A door and a window, for which there are no triangles. -/
def openings : IdMap Autofield := (IdMap.empty.insert 7 ⟨.insert .empty .noWall, []⟩).insert 8 .empty

def openingPlanes : Planes :=
  (IdMap.empty.insert 7 ⟨7, [.zero, .one, ⟨0, 0, 2⟩, ⟨0, 0, 2⟩, .one, .zero, .one, ⟨0, 0, 3⟩, .zero],
    .insert .empty .noWall⟩).insert 8 ⟨8, [], .empty⟩

theorem rooms_regrouped : link openings rooms = .ok openingPlanes ∧
    ∃ plane, openingPlanes.get? 7 = some plane ∧ plane.triangleCount = 3 ∧
      List.Forall₂ Resolves (places 7 rooms) plane.triangles := by
  have hlink : link openings rooms = .ok openingPlanes := rfl
  obtain ⟨-, hplanes, -, -⟩ := link_regroups hlink
  obtain ⟨-, -, hresolves, hcount, -⟩ := hplanes 7 _ rfl
  exact ⟨hlink, _, rfl, hcount, hresolves⟩

end Planes

end LevelPlay
