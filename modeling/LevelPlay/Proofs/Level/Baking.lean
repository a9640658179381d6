import LevelPlay.Proofs.Level.LinkFailure

/-! Baking before or after. A baked sector has the vertices of the sector, moved, under the same indices. So its
triangles are resolved where those of the sector are, and fail where those fail; and linking baked sectors comes to the
same planes, with each triangle moved by the transform of the sector that it comes from. Of the transforms nothing is
used but that they are functions of points. -/

namespace LevelPlay

def Corners.map (f : Vec3 → Vec3) (c : Corners) : Corners :=
  ⟨f c.first, f c.second, f c.third⟩

namespace Sector

/-! ### One sector -/

theorem isVertex_bake {s : Sector} {index : Int} : s.bake.IsVertex index ↔ s.IsVertex index := by
  simp [IsVertex, bake, bakedVertices]

theorem vertex_bake (s : Sector) (index : Int) :
    s.bake.vertex index = (s.vertex index).map s.transform.apply := by
  rw [vertex, vertex]
  split
  · rfl
  · have hvertices : s.bake.boundary.vertices = s.boundary.vertices.map s.transform.apply := rfl
    rw [hvertices, List.getElem?_map]
    cases s.boundary.vertices[index.toNat]? with
    | none => rfl
    | some v => rfl

theorem corners_bake (s : Sector) (indices : IntVec3) :
    s.bake.corners indices = (s.corners indices).map (Corners.map s.transform.apply) := by
  simp only [corners, vertex_bake]
  cases s.vertex indices.x with
  | error index => rfl
  | ok first =>
      cases s.vertex indices.y with
      | error index => rfl
      | ok second =>
          cases s.vertex indices.z with
          | error index => rfl
          | ok third => rfl

theorem badTriangleFrom?_bake (s : Sector) (slot : Nat) (triangles : List Autofield) :
    s.bake.badTriangleFrom? slot triangles = s.badTriangleFrom? slot triangles := by
  induction triangles generalizing slot with
  | nil => rfl
  | cons triangle rest ih =>
      rw [badTriangleFrom?, badTriangleFrom?]
      cases triangle.intVector? with
      | none => exact ih (slot + 1)
      | some indices =>
          rw [Option.map_some, Option.map_some, corners_bake]
          cases s.corners indices with
          | error index => rfl
          | ok c => exact ih (slot + 1)

theorem badTriangle?_bake (s : Sector) : s.bake.badTriangle? = s.badTriangle? :=
  s.badTriangleFrom?_bake 0 s.boundary.triangles

theorem firstOutside?_bake (s : Sector) (indices : IntVec3) :
    s.bake.firstOutside? indices = s.firstOutside? indices := by
  simp only [firstOutside?, isVertex_bake]

end Sector

namespace Planes

variable {lines : IdMap Autofield} {sectors : List Sector}

/-! ### Failure -/

theorem unlinkable_bake_iff {sector : Sector} {triangle : Autofield} {error : LinkError} :
    Unlinkable lines sector.bake triangle error ↔ Unlinkable lines sector triangle error := by
  have hlength : sector.boundary.vertices.length = sector.bake.boundary.vertices.length := by
    simp [Sector.bake, Sector.bakedVertices]
  constructor
  · intro h
    cases h with
    | unknownPlane hid hindices hline => exact .unknownPlane hid hindices hline
    | vertexOutOfRange hid hindices hline hindex =>
        rw [Sector.firstOutside?_bake] at hindex
        rw [← hlength]
        exact .vertexOutOfRange hid hindices hline hindex
  · intro h
    cases h with
    | unknownPlane hid hindices hline => exact .unknownPlane hid hindices hline
    | vertexOutOfRange hid hindices hline hindex =>
        rw [← Sector.firstOutside?_bake] at hindex
        rw [hlength]
        exact .vertexOutOfRange hid hindices hline hindex

theorem encountered_bake (sectors : List Sector) :
    encountered (sectors.map Sector.bake) = (encountered sectors).map fun place => (place.1.bake, place.2) := by
  simp only [encountered, List.flatMap_map, List.map_flatMap, List.map_map]
  rfl

/-- Baked sectors fail to be linked where the sectors do, with the same error. -/
theorem link_bake_eq_error_iff {error : LinkError} :
    link lines (sectors.map Sector.bake) = .error error ↔ link lines sectors = .error error := by
  rw [link_eq_error_iff, link_eq_error_iff, encountered_bake]
  constructor
  · rintro ⟨before, sector, triangle, after, hplaces, hbefore, herror⟩
    obtain ⟨before, rest, hsplit, rfl, hrest⟩ := List.map_eq_append_iff.mp hplaces
    obtain ⟨⟨sector, triangle⟩, after, rfl, hplace, rfl⟩ := List.map_eq_cons_iff.mp hrest
    cases hplace
    refine ⟨before, sector, triangle, after, hsplit, fun place hplace => ?_, unlinkable_bake_iff.mp herror⟩
    simpa only [unlinkable_bake_iff] using hbefore _ (List.mem_map_of_mem hplace)
  · rintro ⟨before, sector, triangle, after, hplaces, hbefore, herror⟩
    refine ⟨_, sector.bake, triangle, _, by rw [hplaces, List.map_append, List.map_cons], ?_,
      unlinkable_bake_iff.mpr herror⟩
    simpa only [List.forall_mem_map, unlinkable_bake_iff] using hbefore

/-! ### Success -/

theorem placesIn_bake (id : Int) (sector : Sector) (triangles : List Autofield) :
    placesIn id sector.bake triangles =
      (placesIn id sector triangles).map fun place => (place.1.bake, place.2) := by
  rw [placesIn, placesIn, List.map_filterMap]
  congr 1
  funext triangle
  split
  · rw [Option.map_map]
    rfl
  · rfl

theorem places_bake (id : Int) (sectors : List Sector) :
    places id (sectors.map Sector.bake) = (places id sectors).map fun place => (place.1.bake, place.2) := by
  simp only [places, List.flatMap_map, List.map_flatMap, ← placesIn_bake]
  rfl

/-- Corners moved each by the transform of the sector in which they are resolved. -/
def movedCorners (places : List (Sector × IntVec3)) (cs : List Corners) : List Corners :=
  List.zipWith (fun place corners => corners.map place.1.transform.apply) places cs

theorem eq_movedCorners {places : List (Sector × IntVec3)} {cs moved : List Corners}
    (h : List.Forall₂ Resolves places cs)
    (hmoved : List.Forall₂ Resolves (places.map fun place => (place.1.bake, place.2)) moved) :
    moved = movedCorners places cs := by
  rw [List.forall₂_map_left_iff] at hmoved
  induction h generalizing moved with
  | nil =>
      cases hmoved
      rfl
  | @cons place c places cs hplace _ ih =>
      cases hmoved with
      | @cons _ c' _ rest hplace' hrest =>
          rw [Resolves] at hplace hplace'
          rw [Sector.corners_bake, hplace] at hplace'
          cases hplace'
          rw [ih hrest]
          rfl

/-- The plane has the triangles of the other in the same order, each moved by the transform of the sector that it comes
from. -/
structure Moved (places : List (Sector × IntVec3)) (plane moved : Plane) : Prop where
  id : moved.id = plane.id
  tags : moved.tags = plane.tags
  resolved : List.Forall₂ Resolves places plane.triangles
  triangles : moved.triangles = movedCorners places plane.triangles
  vertices : moved.vertices = moved.triangles.flatMap Corners.toList

theorem moved_of_link {planes baked : Planes} (h : link lines sectors = .ok planes)
    (hbaked : link lines (sectors.map Sector.bake) = .ok baked) (id : Int) :
    Option.Rel (Moved (places id sectors)) (planes.get? id) (baked.get? id) := by
  have hcontains : planes.contains id = baked.contains id :=
    ((linkedTo_link h).1.contains_eq id).trans ((linkedTo_link hbaked).1.contains_eq id).symm
  rw [IdMap.contains, IdMap.contains] at hcontains
  cases hplane : planes.get? id with
  | none =>
      rw [hplane, eq_comm, Option.isSome_none, Option.isSome_eq_false_iff, Option.isNone_iff_eq_none] at hcontains
      rw [hcontains]
      exact .none
  | some plane =>
      rw [hplane, eq_comm, Option.isSome_some, Option.isSome_iff_exists] at hcontains
      obtain ⟨moved, hmoved⟩ := hcontains
      obtain ⟨line, cs, hline, hcs, rfl⟩ := exists_corners_of_link h hplane
      obtain ⟨line', cs', hline', hcs', rfl⟩ := exists_corners_of_link hbaked hmoved
      cases hline.symm.trans hline'
      rw [places_bake] at hcs'
      rw [hmoved]
      refine .some ⟨rfl, rfl, ?_, ?_, ?_⟩
      · simpa only [Plane.triangles, Plane.inThrees_flatMap] using hcs
      · simpa only [Plane.triangles, Plane.inThrees_flatMap] using eq_movedCorners hcs hcs'
      · simp only [Plane.triangles, Plane.inThrees_flatMap]

/-- Baking commutes with resolving triangles and with linking. The triangles of a baked sector are resolved where those
of the sector are, with corners moved by its transform, or have the same index that is no vertex; its kernel and each
vertex are moved once, by the transform that the sector had, and nothing else is touched. Baked sectors fail to be
linked with the error of the sectors, or have planes of the same ids and tags, with the same triangles in the same
order, each moved by the transform of the sector that it comes from. -/
theorem bake_commutes :
    (∀ s : Sector,
      (∀ indices, s.bake.corners indices = (s.corners indices).map (Corners.map s.transform.apply)) ∧
      s.bake.badTriangle? = s.badTriangle? ∧
      s.bake = { s with
        boundary := ⟨s.transform.apply s.boundary.kernel, s.boundary.vertices.map s.transform.apply,
          s.boundary.triangles⟩
        transform := .identity }) ∧
    ∀ (lines : IdMap Autofield) (sectors : List Sector),
      (∃ error, link lines sectors = .error error ∧ link lines (sectors.map Sector.bake) = .error error) ∨
      ∃ planes baked, link lines sectors = .ok planes ∧ link lines (sectors.map Sector.bake) = .ok baked ∧
        baked.ids = planes.ids ∧
        ∀ id, Option.Rel (Moved (places id sectors)) (planes.get? id) (baked.get? id) := by
  refine ⟨fun s => ⟨s.corners_bake, s.badTriangle?_bake, rfl⟩, fun lines sectors => ?_⟩
  cases h : link lines sectors with
  | error error => exact .inl ⟨error, rfl, link_bake_eq_error_iff.mpr h⟩
  | ok planes =>
      cases hbaked : link lines (sectors.map Sector.bake) with
      | error error => cases h.symm.trans (link_bake_eq_error_iff.mp hbaked)
      | ok baked =>
          exact .inr ⟨planes, baked, rfl, rfl, (ids_link hbaked).trans (ids_link h).symm, moved_of_link h hbaked⟩

end Planes

end LevelPlay
