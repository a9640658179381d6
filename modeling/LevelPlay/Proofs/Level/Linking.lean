import LevelPlay.IdMap.Lemmas
import LevelPlay.Plane
import LevelPlay.Proofs.Result

/-! Linking triangles to lines. Every plane stays the one of its line while triangles are appended to it, three
corners at a time; so a link that succeeds has a plane for each line, and has found one for each triangle
that names a line. -/

namespace LevelPlay

namespace Sector

/-- The three indices are those of vertices of the sector. -/
def HasVertices (s : Sector) (indices : IntVec3) : Prop :=
  ∀ index ∈ [indices.x, indices.y, indices.z], 0 ≤ index ∧ index < s.boundary.vertices.length

theorem vertex_eq_ok {s : Sector} {index : Int} {v : Vec3} (h : s.vertex index = .ok v) :
    (0 ≤ index ∧ index < s.boundary.vertices.length) ∧ v ∈ s.boundary.vertices := by
  rw [vertex] at h
  by_cases hnegative : index < 0
  · rw [if_pos hnegative] at h
    cases h
  · rw [if_neg hnegative] at h
    cases hvertex : s.boundary.vertices[index.toNat]? with
    | none =>
        rw [hvertex] at h
        cases h
    | some w =>
        rw [hvertex] at h
        cases h
        obtain ⟨hlength, -⟩ := List.getElem?_eq_some_iff.mp hvertex
        exact ⟨by omega, List.mem_of_getElem? hvertex⟩

theorem corners_eq_ok {s : Sector} {indices : IntVec3} {c : Corners} (h : s.corners indices = .ok c) :
    s.HasVertices indices ∧ ∀ v ∈ c.toList, v ∈ s.boundary.vertices := by
  obtain ⟨first, hfirst, h⟩ := Result.bind_eq_ok_iff.mp h
  obtain ⟨second, hsecond, h⟩ := Result.bind_eq_ok_iff.mp h
  obtain ⟨third, hthird, h⟩ := Result.bind_eq_ok_iff.mp h
  cases h
  have h₁ := vertex_eq_ok hfirst
  have h₂ := vertex_eq_ok hsecond
  have h₃ := vertex_eq_ok hthird
  constructor
  · intro index hindex
    simp only [List.mem_cons, List.not_mem_nil, or_false] at hindex
    rcases hindex with rfl | rfl | rfl
    · exact h₁.1
    · exact h₂.1
    · exact h₃.1
  · intro v hv
    simp only [Corners.toList, List.mem_cons, List.not_mem_nil, or_false] at hv
    rcases hv with rfl | rfl | rfl
    · exact h₁.2
    · exact h₂.2
    · exact h₃.2

/-- The sector has the vertices of all its triangles. -/
def Bounded (s : Sector) : Prop :=
  ∀ triangle ∈ s.boundary.triangles, ∀ indices, triangle.intVector? = some indices → s.HasVertices indices

theorem hasVertices_of_badTriangleFrom? {s : Sector} {slot : Nat} {triangles : List Autofield}
    (h : s.badTriangleFrom? slot triangles = none) :
    ∀ triangle ∈ triangles, ∀ indices, triangle.intVector? = some indices → s.HasVertices indices := by
  induction triangles generalizing slot with
  | nil => exact fun _ hmem => (List.not_mem_nil hmem).elim
  | cons triangle rest ih =>
      rw [badTriangleFrom?] at h
      refine List.forall_mem_cons.mpr ⟨?_, ?_⟩
      · intro indices hindices
        rw [hindices, Option.map_some] at h
        cases hcorners : s.corners indices with
        | error index =>
            rw [hcorners] at h
            cases h
        | ok c => exact (corners_eq_ok hcorners).1
      · split at h
        · cases h
        · exact ih h

theorem bounded_of_badTriangle? {s : Sector} (h : s.badTriangle? = none) : s.Bounded :=
  hasVertices_of_badTriangleFrom? h

end Sector

namespace Planes

/-- A triangle that is linked has found its plane and its corners, and extends this plane; any other triangle
lacks the id of a line or vertex indices, and changes nothing. -/
theorem addTriangle_eq_ok {sector : Sector} {planes next : Planes} {triangle : Autofield}
    (h : addTriangle sector planes triangle = .ok next) :
    (∃ id indices corners, triangle.identifier? = some id ∧ triangle.intVector? = some indices ∧
        planes.contains id = true ∧ sector.corners indices = .ok corners ∧
        next = planes.modify id fun plane => plane.extend corners) ∨
      (triangle.identifier? = none ∨ triangle.intVector? = none) ∧ next = planes := by
  rw [addTriangle] at h
  split at h
  · rename_i id indices hid hindices
    split at h
    · rename_i hplane
      split at h
      · rename_i corners hcorners
        cases h
        exact .inl ⟨id, indices, corners, hid, hindices, hplane, hcorners, rfl⟩
      · cases h
    · cases h
  · rename_i hnone
    cases h
    refine .inr ⟨?_, rfl⟩
    cases hid : triangle.identifier? with
    | none => exact .inl rfl
    | some id =>
        cases hindices : triangle.intVector? with
        | none => exact .inr rfl
        | some indices => exact (hnone id indices hid hindices).elim

variable {lines : IdMap Autofield} {corner : Vec3 → Prop}

/-- The plane is the one of a line: it consists of whole triangles, and their corners are as described. -/
structure IsOf (corner : Vec3 → Prop) (id : Int) (line : Autofield) (plane : Plane) : Prop where
  id : plane.id = id
  tags : plane.tags = line.tags
  whole : 3 ∣ plane.vertices.length
  corners : ∀ v ∈ plane.vertices, corner v

/-- There is one plane for each line, and no other. -/
def LinkedTo (lines : IdMap Autofield) (corner : Vec3 → Prop) (planes : Planes) : Prop :=
  ∀ id, Option.Rel (IsOf corner id) (lines.get? id) (planes.get? id)

theorem linkedTo_ofLines (lines : IdMap Autofield) (corner : Vec3 → Prop) :
    LinkedTo lines corner (ofLines lines) := by
  intro id
  rw [ofLines, IdMap.get?_map]
  cases lines.get? id with
  | none => exact .none
  | some line => exact .some ⟨rfl, rfl, Nat.dvd_zero 3, fun _ hv => (List.not_mem_nil hv).elim⟩

theorem LinkedTo.contains_eq {planes : Planes} (h : LinkedTo lines corner planes) (id : Int) :
    planes.contains id = lines.contains id := by
  have hrel := h id
  rw [IdMap.contains, IdMap.contains]
  generalize lines.get? id = line at hrel ⊢
  generalize planes.get? id = plane at hrel ⊢
  cases hrel with
  | none => rfl
  | some _ => rfl

theorem LinkedTo.isOf {planes : Planes} (h : LinkedTo lines corner planes) {id : Int} {plane : Plane}
    (hplane : planes.get? id = some plane) : ∃ line, lines.get? id = some line ∧ IsOf corner id line plane := by
  have hrel := h id
  rw [hplane] at hrel
  generalize lines.get? id = line at hrel ⊢
  cases hrel with
  | some hof => exact ⟨_, rfl, hof⟩

theorem IsOf.extend {id : Int} {line : Autofield} {plane : Plane} (h : IsOf corner id line plane) {c : Corners}
    (hcorners : ∀ v ∈ c.toList, corner v) : IsOf corner id line (plane.extend c) where
  id := h.id
  tags := h.tags
  whole := by
    rw [Plane.extend, List.length_append]
    exact Nat.dvd_add h.whole (Nat.dvd_refl 3)
  corners := by
    intro v hv
    rcases List.mem_append.mp hv with hv | hv
    · exact h.corners v hv
    · exact hcorners v hv

/-- A triangle that names a line names one of these. -/
def Names (lines : IdMap Autofield) (triangle : Autofield) : Prop :=
  ∀ id indices, triangle.identifier? = some id → triangle.intVector? = some indices → lines.contains id = true

theorem linkedTo_addTriangle {planes next : Planes} (h : LinkedTo lines corner planes) {sector : Sector}
    (hcorner : ∀ v ∈ sector.boundary.vertices, corner v) {triangle : Autofield}
    (hnext : addTriangle sector planes triangle = .ok next) :
    LinkedTo lines corner next ∧ Names lines triangle := by
  rcases addTriangle_eq_ok hnext with ⟨id, indices, c, hid, hindices, hplane, hcorners, rfl⟩ | ⟨hnone, rfl⟩
  · refine ⟨fun other => ?_, fun id' _ hid' _ => ?_⟩
    · -- Only the plane that the triangle names has changed.
      rw [IdMap.get?_modify]
      by_cases hother : other = id
      · rw [if_pos hother]
        have hrel := h other
        generalize lines.get? other = line at hrel ⊢
        generalize planes.get? other = plane at hrel ⊢
        cases hrel with
        | none => exact .none
        | some hof => exact .some (hof.extend fun v hv => hcorner v ((Sector.corners_eq_ok hcorners).2 v hv))
      · rw [if_neg hother]
        exact h other
    · cases hid.symm.trans hid'
      exact (h.contains_eq id).symm.trans hplane
  · refine ⟨h, fun id indices hid hindices => ?_⟩
    rcases hnone with hnone | hnone
    · cases hnone.symm.trans hid
    · cases hnone.symm.trans hindices

theorem linkedTo_addSector {planes next : Planes} (h : LinkedTo lines corner planes) {sector : Sector}
    (hcorner : ∀ v ∈ sector.boundary.vertices, corner v) (hnext : addSector planes sector = .ok next) :
    LinkedTo lines corner next ∧ ∀ triangle ∈ sector.boundary.triangles, Names lines triangle := by
  refine Result.foldlM_induction h hnext ?_
  intro triangle _ state next hstate hstep
  exact linkedTo_addTriangle hstate hcorner hstep

/-- A link that succeeds gives each line its plane, with corners from the sectors, and has found the line that
each triangle names. -/
theorem linkedTo_link {sectors : List Sector} {planes : Planes} (h : link lines sectors = .ok planes) :
    LinkedTo lines (fun v => ∃ sector ∈ sectors, v ∈ sector.boundary.vertices) planes ∧
      ∀ sector ∈ sectors, ∀ triangle ∈ sector.boundary.triangles, Names lines triangle := by
  refine Result.foldlM_induction (linkedTo_ofLines lines _) h ?_
  intro sector hsector state next hstate hstep
  exact linkedTo_addSector hstate (fun v hv => ⟨sector, hsector, hv⟩) hstep

end Planes

end LevelPlay
