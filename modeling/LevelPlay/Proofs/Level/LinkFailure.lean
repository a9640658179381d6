import LevelPlay.Proofs.Import.Failure
import LevelPlay.Proofs.Level.Triangles

/-! Why triangles cannot be linked. Linking stops at the first triangle, in the order of the sectors and of the
triangles within each, that names a line which is not there or has an index which is no vertex of its sector. Sectors
are checked for such indices before they are linked, so in a level that is loaded only the first can happen. -/

namespace LevelPlay

namespace Sector

def IsVertex (s : Sector) (index : Int) : Prop := 0 ≤ index ∧ index < s.boundary.vertices.length

instance (s : Sector) (index : Int) : Decidable (s.IsVertex index) :=
  inferInstanceAs (Decidable (0 ≤ index ∧ index < s.boundary.vertices.length))

/-- The first of the three indices that is not that of a vertex. -/
def firstOutside? (s : Sector) (indices : IntVec3) : Option Int :=
  [indices.x, indices.y, indices.z].find? fun index => !decide (s.IsVertex index)

theorem firstOutside?_eq_none_iff {s : Sector} {indices : IntVec3} :
    s.firstOutside? indices = none ↔ s.HasVertices indices := by
  simp only [firstOutside?, List.find?_eq_none, Bool.not_eq_true, Bool.not_eq_false', decide_eq_true_eq]
  exact Iff.rfl

/-- An index that is not that of a vertex is itself the error. -/
theorem vertex_cases (s : Sector) (index : Int) :
    (s.IsVertex index ∧ ∃ v, s.vertex index = .ok v) ∨ (¬ s.IsVertex index ∧ s.vertex index = .error index) := by
  by_cases hindex : s.IsVertex index
  · obtain ⟨hnonneg, hlength⟩ := hindex
    have hslot : index.toNat < s.boundary.vertices.length := by omega
    refine .inl ⟨⟨hnonneg, hlength⟩, s.boundary.vertices[index.toNat], ?_⟩
    rw [vertex, if_neg (Int.not_lt.mpr hnonneg), List.getElem?_eq_getElem hslot]
  · refine .inr ⟨hindex, ?_⟩
    rw [vertex]
    by_cases hnegative : index < 0
    · rw [if_pos hnegative]
    · have hslot : s.boundary.vertices.length ≤ index.toNat := by
        rw [IsVertex] at hindex
        omega
      rw [if_neg hnegative, List.getElem?_eq_none hslot]

theorem corners_eq_error_iff {s : Sector} {indices : IntVec3} {index : Int} :
    s.corners indices = .error index ↔ s.firstOutside? indices = some index := by
  rw [corners, firstOutside?]
  rcases s.vertex_cases indices.x with ⟨hx, first, hfirst⟩ | ⟨hx, hfirst⟩
  · rcases s.vertex_cases indices.y with ⟨hy, second, hsecond⟩ | ⟨hy, hsecond⟩
    · rcases s.vertex_cases indices.z with ⟨hz, third, hthird⟩ | ⟨hz, hthird⟩
      · simp [hx, hy, hz, hfirst, hsecond, hthird, Result.ok_bind, pure, Except.pure]
      · simp [hx, hy, hz, hfirst, hsecond, hthird, bind, Except.bind]
    · simp [hx, hy, hfirst, hsecond, bind, Except.bind]
  · simp [hx, hfirst, bind, Except.bind]

end Sector

namespace Planes

variable {lines : IdMap Autofield} {sectors : List Sector}

/-- Why a triangle that names a line and has vertex indices cannot be linked. That the line is not there counts
first. -/
inductive Unlinkable {α : Type} (lines : IdMap α) (sector : Sector) (triangle : Autofield) : LinkError → Prop where
  | unknownPlane {id : Int} {indices : IntVec3} (hid : triangle.identifier? = some id)
      (hindices : triangle.intVector? = some indices) (hline : lines.contains id = false) :
      Unlinkable lines sector triangle (.unknownPlane id sector.id)
  | vertexOutOfRange {id index : Int} {indices : IntVec3} (hid : triangle.identifier? = some id)
      (hindices : triangle.intVector? = some indices) (hline : lines.contains id = true)
      (hindex : sector.firstOutside? indices = some index) :
      Unlinkable lines sector triangle (.vertexOutOfRange sector.id index sector.boundary.vertices.length)

/-- Whether a triangle can be linked depends on the ids of the lines alone. -/
theorem Unlinkable.congr {α β : Type} {lines : IdMap α} {planes : IdMap β} {sector : Sector} {triangle : Autofield}
    {error : LinkError} (h : Unlinkable lines sector triangle error)
    (hids : ∀ id, planes.contains id = lines.contains id) : Unlinkable planes sector triangle error := by
  cases h with
  | unknownPlane hid hindices hline => exact .unknownPlane hid hindices ((hids _).trans hline)
  | vertexOutOfRange hid hindices hline hindex => exact .vertexOutOfRange hid hindices ((hids _).trans hline) hindex

theorem exists_unlinkable_iff {sector : Sector} {triangle : Autofield} :
    (∃ error, Unlinkable lines sector triangle error) ↔
      ∃ id indices, triangle.identifier? = some id ∧ triangle.intVector? = some indices ∧
        (lines.contains id = false ∨ ¬ sector.HasVertices indices) := by
  constructor
  · rintro ⟨_, ⟨hid, hindices, hline⟩ | ⟨hid, hindices, -, hindex⟩⟩
    · exact ⟨_, _, hid, hindices, .inl hline⟩
    · refine ⟨_, _, hid, hindices, .inr fun hvertices => ?_⟩
      rw [Sector.firstOutside?_eq_none_iff.mpr hvertices] at hindex
      cases hindex
  · rintro ⟨id, indices, hid, hindices, hwhy⟩
    cases hline : lines.contains id with
    | false => exact ⟨_, .unknownPlane hid hindices hline⟩
    | true =>
        have houtside : ¬ sector.HasVertices indices := hwhy.resolve_left (by simp [hline])
        rw [← Sector.firstOutside?_eq_none_iff] at houtside
        obtain ⟨index, hindex⟩ := Option.ne_none_iff_exists'.mp houtside
        exact ⟨_, .vertexOutOfRange hid hindices hline hindex⟩

theorem addTriangle_eq_error_iff {planes : Planes} {sector : Sector} {triangle : Autofield} {error : LinkError} :
    addTriangle sector planes triangle = .error error ↔ Unlinkable planes sector triangle error := by
  constructor
  · intro h
    rw [addTriangle] at h
    split at h
    · rename_i id indices hid hindices
      split at h
      · rename_i hline
        split at h
        · cases h
        · rename_i index hcorners
          cases h
          exact .vertexOutOfRange hid hindices hline (Sector.corners_eq_error_iff.mp hcorners)
      · rename_i hline
        cases h
        exact .unknownPlane hid hindices (Bool.not_eq_true _ ▸ hline)
    · cases h
  · intro h
    cases h with
    | unknownPlane hid hindices hline => simp [addTriangle, hid, hindices, hline]
    | vertexOutOfRange hid hindices hline hindex =>
        simp [addTriangle, hid, hindices, hline, Sector.corners_eq_error_iff.mpr hindex]

/-! ### The first triangle that cannot be linked -/

/-- The triangles as linking comes to them, each with its sector. -/
def encountered (sectors : List Sector) : List (Sector × Autofield) :=
  sectors.flatMap fun sector => sector.boundary.triangles.map fun triangle => (sector, triangle)

theorem mem_encountered_iff {sector : Sector} {triangle : Autofield} :
    (sector, triangle) ∈ encountered sectors ↔ sector ∈ sectors ∧ triangle ∈ sector.boundary.triangles := by
  simp only [encountered, List.mem_flatMap, List.mem_map, Prod.mk.injEq]
  constructor
  · rintro ⟨_, hsector, _, htriangle, rfl, rfl⟩
    exact ⟨hsector, htriangle⟩
  · rintro ⟨hsector, htriangle⟩
    exact ⟨sector, hsector, triangle, htriangle, rfl, rfl⟩

theorem foldlM_addSector_eq (sectors : List Sector) (planes : Planes) :
    sectors.foldlM addSector planes =
      (encountered sectors).foldlM (fun planes place => addTriangle place.1 planes place.2) planes := by
  induction sectors generalizing planes with
  | nil => rfl
  | cons sector rest ih =>
      rw [List.foldlM_cons, encountered, List.flatMap_cons, List.foldlM_append, List.foldlM_map]
      congr 1
      funext next
      exact ih next

/-- Triangles that are linked can be, and the planes keep the ids of the lines. -/
theorem linked_of_foldlM {places : List (Sector × Autofield)} {planes : Planes}
    (h : places.foldlM (fun planes place => addTriangle place.1 planes place.2) (ofLines lines) = .ok planes) :
    (∀ id, planes.contains id = lines.contains id) ∧
      ∀ place ∈ places, ¬ ∃ error, Unlinkable lines place.1 place.2 error := by
  have hstart : LinkedTo lines (fun _ => True) (ofLines lines) := linkedTo_ofLines lines _
  have hlinked := Result.foldlM_induction (Q := fun place => ¬ ∃ error, Unlinkable lines place.1 place.2 error)
    hstart h ?_
  · exact ⟨hlinked.1.contains_eq, hlinked.2⟩
  · intro place _ state next hstate hnext
    refine ⟨(linkedTo_addTriangle hstate (fun _ _ => trivial) hnext).1, ?_⟩
    rintro ⟨error, herror⟩
    rw [addTriangle_eq_error_iff.mpr (herror.congr hstate.contains_eq)] at hnext
    cases hnext

/-- Linking fails exactly at the first triangle that cannot be linked. -/
theorem link_eq_error_iff {error : LinkError} :
    link lines sectors = .error error ↔
      ∃ before sector triangle after, encountered sectors = before ++ (sector, triangle) :: after ∧
        (∀ place ∈ before, ¬ ∃ e, Unlinkable lines place.1 place.2 e) ∧ Unlinkable lines sector triangle error := by
  rw [link, foldlM_addSector_eq]
  constructor
  · intro h
    obtain ⟨before, ⟨sector, triangle⟩, after, next, hplaces, hbefore, herror⟩ := Result.foldlM_eq_error_iff.mp h
    obtain ⟨hids, hlinkable⟩ := linked_of_foldlM hbefore
    exact ⟨before, sector, triangle, after, hplaces, hlinkable,
      (addTriangle_eq_error_iff.mp herror).congr fun id => (hids id).symm⟩
  · rintro ⟨before, sector, triangle, after, hplaces, hlinkable, herror⟩
    cases hbefore : before.foldlM (fun planes place => addTriangle place.1 planes place.2) (ofLines lines) with
    | ok next =>
        have hids := (linked_of_foldlM hbefore).1
        exact Result.foldlM_eq_error_iff.mpr ⟨before, _, after, next, hplaces, hbefore,
          addTriangle_eq_error_iff.mpr (herror.congr hids)⟩
    | error e =>
        -- A failure before the triangle would be at another that cannot be linked.
        obtain ⟨start, place, middle, next, rfl, hstart, hplace⟩ := Result.foldlM_eq_error_iff.mp hbefore
        have hids := (linked_of_foldlM hstart).1
        have hunlinkable := (addTriangle_eq_error_iff.mp hplace).congr fun id => (hids id).symm
        exact absurd ⟨e, hunlinkable⟩ (hlinkable place (by simp))

theorem exists_link_eq_error_iff :
    (∃ error, link lines sectors = .error error) ↔
      ∃ place ∈ encountered sectors, ∃ error, Unlinkable lines place.1 place.2 error := by
  constructor
  · rintro ⟨error, h⟩
    obtain ⟨before, sector, triangle, after, hplaces, -, herror⟩ := link_eq_error_iff.mp h
    exact ⟨(sector, triangle), by simp [hplaces], error, herror⟩
  · rintro ⟨place, hplace, hunlinkable⟩
    cases h : link lines sectors with
    | error error => exact ⟨error, rfl⟩
    | ok planes =>
        rw [link, foldlM_addSector_eq] at h
        exact absurd hunlinkable ((linked_of_foldlM h).2 place hplace)

/-! ### Sectors that have been checked -/

/-- The triangles of a checked sector have vertices; only the line that one names may be missing. -/
theorem Unlinkable.eq_unknownPlane {sector : Sector} {triangle : Autofield} {error : LinkError}
    (h : Unlinkable lines sector triangle error) (hbounded : sector.Bounded)
    (htriangle : triangle ∈ sector.boundary.triangles) :
    ∃ id, error = .unknownPlane id sector.id ∧ ¬ Names lines triangle := by
  cases h with
  | unknownPlane hid hindices hline =>
      refine ⟨_, rfl, fun hnames => ?_⟩
      rw [hnames _ _ hid hindices] at hline
      cases hline
  | vertexOutOfRange hid hindices hline hindex =>
      rw [Sector.firstOutside?_eq_none_iff.mpr (hbounded triangle htriangle _ hindices)] at hindex
      cases hindex

theorem link_ne_vertexOutOfRange (hbounded : ∀ sector ∈ sectors, sector.Bounded) (id index : Int) (count : Nat) :
    link lines sectors ≠ .error (.vertexOutOfRange id index count) := by
  intro h
  obtain ⟨before, sector, triangle, after, hplaces, -, herror⟩ := link_eq_error_iff.mp h
  obtain ⟨hsector, htriangle⟩ : sector ∈ sectors ∧ triangle ∈ sector.boundary.triangles :=
    mem_encountered_iff.mp (by simp [hplaces])
  obtain ⟨_, hunknown, -⟩ := herror.eq_unknownPlane (hbounded sector hsector) htriangle
  cases hunknown

/-- Sectors that have been checked are linked exactly if each triangle that names a line names one that is there. -/
theorem exists_link_eq_ok_iff (hbounded : ∀ sector ∈ sectors, sector.Bounded) :
    (∃ planes, link lines sectors = .ok planes) ↔
      ∀ sector ∈ sectors, ∀ triangle ∈ sector.boundary.triangles, Names lines triangle := by
  constructor
  · rintro ⟨planes, h⟩
    exact (linkedTo_link h).2
  · intro hnames
    cases h : link lines sectors with
    | ok planes => exact ⟨planes, rfl⟩
    | error error =>
        obtain ⟨⟨sector, triangle⟩, hplace, e, he⟩ := exists_link_eq_error_iff.mp ⟨error, h⟩
        obtain ⟨hsector, htriangle⟩ := mem_encountered_iff.mp hplace
        obtain ⟨_, -, hunnamed⟩ := he.eq_unknownPlane (hbounded sector hsector) htriangle
        exact absurd (hnames sector hsector triangle htriangle) hunnamed

theorem ofLines_ne_vertexOutOfRange (settings : Settings) (files : FileReader) (folder : Path) (lines : List Line)
    (id index : Int) (count : Nat) :
    Level.ofLines settings files folder lines ≠ .error (.link (.vertexOutOfRange id index count)) := by
  intro h
  rcases Level.locatedOrLink_of_ofLines h with ⟨_, hline⟩ | ⟨defs, sectors, _, hbounded, hlink, hfault⟩
  · cases hline
  · cases hfault
    exact link_ne_vertexOutOfRange hbounded id index count hlink

theorem ofFile_ne_vertexOutOfRange (settings : Settings) (files : FileReader) (path : Path) (id index : Int)
    (count : Nat) : Level.ofFile settings files path ≠ .error (.link (.vertexOutOfRange id index count)) := by
  rw [Level.ofFile]
  cases files path with
  | error fault => simp
  | ok text => exact ofLines_ne_vertexOutOfRange settings files _ _ id index count

/-- The check of the triangles and the linking agree. Sectors that pass the check never fail to be linked for an index,
and are linked just if the triangles name lines that are there. In general a link fails just if some triangle that names
a line and has vertex indices names one that is not there or has an index outside its sector's vertices; and the error
is that of the first such triangle in order. Since sectors are checked when they are read, no level whatever fails to
load for an index in the linking. -/
theorem link_fails_at_first_unlinkable :
    (∀ (lines : IdMap Autofield) (sectors : List Sector),
      ((∀ sector ∈ sectors, sector.badTriangle? = none) →
        (∀ id index count, link lines sectors ≠ .error (.vertexOutOfRange id index count)) ∧
          ((∃ planes, link lines sectors = .ok planes) ↔
            ∀ sector ∈ sectors, ∀ triangle ∈ sector.boundary.triangles, Names lines triangle)) ∧
      ((∃ error, link lines sectors = .error error) ↔
        ∃ sector ∈ sectors, ∃ triangle ∈ sector.boundary.triangles, ∃ id indices,
          triangle.identifier? = some id ∧ triangle.intVector? = some indices ∧
            (lines.contains id = false ∨ ¬ sector.HasVertices indices)) ∧
      ∀ error, link lines sectors = .error error ↔
        ∃ before sector triangle after, encountered sectors = before ++ (sector, triangle) :: after ∧
          (∀ place ∈ before, ¬ ∃ e, Unlinkable lines place.1 place.2 e) ∧
          Unlinkable lines sector triangle error) ∧
    ∀ (settings : Settings) (files : FileReader) (id index : Int) (count : Nat),
      (∀ folder lines, Level.ofLines settings files folder lines ≠ .error (.link (.vertexOutOfRange id index count))) ∧
      (∀ text, Level.ofText settings files text ≠ .error (.link (.vertexOutOfRange id index count))) ∧
      ∀ path, Level.ofFile settings files path ≠ .error (.link (.vertexOutOfRange id index count)) := by
  refine ⟨fun lines sectors => ⟨fun hchecked => ?_, ?_, fun error => link_eq_error_iff⟩,
    fun settings files id index count => ⟨fun folder lines => ?_, fun text => ?_, fun path => ?_⟩⟩
  · have hbounded : ∀ sector ∈ sectors, sector.Bounded := fun sector hsector =>
      Sector.bounded_of_badTriangle? (hchecked sector hsector)
    exact ⟨link_ne_vertexOutOfRange hbounded, exists_link_eq_ok_iff hbounded⟩
  · rw [exists_link_eq_error_iff]
    simp only [Prod.exists, mem_encountered_iff, exists_unlinkable_iff, and_assoc, exists_and_left]
  · exact ofLines_ne_vertexOutOfRange settings files folder lines id index count
  · exact ofLines_ne_vertexOutOfRange settings files "" (Line.ofText text) id index count
  · exact ofFile_ne_vertexOutOfRange settings files path id index count

/-- A room whose second triangle has two indices that are not those of vertices, and whose third names a line that is
not there. -/
def brokenRoom : Sector :=
  room 2 [doorTriangle ⟨0, 1, 2⟩, doorTriangle ⟨0, 3, -1⟩, ⟨.empty, [.identifier 9, .intVector ⟨0, 1, 2⟩]⟩]

theorem link_rooms_brokenRoom :
    (∀ sector ∈ rooms, sector.badTriangle? = none) ∧ (∃ planes, link openings rooms = .ok planes) ∧
      link openings (rooms ++ [brokenRoom]) = .error (.vertexOutOfRange 0 3 3) ∧
      link .empty (rooms ++ [brokenRoom]) = .error (.unknownPlane 7 0) ∧
      ∃ before sector triangle after, encountered (rooms ++ [brokenRoom]) = before ++ (sector, triangle) :: after ∧
        (∀ place ∈ before, ¬ ∃ e, Unlinkable openings place.1 place.2 e) ∧
        Unlinkable openings sector triangle (.vertexOutOfRange 0 3 3) := by
  obtain ⟨hlink, -⟩ := link_fails_at_first_unlinkable
  have hchecked : ∀ sector ∈ rooms, sector.badTriangle? = none := by
    simp only [rooms, List.forall_mem_cons]
    exact ⟨rfl, rfl, by simp⟩
  have hdoor : ∀ indices, Names openings (doorTriangle indices) := by
    intro indices id _ hid _
    cases (Option.some.inj hid : 7 = id)
    rfl
  have hnoline : Names openings ⟨.empty, [.intVector ⟨0, 0, 0⟩]⟩ := by
    intro id _ hid _
    cases hid
  have hnames : ∀ sector ∈ rooms, ∀ triangle ∈ sector.boundary.triangles, Names openings triangle := by
    simp [rooms, room, hdoor, hnoline]
  have hbroken : link openings (rooms ++ [brokenRoom]) = .error (.vertexOutOfRange 0 3 3) := rfl
  exact ⟨hchecked, ((hlink openings rooms).1 hchecked).2.mpr hnames, hbroken, rfl,
    ((hlink openings (rooms ++ [brokenRoom])).2.2 _).mp hbroken⟩

end Planes

end LevelPlay
