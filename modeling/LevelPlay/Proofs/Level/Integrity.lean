import LevelPlay.Level
import LevelPlay.Proofs.Import.Passes
import LevelPlay.Proofs.Level.ScriptBlocks
import LevelPlay.Proofs.Token.Lexemes
import LevelPlay.Proofs.Value.Literal

/-! What a level that was loaded promises to those who use it. Each stage of the loading establishes a part of
it: the readers of the segments, the linking of triangles to lines, and the stages before them, which fix the
lines that are read. -/

namespace LevelPlay.Level

/-- The lines of the segment of a name; none if there is no such segment. -/
def segmentLines (lines : List Line) (index : SegmentIndex) (name : String) : List Line :=
  match index.get? name with
  | none => []
  | some header => Segment.body lines header

/-- Where the content of a level comes from: its lines with every import replaced, the segments among them,
and the macros that they define. -/
structure Source (settings : Settings) (files : FileReader) (folder : Path) (lines : List Line)
    (expanded : List Line) (index : SegmentIndex) (table : MacroTable) : Prop where
  expands : ∃ passes replaced,
    Import.expand settings files folder lines = .ok ⟨expanded, passes, replaced⟩
  indexes : SegmentIndex.ofLines settings.mode expanded = .ok index
  defines : readSegment expanded index "Defines" .empty (Defines.ofBody settings.mode) = .ok table

/-- The stages of a loading that succeeds. -/
theorem stages_of_ofLines {settings : Settings} {files : FileReader} {folder : Path} {lines : List Line}
    {level : Level} (h : ofLines settings files folder lines = .ok level) :
    ∃ expanded index table defs, Source settings files folder lines expanded index table ∧
      readSegment expanded index "Scripts" .empty (Scripts.ofBody settings.mode table) = .ok level.scripts ∧
      readSegment expanded index "Lines" .empty (Lines.ofBody settings.mode table) = .ok defs ∧
      readSegment expanded index "Sectors" [] (Sectors.ofBody settings.mode table) = .ok level.sectors ∧
      Planes.link defs level.sectors = .ok level.planes := by
  obtain ⟨-, -, h⟩ := Result.bind_eq_ok_iff.mp h
  cases hmetadata : Header.metadata? lines with
  | none =>
      rw [hmetadata] at h
      cases h
  | some metadata =>
      rw [hmetadata] at h
      obtain ⟨expansion, hexpansion, h⟩ := Result.bind_eq_ok_iff.mp h
      rw [Result.mapError_eq_ok_iff] at hexpansion
      obtain ⟨index, hindex, h⟩ := Result.bind_eq_ok_iff.mp h
      rw [Result.mapError_eq_ok_iff] at hindex
      obtain ⟨table, htable, h⟩ := Result.bind_eq_ok_iff.mp h
      obtain ⟨scripts, hscripts, h⟩ := Result.bind_eq_ok_iff.mp h
      obtain ⟨defs, hdefs, h⟩ := Result.bind_eq_ok_iff.mp h
      -- The check for a missing segment of sectors passes or is a slip; what follows is the same.
      have hrest : (do
          let sectors ← readSegment expansion.lines index "Sectors" [] (Sectors.ofBody settings.mode table)
          let planes ← (Planes.link defs sectors).mapError .link
          return { theme := metadata.theme, name := metadata.name, sectors, planes, scripts }) =
          (.ok level : Except LoadError Level) := by
        dsimp only at h
        split at h
        · obtain ⟨_, -, h⟩ := Result.bind_eq_ok_iff.mp h
          exact h
        · exact h
      obtain ⟨sectors, hsectors, hrest⟩ := Result.bind_eq_ok_iff.mp hrest
      obtain ⟨planes, hplanes, hrest⟩ := Result.bind_eq_ok_iff.mp hrest
      rw [Result.mapError_eq_ok_iff] at hplanes
      cases hrest
      exact ⟨expansion.lines, index, table, defs, ⟨⟨expansion.passes, expansion.replaced, hexpansion⟩, hindex,
        htable⟩, hscripts, hdefs, hsectors, hplanes⟩

theorem ofLines_eq_ofExpanded {settings : Settings} {files : FileReader} {folder : Path} {lines : List Line}
    {metadata : Header.Metadata} {expansion : Expansion} (hcheck : Header.check lines = .ok ())
    (hmetadata : Header.metadata? lines = some metadata)
    (hexpand : Import.expand settings files folder lines = .ok expansion) :
    ofLines settings files folder lines = ofExpanded settings.mode metadata expansion.lines := by
  rw [ofLines, hcheck, hmetadata, hexpand]
  rfl

/-- Lines whose stages all succeed are loaded, if they have a segment of sectors. -/
theorem ofExpanded_of_stages {mode : Mode} {lines : List Line} {index : SegmentIndex} {table : MacroTable}
    {scripts : Scripts} {defs : IdMap Autofield} {sectors : List Sector} {planes : Planes}
    (hindex : SegmentIndex.ofLines mode lines = .ok index)
    (htable : readSegment lines index "Defines" .empty (Defines.ofBody mode) = .ok table)
    (hscripts : readSegment lines index "Scripts" .empty (Scripts.ofBody mode table) = .ok scripts)
    (hdefs : readSegment lines index "Lines" .empty (Lines.ofBody mode table) = .ok defs)
    (hcontains : index.contains "Sectors" = true)
    (hsectors : readSegment lines index "Sectors" [] (Sectors.ofBody mode table) = .ok sectors)
    (hplanes : Planes.link defs sectors = .ok planes) (metadata : Header.Metadata) :
    ofExpanded mode metadata lines = .ok ⟨metadata.theme, metadata.name, sectors, planes, scripts⟩ := by
  rw [ofExpanded, hindex]
  simp only [Except.mapError, Result.ok_bind, htable, hscripts, hdefs, hcontains, hsectors, hplanes]
  rfl

theorem readSegment_of_get?_eq_some {α : Type} {lines : List Line} {index : SegmentIndex} {name : String}
    {header : Nat} (h : index.get? name = some header) (absent : α) (read : SegmentBody → Except LoadError α) :
    readSegment lines index name absent read = read (SegmentBody.ofHeader lines header) := by
  rw [readSegment, body?, h]
  rfl

theorem readSegment_of_get?_eq_none {α : Type} {lines : List Line} {index : SegmentIndex} {name : String}
    (h : index.get? name = none) (absent : α) (read : SegmentBody → Except LoadError α) :
    readSegment lines index name absent read = .ok absent := by
  rw [readSegment, body?, h]
  rfl

/-- What holds of an absent segment and of each that is read holds of the lines of the segment, if any. -/
theorem of_readSegment {α : Type} {P : List Line → α → Prop} {lines : List Line} {index : SegmentIndex}
    {name : String} {absent a : α} {read : SegmentBody → Except LoadError α}
    (h : readSegment lines index name absent read = .ok a) (habsent : P [] absent)
    (hread : ∀ {body : SegmentBody}, read body = .ok a → P body.lines a) :
    P (segmentLines lines index name) a := by
  unfold readSegment body? at h
  unfold segmentLines
  cases hheader : index.get? name with
  | none =>
      rw [hheader] at h
      cases h
      exact habsent
  | some header =>
      rw [hheader] at h
      exact hread h

/-- The lines of the `Lines` segment give autofields to the keys of the level's planes, and the level keeps
what it promises: triangles stay within the vertices of their sector and name lines that exist, planes are
whole and are those of the lines, and scripts are stored under their ids without their ends. -/
structure Intact (table : MacroTable) (lines : List Line) (level : Level) : Prop where
  triangles : ∀ sector ∈ level.sectors, ∀ triangle ∈ sector.boundary.triangles, ∀ indices,
    triangle.intVector? = some indices → sector.HasVertices indices ∧
      ∀ id, triangle.identifier? = some id → level.planes.contains id = true
  planes : ∀ id plane, level.planes.get? id = some plane →
    plane.id = id ∧ 3 ∣ plane.vertices.length ∧
      (∃ a, (∀ b, (∃ line ∈ lines, Lines.Entry table line id b) ↔ b = a) ∧ plane.tags = a.tags) ∧
      ∀ v ∈ plane.vertices, ∃ sector ∈ level.sectors, v ∈ sector.boundary.vertices
  keys : ∀ id, level.planes.contains id = true ↔ ∃ line ∈ lines, ∃ keyEnd, Lines.KeyAt table line keyEnd id
  scripts : ∀ id script, level.scripts.get? id = some script →
    script.id = id ∧ ∀ instruction ∈ script.instructions, instruction.head? ≠ some "end"

/-- Every level that is loaded keeps its promises, in either mode, with any imports and any files. -/
theorem intact_of_ofLines {settings : Settings} {files : FileReader} {folder : Path} {lines : List Line}
    {level : Level} (h : ofLines settings files folder lines = .ok level) :
    ∃ expanded index table, Source settings files folder lines expanded index table ∧
      Intact table (segmentLines expanded index "Lines") level := by
  obtain ⟨expanded, index, table, defs, hsource, hscripts, hdefs, hsectors, hplanes⟩ := stages_of_ofLines h
  have hstored : ∀ id script, level.scripts.get? id = some script → Scripts.Stored id script :=
    of_readSegment (P := fun _ scripts => ∀ id script, scripts.get? id = some script → Scripts.Stored id script)
      hscripts (by simp) Scripts.stored_ofBody
  have hread : Lines.ReadFrom table (segmentLines expanded index "Lines") defs :=
    of_readSegment hdefs (Lines.readFrom_nil table) Lines.readFrom_ofBody
  have hbounded : ∀ sector ∈ level.sectors, sector.Bounded :=
    of_readSegment (P := fun _ sectors => ∀ sector ∈ sectors, sector.Bounded) hsectors (by simp)
      Sectors.bounded_ofBody
  obtain ⟨hlinked, hnames⟩ := Planes.linkedTo_link hplanes
  refine ⟨expanded, index, table, hsource, ?_, ?_, ?_, hstored⟩
  · intro sector hsector triangle htriangle indices hindices
    refine ⟨hbounded sector hsector triangle htriangle indices hindices, fun id hid => ?_⟩
    rw [hlinked.contains_eq]
    exact hnames sector hsector triangle htriangle id indices hid hindices
  · intro id plane hplane
    obtain ⟨a, ha, hof⟩ := hlinked.isOf hplane
    refine ⟨hof.id, hof.whole, ⟨a, fun b => ?_, hof.tags⟩, hof.corners⟩
    rw [← hread.get?, ha, Option.some.injEq, eq_comm]
  · intro id
    rw [hlinked.contains_eq, hread.contains_iff]

/-! ### A level that is loaded -/

def doorCorners : List Vec3 :=
  [(0, 0, 0), (1, 0, 0), (0, 1, 0)].map Value.roundedVector

/-- A sector with a triangle that belongs to a line. -/
def doorway : Sector :=
  { Sector.blank with boundary := ⟨.zero, doorCorners, [⟨.empty, [.intVector ⟨0, 1, 2⟩, .identifier 7]⟩]⟩ }

/-- What is written of it, in parts that have a space between them. -/
def doorwayParts : List String :=
  ["[Sector] \x7b Boundary:", "[SectorBoundary] \x7b Vertices:", "[Vector3] [<0, 0, 0>,", "<1, 0, 0>, <0, 1, 0>],",
    "Triangles: [Autofield]", "[\x7b: %<0, 1, 2>, @7", ":\x7d] \x7d \x7d"]

def doorwayLine : Line := Text.unwords doorwayParts

/-- A level with a script, a line, and two sectors, one of which has a triangle that belongs to the line. -/
def hallLines : List Line :=
  ["#Format MDMF", "#Segment [Scripts]", "@1 begin", "Open $1", "end", "#Segment [Lines]",
    "@7 \x7b: #NoWall :\x7d", "#Segment [Sectors]", "[Sector] \x7b\x7d", doorwayLine, "#Segment End"]

/-- What is loaded from `hallLines`. -/
def hall : Level where
  theme := none
  name := none
  sectors := [.blank, doorway]
  planes := IdMap.empty.insert 7 ⟨7, doorCorners, .insert .empty .noWall⟩
  scripts := IdMap.empty.insert 1 ⟨1, [["Open", "$1"]]⟩

theorem headerId?_one : Scripts.headerId? ["@1", "begin"] = some 1 := by
  have hid : Value.parseAt ["@1", "begin"] 0 = .ok (.identifier 1, 0) :=
    Value.parseAt_eq_ok_iff.mpr ⟨by decide, by decide, @Value.Denotes.identifier "1" 1 rfl⟩
  simp [Scripts.headerId?, Scripts.beginWord, hid]

/-- A segment with one script of one instruction. -/
theorem readFrom_single {mode : Mode} {table : MacroTable} {delimited : Bool} {number : Nat}
    {begins line ends : Line} {id : Int} (hbegins : Scripts.headerId? (Token.ofLine table begins) = some id)
    (hline : (Scripts.instruction table line).head? ≠ some Scripts.endWord)
    (hends : Scripts.instruction table ends = [Scripts.endWord]) :
    Scripts.readFrom mode table delimited number none .empty [begins, line, ends] =
      .ok (IdMap.empty.insert id ⟨id, [Scripts.instruction table line]⟩) := by
  rw [Scripts.readFrom_cons_none, hbegins]
  dsimp only
  rw [if_neg (by simp [IdMap.contains]), Scripts.readFrom_cons_some, if_neg hline, Scripts.readFrom_cons_some,
    hends, if_pos List.head?_cons, if_neg (by simp), Scripts.readFrom_nil]
  rfl

theorem scripts_hall : Scripts.readFrom .strict .empty true 2 none .empty ["@1 begin", "Open $1", "end"] =
    .ok hall.scripts := by
  have hbegin : Token.ofLine .empty "@1 begin" = ["@1", "begin"] := by decide +kernel
  have hopen : Scripts.instruction .empty "Open $1" = ["Open", "$1"] := by decide +kernel
  have hend : Scripts.instruction .empty "end" = ["end"] := by decide +kernel
  rw [readFrom_single (hbegin ▸ headerId?_one) (by simp [hopen, Scripts.endWord]) hend, hopen]
  rfl

theorem lines_hall : Lines.ofBody .strict .empty ⟨6, ["@7 \x7b: #NoWall :\x7d"], true⟩ =
    .ok (IdMap.empty.insert 7 ⟨.insert .empty .noWall, []⟩) := by
  have htokens : Token.ofLine .empty "@7 \x7b: #NoWall :\x7d" = ["@7", "\x7b:", "#NoWall", ":\x7d"] := by
    decide +kernel
  have hkey : readValue 6 ["@7", "\x7b:", "#NoWall", ":\x7d"] 0 = .ok (.identifier 7, 0) :=
    readValue_eq_ok_iff.mpr ⟨by decide, by decide, @Value.Denotes.identifier "7" 7 rfl⟩
  have hvalue : readValue 6 ["@7", "\x7b:", "#NoWall", ":\x7d"] 1 =
      .ok (.autofield ⟨.insert .empty .noWall, []⟩, 3) := by
    have htag : Value.MemberOf Value.Denotes ["#NoWall"] (.inl .noWall) :=
      @Value.MemberOf.tag _ "NoWall" .noWall rfl
    refine readValue_eq_ok_iff.mpr ⟨by decide, by decide, .autofield (.last htag) ?_ rfl (by simp)⟩
    simp [TagSet.empty]
  have htake : Lines.takeLine .strict .empty .empty 6 "@7 \x7b: #NoWall :\x7d" =
      .ok (IdMap.empty.insert 7 ⟨.insert .empty .noWall, []⟩) := by
    rw [Lines.takeLine, htokens, hkey, Result.ok_bind]
    dsimp only [Value.toId?]
    rw [hvalue]
    rfl
  rw [Lines.ofBody, SegmentBody.fold, SegmentBody.foldFrom, htake]
  rfl

def writtenCorners : List (List Token) :=
  [["<", "0", ",", "0", ",", "0", ">"], ["<", "1", ",", "0", ",", "0", ">"], ["<", "0", ",", "1", ",", "0", ">"]]

def writtenDoor : List Token :=
  Value.autofieldLiteral [["%", "<", "0", ",", "1", ",", "2", ">"], ["@7"]] false

def writtenShape : List Token :=
  Value.objectLiteral .boundary
    [("Vertices", Value.listLiteral .vector writtenCorners false),
      ("Triangles", Value.listLiteral .autofield [writtenDoor] false)] false

theorem isNumber_zero : Value.IsNumber "0" 0 := ⟨by decide, by decide +kernel⟩

theorem isNumber_one : Value.IsNumber "1" 1 := ⟨by decide, by decide +kernel⟩

theorem denotes_writtenDoor :
    Value.Denotes writtenDoor (.autofield ⟨.empty, [.intVector ⟨0, 1, 2⟩, .identifier 7]⟩) := by
  have htwo : Value.IsNumber "2" 2 := ⟨by decide, by decide +kernel⟩
  have hindices : Value.Denotes ["%", "<", "0", ",", "1", ",", "2", ">"] (.intVector ⟨0, 1, 2⟩) :=
    .intVector (.mk isNumber_zero isNumber_one htwo) (by decide +kernel) (by decide +kernel) (by decide +kernel)
  have hseven : Value.Denotes ["@7"] (.identifier 7) := @Value.Denotes.identifier "7" 7 rfl
  exact .autofield (Value.entries_commas (.cons (.value hindices) (.cons (.value hseven) .nil)) nofun)
    (by simp [TagSet.empty]) rfl (by decide)

theorem denotes_writtenShape : Value.Denotes writtenShape (.object (.boundary doorway.boundary)) := by
  have hcorners : List.Forall₂ Value.Denotes writtenCorners (doorCorners.map .vector) :=
    .cons (.vector (.mk isNumber_zero isNumber_zero isNumber_zero))
      (.cons (.vector (.mk isNumber_one isNumber_zero isNumber_zero))
        (.cons (.vector (.mk isNumber_zero isNumber_one isNumber_zero)) .nil))
  have hvertices : Value.Denotes (Value.listLiteral .vector writtenCorners false)
      (.list .vector (doorCorners.map .vector)) :=
    .list rfl (Value.entries_commas hcorners nofun) (.cons rfl (.cons rfl (.cons rfl .nil)))
  have htriangles : Value.Denotes (Value.listLiteral .autofield [writtenDoor] false)
      (.list .autofield [.autofield ⟨.empty, [.intVector ⟨0, 1, 2⟩, .identifier 7]⟩]) :=
    .list rfl (Value.entries_commas (.cons denotes_writtenDoor .nil) nofun) (.cons rfl .nil)
  have hfields := List.Forall₂.cons (Value.FieldOf.mk "Vertices" hvertices)
    (.cons (Value.FieldOf.mk "Triangles" htriangles) .nil)
  exact .object rfl (Value.entries_commas hfields nofun) (by decide) rfl

def writtenDoorway : List Token :=
  Value.objectLiteral .sector [("Boundary", writtenShape)] false

theorem denotes_writtenDoorway : Value.Denotes writtenDoorway (.object (.sector doorway)) := by
  have hfields := List.Forall₂.cons (Value.FieldOf.mk "Boundary" denotes_writtenShape) .nil
  exact .object rfl (Value.entries_commas hfields nofun) (by decide) rfl

theorem ofLine_doorwayLine : Token.ofLine .empty doorwayLine = writtenDoorway := by
  have hparts : doorwayParts.flatMap Token.plain = writtenDoorway := by decide +kernel
  rw [Token.ofLine_empty, doorwayLine, Token.plain_unwords, hparts]

/-- A line that is a sector, and whose triangles are within its vertices, is taken in. -/
theorem takeLine_of_denotes {mode : Mode} {table : MacroTable} {sectors : List Sector} {line : Line} {s : Sector}
    (h : Value.Denotes (Token.ofLine table line) (.object (.sector s))) (hchecked : s.badTriangle? = none)
    (number : Nat) : Sectors.takeLine mode table sectors number line = .ok (sectors ++ [s]) := by
  obtain ⟨token, rest, htokens, -⟩ := h.exists_cons
  have hend : endLine mode number (Token.ofLine table line) ((Token.ofLine table line).length - 1) = .ok () := by
    rw [endLine, htokens, List.length_cons, Nat.add_sub_cancel, List.getElem?_eq_none (by simp)]
  rw [Sectors.takeLine, readValue_of_denotes h, Result.ok_bind]
  simp only [hend, hchecked, Result.ok_bind]
  rfl

theorem sectors_hall : Sectors.ofBody .strict .empty ⟨8, ["[Sector] \x7b\x7d", doorwayLine], true⟩ =
    .ok hall.sectors := by
  have hblank : Token.ofLine .empty "[Sector] \x7b\x7d" = Value.objectLiteral .sector [] false := by decide +kernel
  have hsector : Value.Denotes (Token.ofLine .empty "[Sector] \x7b\x7d") (.object (.sector .blank)) := by
    rw [hblank]
    exact .object rfl .none List.nodup_nil rfl
  have hdoorway : Value.Denotes (Token.ofLine .empty doorwayLine) (.object (.sector doorway)) := by
    rw [ofLine_doorwayLine]
    exact denotes_writtenDoorway
  rw [Sectors.ofBody, SegmentBody.fold, SegmentBody.foldFrom, takeLine_of_denotes hsector rfl]
  dsimp only
  rw [SegmentBody.foldFrom, takeLine_of_denotes hdoorway rfl]
  rfl

theorem ofLines_hallLines : ofLines {} (fun _ => .error .notFound) "" hallLines = .ok hall := by
  have hcheck : Header.check hallLines = .ok () := by rfl
  have hmetadata : Header.metadata? hallLines = some {} := by decide +kernel
  have hfree : ∀ line ∈ hallLines, Import.isImport line = false := by decide +kernel
  have hexpand := Import.passes_of_no_import {} (fun _ => .error .notFound) "" 32 ⟨hallLines, 0, 0⟩ hfree
  have hindex : SegmentIndex.ofLines .strict hallLines =
      .ok ⟨[("Scripts", 1), ("Lines", 5), ("Sectors", 7)]⟩ := by decide +kernel
  have hscripts : SegmentBody.ofHeader hallLines 1 = ⟨2, ["@1 begin", "Open $1", "end"], true⟩ := by rfl
  have hlines : SegmentBody.ofHeader hallLines 5 = ⟨6, ["@7 \x7b: #NoWall :\x7d"], true⟩ := by rfl
  have hsectors : SegmentBody.ofHeader hallLines 7 = ⟨8, ["[Sector] \x7b\x7d", doorwayLine], true⟩ := by
    have hbody : Segment.body hallLines 7 = ["[Sector] \x7b\x7d", doorwayLine] := by decide +kernel
    have hend : Segment.bodyEnd hallLines 7 = 10 := by decide +kernel
    rw [SegmentBody.ofHeader, hbody, hend]
    rfl
  rw [ofLines_eq_ofExpanded hcheck hmetadata hexpand]
  apply ofExpanded_of_stages hindex
  · exact readSegment_of_get?_eq_none (by decide) _ _
  · rw [readSegment_of_get?_eq_some (by decide : _ = some 1), hscripts]
    exact scripts_hall
  · rw [readSegment_of_get?_eq_some (by decide : _ = some 5), hlines]
    exact lines_hall
  · decide
  · rw [readSegment_of_get?_eq_some (by decide : _ = some 7), hsectors]
    exact sectors_hall
  · rfl

/-- The triangle of the doorway is within its vertices, and they have come to the plane of the line that it names. -/
theorem intact_hall : ofLines {} (fun _ => .error .notFound) "" hallLines = .ok hall ∧
    (doorway.HasVertices ⟨0, 1, 2⟩ ∧ hall.planes.contains 7 = true ∧
      ∀ v ∈ doorCorners, ∃ sector ∈ hall.sectors, v ∈ sector.boundary.vertices) ∧
    ∃ expanded index table, Source {} (fun _ => .error .notFound) "" hallLines expanded index table ∧
      Intact table (segmentLines expanded index "Lines") hall := by
  obtain ⟨expanded, index, table, hsource, hintact⟩ := intact_of_ofLines ofLines_hallLines
  have hdoorway : doorway ∈ hall.sectors := List.mem_of_getElem? (i := 1) rfl
  obtain ⟨hvertices, hnamed⟩ := hintact.triangles doorway hdoorway _ List.mem_cons_self ⟨0, 1, 2⟩ rfl
  obtain ⟨-, -, -, hcorners⟩ := hintact.planes 7 ⟨7, doorCorners, .insert .empty .noWall⟩ rfl
  exact ⟨ofLines_hallLines, ⟨hvertices, hnamed 7 rfl, hcorners⟩, expanded, index, table, hsource, hintact⟩

end LevelPlay.Level
