import Mathlib.Data.List.Perm.Basic
import LevelPlay.Proofs.Import.Cycle
import LevelPlay.Proofs.Level.Placement
import LevelPlay.Proofs.Segment.Declaration

/-! The order of the segments of a level. A level without imports is laid out as the lines of its header, then
blocks that each begin with a segment line, then the line that ends the search and whatever follows it. Which
names are declared, and with which lines, can be said of the blocks without regard to their order; so a level
may be written with its segments in any order, and macros are known in segments that stand before those that
define them. -/

namespace LevelPlay

open Result (Refines)
open Import (HeaderFree)

/-- A segment line that does not end the search, and the lines up to the next segment line. -/
structure Block where
  header : Line
  body : List Line
  begins : Segment.isHeader header = true
  continues : Segment.isEnd header = false
  headerFree : HeaderFree body

namespace Block

def lines (block : Block) : List Line :=
  block.header :: block.body

/-- The names on the segment line; none if it does not list any as it should. -/
def names (block : Block) : List String :=
  match Segment.names block.header with
  | .ok names => names
  | .error _ => []

/-- The body where its first line has the number `start`. Another segment line follows. -/
def bodyAt (block : Block) (start : Nat) : SegmentBody :=
  ⟨start, block.body, true⟩

end Block

/-- A level: the lines before the first segment, its segments, the line that ends the search, and the rest. -/
structure Layout where
  front : List Line
  blocks : List Block
  last : Line
  tail : List Line
  front_headerFree : HeaderFree front
  ends : Segment.isEnd last = true

namespace Layout

/-- The lines from the first segment on. -/
def segments (layout : Layout) : List Line :=
  layout.blocks.flatMap Block.lines ++ layout.last :: layout.tail

def lines (layout : Layout) : List Line :=
  layout.front ++ layout.segments

/-- The level with other segments, or the same in another order. -/
def withBlocks (layout : Layout) (blocks : List Block) : Layout :=
  { layout with blocks }

end Layout

/-! ### Listing the segments -/

namespace Block

/-- The entries of an index for blocks from the line of this number on. -/
def entriesFrom (number : Nat) : List Block → List (String × Nat)
  | [] => []
  | block :: rest =>
      block.names.map (fun name => (name, number)) ++ entriesFrom (number + block.lines.length) rest

theorem map_fst_entriesFrom (number : Nat) (blocks : List Block) :
    (entriesFrom number blocks).map Prod.fst = blocks.flatMap names := by
  induction blocks generalizing number with
  | nil => rfl
  | cons block rest ih => simp [entriesFrom, ih, Function.comp_def]

/-- The segment lines all list names, and no name twice. -/
structure Listable (blocks : List Block) : Prop where
  lists : ∀ block ∈ blocks, ∃ names, Segment.names block.header = .ok names
  nodup : (blocks.flatMap names).Nodup

theorem Listable.perm {blocks blocks' : List Block} (h : Listable blocks) (hperm : blocks'.Perm blocks) :
    Listable blocks' where
  lists := fun block hblock => h.lists block (hperm.subset hblock)
  nodup := (hperm.flatMap_right names).nodup_iff.mpr h.nodup

/-- A block is listed when its segment line lists names, none of them declared already or twice. -/
theorem scan_lines_append (mode : Mode) {index result : SegmentIndex} (hnodup : index.names.Nodup) {number : Nat}
    {block : Block} {rest : List Line} :
    SegmentIndex.scan mode index number (block.lines ++ rest) = .ok result ↔
      (∃ names, Segment.names block.header = .ok names) ∧ (index.names ++ block.names).Nodup ∧
        SegmentIndex.scan mode ⟨index.entries ++ block.names.map fun name => (name, number)⟩
          (number + block.lines.length) rest = .ok result := by
  rw [lines, List.cons_append, SegmentIndex.scan, block.begins, if_pos rfl, block.continues,
    if_neg Bool.false_ne_true]
  cases hnames : Segment.names block.header with
  | error e => simp [Except.bind]
  | ok declared =>
      have hblock : block.names = declared := by rw [names, hnames]
      rw [Except.bind, hblock]
      cases hdeclare : index.declare number declared with
      | error e =>
          have hrepeated : ¬(index.names ++ declared).Nodup := by
            intro h
            cases hdeclare.symm.trans ((SegmentIndex.declare_eq_ok_iff hnodup).mpr ⟨h, rfl⟩)
          simp [hrepeated]
      | ok next =>
          obtain ⟨hdeclared, rfl⟩ := (SegmentIndex.declare_eq_ok_iff hnodup).mp hdeclare
          have hnumber : number + 1 + block.body.length = number + (block.header :: block.body).length := by
            rw [List.length_cons]
            omega
          dsimp only
          rw [Import.scan_append_of_headerFree mode _ _ _ block.headerFree, hnumber]
          simp only [Except.ok.injEq, exists_eq', hdeclared, true_and]

section Scanning

variable {last : Line} {tail : List Line} (hends : Segment.isEnd last = true)

include hends

/-- Blocks are listed after some names when their segment lines list names, none of them twice. -/
theorem scan_eq_ok_iff (mode : Mode) {index result : SegmentIndex} (hnodup : index.names.Nodup) (number : Nat)
    (blocks : List Block) :
    SegmentIndex.scan mode index number (blocks.flatMap lines ++ last :: tail) = .ok result ↔
      (∀ block ∈ blocks, ∃ names, Segment.names block.header = .ok names) ∧
        (index.names ++ blocks.flatMap names).Nodup ∧
        result = ⟨index.entries ++ entriesFrom number blocks⟩ := by
  induction blocks generalizing index number with
  | nil =>
      have hlast := Segment.isHeader_of_isEnd hends
      simp [SegmentIndex.scan, hlast, hends, hnodup, entriesFrom, eq_comm]
  | cons block rest ih =>
      rw [List.flatMap_cons, List.flatMap_cons, List.append_assoc, scan_lines_append mode hnodup,
        List.forall_mem_cons, entriesFrom, ← List.append_assoc, ← List.append_assoc]
      have hlater (hdeclared : (index.names ++ block.names).Nodup) :=
        ih ((SegmentIndex.names_append index number block.names).symm ▸ hdeclared) (number + block.lines.length)
      simp only [SegmentIndex.names_append] at hlater
      constructor
      · rintro ⟨hlists, hdeclared, hscan⟩
        obtain ⟨hall, hnames, hresult⟩ := (hlater hdeclared).mp hscan
        exact ⟨⟨hlists, hall⟩, hnames, hresult⟩
      · rintro ⟨⟨hlists, hall⟩, hnames, hresult⟩
        have hdeclared := (List.nodup_append.mp hnames).1
        exact ⟨hlists, hdeclared, (hlater hdeclared).mpr ⟨hall, hnames, hresult⟩⟩

end Scanning

/-! ### Bodies of segments -/

/-- The lines from the first segment on begin with a segment line. -/
theorem takeWhile_segments {last : Line} (tail : List Line) (hends : Segment.isEnd last = true)
    (blocks : List Block) :
    (blocks.flatMap lines ++ last :: tail).takeWhile (fun line => !Segment.isHeader line) = [] := by
  cases blocks with
  | nil => simp [Segment.isHeader_of_isEnd hends]
  | cons block rest => simp [lines, block.begins]

theorem body_eq_of_drop {level rest : List Line} {number : Nat} {block : Block}
    (hlevel : level.drop number = block.lines ++ rest)
    (hrest : rest.takeWhile (fun line => !Segment.isHeader line) = []) :
    Segment.body level number = block.body := by
  have hbody : level.drop (Segment.bodyStart number) = block.body ++ rest := by
    rw [Segment.bodyStart, ← List.drop_drop, hlevel]
    rfl
  rw [Segment.body, hbody, block.headerFree.takeWhile_append, hrest, List.append_nil]

/-- A name is declared together with a body where some block declares the one and has the other. -/
theorem exists_mem_entriesFrom_iff {level tail : List Line} {last : Line} (hends : Segment.isEnd last = true)
    {number : Nat} {blocks : List Block}
    (hlevel : level.drop number = blocks.flatMap lines ++ last :: tail) (name : String) (body : List Line) :
    (∃ header, (name, header) ∈ entriesFrom number blocks ∧ Segment.body level header = body) ↔
      ∃ block ∈ blocks, name ∈ block.names ∧ block.body = body := by
  induction blocks generalizing number with
  | nil => simp [entriesFrom]
  | cons block rest ih =>
      rw [List.flatMap_cons, List.append_assoc] at hlevel
      have hbody : Segment.body level number = block.body :=
        body_eq_of_drop hlevel (takeWhile_segments tail hends rest)
      have hrest : level.drop (number + block.lines.length) = rest.flatMap lines ++ last :: tail := by
        rw [← List.drop_drop, hlevel, List.drop_left]
      have hhere : (∃ header, (name, header) ∈ block.names.map (fun name => (name, number)) ∧
          Segment.body level header = body) ↔ name ∈ block.names ∧ block.body = body := by
        simp [← hbody]
      simp only [entriesFrom, List.mem_append, or_and_right, exists_or, hhere, ih hrest, List.mem_cons,
        exists_eq_left]

end Block

namespace Layout

section Front

variable (layout : Layout)

theorem takeWhile_segments :
    layout.segments.takeWhile (fun line => !Segment.isHeader line) = [] :=
  Block.takeWhile_segments layout.tail layout.ends layout.blocks

/-- The format is named before the first segment. -/
theorem exists_front (h : Header.check layout.lines = .ok ()) :
    ∃ first rest, layout.front = first :: rest := by
  cases hfront : layout.front with
  | cons first rest => exact ⟨first, rest, rfl⟩
  | nil =>
      cases hsegments : layout.segments with
      | nil => simp [segments] at hsegments
      | cons line after =>
          -- the first line begins a segment, so it does not name the format
          have hheader := layout.takeWhile_segments
          rw [lines, hfront, hsegments] at h
          rw [hsegments, List.takeWhile_cons, Segment.isHeader, Header.firstWord_of_check h] at hheader
          exact absurd hheader (by simp [Header.formatDirective, Segment.directive])

variable {layout} {first : Line} {rest : List Line} (hfront : layout.front = first :: rest)

include hfront

theorem headerFree_rest : HeaderFree rest :=
  (List.forall_mem_cons.mp (hfront ▸ layout.front_headerFree)).2

theorem metadata?_lines :
    Header.metadata? layout.lines = some (rest.foldl Header.Metadata.takeLine {}) := by
  have hdirectives : (layout.lines.drop 1).takeWhile (fun line => !Segment.isHeader line) = rest := by
    rw [lines, hfront, List.cons_append, List.drop_one, List.tail_cons, (headerFree_rest hfront).takeWhile_append,
      takeWhile_segments, List.append_nil]
  have hlength : rest.length < layout.lines.length - 1 := by
    rw [lines, segments, hfront, List.cons_append, List.length_cons, List.length_append, List.length_append,
      List.length_cons]
    omega
  rw [Header.metadata?, hdirectives, if_pos hlength]

theorem ofLines_eq_ok_iff (mode : Mode) (index : SegmentIndex) :
    SegmentIndex.ofLines mode layout.lines = .ok index ↔
      Block.Listable layout.blocks ∧ index = ⟨Block.entriesFrom layout.front.length layout.blocks⟩ := by
  have hnone : SegmentIndex.empty.names.Nodup := List.nodup_nil
  rw [lines, hfront, List.cons_append, SegmentIndex.ofLines,
    Import.scan_append_of_headerFree mode _ _ layout.segments (headerFree_rest hfront), segments,
    Block.scan_eq_ok_iff layout.ends mode hnone, List.length_cons, Nat.add_comm 1]
  exact ⟨fun ⟨hlists, hnodup, hindex⟩ => ⟨⟨hlists, hnodup⟩, hindex⟩,
    fun ⟨⟨hlists, hnodup⟩, hindex⟩ => ⟨hlists, hnodup, hindex⟩⟩

theorem content?_eq_some_iff {mode : Mode} {index : SegmentIndex}
    (hindex : SegmentIndex.ofLines mode layout.lines = .ok index) (name : String) (body : List Line) :
    Level.content? layout.lines index name = some body ↔
      ∃ block ∈ layout.blocks, name ∈ block.names ∧ block.body = body := by
  obtain ⟨hlistable, rfl⟩ := (ofLines_eq_ok_iff hfront mode index).mp hindex
  have hnodup : (SegmentIndex.names ⟨Block.entriesFrom layout.front.length layout.blocks⟩).Nodup := by
    rw [SegmentIndex.names, Block.map_fst_entriesFrom]
    exact hlistable.nodup
  have hdrop : layout.lines.drop layout.front.length = layout.segments := List.drop_left
  rw [← Block.exists_mem_entriesFrom_iff layout.ends hdrop]
  simp [Level.content?, Level.body?, SegmentBody.ofHeader, Option.map_eq_some_iff,
    SegmentIndex.get?_eq_some_iff hnodup]

/-- A level without imports is loaded as it stands. -/
theorem ofLines_lines (settings : Settings) (files : FileReader) (folder : Path)
    (hfree : ∀ line ∈ layout.lines, Import.isImport line = false) :
    Level.ofLines settings files folder layout.lines = (do
      (Header.check [first]).mapError .format
      Level.ofExpanded settings.mode (rest.foldl Header.Metadata.takeLine {}) layout.lines) := by
  have hcheck : Header.check layout.lines = Header.check [first] := by
    rw [lines, hfront]
    rfl
  rw [Level.ofLines, hcheck, metadata?_lines hfront, Import.expand, Import.passes_of_no_import _ _ _ _ _ hfree]
  rfl

end Front

/-! ### The order of segments -/

section Order

variable {layout : Layout} {blocks : List Block}

theorem lines_perm (hperm : blocks.Perm layout.blocks) : (layout.withBlocks blocks).lines.Perm layout.lines :=
  .append_left layout.front (.append_right _ (hperm.flatMap_right Block.lines))

/-- In another order the same names are declared, with the same lines. -/
theorem exists_same_content (hperm : blocks.Perm layout.blocks) {first : Line} {rest : List Line}
    (hfront : layout.front = first :: rest) {mode : Mode} {index : SegmentIndex}
    (hindex : SegmentIndex.ofLines mode layout.lines = .ok index) :
    ∃ index', SegmentIndex.ofLines mode (layout.withBlocks blocks).lines = .ok index' ∧
      ∀ name, Level.content? layout.lines index name =
        Level.content? (layout.withBlocks blocks).lines index' name := by
  have hfront' : (layout.withBlocks blocks).front = first :: rest := hfront
  obtain ⟨hlistable, -⟩ := (ofLines_eq_ok_iff hfront mode index).mp hindex
  have hindex' := (ofLines_eq_ok_iff hfront' mode _).mpr ⟨hlistable.perm hperm, rfl⟩
  refine ⟨_, hindex', fun name => ?_⟩
  ext body
  rw [content?_eq_some_iff hfront hindex, content?_eq_some_iff hfront' hindex']
  simp only [withBlocks, hperm.mem_iff]

/-- What is loaded from a level is loaded from it with its segments in another order. -/
theorem ofLines_withBlocks (settings : Settings) (files : FileReader) (folder : Path)
    (hperm : blocks.Perm layout.blocks) (hfree : ∀ line ∈ layout.lines, Import.isImport line = false) :
    Refines (Level.ofLines settings files folder layout.lines)
      (Level.ofLines settings files folder (layout.withBlocks blocks).lines) := by
  intro level hlevel
  obtain ⟨_, hcheck, -⟩ := Result.bind_eq_ok_iff.mp hlevel
  rw [Result.mapError_eq_ok_iff] at hcheck
  obtain ⟨first, rest, hfront⟩ := layout.exists_front hcheck
  have hfront' : (layout.withBlocks blocks).front = first :: rest := hfront
  have hfree' : ∀ line ∈ (layout.withBlocks blocks).lines, Import.isImport line = false := fun line hline =>
    hfree line ((lines_perm hperm).subset hline)
  have hexpanded := Level.ofExpanded_refines (.refl settings.mode)
    (fun _ hindex => exists_same_content hperm hfront hindex) (rest.foldl Header.Metadata.takeLine {})
  rw [ofLines_lines hfront settings files folder hfree] at hlevel
  rw [ofLines_lines hfront' settings files folder hfree']
  exact Refines.bind (.refl _) (fun _ => hexpanded) level hlevel

end Order

/-- What is read under a name: the body of the block that declares it, wherever it stands, or nothing. -/
structure ReadsAs {α : Type} (layout : Layout) (name : String) (absent : α)
    (read : SegmentBody → Except LoadError α) (a : α) : Prop where
  body : ∀ block ∈ layout.blocks, name ∈ block.names → ∀ start, read (block.bodyAt start) = .ok a
  absent : (∀ block ∈ layout.blocks, name ∉ block.names) → a = absent

theorem readsAs_of_readSegment {α : Type} {layout : Layout} {name : String} {absent a : α}
    {read : SegmentBody → Except LoadError α} (hread : SegmentBody.ReadsInto read read) {first : Line}
    {rest : List Line} (hfront : layout.front = first :: rest) {mode : Mode} {index : SegmentIndex}
    (hindex : SegmentIndex.ofLines mode layout.lines = .ok index)
    (h : Level.readSegment layout.lines index name absent read = .ok a) :
    layout.ReadsAs name absent read a where
  body := by
    intro block hblock hname start
    have hcontent := (content?_eq_some_iff hfront hindex name block.body).mpr ⟨block, hblock, hname, rfl⟩
    obtain ⟨body, hbody, hlines⟩ := Option.map_eq_some_iff.mp hcontent
    rw [Level.readSegment, hbody] at h
    exact hread hlines a h
  absent := by
    intro hnone
    cases hbody : Level.body? layout.lines index name with
    | none =>
        rw [Level.readSegment, hbody] at h
        exact (Except.ok.inj h).symm
    | some body =>
        have hcontent : Level.content? layout.lines index name = some body.lines := by
          rw [Level.content?, hbody]
          rfl
        obtain ⟨block, hblock, hname, -⟩ := (content?_eq_some_iff hfront hindex name body.lines).mp hcontent
        exact absurd hname (hnone block hblock)

/-- The content of a level is read from the blocks that declare it, all with the macros of the block that
declares `Defines`, whichever of them stands first. -/
structure Reads (layout : Layout) (mode : Mode) (table : MacroTable) (level : Level) : Prop where
  defines : layout.ReadsAs "Defines" .empty (Defines.ofBody mode) table
  scripts : layout.ReadsAs "Scripts" .empty (Scripts.ofBody mode table) level.scripts
  planes : ∃ defs, layout.ReadsAs "Lines" .empty (Lines.ofBody mode table) defs ∧
    Planes.link defs level.sectors = .ok level.planes
  sectors : layout.ReadsAs "Sectors" [] (Sectors.ofBody mode table) level.sectors

theorem exists_reads {settings : Settings} {files : FileReader} {folder : Path} {layout : Layout}
    (hfree : ∀ line ∈ layout.lines, Import.isImport line = false) {level : Level}
    (hlevel : Level.ofLines settings files folder layout.lines = .ok level) :
    ∃ table, layout.Reads settings.mode table level := by
  obtain ⟨_, hcheck, -⟩ := Result.bind_eq_ok_iff.mp hlevel
  rw [Result.mapError_eq_ok_iff] at hcheck
  obtain ⟨first, rest, hfront⟩ := layout.exists_front hcheck
  obtain ⟨expanded, index, table, defs, ⟨⟨passes, replaced, hexpands⟩, hindex, hdefines⟩, hscripts, hdefs,
    hsectors, hplanes⟩ := Level.stages_of_ofLines hlevel
  rw [Import.expand, Import.passes_of_no_import _ _ _ _ _ hfree] at hexpands
  cases hexpands
  refine ⟨table, ?_, ?_, ⟨defs, ?_, hplanes⟩, ?_⟩
  · exact readsAs_of_readSegment (Defines.readsInto_ofBody (.refl settings.mode)) hfront hindex hdefines
  · exact readsAs_of_readSegment (Scripts.readsInto_ofBody (.refl settings.mode) table) hfront hindex hscripts
  · exact readsAs_of_readSegment (Lines.readsInto_ofBody (.refl settings.mode) table) hfront hindex hdefs
  · exact readsAs_of_readSegment (Sectors.readsInto_ofBody (.refl settings.mode) table) hfront hindex hsectors

/-- The segments of a level without imports may stand in any order, in either mode: the same is loaded, or
nothing. Each segment with content is read with the macros of `Defines`, also where it stands before it. -/
theorem loads_in_any_order (settings : Settings) (files : FileReader) (folder : Path) (layout : Layout)
    {blocks : List Block} (hperm : blocks.Perm layout.blocks)
    (hfree : ∀ line ∈ layout.lines, Import.isImport line = false) (level : Level) :
    (Level.ofLines settings files folder (layout.withBlocks blocks).lines = .ok level ↔
        Level.ofLines settings files folder layout.lines = .ok level) ∧
      (Level.ofLines settings files folder layout.lines = .ok level →
        ∃ table, layout.Reads settings.mode table level) := by
  have hfree' : ∀ line ∈ (layout.withBlocks blocks).lines, Import.isImport line = false := fun line hline =>
    hfree line ((lines_perm hperm).subset hline)
  refine ⟨⟨?_, ?_⟩, exists_reads hfree⟩
  · have hback : Refines (Level.ofLines settings files folder (layout.withBlocks blocks).lines)
        (Level.ofLines settings files folder layout.lines) :=
      ofLines_withBlocks settings files folder hperm.symm hfree'
    exact hback level
  · exact ofLines_withBlocks settings files folder hperm hfree level

/-- A level with a macro, a script that uses it, and neither lines nor sectors. -/
def gate : Layout where
  front := ["#Format MDMF"]
  blocks :=
    [⟨"#Segment [Defines]", ["#define DOOR Open"], by decide, by decide, by decide⟩,
      ⟨"#Segment [Lines, Sectors]", [], by decide, by decide, by decide⟩,
      ⟨"#Segment [Scripts]", ["@1 begin", "DOOR $1", "end"], by decide, by decide, by decide⟩]
  last := "#Segment End"
  tail := []
  front_headerFree := by decide
  ends := by decide

def gateMacros : MacroTable :=
  ⟨[("DOOR", "Open")], by simp⟩

def gateLevel : Level where
  theme := none
  name := none
  sectors := []
  planes := .empty
  scripts := IdMap.empty.insert 1 ⟨1, [["Open", "$1"]]⟩

theorem defines_gate : Defines.ofBody .strict ⟨2, ["#define DOOR Open"], true⟩ = .ok gateMacros := by
  have hname : (Token.ofLine .empty "#define DOOR Open")[1]? = some "DOOR" := by decide +kernel
  have hmeaning : Text.unwords ((Token.ofLine .empty "#define DOOR Open").drop 2) = "Open" := by decide +kernel
  rw [Defines.ofBody, SegmentBody.fold, SegmentBody.foldFrom, Defines.takeLine, if_pos (by decide), hname, hmeaning]
  rfl

theorem scripts_gate :
    Scripts.ofBody .strict gateMacros ⟨5, ["@1 begin", "DOOR $1", "end"], true⟩ = .ok gateLevel.scripts := by
  have hbegin : Token.ofLine gateMacros "@1 begin" = ["@1", "begin"] := by decide +kernel
  have hopen : Scripts.instruction gateMacros "DOOR $1" = ["Open", "$1"] := by decide +kernel
  have hend : Scripts.instruction gateMacros "end" = ["end"] := by decide +kernel
  rw [Scripts.ofBody,
    Level.readFrom_single (hbegin ▸ Level.headerId?_one) (by simp [hopen, Scripts.endWord]) hend, hopen]
  rfl

theorem ofLines_gate (hfree : ∀ line ∈ gate.lines, Import.isImport line = false) :
    Level.ofLines {} (fun _ => .error .notFound) "" gate.lines = .ok gateLevel := by
  have hcheck : Header.check gate.lines = .ok () := by rfl
  have hexpand := Import.passes_of_no_import {} (fun _ => .error .notFound) "" 32 ⟨gate.lines, 0, 0⟩ hfree
  have hindex : SegmentIndex.ofLines .strict gate.lines =
      .ok ⟨[("Defines", 1), ("Lines", 3), ("Sectors", 3), ("Scripts", 4)]⟩ := by decide +kernel
  have hdefines : SegmentBody.ofHeader gate.lines 1 = ⟨2, ["#define DOOR Open"], true⟩ := by rfl
  have hempty : SegmentBody.ofHeader gate.lines 3 = ⟨4, [], true⟩ := by rfl
  have hscripts : SegmentBody.ofHeader gate.lines 4 = ⟨5, ["@1 begin", "DOOR $1", "end"], true⟩ := by rfl
  rw [Level.ofLines_eq_ofExpanded hcheck (metadata?_lines rfl) hexpand]
  apply Level.ofExpanded_of_stages hindex
  · rw [Level.readSegment_of_get?_eq_some (by decide : _ = some 1), hdefines]
    exact defines_gate
  · rw [Level.readSegment_of_get?_eq_some (by decide : _ = some 4), hscripts]
    exact scripts_gate
  · rw [Level.readSegment_of_get?_eq_some (by decide : _ = some 3), hempty]
    rfl
  · decide
  · rw [Level.readSegment_of_get?_eq_some (by decide : _ = some 3), hempty]
    rfl
  · rfl

/-- The script comes first, the macro last. -/
theorem gate_in_reverse : gate.blocks.reverse.Perm gate.blocks ∧
    (∀ line ∈ gate.lines, Import.isImport line = false) ∧
    Level.ofLines {} (fun _ => .error .notFound) "" (gate.withBlocks gate.blocks.reverse).lines =
      .ok gateLevel := by
  have hperm : gate.blocks.reverse.Perm gate.blocks := List.reverse_perm gate.blocks
  have hfree : ∀ line ∈ gate.lines, Import.isImport line = false := by decide +kernel
  exact ⟨hperm, hfree, (loads_in_any_order {} _ "" gate hperm hfree gateLevel).1.mpr (ofLines_gate hfree)⟩

end Layout

end LevelPlay
