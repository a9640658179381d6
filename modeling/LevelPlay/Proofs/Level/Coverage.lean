import Mathlib.Algebra.BigOperators.Group.List.Basic
import Mathlib.Algebra.GroupWithZero.Nat
import LevelPlay.Proofs.Level.Integrity
import LevelPlay.Proofs.Level.Triangles

/-! Every line with content is read once. The sectors are those on the lines of their segment, in order; the
lines of the `Lines` segment give autofields to distinct keys; and the `Scripts` segment is cut into blocks, of
which each is a script. In strict mode nothing is left over on a line. -/

namespace LevelPlay

/-! ### The tokens of a line -/

/-- The tokens that denote a value stand between those before it and those after it. -/
theorem Value.DenotesAt.exists_append {tokens : List Token} {start last : Nat} {v : Value}
    (h : DenotesAt tokens start last v) :
    ∃ front, tokens.drop start = front ++ tokens.drop (last + 1) ∧ Denotes front v := by
  obtain ⟨hstart, -, hvalue⟩ := h
  refine ⟨tokens.extract start (last + 1), ?_, hvalue⟩
  have hend : last + 1 = start + (last + 1 - start) := by omega
  calc tokens.drop start
      = (tokens.drop start).take (last + 1 - start) ++ (tokens.drop start).drop (last + 1 - start) :=
        (List.take_append_drop _ _).symm
    _ = tokens.extract start (last + 1) ++ tokens.drop (last + 1) := by
        rw [List.extract_eq_take_drop, List.drop_drop, ← hend]

/-- In strict mode a line ends with the last token that is read. -/
theorem drop_eq_nil_of_endLine {number : Nat} {tokens : List Token} {last : Nat}
    (h : endLine .strict number tokens last = .ok ()) : tokens.drop (last + 1) = [] := by
  rw [endLine] at h
  split at h
  · rename_i hnone
    exact List.drop_eq_nil_of_le (List.getElem?_eq_none_iff.mp hnone)
  · cases h

/-! ### Lines -/

namespace Lines

/-- The line holds an integer key and then an autofield; in strict mode it holds nothing else. -/
def Reads (mode : Mode) (table : MacroTable) (line : Line) (entry : Int × Autofield) : Prop :=
  ∃ front field rest key, Token.ofLine table line = front ++ (field ++ rest) ∧ Value.Denotes front key ∧
    key.toId? = some entry.1 ∧ Value.Denotes field (.autofield entry.2) ∧ (mode = .strict → rest = [])

/-- The autofields are those that the lines hold, one for each line. -/
def Covers (mode : Mode) (table : MacroTable) (lines : List Line) (defs : IdMap Autofield) : Prop :=
  ∃ entries, List.Forall₂ (Reads mode table) lines entries ∧ entries.Perm defs.entries

theorem reads_of_takeLine {mode : Mode} {table : MacroTable} {defs next : IdMap Autofield} {number : Nat}
    {line : Line} (h : takeLine mode table defs number line = .ok next) :
    ∃ id a, Reads mode table line (id, a) ∧ defs.contains id = false ∧ next = defs.insert id a := by
  obtain ⟨id, a, keyEnd, last, ⟨key, hkey, hid⟩, ha, hend, hfresh, rfl⟩ := takeLine_eq_ok h
  obtain ⟨front, hfront, hdenotes⟩ := hkey.exists_append
  obtain ⟨field, hfield, hdenotes'⟩ := ha.exists_append
  refine ⟨id, a, ⟨front, field, (Token.ofLine table line).drop (last + 1), key, ?_, hdenotes, hid, hdenotes', ?_⟩,
    hfresh, rfl⟩
  · rw [← hfield, ← hfront, List.drop_zero]
  · rintro rfl
    exact drop_eq_nil_of_endLine hend

theorem covers_ofBody {mode : Mode} {table : MacroTable} {body : SegmentBody} {defs : IdMap Autofield}
    (h : ofBody mode table body = .ok defs) : Covers mode table body.lines defs := by
  refine SegmentBody.fold_induction (P := Covers mode table) ⟨[], .nil, .nil⟩ h ?_
  rintro passed defs number line next ⟨entries, hreads, hperm⟩ htake
  obtain ⟨id, a, hline, hfresh, rfl⟩ := reads_of_takeLine htake
  refine ⟨entries ++ [(id, a)], List.rel_append hreads (.cons hline .nil), ?_⟩
  have hlast : (entries ++ [(id, a)]).Perm ((id, a) :: defs.entries) :=
    (List.perm_append_singleton _ _).trans (hperm.cons _)
  exact hlast.trans (IdMap.perm_entries_insert a hfresh).symm

end Lines

/-! ### Sectors -/

namespace Sectors

/-- The line holds a sector; in strict mode it holds nothing else. -/
def Reads (mode : Mode) (table : MacroTable) (line : Line) (sector : Sector) : Prop :=
  ∃ front rest, Token.ofLine table line = front ++ rest ∧ Value.Denotes front (.object (.sector sector)) ∧
    (mode = .strict → rest = [])

theorem reads_of_takeLine {mode : Mode} {table : MacroTable} {sectors next : List Sector} {number : Nat}
    {line : Line} (h : takeLine mode table sectors number line = .ok next) :
    ∃ sector, Reads mode table line sector ∧ next = sectors ++ [sector] := by
  obtain ⟨sector, last, hsector, hend, -, rfl⟩ := takeLine_eq_ok h
  obtain ⟨front, hfront, hdenotes⟩ := hsector.exists_append
  refine ⟨sector, ⟨front, _, hfront, hdenotes, ?_⟩, rfl⟩
  rintro rfl
  exact drop_eq_nil_of_endLine hend

theorem reads_ofBody {mode : Mode} {table : MacroTable} {body : SegmentBody} {sectors : List Sector}
    (h : ofBody mode table body = .ok sectors) : List.Forall₂ (Reads mode table) body.lines sectors := by
  refine SegmentBody.fold_induction (P := List.Forall₂ (Reads mode table)) .nil h ?_
  intro passed sectors number line next hsectors htake
  obtain ⟨sector, hsector, rfl⟩ := reads_of_takeLine htake
  exact List.rel_append hsectors (.cons hsector .nil)

end Sectors

/-! ### Scripts -/

namespace Scripts

/-- The line ends a script; in strict mode it holds nothing else. -/
def Ends (mode : Mode) (table : MacroTable) (line : Line) : Prop :=
  (instruction table line).head? = some endWord ∧
    (mode = .strict → (instruction table line).length = 1)

/-- The lines are a script: one line begins it, one ends it, and those between are its instructions. -/
inductive Block (mode : Mode) (table : MacroTable) : List Line → Script → Prop where
  | mk {first last : Line} {lines : List Line} {id : Int}
      (hbegin : headerId? (Token.ofLine table first) = some id)
      (hinstructions : ∀ line ∈ lines, (instruction table line).head? ≠ some endWord)
      (hend : Ends mode table last) :
      Block mode table (first :: (lines ++ [last])) ⟨id, lines.map (instruction table)⟩

/-- The lines are the blocks of these scripts, one after the other. -/
def Blocks (mode : Mode) (table : MacroTable) (lines : List Line) (scripts : List Script) : Prop :=
  ∃ blocks, lines = blocks.flatten ∧ List.Forall₂ (Block mode table) blocks scripts

theorem Block.length_eq {mode : Mode} {table : MacroTable} {lines : List Line} {script : Script}
    (h : Block mode table lines script) : lines.length = script.size + 2 := by
  cases h
  simp [Script.size]

theorem Blocks.nil (mode : Mode) (table : MacroTable) : Blocks mode table [] [] := ⟨[], rfl, .nil⟩

theorem Blocks.sum_eq {mode : Mode} {table : MacroTable} {lines : List Line} {scripts : List Script}
    (h : Blocks mode table lines scripts) : (scripts.map fun script => script.size + 2).sum = lines.length := by
  obtain ⟨blocks, rfl, hblocks⟩ := h
  induction hblocks with
  | nil => rfl
  | cons hblock _ ih =>
      rw [List.map_cons, List.sum_cons, ih, List.flatten_cons, List.length_append, hblock.length_eq]

section Division

variable {mode : Mode} {table : MacroTable}

theorem ScriptBlock.WellFormed.block {block : ScriptBlock} (h : block.WellFormed mode table) :
    Block mode table block.lines (block.script table) :=
  .mk (headerId?_eq_some_iff.mpr h.opens.begins) h.opens.goesOn
    ⟨h.stops, fun hmode => congrArg List.length (h.clean hmode)⟩

theorem Divided.blocks {lines : List Line} {blocks : List ScriptBlock} (h : Divided mode table lines blocks) :
    Blocks mode table lines (blocks.map fun block => block.script table) := by
  refine ⟨blocks.map ScriptBlock.lines, h.lines_eq.trans List.flatMap_def, ?_⟩
  rw [List.forall₂_map_left_iff, List.forall₂_map_right_iff, List.forall₂_same]
  exact fun block hblock => (h.wellFormed block hblock).block

theorem perm_values_stored (table : MacroTable) (done : Scripts) {blocks : List ScriptBlock}
    (hnodup : (blocks.map ScriptBlock.id).Nodup) (hnew : ∀ block ∈ blocks, done.contains block.id = false) :
    (stored table done blocks).values.Perm ((blocks.map fun block => block.script table) ++ done.values) := by
  induction blocks generalizing done with
  | nil => exact .refl _
  | cons block blocks ih =>
      have hnext := contains_insert_of_nodup hnodup hnew (block.script table)
      have hinsert : (done.insert block.id (block.script table)).values.Perm
          (block.script table :: done.values) :=
        (IdMap.perm_entries_insert _ (hnew block List.mem_cons_self)).map Prod.snd
      rw [stored, List.foldl_cons, ← stored, List.map_cons, List.cons_append]
      exact (ih _ (List.nodup_cons.mp hnodup).2 hnext).trans ((hinsert.append_left _).trans List.perm_middle)

end Division

/-- The `Scripts` segment is the blocks of the scripts that are read. -/
theorem blocks_ofBody {mode : Mode} {table : MacroTable} {body : SegmentBody} {scripts : Scripts}
    (h : ofBody mode table body = .ok scripts) :
    ∃ read, Blocks mode table body.lines read ∧ read.Perm scripts.values := by
  obtain ⟨blocks, hdivided, -⟩ := ofBody_eq_ok_iff.mp h
  cases (ofBody_of_divided hdivided).symm.trans h
  have hperm := perm_values_stored table .empty hdivided.nodup fun _ _ => rfl
  rw [show (IdMap.empty : Scripts).values = [] from rfl, List.append_nil] at hperm
  exact ⟨_, hdivided.blocks, hperm.symm⟩

end Scripts

/-! ### Levels -/

namespace Level

/-- The lines with content, in the segment of each name, and what of the level is read from them. -/
structure Accounted (mode : Mode) (table : MacroTable) (content : String → List Line) (level : Level) : Prop where
  /-- Each line of the `Sectors` segment is a sector. -/
  sectors : List.Forall₂ (Sectors.Reads mode table) (content "Sectors") level.sectors
  /-- Each line of the `Lines` segment gives its plane an id of its own. -/
  planes : ∃ entries, List.Forall₂ (Lines.Reads mode table) (content "Lines") entries ∧
    (entries.map Prod.fst).Perm level.planes.ids
  /-- The `Scripts` segment is cut into scripts. -/
  scripts : ∃ scripts, Scripts.Blocks mode table (content "Scripts") scripts ∧
    scripts.Perm level.scripts.values

/-- Whenever a level is loaded, each line with content in its expanded lines is read, and read once: there is one
sector for each line of the `Sectors` segment, in order, one plane for each line of the `Lines` segment, and each
script takes two lines more than it has instructions. In strict mode nothing is left over on these lines. -/
theorem accounted_of_ofLines {settings : Settings} {files : FileReader} {folder : Path} {lines : List Line}
    {level : Level} (h : ofLines settings files folder lines = .ok level) :
    ∃ expanded index table, Source settings files folder lines expanded index table ∧
      Accounted settings.mode table (segmentLines expanded index) level ∧
      level.sectors.length = (segmentLines expanded index "Sectors").length ∧
      level.planes.size = (segmentLines expanded index "Lines").length ∧
      (level.scripts.values.map fun script => script.size + 2).sum =
        (segmentLines expanded index "Scripts").length := by
  obtain ⟨expanded, index, table, defs, hsource, hscripts, hdefs, hsectors, hplanes⟩ := stages_of_ofLines h
  have hread : List.Forall₂ (Sectors.Reads settings.mode table) (segmentLines expanded index "Sectors")
      level.sectors := of_readSegment hsectors .nil Sectors.reads_ofBody
  obtain ⟨entries, hentries, hperm⟩ : Lines.Covers settings.mode table (segmentLines expanded index "Lines") defs :=
    of_readSegment hdefs ⟨[], .nil, .nil⟩ Lines.covers_ofBody
  obtain ⟨scripts, hblocks, hvalues⟩ :=
    of_readSegment (P := fun lines read => ∃ scripts, Scripts.Blocks settings.mode table lines scripts ∧
      scripts.Perm read.values) hscripts ⟨[], .nil _ _, .nil⟩ Scripts.blocks_ofBody
  have hids : level.planes.ids = defs.ids := Planes.ids_link hplanes
  have hkeys : (entries.map Prod.fst).Perm level.planes.ids := by
    rw [hids]
    exact hperm.map Prod.fst
  refine ⟨expanded, index, table, hsource, ⟨hread, ⟨entries, hentries, hkeys⟩, ⟨scripts, hblocks, hvalues⟩⟩,
    hread.length_eq.symm, ?_, ?_⟩
  · calc level.planes.size
        = level.planes.ids.length := (List.length_map Prod.fst).symm
      _ = (entries.map Prod.fst).length := hkeys.length_eq.symm
      _ = (segmentLines expanded index "Lines").length := by rw [List.length_map, hentries.length_eq]
  · calc (level.scripts.values.map fun script => script.size + 2).sum
        = (scripts.map fun script => script.size + 2).sum := ((hvalues.map _).sum_eq).symm
      _ = (segmentLines expanded index "Scripts").length := hblocks.sum_eq

theorem accounted_hall : ofLines {} (fun _ => .error .notFound) "" hallLines = .ok hall ∧
    ∃ expanded index table, Source {} (fun _ => .error .notFound) "" hallLines expanded index table ∧
      Accounted .strict table (segmentLines expanded index) hall ∧
      (segmentLines expanded index "Sectors").length = 2 ∧ (segmentLines expanded index "Lines").length = 1 ∧
      (segmentLines expanded index "Scripts").length = 3 := by
  obtain ⟨expanded, index, table, hsource, haccounted, hsectors, hplanes, hscripts⟩ :=
    accounted_of_ofLines ofLines_hallLines
  exact ⟨ofLines_hallLines, expanded, index, table, hsource, haccounted, hsectors.symm, hplanes.symm,
    hscripts.symm⟩

end Level

end LevelPlay
