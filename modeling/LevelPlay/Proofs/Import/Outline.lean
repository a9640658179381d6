import LevelPlay.Proofs.Import.Expansion
import LevelPlay.Proofs.Segment.Declaration

/-! What an expansion keeps. Lines that stand for an import line come from the body of a segment, so no segment line is
among them, and an import line is none. Hence every replacement keeps the segment lines and their order, and with them
the names that are declared, since the search for segments passes over all other lines. -/

namespace LevelPlay

namespace SegmentIndex

/-- What a search for segments comes to but for the numbers of lines: the names in order, or what is wrong. -/
def outline (found : Except (Nat × SegmentError) SegmentIndex) : Except SegmentError (List String) :=
  (found.map names).mapError Prod.snd

variable {index other : SegmentIndex}

theorem contains_congr (h : index.names = other.names) (name : String) :
    index.contains name = other.contains name := by
  rw [Bool.eq_iff_iff, contains_iff, contains_iff, h]

theorem map_names_declare (h : index.names = other.names) (number number' : Nat) (listed : List String) :
    (index.declare number listed).map names = (other.declare number' listed).map names := by
  induction listed generalizing index other with
  | nil => exact congrArg Except.ok h
  | cons name listed ih =>
      rw [declare, declare, contains_congr h name]
      split
      · rfl
      · exact ih (by rw [names_append_singleton, names_append_singleton, h])

/-- The search sees the segment lines only. -/
theorem outline_scan_filter (mode : Mode) (h : index.names = other.names) (number number' : Nat)
    (lines : List Line) :
    outline (scan mode index number lines) = outline (scan mode other number' (lines.filter Segment.isHeader)) := by
  induction lines generalizing index other number number' with
  | nil =>
      rw [List.filter_nil, scan, scan]
      split
      · rfl
      · exact congrArg Except.ok h
  | cons line rest ih =>
      cases hline : Segment.isHeader line with
      | false =>
          rw [scan, hline, if_neg Bool.false_ne_true, List.filter_cons_of_neg (by simp [hline])]
          exact ih h (number + 1) number'
      | true =>
          rw [List.filter_cons_of_pos hline, scan, scan, hline, if_pos rfl, if_pos rfl]
          split
          · exact congrArg Except.ok h
          · cases Segment.names line with
            | error e => rfl
            | ok listed =>
                dsimp only [Except.bind]
                rcases Result.map_eq_map_cases (map_names_declare h number number' listed) with
                  ⟨e, hleft, hright⟩ | ⟨next, next', hleft, hright, hnext⟩
                · rw [hleft, hright]
                  rfl
                · rw [hleft, hright]
                  exact ih hnext (number + 1) (number' + 1)

/-- Levels with the same segment lines behind their first lines declare the same names. -/
theorem outline_ofLines_congr (mode : Mode) {first first' : Line} {rest rest' : List Line}
    (h : rest.filter Segment.isHeader = rest'.filter Segment.isHeader) :
    outline (ofLines mode (first :: rest)) = outline (ofLines mode (first' :: rest')) := by
  rw [ofLines, ofLines, outline_scan_filter mode rfl 1 1 rest, h, ← outline_scan_filter mode rfl 1 1 rest']

end SegmentIndex

namespace Import

/-- The lines as an expansion leaves them, be it finished or broken off. -/
def linesLeft : Except ImportFailure Expansion → List Line
  | .ok done => done.lines
  | .error failure => failure.lines

theorem HeaderFree.filter_eq_nil {lines : List Line} (h : HeaderFree lines) : lines.filter Segment.isHeader = [] := by
  rw [List.filter_eq_nil_iff]
  intro line hline
  simp [h line hline]

/-! ### What is kept -/

/-- The lines `out` have the segment lines of `lines`, and its first line unless that was an import. -/
structure KeepsOutline (lines out : List Line) : Prop where
  headers : out.filter Segment.isHeader = lines.filter Segment.isHeader
  head : (∀ line ∈ lines.head?, isImport line = false) → out.head? = lines.head?

theorem KeepsOutline.refl (lines : List Line) : KeepsOutline lines lines := ⟨rfl, fun _ => rfl⟩

theorem KeepsOutline.trans {lines between out : List Line} (h : KeepsOutline lines between)
    (h' : KeepsOutline between out) : KeepsOutline lines out where
  headers := h'.headers.trans h.headers
  head hfirst := (h'.head (by rwa [h.head hfirst])).trans (h.head hfirst)

/-- An import line gives way to lines without a segment line. -/
theorem KeepsOutline.splice (before after : List Line) {line : Line} {body : List Line}
    (himport : isImport line = true) (hbody : HeaderFree body) :
    KeepsOutline (before ++ line :: after) (before ++ (body ++ after)) where
  headers := by
    rw [List.filter_append, List.filter_append, List.filter_append, hbody.filter_eq_nil,
      List.filter_cons_of_neg (by simp [isHeader_of_isImport himport]), List.nil_append]
  head hfirst := by
    cases before with
    | nil => cases himport.symm.trans (hfirst line rfl)
    | cons first before => rfl

theorem KeepsOutline.outline_eq {lines out : List Line} (h : KeepsOutline lines out)
    (hfirst : ∀ line ∈ lines.head?, isImport line = false) (mode : Mode) :
    SegmentIndex.outline (SegmentIndex.ofLines mode out) =
      SegmentIndex.outline (SegmentIndex.ofLines mode lines) := by
  have hhead := h.head hfirst
  have hheaders := h.headers
  cases lines with
  | nil =>
      obtain rfl : out = [] := List.head?_eq_none_iff.mp hhead
      rfl
  | cons first rest =>
      obtain ⟨rest', rfl⟩ := List.head?_eq_some_iff.mp hhead
      refine SegmentIndex.outline_ofLines_congr mode ?_
      cases hline : Segment.isHeader first <;> simpa [hline] using hheaders

section Expansion

variable {mode : Mode} {files : FileReader} {folder : Path}

/-- Every replacement of a pass keeps them. -/
theorem ReplacesAll.keepsOutline {front rest out : List Line} (h : ReplacesAll mode files folder front rest out) :
    KeepsOutline (front ++ rest) (front ++ out) := by
  induction h with
  | nil front => exact .refl _
  | keep _ _ ih => simpa using ih
  | @splice front rest body out line himport _ hbody ih =>
      have hrest : KeepsOutline (front ++ line :: rest) (front ++ line :: out) := by simpa using ih
      exact hrest.trans (.splice front out himport hbody.headerFree)

theorem BreaksOff.keepsOutline {lines : List Line} {failure : ImportFailure}
    (h : BreaksOff mode files folder lines failure) : KeepsOutline lines failure.lines := by
  cases h with
  | intro _ hrest _ => simpa using hrest.keepsOutline

theorem AfterPasses.keepsOutline {count : Nat} {lines out : List Line}
    (h : AfterPasses mode files folder count lines out) : KeepsOutline lines out := by
  induction h with
  | none lines => exact .refl lines
  | next _ hpass _ ih => exact hpass.keepsOutline.trans ih

theorem RunsOut.keepsOutline {maxDepth : Nat} {lines : List Line} {failure : ImportFailure}
    (h : RunsOut maxDepth lines failure) : KeepsOutline lines failure.lines := by
  cases h with
  | intro _ _ => exact .refl _

theorem keepsOutline_linesLeft (settings : Settings) (files : FileReader) (folder : Path) (lines : List Line) :
    KeepsOutline lines (linesLeft (expand settings files folder lines)) := by
  cases hexpand : expand settings files folder lines with
  | ok done =>
      obtain ⟨count, hafter, -⟩ := exists_afterPasses hexpand
      exact hafter.keepsOutline
  | error failure =>
      obtain ⟨count, started, hafter, ⟨-, hbreaks⟩ | ⟨-, hruns⟩⟩ := passes_eq_error_iff.mp hexpand
      · exact hafter.keepsOutline.trans hbreaks.keepsOutline
      · exact hafter.keepsOutline.trans hruns.keepsOutline

end Expansion

/-- Whether an expansion succeeds or fails, the lines that it leaves have the segment lines that there were, in order.
If the first line was no import then it is still the first, and the search for segments finds what it found before, the
same names in order or the same fault; only the numbers of lines may differ. -/
theorem expand_keeps_segments (settings : Settings) (files : FileReader) (folder : Path) (lines : List Line) :
    (linesLeft (expand settings files folder lines)).filter Segment.isHeader = lines.filter Segment.isHeader ∧
      ((∀ line ∈ lines.head?, isImport line = false) →
        (linesLeft (expand settings files folder lines)).head? = lines.head? ∧
          ∀ mode, SegmentIndex.outline (SegmentIndex.ofLines mode (linesLeft (expand settings files folder lines))) =
            SegmentIndex.outline (SegmentIndex.ofLines mode lines)) := by
  have hkeeps := keepsOutline_linesLeft settings files folder lines
  exact ⟨hkeeps.headers, fun hfirst => ⟨hkeeps.head hfirst, hkeeps.outline_eq hfirst⟩⟩

/-- A level that imports the locks of `nestedFiles` behind an import that cannot be replaced. -/
def brokenLevel : List Line :=
  ["#Format MDMF", "#Segment [Hall]", "#import ::Attic", "#Segment [Cellar]", "#import parts::Doors", "#Segment End"]

def brokenLeft : List Line :=
  ["#Format MDMF", "#Segment [Hall]", "#import ::Attic", "#Segment [Cellar]", "#import ::Locks", "#Segment End"]

theorem brokenLevel_keeps_segments : (∀ line ∈ brokenLevel.head?, isImport line = false) ∧
    expand {} nestedFiles "" brokenLevel = .error ⟨2, .body "::Attic" (.noSegment "Attic"), brokenLeft⟩ ∧
    SegmentIndex.outline (SegmentIndex.ofLines .strict brokenLevel) = .ok ["Hall", "Cellar"] ∧
    SegmentIndex.outline (SegmentIndex.ofLines .strict brokenLeft) = .ok ["Hall", "Cellar"] := by
  have hfirst : ∀ line ∈ brokenLevel.head?, isImport line = false := by decide
  have hexpand : expand {} nestedFiles "" brokenLevel =
      .error ⟨2, .body "::Attic" (.noSegment "Attic"), brokenLeft⟩ := by decide +kernel
  have hbefore : SegmentIndex.outline (SegmentIndex.ofLines .strict brokenLevel) = .ok ["Hall", "Cellar"] := by
    decide +kernel
  have hkeeps := (expand_keeps_segments {} nestedFiles "" brokenLevel).2 hfirst
  rw [hexpand] at hkeeps
  exact ⟨hfirst, hexpand, hbefore, (hkeeps.2 .strict).trans hbefore⟩

end Import

end LevelPlay
