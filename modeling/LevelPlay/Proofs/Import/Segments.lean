import Mathlib.Data.List.Forall2
import Mathlib.Data.List.TakeWhile
import LevelPlay.Proofs.Import.Unfolding
import LevelPlay.Proofs.Result

/-! Segments of a level while its imports are replaced. Where no import line stands for lines with a
segment line among them, unfolding keeps the segment lines and their order, so the same names are
declared before and after, and the body of each segment unfolds to its later body. -/

namespace LevelPlay.Import

open Result (Agree)

/-- A line that begins a segment imports nothing. -/
theorem isImport_of_isHeader {line : Line} (h : Segment.isHeader line = true) : isImport line = false := by
  have hword : Text.firstWord line = Segment.directive := by simpa [Segment.isHeader] using h
  rw [isImport, hword]
  decide

theorem isHeader_of_isImport {line : Line} (h : isImport line = true) : Segment.isHeader line = false := by
  by_contra hheader
  rw [isImport_of_isHeader (by simpa using hheader)] at h
  cases h

/-- No line among these begins a segment. -/
def HeaderFree (lines : List Line) : Prop := ∀ line ∈ lines, Segment.isHeader line = false

instance (lines : List Line) : Decidable (HeaderFree lines) :=
  inferInstanceAs (Decidable (∀ line ∈ lines, Segment.isHeader line = false))

theorem HeaderFree.takeWhile_append {lines : List Line} (h : HeaderFree lines) (rest : List Line) :
    (lines ++ rest).takeWhile (fun line => !Segment.isHeader line) =
      lines ++ rest.takeWhile fun line => !Segment.isHeader line := by
  apply List.takeWhile_append_of_pos
  intro line hline
  rw [h line hline]
  rfl

/-- The body of a segment holds no segment line. -/
theorem headerFree_body (lines : List Line) (header : Nat) : HeaderFree (Segment.body lines header) := by
  intro line hline
  simpa using List.mem_takeWhile_imp hline

variable {stands : Line → List Line → Prop}

theorem Unfolds.headerFree (hfree : ∀ {line body}, stands line body → HeaderFree body)
    {lines out : List Line} (h : Unfolds stands lines out) (hlines : HeaderFree lines) : HeaderFree out := by
  induction h with
  | nil => exact hlines
  | keep line _ ih =>
      obtain ⟨hline, hrest⟩ := List.forall_mem_cons.mp hlines
      exact List.forall_mem_cons.mpr ⟨hline, ih hrest⟩
  | splice _ hbody _ _ ihinner ihrest =>
      exact List.forall_mem_append.mpr ⟨ihinner (hfree hbody), ihrest (List.forall_mem_cons.mp hlines).2⟩

/-- The lines up to the first segment line unfold to the lines up to the first segment line. -/
theorem Unfolds.takeWhile (hfree : ∀ {line body}, stands line body → HeaderFree body)
    {lines out : List Line} (h : Unfolds stands lines out) :
    Unfolds stands (lines.takeWhile fun line => !Segment.isHeader line)
      (out.takeWhile fun line => !Segment.isHeader line) := by
  induction h with
  | nil => exact .nil
  | keep line _ ih =>
      rw [List.takeWhile_cons, List.takeWhile_cons]
      split
      · exact .keep line ih
      · exact .nil
  | @splice line body inner rest out himport hbody hinner _ _ ihrest =>
      have hclear := hinner.headerFree hfree (hfree hbody)
      rw [List.takeWhile_cons, isHeader_of_isImport himport, hclear.takeWhile_append]
      exact .splice himport hbody hinner ihrest

/-! ### Indices -/

section Indices

variable (stands) (level unfolded : List Line)

/-- Entries that declare one name, where the lines after its declaration in `level` unfold to those after
its declaration in `unfolded`. -/
def SameEntry (entry other : String × Nat) : Prop :=
  entry.1 = other.1 ∧
    Unfolds stands (level.drop (Segment.bodyStart entry.2)) (unfolded.drop (Segment.bodyStart other.2))

/-- Indices that declare the same names in the same order, at lines with corresponding bodies. -/
def SameIndex (index other : SegmentIndex) : Prop :=
  List.Forall₂ (SameEntry stands level unfolded) index.entries other.entries

end Indices

variable {level unfolded : List Line}

/-- Looking up a name gives lines with corresponding bodies, or nothing in both. -/
theorem SameIndex.get? {index other : SegmentIndex} (h : SameIndex stands level unfolded index other)
    (name : String) :
    (index.get? name = none ∧ other.get? name = none) ∨
      ∃ header header', index.get? name = some header ∧ other.get? name = some header' ∧
        SameEntry stands level unfolded (name, header) (name, header') := by
  obtain ⟨entries⟩ := index
  obtain ⟨others⟩ := other
  simp only [SameIndex, SegmentIndex.get?] at h ⊢
  induction h with
  | nil => exact .inl ⟨rfl, rfl⟩
  | @cons entry other entries others hentry _ ih =>
      obtain ⟨key, header⟩ := entry
      obtain ⟨key', header'⟩ := other
      obtain ⟨rfl, hlines⟩ := hentry
      rw [List.lookup_cons, List.lookup_cons]
      cases hname : name == key with
      | true => exact .inr ⟨header, header', rfl, rfl, rfl, hlines⟩
      | false => exact ih

theorem SameIndex.contains {index other : SegmentIndex} (h : SameIndex stands level unfolded index other)
    (name : String) : index.contains name = other.contains name := by
  rw [SegmentIndex.contains, SegmentIndex.contains]
  rcases h.get? name with ⟨h₁, h₂⟩ | ⟨header, header', h₁, h₂, -⟩ <;> rw [h₁, h₂]
  rfl

theorem SameIndex.declare {index other : SegmentIndex} (h : SameIndex stands level unfolded index other)
    (names : List String) {number number' : Nat}
    (hlines : Unfolds stands (level.drop (Segment.bodyStart number))
      (unfolded.drop (Segment.bodyStart number'))) :
    Agree (SameIndex stands level unfolded) (index.declare number names) (other.declare number' names) := by
  induction names generalizing index other with
  | nil => exact .ok h
  | cons name names ih =>
      rw [SegmentIndex.declare, SegmentIndex.declare, h.contains name]
      split
      · exact .error _ _
      · exact ih (List.rel_append h (.cons ⟨rfl, hlines⟩ .nil))

theorem scan_append_of_headerFree (mode : Mode) (index : SegmentIndex) (number : Nat)
    {lines : List Line} (rest : List Line) (hlines : HeaderFree lines) :
    SegmentIndex.scan mode index number (lines ++ rest) =
      SegmentIndex.scan mode index (number + lines.length) rest := by
  induction lines generalizing number with
  | nil => rfl
  | cons line lines ih =>
      obtain ⟨hline, hlines⟩ := List.forall_mem_cons.mp hlines
      rw [List.cons_append, SegmentIndex.scan, hline, if_neg Bool.false_ne_true, ih (number + 1) hlines,
        List.length_cons, Nat.add_right_comm, Nat.add_assoc]

/-- Scanning lines and what they unfold to gives corresponding indices, or an error in both. The lines
that a replacement brings in are passed over, since none begins a segment. -/
theorem scan_agree (mode : Mode) (hfree : ∀ {line body}, stands line body → HeaderFree body)
    {lines out : List Line} (h : Unfolds stands lines out) {index other : SegmentIndex}
    (hindex : SameIndex stands level unfolded index other) {number number' : Nat}
    (hlines : level.drop number = lines) (hout : unfolded.drop number' = out) :
    Agree (SameIndex stands level unfolded) (SegmentIndex.scan mode index number lines)
      (SegmentIndex.scan mode other number' out) := by
  induction h generalizing index other number number' with
  | nil =>
      rw [SegmentIndex.scan, SegmentIndex.scan]
      split
      · exact .error _ _
      · exact .ok hindex
  | @keep line rest out hrest ih =>
      have hlines' : level.drop (number + 1) = rest := by rw [← List.drop_drop, hlines]; rfl
      have hout' : unfolded.drop (number' + 1) = out := by rw [← List.drop_drop, hout]; rfl
      rw [SegmentIndex.scan, SegmentIndex.scan]
      split
      · split
        · exact .ok hindex
        · have hbodies : Unfolds stands (level.drop (Segment.bodyStart number))
              (unfolded.drop (Segment.bodyStart number')) := by
            rw [Segment.bodyStart, Segment.bodyStart, hlines', hout']
            exact hrest
          have hnext : Agree (SameIndex stands level unfolded)
              ((Segment.names line).bind (index.declare number))
              ((Segment.names line).bind (other.declare number')) := by
            cases Segment.names line with
            | error e => exact .error e e
            | ok names => exact hindex.declare names hbodies
          generalize (Segment.names line).bind (index.declare number) = left,
            (Segment.names line).bind (other.declare number') = right at hnext ⊢
          cases hnext with
          | error e e' => exact .error _ _
          | ok hboth => exact ih hboth hlines' hout'
      · exact ih hindex hlines' hout'
  | @splice line body inner rest out himport hbody hinner hrest _ ihrest =>
      have hclear := hinner.headerFree hfree (hfree hbody)
      have hlines' : level.drop (number + 1) = rest := by rw [← List.drop_drop, hlines]; rfl
      have hout' : unfolded.drop (number' + inner.length) = out := by
        rw [← List.drop_drop, hout, List.drop_left]
      rw [SegmentIndex.scan, isHeader_of_isImport himport, if_neg Bool.false_ne_true,
        scan_append_of_headerFree mode other number' out hclear]
      exact ihrest hindex hlines' hout'

/-! ### Bodies -/

/-- A level whose first line is kept declares the same segments before and after an unfolding. -/
theorem ofLines_agree (mode : Mode) (hfree : ∀ {line body}, stands line body → HeaderFree body)
    (hfirst : ∀ line ∈ level.head?, isImport line = false) (h : Unfolds stands level unfolded) :
    Agree (SameIndex stands level unfolded) (SegmentIndex.ofLines mode level)
      (SegmentIndex.ofLines mode unfolded) := by
  cases level with
  | nil =>
      cases h
      exact scan_agree mode hfree .nil .nil rfl rfl
  | cons first rest =>
      obtain ⟨out, rfl, hrest⟩ := h.of_cons (hfirst first rfl)
      exact scan_agree mode hfree hrest .nil rfl rfl

/-- The body of a segment unfolds to the segment's body in the unfolded level. -/
theorem segmentBody_agree (mode : Mode) (hfree : ∀ {line body}, stands line body → HeaderFree body)
    (hfirst : ∀ line ∈ level.head?, isImport line = false) (h : Unfolds stands level unfolded)
    (segment : String) :
    Agree (Unfolds stands) (segmentBody mode level segment) (segmentBody mode unfolded segment) := by
  have hindices := ofLines_agree mode hfree hfirst h
  rw [segmentBody, segmentBody]
  generalize SegmentIndex.ofLines mode level = left, SegmentIndex.ofLines mode unfolded = right at hindices ⊢
  cases hindices with
  | error e e' => exact .error _ _
  | @ok index other hsame =>
      rcases hsame.get? segment with ⟨hnone, hnone'⟩ | ⟨header, header', hsome, hsome', -, hlines⟩
      · simp only [hnone, hnone']
        exact .error _ _
      · simp only [hsome, hsome']
        exact .ok (hlines.takeWhile hfree)

end LevelPlay.Import
