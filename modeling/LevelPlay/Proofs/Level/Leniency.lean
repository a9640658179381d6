import LevelPlay.Proofs.Level.Integrity
import LevelPlay.Proofs.Level.Placement

/-! Lenient reading of what strict reading accepts. The mode is looked at in a few places only: where the
search for segments runs out of lines, where a line of macros holds something else, where tokens are left
over at the end of a line or of a script, and where the sectors are missing. In each of them strict mode
ends with an error. So whatever strict mode reads lenient mode reads alike, stage by stage. -/

namespace LevelPlay

open Result (Refines)

/-! ### Segments and imports -/

theorem SegmentIndex.scan_refines (index : SegmentIndex) (number : Nat) (lines : List Line) :
    Refines (scan .strict index number lines) (scan .lenient index number lines) := by
  induction lines generalizing index number with
  | nil => exact .of_error (number, SegmentError.noEnd) _
  | cons line rest ih =>
      rw [scan, scan]
      split
      · split
        · exact .refl _
        · cases (Segment.names line).bind (index.declare number) with
          | error e => exact .refl _
          | ok index => exact ih index (number + 1)
      · exact ih index (number + 1)

theorem SegmentIndex.ofLines_refines (lines : List Line) :
    Refines (ofLines .strict lines) (ofLines .lenient lines) := by
  cases lines with
  | nil => exact scan_refines empty 0 []
  | cons first rest => exact scan_refines empty 1 rest

namespace Import

variable (files : FileReader) (folder : Path)

theorem segmentBody_refines (lines : List Line) (segment : String) :
    Refines (segmentBody .strict lines segment) (segmentBody .lenient lines segment) := by
  rw [segmentBody, segmentBody]
  rcases (SegmentIndex.ofLines_refines lines).error_or_ok with ⟨e, hstrict⟩ | ⟨index, hstrict, hlenient⟩
  · rw [hstrict]
    exact .of_error _ _
  · rw [hstrict, hlenient]
    exact .refl _

theorem targetBody_refines (lines : List Line) (target : ImportTarget) :
    Refines (targetBody .strict files folder lines target)
      (targetBody .lenient files folder lines target) := by
  rw [targetBody, targetBody]
  split
  · exact segmentBody_refines lines target.segment
  · dsimp only
    split
    · exact .refl _
    · exact segmentBody_refines _ target.segment

theorem replacement_refines (lines : List Line) (directive : Line) :
    Refines (replacement .strict files folder lines directive)
      (replacement .lenient files folder lines directive) := by
  refine .bind (.refl _) ?_
  rintro ⟨spec, named⟩
  dsimp only
  rcases (targetBody_refines files folder lines named).error_or_ok with
    ⟨e, hstrict⟩ | ⟨body, hstrict, hlenient⟩
  · rw [hstrict]
    exact .of_error _ _
  · rw [hstrict, hlenient]
    exact .refl _

theorem pass_refines (before after : List Line) :
    Refines (pass .strict files folder before after) (pass .lenient files folder before after) := by
  induction before generalizing after with
  | nil => exact .refl _
  | cons line before ih =>
      rw [pass, pass]
      split
      · dsimp only
        rcases (replacement_refines files folder (before.reverse ++ line :: after) line).error_or_ok with
          ⟨e, hstrict⟩ | ⟨body, hstrict, hlenient⟩
        · rw [hstrict]
          exact .of_error _ _
        · rw [hstrict, hlenient]
          exact .map (ih (body ++ after)) _
      · exact ih (line :: after)

theorem passes_refines (depth left : Nat) (state : Expansion) :
    Refines (passes ⟨.strict, depth⟩ files folder left state)
      (passes ⟨.lenient, depth⟩ files folder left state) := by
  induction left generalizing state with
  | zero =>
      rw [passes, passes]
      exact .refl _
  | succ left ih =>
      rw [passes, passes]
      split
      · exact .refl _
      · refine .bind (pass_refines files folder _ _) ?_
        rintro ⟨lines, replaced⟩
        exact ih _

end Import

/-! ### Levels -/

namespace Level

theorem ofLines_refines (depth : Nat) (files : FileReader) (folder : Path) (lines : List Line) :
    Refines (ofLines ⟨.strict, depth⟩ files folder lines) (ofLines ⟨.lenient, depth⟩ files folder lines) := by
  refine .bind (.refl _) fun _ => ?_
  cases Header.metadata? lines with
  | none => exact .refl _
  | some metadata =>
      refine .bind (.mapError (Import.passes_refines files folder depth depth _) _ _) fun expansion => ?_
      apply ofExpanded_refines (Mode.strict_relaxesTo .lenient)
      intro index hindex
      exact ⟨index, SegmentIndex.ofLines_refines _ index hindex, fun _ => rfl⟩

/-- Whatever strict mode loads lenient mode loads alike, and whatever lenient mode rejects strict mode
rejects. -/
theorem strict_refines_lenient (depth : Nat) (files : FileReader) (folder : Path) (lines : List Line) :
    (∀ level, ofLines ⟨.strict, depth⟩ files folder lines = .ok level →
        ofLines ⟨.lenient, depth⟩ files folder lines = .ok level) ∧
      ∀ error, ofLines ⟨.lenient, depth⟩ files folder lines = .error error →
        ∃ error', ofLines ⟨.strict, depth⟩ files folder lines = .error error' := by
  have hrefines := ofLines_refines depth files folder lines
  refine ⟨hrefines, fun error herror => ?_⟩
  rcases hrefines.error_or_ok with hstrict | ⟨level, -, hlenient⟩
  · exact hstrict
  · cases herror.symm.trans hlenient

theorem hall_of_lenient : ofLines ⟨.strict, 32⟩ (fun _ => .error .notFound) "" hallLines = .ok hall ∧
    ofLines ⟨.lenient, 32⟩ (fun _ => .error .notFound) "" hallLines = .ok hall :=
  ⟨ofLines_hallLines, (strict_refines_lenient 32 _ "" hallLines).1 hall ofLines_hallLines⟩

end Level

end LevelPlay
