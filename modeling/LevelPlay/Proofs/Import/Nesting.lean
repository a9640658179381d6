import Mathlib.Order.Lattice
import LevelPlay.Proofs.Import.Unfolding

/-! How deep imports nest. An import line nests one deeper than the lines for which it stands, and lines
nest as deep as the deepest of them; at the same time the import lines are counted, with those that they
bring in. Unfolding brings in nothing deeper. Replacing every import line once by the lines for which it
stands takes off one level, and as many from the count as there were. -/

namespace LevelPlay.Import

/-- The import lines among these nest `depth` deep, and there are `count` of them together with those that
they bring in, in turn. No pair of numbers is right for lines that import without end. -/
inductive Nests (stands : Line → List Line → Prop) : List Line → Nat → Nat → Prop where
  | nil : Nests stands [] 0 0
  | keep {line : Line} {rest : List Line} {depth count : Nat} (hkeep : isImport line = false)
      (hrest : Nests stands rest depth count) : Nests stands (line :: rest) depth count
  | splice {line : Line} {body rest : List Line} {inner within depth count : Nat}
      (himport : isImport line = true) (hbody : stands line body) (hinner : Nests stands body inner within)
      (hrest : Nests stands rest depth count) :
      Nests stands (line :: rest) (max (inner + 1) depth) (within + 1 + count)

/-- An import line that stands among these lines, or among those that one of them brings in, and so on. -/
inductive Reaches (stands : Line → List Line → Prop) : List Line → Line → Prop where
  | here {lines : List Line} {line : Line} (hline : line ∈ lines) (himport : isImport line = true) :
      Reaches stands lines line
  | through {lines body : List Line} {outer line : Line} (houter : outer ∈ lines)
      (himport : isImport outer = true) (hbody : stands outer body) (hline : Reaches stands body line) :
      Reaches stands lines line

/-- Each import line gives way once, to lines that `brings` allows for it. There are `replaced` of them. -/
inductive Splices (brings : Line → List Line → Prop) : List Line → List Line → Nat → Prop where
  | nil : Splices brings [] [] 0
  | keep {line : Line} {rest out : List Line} {replaced : Nat} (hkeep : isImport line = false)
      (hrest : Splices brings rest out replaced) : Splices brings (line :: rest) (line :: out) replaced
  | splice {line : Line} {body rest out : List Line} {replaced : Nat} (himport : isImport line = true)
      (hbody : brings line body) (hrest : Splices brings rest out replaced) :
      Splices brings (line :: rest) (body ++ out) (replaced + 1)

variable {stands brings : Line → List Line → Prop}

/-! ### Replacing once -/

theorem Splices.imp {lines out : List Line} {replaced : Nat} (h : Splices brings lines out replaced)
    (hstands : ∀ line ∈ lines, isImport line = true → ∀ body, brings line body → stands line body) :
    Splices stands lines out replaced := by
  induction h with
  | nil => exact .nil
  | keep hkeep _ ih => exact .keep hkeep (ih (List.forall_mem_cons.mp hstands).2)
  | splice himport hbody _ ih =>
      obtain ⟨hline, hrest⟩ := List.forall_mem_cons.mp hstands
      exact .splice himport (hline himport _ hbody) (ih hrest)

theorem Splices.unfolds {lines out : List Line} {replaced : Nat} (h : Splices stands lines out replaced) :
    Unfolds stands lines out := by
  induction h with
  | nil => exact .nil
  | keep _ _ ih => exact .keep _ ih
  | splice himport hbody _ ih => exact .splice himport hbody (.refl _) ih

theorem Splices.replaced_eq_zero_iff {lines out : List Line} {replaced : Nat}
    (h : Splices brings lines out replaced) : replaced = 0 ↔ ∀ line ∈ lines, isImport line = false := by
  induction h with
  | nil => simp
  | keep hkeep _ ih => simp [hkeep, ih]
  | splice himport _ _ _ => simp [himport]

/-! ### Import lines that are reached -/

theorem Reaches.mono {lines lines' : List Line} {line : Line} (h : Reaches stands lines line)
    (hsub : lines ⊆ lines') : Reaches stands lines' line := by
  cases h with
  | here hline himport => exact .here (hsub hline) himport
  | through houter himport hbody hline => exact .through (hsub houter) himport hbody hline

theorem Reaches.trans {lines body : List Line} {outer line : Line} (h : Reaches stands lines outer)
    (hbody : stands outer body) (hline : Reaches stands body line) : Reaches stands lines line := by
  induction h with
  | here houter himport => exact .through houter himport hbody hline
  | through hfirst himport hfirstBody _ ih => exact .through hfirst himport hfirstBody (ih hbody)

theorem Unfolds.reaches_of_mem {lines out : List Line} (h : Unfolds stands lines out) {line : Line}
    (hline : line ∈ out) (himport : isImport line = true) : Reaches stands lines line := by
  induction h with
  | nil => exact absurd hline List.not_mem_nil
  | keep first _ ih =>
      rcases List.mem_cons.mp hline with rfl | hline
      · exact .here List.mem_cons_self himport
      · exact (ih hline).mono (List.subset_cons_self _ _)
  | splice hfirst hbody _ _ ihinner ihrest =>
      rcases List.mem_append.mp hline with hline | hline
      · exact .through List.mem_cons_self hfirst hbody (ihinner hline)
      · exact (ihrest hline).mono (List.subset_cons_self _ _)

/-- Unfolding reaches nothing new. -/
theorem Unfolds.reaches {lines out : List Line} (h : Unfolds stands lines out) {line : Line}
    (hline : Reaches stands out line) : Reaches stands lines line := by
  cases hline with
  | here hline himport => exact h.reaches_of_mem hline himport
  | through houter himport hbody hline => exact (h.reaches_of_mem houter himport).trans hbody hline

namespace Nests

/-! ### The numbers -/

theorem det {lines : List Line} {depth depth' count count' : Nat} (h : Nests stands lines depth count)
    (h' : Nests stands lines depth' count')
    (hdet : ∀ {line body other}, stands line body → stands line other → body = other) :
    depth = depth' ∧ count = count' := by
  induction h generalizing depth' count' with
  | nil => cases h'; exact ⟨rfl, rfl⟩
  | keep hkeep _ ih =>
      cases h' with
      | keep _ hrest => exact ih hrest
      | splice himport _ _ _ => rw [hkeep] at himport; cases himport
  | splice himport hbody _ _ ihinner ihrest =>
      cases h' with
      | keep hkeep _ => rw [hkeep] at himport; cases himport
      | splice _ hbody' hinner hrest =>
          cases hdet hbody hbody'
          obtain ⟨rfl, rfl⟩ := ihinner hinner
          obtain ⟨rfl, rfl⟩ := ihrest hrest
          exact ⟨rfl, rfl⟩

theorem append {lines lines' : List Line} {depth depth' count count' : Nat}
    (h : Nests stands lines depth count) (h' : Nests stands lines' depth' count') :
    Nests stands (lines ++ lines') (max depth depth') (count + count') := by
  induction h with
  | nil => rwa [Nat.zero_max, Nat.zero_add]
  | keep hkeep _ ih => exact .keep hkeep ih
  | splice himport hbody hinner _ _ ihrest =>
      rw [max_assoc, Nat.add_assoc]
      exact .splice himport hbody hinner ihrest

theorem of_append {lines lines' : List Line} {depth count : Nat}
    (h : Nests stands (lines ++ lines') depth count) :
    ∃ d c d' c', Nests stands lines d c ∧ Nests stands lines' d' c' ∧ max d d' = depth ∧ c + c' = count := by
  induction lines generalizing depth count with
  | nil => exact ⟨0, 0, depth, count, .nil, h, Nat.zero_max depth, Nat.zero_add count⟩
  | cons line lines ih =>
      cases h with
      | keep hkeep hrest =>
          obtain ⟨d, c, d', c', hleft, hright, hdepth, hcount⟩ := ih hrest
          exact ⟨d, c, d', c', .keep hkeep hleft, hright, hdepth, hcount⟩
      | splice himport hbody hinner hrest =>
          obtain ⟨d, c, d', c', hleft, hright, rfl, rfl⟩ := ih hrest
          exact ⟨_, _, d', c', .splice himport hbody hinner hleft, hright,
            max_assoc _ _ _, Nat.add_assoc _ _ _⟩

theorem of_no_import {lines : List Line} (h : ∀ line ∈ lines, isImport line = false) :
    Nests stands lines 0 0 := by
  induction lines with
  | nil => exact .nil
  | cons line lines ih =>
      obtain ⟨hline, hrest⟩ := List.forall_mem_cons.mp h
      exact .keep hline (ih hrest)

theorem depth_eq_zero_iff {lines : List Line} {depth count : Nat} (h : Nests stands lines depth count) :
    depth = 0 ↔ ∀ line ∈ lines, isImport line = false := by
  induction h with
  | nil => simp
  | keep hkeep _ ih => simp [hkeep, ih]
  | @splice line body rest inner within depth count himport _ _ _ _ _ =>
      have hpos : max (inner + 1) depth ≠ 0 := by omega
      simp [himport, hpos]

/-- The lines for which an import line stands. -/
theorem exists_body {lines : List Line} {depth count : Nat} (h : Nests stands lines depth count) {line : Line}
    (hline : line ∈ lines) (himport : isImport line = true) : ∃ body, stands line body := by
  induction h with
  | nil => exact absurd hline List.not_mem_nil
  | keep hkeep _ ih =>
      rcases List.mem_cons.mp hline with rfl | hline
      · rw [hkeep] at himport; cases himport
      · exact ih hline
  | splice _ hbody _ _ _ ihrest =>
      rcases List.mem_cons.mp hline with rfl | hline
      · exact ⟨_, hbody⟩
      · exact ihrest hline

/-! ### Unfolding and replacing -/

/-- Unfolding does not deepen. -/
theorem of_unfolds {lines out : List Line} {depth count : Nat} (h : Nests stands lines depth count)
    (hunfolds : Unfolds stands lines out)
    (hdet : ∀ {line body other}, stands line body → stands line other → body = other) :
    ∃ d c, Nests stands out d c ∧ d ≤ depth := by
  induction hunfolds generalizing depth count with
  | nil => exact ⟨depth, count, h, Nat.le_refl depth⟩
  | keep line _ ih =>
      cases h with
      | keep hkeep hrest =>
          obtain ⟨d, c, hout, hle⟩ := ih hrest
          exact ⟨d, c, .keep hkeep hout, hle⟩
      | splice himport hbody hinner hrest =>
          obtain ⟨d, c, hout, hle⟩ := ih hrest
          exact ⟨_, _, .splice himport hbody hinner hout, by omega⟩
  | splice himport hbody _ _ ihinner ihrest =>
      cases h with
      | keep hkeep _ => rw [hkeep] at himport; cases himport
      | splice _ hbody' hinner hrest =>
          cases hdet hbody hbody'
          obtain ⟨d, c, hleft, hle⟩ := ihinner hinner
          obtain ⟨d', c', hright, hle'⟩ := ihrest hrest
          exact ⟨_, _, hleft.append hright, by omega⟩

/-- Replacing every import line by an unfolding of the lines for which it stands takes off a level. -/
theorem of_splices {lines out : List Line} {depth count replaced : Nat} (h : Nests stands lines depth count)
    (hsplices : Splices brings lines out replaced)
    (hdet : ∀ {line body other}, stands line body → stands line other → body = other)
    (hbrings : ∀ {line later}, brings line later → ∃ body, stands line body ∧ Unfolds stands body later) :
    ∃ d c, Nests stands out d c ∧ d ≤ depth - 1 := by
  induction hsplices generalizing depth count with
  | nil => cases h; exact ⟨0, 0, .nil, Nat.le_refl 0⟩
  | keep hkeep _ ih =>
      cases h with
      | keep _ hrest =>
          obtain ⟨d, c, hout, hle⟩ := ih hrest
          exact ⟨d, c, .keep hkeep hout, hle⟩
      | splice himport _ _ _ => rw [hkeep] at himport; cases himport
  | splice himport hlater _ ih =>
      cases h with
      | keep hkeep _ => rw [hkeep] at himport; cases himport
      | splice _ hbody' hinner hrest =>
          obtain ⟨body, hbody, hunfolds⟩ := hbrings hlater
          cases hdet hbody hbody'
          obtain ⟨d, c, hleft, hle⟩ := hinner.of_unfolds hunfolds hdet
          obtain ⟨d', c', hright, hle'⟩ := ih hrest
          exact ⟨_, _, hleft.append hright, by omega⟩

/-- Where every import line gives way to just the lines for which it stands, the lines before nest one level
deeper than those after, unless there was nothing to replace. -/
theorem of_splices_out {lines out : List Line} {replaced : Nat} (hsplices : Splices stands lines out replaced)
    {depth count : Nat} (h : Nests stands out depth count) :
    ∃ d, Nests stands lines d (count + replaced) ∧
      (replaced = 0 → d = 0 ∧ depth = 0) ∧ (replaced ≠ 0 → d = depth + 1) := by
  induction hsplices generalizing depth count with
  | nil => cases h; exact ⟨0, .nil, by simp, by simp⟩
  | keep hkeep _ ih =>
      cases h with
      | keep _ hrest =>
          obtain ⟨d, hlines, hnone, hsome⟩ := ih hrest
          exact ⟨d, .keep hkeep hlines, hnone, hsome⟩
      | splice himport _ _ _ => rw [hkeep] at himport; cases himport
  | @splice line body rest out replaced himport hbody _ ih =>
      obtain ⟨inner, within, depth', count', hinner, hout, rfl, rfl⟩ := h.of_append
      obtain ⟨d, hrest, hnone, hsome⟩ := ih hout
      refine ⟨max (inner + 1) d, ?_, by simp, fun _ => ?_⟩
      · have hcount : within + count' + (replaced + 1) = within + 1 + (count' + replaced) := by omega
        rw [hcount]
        exact .splice himport hbody hinner hrest
      · by_cases hzero : replaced = 0
        · obtain ⟨rfl, rfl⟩ := hnone hzero
          omega
        · rw [hsome hzero]
          omega

end Nests

end LevelPlay.Import
