import LevelPlay.Import

/-! Unfolding of import lines, relative to a relation that tells for which lines an import line stands.
`Expands` is the recursive expansion in place: other lines stay, and an import line gives way to the
expansion of the lines for which it stands. `Unfolds` leaves it open how many import lines have been
replaced, so it also relates a level to what it is between two replacements. It is a preorder that
composes along appended lists, and an unfolding without an import line is the expansion. -/

namespace LevelPlay.Import

/-- The lines `out` are the expansion in place of the given lines. -/
inductive Expands (stands : Line → List Line → Prop) : List Line → List Line → Prop where
  | nil : Expands stands [] []
  | keep {line : Line} {rest out : List Line} (hkeep : isImport line = false)
      (hrest : Expands stands rest out) : Expands stands (line :: rest) (line :: out)
  | splice {line : Line} {body inner rest out : List Line} (himport : isImport line = true)
      (hbody : stands line body) (hinner : Expands stands body inner)
      (hrest : Expands stands rest out) : Expands stands (line :: rest) (inner ++ out)

/-- The lines `out` come from the given lines when some import lines are replaced, and in turn some of
the import lines that this brings in. -/
inductive Unfolds (stands : Line → List Line → Prop) : List Line → List Line → Prop where
  | nil : Unfolds stands [] []
  | keep (line : Line) {rest out : List Line} (hrest : Unfolds stands rest out) :
      Unfolds stands (line :: rest) (line :: out)
  | splice {line : Line} {body inner rest out : List Line} (himport : isImport line = true)
      (hbody : stands line body) (hinner : Unfolds stands body inner)
      (hrest : Unfolds stands rest out) : Unfolds stands (line :: rest) (inner ++ out)

variable {stands : Line → List Line → Prop}

/-! ### Expansion is a function -/

/-- Lines have one expansion if each import line stands for one body. -/
theorem Expands.det {lines first second : List Line} (h₁ : Expands stands lines first)
    (h₂ : Expands stands lines second)
    (hdet : ∀ {line body other}, stands line body → stands line other → body = other) :
    first = second := by
  induction h₁ generalizing second with
  | nil => cases h₂; rfl
  | keep hkeep _ ih =>
      cases h₂ with
      | keep _ hrest => rw [ih hrest]
      | splice himport _ _ _ => rw [hkeep] at himport; cases himport
  | splice himport hbody _ _ ihinner ihrest =>
      cases h₂ with
      | keep hkeep _ => rw [hkeep] at himport; cases himport
      | splice _ hbody' hinner hrest =>
          cases hdet hbody hbody'
          rw [ihinner hinner, ihrest hrest]

namespace Unfolds

/-! ### A preorder that composes along lists -/

theorem refl : (lines : List Line) → Unfolds stands lines lines
  | [] => .nil
  | line :: rest => .keep line (refl rest)

theorem append {lines out lines' out' : List Line} (h : Unfolds stands lines out)
    (h' : Unfolds stands lines' out') : Unfolds stands (lines ++ lines') (out ++ out') := by
  induction h with
  | nil => exact h'
  | keep line _ ih => exact .keep line ih
  | splice himport hbody hinner _ _ ihrest =>
      rw [List.append_assoc]
      exact .splice himport hbody hinner ihrest

/-- What appended lines unfold to can be cut where they meet. -/
theorem of_append {lines lines' out : List Line} (h : Unfolds stands (lines ++ lines') out) :
    ∃ left right, out = left ++ right ∧ Unfolds stands lines left ∧ Unfolds stands lines' right := by
  induction lines generalizing out with
  | nil => exact ⟨[], out, rfl, .nil, h⟩
  | cons line lines ih =>
      cases h with
      | keep _ hrest =>
          obtain ⟨left, right, rfl, hleft, hright⟩ := ih hrest
          exact ⟨line :: left, right, rfl, .keep line hleft, hright⟩
      | splice himport hbody hinner hrest =>
          obtain ⟨left, right, rfl, hleft, hright⟩ := ih hrest
          exact ⟨_ ++ left, right, (List.append_assoc _ _ _).symm, .splice himport hbody hinner hleft, hright⟩

theorem trans {lines middle out : List Line} (h : Unfolds stands lines middle)
    (h' : Unfolds stands middle out) : Unfolds stands lines out := by
  induction h generalizing out with
  | nil => exact h'
  | keep line _ ih =>
      cases h' with
      | keep _ hrest => exact .keep line (ih hrest)
      | splice himport hbody hinner hrest => exact .splice himport hbody hinner (ih hrest)
  | splice himport hbody _ _ ihinner ihrest =>
      obtain ⟨left, right, rfl, hleft, hright⟩ := h'.of_append
      exact .splice himport hbody (ihinner hleft) (ihrest hright)

/-- An import line in the midst of others may be replaced by an unfolding of its body. -/
theorem splice_at (before after : List Line) {line : Line} {body inner : List Line}
    (himport : isImport line = true) (hbody : stands line body) (hinner : Unfolds stands body inner) :
    Unfolds stands (before ++ line :: after) (before ++ (inner ++ after)) :=
  (refl before).append (.splice himport hbody hinner (refl after))

/-- Lines whose first is no import line keep it. -/
theorem of_cons {line : Line} {rest out : List Line} (hkeep : isImport line = false)
    (h : Unfolds stands (line :: rest) out) : ∃ out', out = line :: out' ∧ Unfolds stands rest out' := by
  cases h with
  | keep _ hrest => exact ⟨_, rfl, hrest⟩
  | splice himport _ _ _ => rw [hkeep] at himport; cases himport

/-- An unfolding in which no import line is left is the expansion. -/
theorem expands {lines out : List Line} (h : Unfolds stands lines out)
    (hout : ∀ line ∈ out, isImport line = false) : Expands stands lines out := by
  induction h with
  | nil => exact .nil
  | keep line _ ih =>
      obtain ⟨hline, hrest⟩ := List.forall_mem_cons.mp hout
      exact .keep hline (ih hrest)
  | splice himport hbody _ _ ihinner ihrest =>
      obtain ⟨hinner, hrest⟩ := List.forall_mem_append.mp hout
      exact .splice himport hbody (ihinner hinner) (ihrest hrest)

end Unfolds

end LevelPlay.Import
