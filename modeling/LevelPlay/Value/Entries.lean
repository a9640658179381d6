import LevelPlay.Value.Front

/-! Containers: finding the closing bracket, and reading the entries before it. The closing bracket is found
first, counting only brackets of the container's own pair; entries are separated by commas, and one comma
may follow the last. -/

namespace LevelPlay.Value

/-- What follows the token `right` that closes a bracket already opened by `left`, where `depth` brackets
inside it are still open. -/
def afterClosing (left right : Token) : Nat → List Token → Option (List Token)
  | _, [] => none
  | depth, token :: rest =>
    if token = left then afterClosing left right (depth + 1) rest
    else if token = right then
      match depth with
      | 0 => some rest
      | depth + 1 => afterClosing left right depth rest
    else afterClosing left right depth rest

theorem length_lt_of_afterClosing {left right : Token} {depth : Nat} {tokens rest : List Token}
    (h : afterClosing left right depth tokens = some rest) : rest.length < tokens.length := by
  induction tokens generalizing depth with
  | nil => simp [afterClosing] at h
  | cons token tokens ih =>
    rw [afterClosing.eq_def] at h
    dsimp only at h
    split at h
    · exact Nat.lt_succ_of_lt (ih h)
    · split at h
      · cases depth with
        | zero => cases h; simp
        | succ depth => exact Nat.lt_succ_of_lt (ih h)
      · exact Nat.lt_succ_of_lt (ih h)

/-- What follows the bracket's closing token, or an error if it is not closed. -/
def close (left right : Token) (tokens : List Token) : Except ValueError (Rest tokens) :=
  match h : afterClosing left right 0 tokens with
  | none => .error (.unclosed left)
  | some rest => .ok ⟨rest, length_lt_of_afterClosing h⟩

/-- Reads the entries of a container into `state`, one after the other, until `closing` tokens are left:
the closing bracket and what follows it. After an entry comes a comma, unless that point is reached. -/
def readEntries {σ : Type} {bound : Nat} (closing : Nat)
    (entry : σ → (tokens : List Token) → tokens.length < bound → Reading σ tokens)
    (state : σ) (tokens : List Token) (h : tokens.length < bound) : Except ValueError σ :=
  if tokens.length ≤ closing then .ok state
  else
    match entry state tokens h with
    | .error e => .error e
    | .ok (next, ⟨rest, shorter⟩) =>
      if rest.length < closing then .error .overrun
      else if rest.length = closing then .ok next
      else
        match rest, shorter with
        | [], _ => .ok next
        | separator :: more, shorter =>
          if separator = "," then
            readEntries closing entry next more (by simp only [List.length_cons] at shorter; omega)
          else .error (.noComma separator)
termination_by tokens.length
decreasing_by simp only [List.length_cons] at shorter; omega

end LevelPlay.Value
