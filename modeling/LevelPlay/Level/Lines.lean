import LevelPlay.Level.Body

/-! The `Lines` segment: on each line an integer key and an autofield. -/

namespace LevelPlay.Lines

def takeLine (mode : Mode) (table : MacroTable) (lines : IdMap Autofield) (number : Nat) (line : Line) :
    Except LoadError (IdMap Autofield) := do
  let tokens := Token.ofLine table line
  let (key, keyEnd) ← readValue number tokens 0
  match key.toId? with
  | none => throw (.content number (.lineKey key.kind))
  | some id =>
    let (value, last) ← readValue number tokens (keyEnd + 1)
    match value with
    | .autofield a =>
      endLine mode number tokens last
      if lines.contains id then throw (.structural number (.repeatedLine id))
      else return lines.insert id a
    | other => throw (.content number (.lineValue id other.kind))

def ofBody (mode : Mode) (table : MacroTable) (body : SegmentBody) : Except LoadError (IdMap Autofield) :=
  body.fold (takeLine mode table) .empty

end LevelPlay.Lines
