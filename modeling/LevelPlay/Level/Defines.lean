import LevelPlay.Level.Body

/-! The `Defines` segment: lines `#define NAME BODY`. A body is expanded with the macros of the lines before
it, so a macro never needs expanding again. -/

namespace LevelPlay.Defines

def directive : String := "#define"

def takeLine (mode : Mode) (table : MacroTable) (number : Nat) (line : Line) :
    Except LoadError MacroTable :=
  if Text.firstWord line = directive then
    match (Token.ofLine .empty line)[1]? with
    | none => .error (.structural number .unnamedDefine)
    | some name =>
      match table.define? name (Text.unwords ((Token.ofLine table line).drop 2)) with
      | none => .error (.structural number (.repeatedMacro name))
      | some table => .ok table
  else (slip mode (.structural number (.notDefine line))).map fun _ => table

def ofBody (mode : Mode) (body : SegmentBody) : Except LoadError MacroTable :=
  body.fold (takeLine mode) .empty

end LevelPlay.Defines
