import LevelPlay.Level.Body
import LevelPlay.Script

/-! The `Scripts` segment: blocks that begin with a line `@ID begin` and end with a line `end`, with one
instruction on each line between. -/

namespace LevelPlay.Scripts

/-- The word after the id in the line that begins a script. -/
def beginWord : Token := "begin"

/-- The first token of the line that ends a script. -/
def endWord : Token := "end"

/-- The id in the tokens of a line that begins a script. -/
def headerId? (tokens : List Token) : Option Int :=
  match tokens with
  | [key, word] =>
    if word = beginWord then
      match Value.parseAt [key, word] 0 with
      | .ok (.identifier id, 0) => some id
      | _ => none
    else none
  | _ => none

def instruction (table : MacroTable) (line : Line) : Instruction :=
  Token.fuseReferences (Token.ofLine table line)

/-- Reads scripts from the line of this number on. `current` is the script whose block is open, `done` are
those before it, and `delimited` tells whether a segment line follows the last line. -/
def readFrom (mode : Mode) (table : MacroTable) (delimited : Bool) (number : Nat) (current : Option Script)
    (done : Scripts) : List Line → Except LoadError Scripts
  | [] =>
    match current with
    | none => .ok done
    | some script =>
      .error (.structural number (if delimited then .cutScript script.id else .openScript script.id))
  | line :: rest =>
    match current with
    | none =>
      match headerId? (Token.ofLine table line) with
      | none => .error (.structural number (.notScript line))
      | some id =>
        if done.contains id then .error (.structural number (.repeatedScript id))
        else readFrom mode table delimited (number + 1) (some ⟨id, []⟩) done rest
    | some script =>
      let tokens := instruction table line
      if tokens.head? = some endWord then
        if mode = .strict ∧ 1 < tokens.length then .error (.structural number .tokensAfterEnd)
        else readFrom mode table delimited (number + 1) none (done.insert script.id script) rest
      else
        readFrom mode table delimited (number + 1)
          (some { script with instructions := script.instructions ++ [tokens] }) done rest

def ofBody (mode : Mode) (table : MacroTable) (body : SegmentBody) : Except LoadError Scripts :=
  readFrom mode table body.delimited body.start none .empty body.lines

end LevelPlay.Scripts
