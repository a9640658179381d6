import LevelPlay.IdMap
import LevelPlay.Json
import LevelPlay.Token.MacroTable

/-! Scripts: numbered lists of instructions, which are kept as tokens until they are executed. -/

namespace LevelPlay

/-- An instruction: the tokens of one line, of which the first says what to do. -/
abbrev Instruction := List Token

namespace Instruction

/-- The first token; empty if there is none. -/
def opcode (instruction : Instruction) : Token :=
  instruction.headD ""

def operands (instruction : Instruction) : List Token :=
  instruction.drop 1

def toJson (instruction : Instruction) : Json :=
  .ofList .string instruction

end Instruction

structure Script where
  id : Int
  instructions : List Instruction
  deriving DecidableEq, Repr

/-- The scripts of a level by id. -/
abbrev Scripts := IdMap Script

namespace Script

def size (script : Script) : Nat :=
  script.instructions.length

def isEmpty (script : Script) : Bool :=
  script.instructions.isEmpty

def toJson (script : Script) : Json :=
  .object [("id", .int script.id), ("instructions", .ofList Instruction.toJson script.instructions)]

end Script

/-- A map by id as a document, the ids as names. -/
def IdMap.toJson {α : Type} (encode : α → Json) (m : IdMap α) : Json :=
  .object (m.entries.map fun entry => (toString entry.1, encode entry.2))

end LevelPlay
