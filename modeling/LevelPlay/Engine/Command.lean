import LevelPlay.Decimal.Numeral
import LevelPlay.Decimal.Style
import LevelPlay.Script

/-! What an instruction asks for. Operands that refer to a start argument, as `$N`, are replaced by the text
of that argument; then the first token tells whether the script ends, sleeps, starts another script or
calls the host. -/

namespace LevelPlay

/-- Why the operands of an instruction cannot be used. -/
inductive MalformedReason
  | empty
  | noInterval
  | notNumber (operand : Token)
  deriving DecidableEq, Repr

def MalformedReason.message : MalformedReason → String
  | empty => "empty instruction"
  | noInterval => "missing delay interval"
  | notNumber operand => s!"'{operand}' is not a number"

/-- Why a script cannot be started, or an instruction cannot be executed. -/
inductive ScriptError
  | unknownScript (id : Int)
  | alreadyRunning (id : Int)
  | missingId
  | invalidId (x : Float)
  | nonPositiveDelay (x : Float)
  | malformed (instruction : Instruction) (reason : MalformedReason)
  | argumentOutOfRange (index count : Nat)
  | host (instruction : Instruction) (reason : String)

def ScriptError.message : ScriptError → String
  | unknownScript id => s!"script {id} is not defined"
  | alreadyRunning id => s!"script {id} is already running"
  | missingId => "no script id given"
  | invalidId x => s!"script id {Decimal.plain x} is not an integer"
  | nonPositiveDelay x => s!"delay intervals must be positive, got {Decimal.plain x}"
  | malformed instruction reason =>
    s!"malformed instruction '{Text.unwords instruction}': {reason.message}"
  | argumentOutOfRange index count =>
    s!"argument ${index} referenced but the script was started with {count} arguments"
  | host instruction reason => s!"host rejected '{Text.unwords instruction}': {reason}"

/-- What an instruction asks for. -/
inductive Command
  | finish
  | sleep (seconds : Float)
  | start (arguments : List Float)
  | call (instruction : Instruction)

namespace Instruction

/-! ### Arguments -/

/-- The digits of a reference to an argument. -/
def reference? (token : Token) : Option (List Char) :=
  match token.toList with
  | '$' :: figures => if Decimal.areDigits figures then some figures else none
  | _ => none

def maxIndex : Nat := UInt64.size - 1

/-- An operand with the argument it refers to in its place. An index beyond all bounds is reported as the
greatest index. -/
def resolve (arguments : List Float) (token : Token) : Except ScriptError Token :=
  match reference? token with
  | none => .ok token
  | some figures =>
    let index := min (Decimal.digitsValue figures) maxIndex
    match arguments[index]? with
    | some x => .ok (Decimal.plain x)
    | none => .error (.argumentOutOfRange index arguments.length)

/-- Applies a function that may fail to each token, from the first on. -/
def mapTokens {α : Type} (f : Token → Except ScriptError α) : List Token → Except ScriptError (List α)
  | [] => .ok []
  | token :: rest => do
    let a ← f token
    let as ← mapTokens f rest
    return a :: as

/-- The instruction with arguments in place of the references to them. The first token is not an operand
and stays. -/
def substitute (arguments : List Float) : Instruction → Except ScriptError Instruction
  | [] => .ok []
  | opcode :: operands => (mapTokens (resolve arguments) operands).map (opcode :: ·)

/-! ### Commands -/

/-- The number an operand is, which may be written as an id. -/
def operandValue (instruction : Instruction) (operand : Token) : Except ScriptError Float :=
  let figures :=
    match operand.toList with
    | '@' :: figures => figures
    | figures => figures
  match Decimal.number? (String.ofList figures) with
  | some x => .ok x
  | none => .error (.malformed instruction (.notNumber operand))

def interval (instruction : Instruction) : List Token → Except ScriptError Float
  | [] => .error (.malformed instruction .noInterval)
  | operand :: _ => do
    let seconds ← operandValue instruction operand
    if seconds > 0 then return seconds else throw (.nonPositiveDelay seconds)

/-- What an instruction asks for once its arguments are in place. -/
def command (instruction : Instruction) : Except ScriptError Command :=
  match instruction with
  | [] => .error (.malformed [] .empty)
  | opcode :: operands =>
    if opcode = "end" ∨ opcode = "done" then .ok .finish
    else if opcode = "Delay" then (interval instruction operands).map .sleep
    else if opcode = "ScriptRun" then (mapTokens (operandValue instruction) operands).map .start
    else .ok (.call instruction)

end Instruction

end LevelPlay
