import LevelPlay.Engine.Basic
import LevelPlay.Engine.Host

/-! One step of the engine. Scripts that may go on take turns: in each pass every script that is ready at the
start of the pass executes one instruction, in ascending order of ids. Passes follow each other until no
script is ready or the step has executed as many instructions as it may. -/

namespace LevelPlay

/-- A script that was stopped by an error, and the instruction at which it was. -/
structure Fault where
  script : Int
  instruction : Nat
  message : String
  deriving DecidableEq, Repr

/-- What a step did. -/
structure Report where
  time : Float
  executed : Nat
  passes : Nat
  budgetExhausted : Bool
  /-- Scripts that other scripts started. -/
  started : Array Int
  finished : Array Int
  faults : Array Fault

namespace Report

def ofTime (time : Float) : Report where
  time := time
  executed := 0
  passes := 0
  budgetExhausted := false
  started := #[]
  finished := #[]
  faults := #[]

def isIdle (report : Report) : Bool :=
  report.executed == 0 && report.finished.isEmpty && report.faults.isEmpty

def faultToJson (fault : Fault) : Json :=
  .object
    [("script_id", .int fault.script), ("pc", .int fault.instruction), ("message", .string fault.message)]

def members (report : Report) : List (String × Json) :=
  [("time", .number64 report.time), ("executed", .int report.executed), ("passes", .int report.passes),
    ("budget_exhausted", .bool report.budgetExhausted), ("started", .ofList .int report.started.toList),
    ("finished", .ofList .int report.finished.toList), ("faults", .ofList faultToJson report.faults.toList)]

def toJson (report : Report) : Json :=
  .object report.members

end Report

/-- The state within a step: the engine, the host, and what the step did so far. -/
structure Frame (σ : Type) where
  engine : Engine
  host : σ
  report : Report

def instructionBudget : Nat := 2048

namespace Frame

variable {σ : Type}

def executed (frame : Frame σ) : Nat :=
  frame.report.executed

/-- Ends a script, if it runs. -/
def finish (frame : Frame σ) (id : Int) : Frame σ :=
  if frame.engine.isRunning id then
    { frame with
      engine := frame.engine.stop id
      report := { frame.report with finished := frame.report.finished.push id } }
  else frame

/-- Ends a script with a fault at an instruction. -/
def fail (frame : Frame σ) (id : Int) (instruction : Nat) (error : ScriptError) : Frame σ :=
  { frame with
    engine := frame.engine.stop id
    report := { frame.report with faults := frame.report.faults.push ⟨id, instruction, error.message⟩ } }

def perform (host : Host σ) (now : Float) (frame : Frame σ) (id : Int) :
    Command → Frame σ × Except ScriptError Unit
  | .finish => (frame.finish id, .ok ())
  | .sleep seconds =>
    ({ frame with engine := frame.engine.mapInstance id fun i => { i with wakeAt := now + seconds } }, .ok ())
  | .start arguments =>
    match frame.engine.start arguments with
    | .error e => (frame, .error e)
    | .ok (started, engine) =>
      ({ frame with
          engine
          report := { frame.report with started := frame.report.started.push started } },
        .ok ())
  | .call instruction =>
    let ⟨engine, state, report⟩ := frame
    match host.handle state id instruction with
    | (state, .ok ()) => (⟨engine, state, report⟩, .ok ())
    | (state, .error reason) => (⟨engine, state, report⟩, .error (.host instruction reason))

def execute (host : Host σ) (now : Float) (frame : Frame σ) (id : Int) (arguments : List Float)
    (instruction : Instruction) : Frame σ × Except ScriptError Unit :=
  match (instruction.substitute arguments).bind Instruction.command with
  | .error e => (frame, .error e)
  | .ok command => frame.perform host now id command

/-- Counts an instruction of a script, which then goes on to its next. -/
def advance (frame : Frame σ) (id : Int) : Frame σ :=
  { frame with
    engine := frame.engine.mapInstance id fun i => { i with next := i.next + 1 }
    report := { frame.report with executed := frame.report.executed + 1 } }

/-- Ends a script that has no instruction left and does not sleep. -/
def settle (now : Float) (frame : Frame σ) (id : Int) : Frame σ :=
  match frame.engine.slots.get? id with
  | some ⟨script, some i⟩ =>
    if script.instructions.length ≤ i.next ∧ i.wakeAt ≤ now then frame.finish id else frame
  | _ => frame

/-- One turn of a script: it executes its next instruction, and ends if there is none, if it was the last,
or if it failed. -/
def tick (host : Host σ) (now : Float) (frame : Frame σ) (id : Int) : Frame σ :=
  match frame.engine.slots.get? id with
  | some ⟨script, some i⟩ =>
    match script.instructions[i.next]? with
    | none => frame.finish id
    | some instruction =>
      match (frame.advance id).execute host now id i.arguments instruction with
      | (frame, .ok ()) => frame.settle now id
      | (frame, .error e) => frame.fail id i.next e
  | _ => frame

/-- Gives each of some scripts its turn, as long as the step may execute instructions. -/
def pass (host : Host σ) (now : Float) (frame : Frame σ) : List Int → Frame σ
  | [] => frame
  | id :: rest =>
    if instructionBudget ≤ frame.executed then frame
    else pass host now (if frame.engine.isReady id now then frame.tick host now id else frame) rest

def countPass (frame : Frame σ) : Frame σ :=
  { frame with report := { frame.report with passes := frame.report.passes + 1 } }

/-- Passes over the ready scripts until none is ready or the budget is spent. A pass that executes nothing
has only ended scripts that had no instruction left, so none is ready after it. -/
def passes (host : Host σ) (now : Float) (frame : Frame σ) : Frame σ :=
  let ready := frame.engine.readyIds now
  let executed := frame.executed
  if ready.isEmpty then frame
  else if instructionBudget ≤ executed then
    { frame with report := { frame.report with budgetExhausted := true } }
  else
    let next := frame.countPass.pass host now ready
    if executed < next.executed then passes host now next else next
termination_by instructionBudget - frame.executed
decreasing_by simp only [executed, next, ready] at *; omega

end Frame

namespace Engine

/-- One step at a time: the engine and the host after it, and what it did. -/
def step {σ : Type} (engine : Engine) (host : Host σ) (state : σ) (now : Float) : Frame σ :=
  Frame.passes host now ⟨{ engine with now }, state, .ofTime now⟩

end Engine

end LevelPlay
