import LevelPlay.Script

/-! Hosts. What the engine does not execute itself it hands to the host, which accepts it or gives a reason
for refusing it. A host is a function that passes its state on. -/

namespace LevelPlay

/-- A host with states of type `σ`: given the id of the calling script and the instruction, it answers and
passes to a new state. -/
structure Host (σ : Type) where
  handle : σ → Int → Instruction → σ × Except String Unit

/-- The host that accepts every call and keeps nothing. -/
def Host.ignore : Host Unit where
  handle state _ _ := (state, .ok ())

/-- A call as it is kept: the frame, the calling script, and the instruction. -/
structure HostCall where
  frame : Nat
  script : Int
  opcode : Token
  operands : List Token
  deriving DecidableEq, Repr

def HostCall.toJson (call : HostCall) : Json :=
  .object
    [("frame", .int call.frame), ("script_id", .int call.script), ("opcode", .string call.opcode),
      ("operands", .ofList .string call.operands)]

/-- The state of a host that keeps its calls: the calls so far, the frame they are marked with, and the
opcodes it refuses. -/
structure Recorder where
  calls : Array HostCall
  frame : Nat
  rejected : List Token
  deriving DecidableEq, Repr

namespace Recorder

/-- The recorder without calls that refuses the given opcodes. -/
def rejecting (rejected : List Token) : Recorder where
  calls := #[]
  frame := 0
  rejected := rejected

/-- Takes a call. It is kept also if it is refused, unless it has no opcode. -/
def handle (recorder : Recorder) (script : Int) : Instruction → Recorder × Except String Unit
  | [] => (recorder, .error "empty instruction")
  | opcode :: operands =>
    let answer : Except String Unit :=
      if recorder.rejected.contains opcode then .error s!"'{opcode}' is not supported by this host"
      else .ok ()
    ({ recorder with calls := recorder.calls.push ⟨recorder.frame, script, opcode, operands⟩ }, answer)

def host : Host Recorder where
  handle := handle

end Recorder

end LevelPlay
