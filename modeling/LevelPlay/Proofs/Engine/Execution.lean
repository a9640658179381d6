import LevelPlay.Proofs.Engine.Command
import LevelPlay.Proofs.Engine.Rounds

/-! What is executed in a step, and which calls of the host are made of it. A turn executes the next instruction of
its script, if there is one left. Whether that makes a call of the host, and which, can be told from the
instruction and the arguments alone: neither the engine's state nor the host's answers have a part in it. -/

namespace LevelPlay

/-- An instruction that a script executes, as it stands in the script, and the numbers the script was started with. -/
structure Execution where
  script : Int
  arguments : List Float
  instruction : Instruction

/-- The call of the host that an execution makes, marked with a frame. The opcode is that of the instruction, the
operands are those of the instruction with the arguments in their places. An execution makes no call if the
instruction is empty or has one of the engine's own opcodes, or if an argument is missing. -/
def Execution.call? (frame : Nat) : Execution → Option HostCall
  | ⟨_, _, []⟩ => none
  | ⟨script, arguments, opcode :: operands⟩ =>
    if opcode ∈ Instruction.reserved then none
    else
      match Instruction.mapTokens (Instruction.resolve arguments) operands with
      | .ok operands => some ⟨frame, script, opcode, operands⟩
      | .error _ => none

/-- What a call makes of the state of a host. -/
def Host.after {σ : Type} (host : Host σ) (state : σ) (call : HostCall) : σ :=
  (host.handle state call.script (call.opcode :: call.operands)).1

theorem Execution.call?_eq_some_iff {frame : Nat} {id : Int} {arguments : List Float} {instruction : Instruction}
    {call : HostCall} :
    Execution.call? frame ⟨id, arguments, instruction⟩ = some call ↔
      call.frame = frame ∧ call.script = id ∧
        (instruction.substitute arguments).bind Instruction.command = .ok (.call (call.opcode :: call.operands)) := by
  cases instruction with
  | nil =>
      have hcommand : (Instruction.substitute arguments []).bind Instruction.command =
          .error (.malformed [] .empty) := rfl
      rw [hcommand]
      simp [call?]
  | cons opcode operands =>
      rw [call?, Instruction.substitute]
      cases Instruction.mapTokens (Instruction.resolve arguments) operands with
      | error e =>
          have hcommand : ((Except.error e : Except ScriptError (List Token)).map (opcode :: ·)).bind
              Instruction.command = .error e := rfl
          rw [hcommand]
          simp
      | ok resolved =>
          have hcommand : ((Except.ok resolved : Except ScriptError (List Token)).map (opcode :: ·)).bind
              Instruction.command = Instruction.command (opcode :: resolved) := rfl
          rw [hcommand, Instruction.command_eq_call_iff]
          obtain ⟨number, script, opcode', operands'⟩ := call
          by_cases hopcode : opcode ∈ Instruction.reserved
          · rw [if_pos hopcode]
            refine iff_of_false (by simp) ?_
            rintro ⟨-, -, -, other, rest, hcons, hnot⟩
            obtain ⟨rfl, -⟩ := List.cons.inj hcons
            exact hnot hopcode
          · rw [if_neg hopcode]
            constructor
            · intro h
              cases h
              exact ⟨rfl, rfl, rfl, _, _, rfl, hopcode⟩
            · rintro ⟨rfl, rfl, hcons, -⟩
              cases hcons
              rfl

namespace Frame

variable {σ : Type} (host : Host σ) (now : Float)

/-- The instruction that a script executes in its turn, if it has any left. -/
def execution? (frame : Frame σ) (id : Int) : Option Execution :=
  match frame.engine.slots.get? id with
  | some ⟨script, some i⟩ =>
    (script.instructions[i.next]?).map fun instruction => ⟨id, i.arguments, instruction⟩
  | _ => none

/-- What is executed in the turns of these scripts, one after the other. -/
def executions (frame : Frame σ) : List Int → List Execution
  | [] => []
  | id :: rest => (frame.execution? id).toList ++ executions (frame.tick host now id) rest

theorem execution?_eq_some_iff {frame : Frame σ} {id : Int} {execution : Execution} :
    frame.execution? id = some execution ↔
      ∃ script i instruction, frame.engine.slots.get? id = some ⟨script, some i⟩ ∧
        script.instructions[i.next]? = some instruction ∧ execution = ⟨id, i.arguments, instruction⟩ := by
  unfold execution?
  constructor
  · intro h
    split at h
    · rename_i script i hslot
      obtain ⟨instruction, hinstruction, rfl⟩ := Option.map_eq_some_iff.mp h
      exact ⟨script, i, instruction, hslot, hinstruction, rfl⟩
    · cases h
  · rintro ⟨script, i, instruction, hslot, hinstruction, rfl⟩
    rw [hslot]
    dsimp only
    rw [hinstruction]
    rfl

/-! ### What a turn makes of the host -/

theorem host_finish (frame : Frame σ) (id : Int) : (frame.finish id).host = frame.host := by
  unfold finish
  split
  · rfl
  · rfl

theorem host_settle (frame : Frame σ) (id : Int) : (frame.settle now id).host = frame.host := by
  unfold settle
  split
  · split
    · exact host_finish frame id
    · rfl
  · rfl

theorem host_perform_call (frame : Frame σ) (id : Int) (call : Instruction) :
    (frame.perform host now id (.call call)).1.host = (host.handle frame.host id call).1 := by
  rw [perform]
  cases host.handle frame.host id call with
  | mk state answer => cases answer <;> rfl

theorem host_perform_of_ne_call (frame : Frame σ) (id : Int) {command : Command}
    (h : ∀ call, command ≠ .call call) : (frame.perform host now id command).1.host = frame.host := by
  cases command with
  | finish => exact host_finish frame id
  | sleep seconds => rfl
  | start arguments =>
      rw [perform]
      split
      · rfl
      · rfl
  | call call => exact absurd rfl (h call)

theorem host_execute (frame : Frame σ) (id : Int) (arguments : List Float) (instruction : Instruction)
    (number : Nat) :
    (frame.execute host now id arguments instruction).1.host =
      (Execution.call? number ⟨id, arguments, instruction⟩).elim frame.host (host.after frame.host) := by
  unfold execute
  cases hcall : Execution.call? number ⟨id, arguments, instruction⟩ with
  | some call =>
      obtain ⟨-, hscript, hcommand⟩ := Execution.call?_eq_some_iff.mp hcall
      rw [hcommand, Option.elim_some, Host.after, hscript]
      exact host_perform_call host now frame id _
  | none =>
      cases hcommand : (instruction.substitute arguments).bind Instruction.command with
      | error e => rfl
      | ok command =>
          apply host_perform_of_ne_call
          rintro call rfl
          obtain ⟨resolved, -, hresolved⟩ := Result.bind_eq_ok_iff.mp hcommand
          obtain ⟨rfl, opcode, operands, rfl, -⟩ := Instruction.command_eq_call_iff.mp hresolved
          have hsome : Execution.call? number ⟨id, arguments, instruction⟩ = some ⟨number, id, opcode, operands⟩ :=
            Execution.call?_eq_some_iff.mpr ⟨rfl, rfl, hcommand⟩
          cases hcall.symm.trans hsome

theorem tick_of_execution?_eq_none {frame : Frame σ} {id : Int} (h : frame.execution? id = none) :
    frame.tick host now id = frame.finish id := by
  rcases tick_cases host now frame id with hfinish | ⟨script, i, instruction, after, hslot, hinstruction, -⟩
  · exact hfinish
  · have hsome := execution?_eq_some_iff.mpr ⟨script, i, instruction, hslot, hinstruction, rfl⟩
    cases h.symm.trans hsome

/-- A turn executes the instruction that it is the turn for, and then settles or fails. -/
theorem tick_of_execution?_eq_some {frame : Frame σ} {id : Int} {execution : Execution}
    (h : frame.execution? id = some execution) :
    ∃ after outcome, (frame.advance id).execute host now id execution.arguments execution.instruction =
        (after, outcome) ∧ execution.script = id ∧
      (frame.tick host now id = after.settle now id ∨
        ∃ number error, frame.tick host now id = after.fail id number error) := by
  obtain ⟨script, i, instruction, hslot, hinstruction, rfl⟩ := execution?_eq_some_iff.mp h
  cases hexecute : (frame.advance id).execute host now id i.arguments instruction with
  | mk after outcome =>
      refine ⟨after, outcome, rfl, rfl, ?_⟩
      cases outcome with
      | ok _ => exact .inl (tick_of_ok hslot hinstruction hexecute)
      | error e => exact .inr ⟨i.next, e, tick_of_error hslot hinstruction hexecute⟩

theorem host_tick (frame : Frame σ) (id : Int) (number : Nat) :
    (frame.tick host now id).host =
      ((frame.execution? id).toList.filterMap (Execution.call? number)).foldl host.after frame.host := by
  cases hexecution : frame.execution? id with
  | none =>
      rw [tick_of_execution?_eq_none host now hexecution]
      exact host_finish frame id
  | some execution =>
      obtain ⟨after, outcome, hexecute, rfl, htick⟩ := tick_of_execution?_eq_some host now hexecution
      have hhost := host_execute host now (frame.advance execution.script) execution.script execution.arguments
        execution.instruction number
      rw [hexecute] at hhost
      have hafter : (frame.tick host now execution.script).host = after.host := by
        rcases htick with hsettle | ⟨at', error, hfail⟩
        · rw [hsettle, host_settle]
        · rw [hfail]
          rfl
      rw [hafter, hhost, Option.toList_some, List.filterMap_cons, List.filterMap_nil]
      cases Execution.call? number execution <;> rfl

theorem executed_tick (frame : Frame σ) (id : Int) :
    (frame.tick host now id).executed = frame.executed + (frame.execution? id).toList.length := by
  cases hexecution : frame.execution? id with
  | none =>
      rw [tick_of_execution?_eq_none host now hexecution]
      exact (turn_finish frame id).executed
  | some execution =>
      obtain ⟨after, outcome, hexecute, -, htick⟩ := tick_of_execution?_eq_some host now hexecution
      have hturn := (turn_advance frame id).trans (turn_execute hexecute)
      rcases htick with hsettle | ⟨at', error, hfail⟩
      · rw [hsettle]
        exact (hturn.trans (turn_settle now after id)).executed
      · rw [hfail]
        exact (hturn.trans (turn_fail after id at' error)).executed

/-! ### Turns one after the other -/

theorem host_serve (ids : List Int) (frame : Frame σ) (number : Nat) :
    (frame.serve host now ids).host =
      ((frame.executions host now ids).filterMap (Execution.call? number)).foldl host.after frame.host := by
  induction ids generalizing frame with
  | nil => rfl
  | cons id rest ih =>
      rw [executions, List.filterMap_append, List.foldl_append, ← host_tick]
      exact ih (frame.tick host now id)

theorem executed_serve (ids : List Int) (frame : Frame σ) :
    (frame.serve host now ids).executed = frame.executed + (frame.executions host now ids).length := by
  induction ids generalizing frame with
  | nil => rfl
  | cons id rest ih =>
      calc ((frame.tick host now id).serve host now rest).executed
          = (frame.tick host now id).executed + ((frame.tick host now id).executions host now rest).length := ih _
        _ = frame.executed + (frame.executions host now (id :: rest)).length := by
            rw [executed_tick, executions, List.length_append, Nat.add_assoc]

/-- What is executed in the pass that begins at a frame. -/
def passExecutions (frame : Frame σ) : List Execution :=
  frame.countPass.executions host now (frame.served host now)

section Plays

variable {host now} {frame after : Frame σ} (h : Plays host now frame after)

include h

/-- The calls that are made in a step are those that what it executes makes, in this order. -/
theorem Plays.host_eq (number : Nat) :
    after.host = (((frame.rounds host now).flatMap (passExecutions host now)).filterMap
      (Execution.call? number)).foldl host.after frame.host := by
  induction h with
  | rest hready =>
      rw [rounds_of_rest host now hready]
      rfl
  | spent _ hspent =>
      rw [rounds_of_spent host now hspent]
      rfl
  | @pass frame after hready hbudget _ ih =>
      have hpass := (Frame.servesSnapshot host now (Nat.le_of_lt hbudget)).pass_eq
      rw [rounds_of_ready host now hready hbudget, List.flatMap_cons, List.filterMap_append, List.foldl_append, ih,
        hpass, host_serve host now _ _ number]
      rfl

theorem Plays.executed_eq :
    after.executed = frame.executed + ((frame.rounds host now).flatMap (passExecutions host now)).length := by
  induction h with
  | rest hready =>
      rw [rounds_of_rest host now hready]
      rfl
  | spent _ hspent =>
      rw [rounds_of_spent host now hspent]
      rfl
  | @pass frame after hready hbudget _ ih =>
      have hpass := (Frame.servesSnapshot host now (Nat.le_of_lt hbudget)).pass_eq
      rw [rounds_of_ready host now hready hbudget, List.flatMap_cons, List.length_append, ih, hpass, executed_serve,
        Nat.add_assoc]
      rfl

end Plays

end Frame

namespace Engine

variable {σ : Type} (engine : Engine) (host : Host σ) (state : σ) (now : Float)

/-- What is executed in a step, in order. -/
def executions : List Execution :=
  (engine.rounds host state now).flatMap (Frame.passExecutions host now)

theorem host_step (number : Nat) :
    (engine.step host state now).host =
      ((engine.executions host state now).filterMap (Execution.call? number)).foldl host.after state :=
  (Frame.plays_passes host now _).host_eq number

theorem length_executions :
    (engine.executions host state now).length = (engine.step host state now).report.executed := by
  have hexecuted := (Frame.plays_passes host now ⟨{ engine with now }, state, .ofTime now⟩).executed_eq
  change _ = 0 + _ at hexecuted
  rw [Nat.zero_add] at hexecuted
  exact hexecuted.symm

end Engine

end LevelPlay
