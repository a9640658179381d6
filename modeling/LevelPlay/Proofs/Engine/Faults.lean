import LevelPlay.Proofs.Engine.Account
import LevelPlay.Proofs.Engine.Command
import LevelPlay.Proofs.Engine.Turn

/-! Faults of a script. Each way in which an instruction can fail is found out before anything but the script's own
counter has changed: a start is refused before the other script is touched, and a host that refuses has already
been called but can change its own state only. So a fault stops the script that it is a fault of, and does nothing
to the others. -/

namespace LevelPlay

namespace Engine

variable (engine : Engine) (id other : Int)

theorem get?_stop :
    (engine.stop id).slots.get? other =
      if other = id then (engine.slots.get? other).map fun slot => { slot with active := none }
      else engine.slots.get? other :=
  engine.get?_setInstance id other none

theorem get?_mapInstance (f : Instance → Instance) :
    (engine.mapInstance id f).slots.get? other =
      if other = id then (engine.slots.get? other).map fun slot => { slot with active := slot.active.map f }
      else engine.slots.get? other :=
  engine.slots.get?_modify id other _

theorem contains_mapInstance (f : Instance → Instance) :
    (engine.mapInstance id f).slots.contains other = engine.slots.contains other := by
  rw [IdMap.contains, get?_mapInstance, IdMap.contains]
  split
  · exact Option.isSome_map
  · rfl

end Engine

namespace Frame

variable {σ : Type} {host : Host σ} {now : Float} {frame : Frame σ} {id : Int} {arguments : List Float}
  {instruction : Instruction} {error : ScriptError}

/-- The instruction of a script fails: an operand refers to an argument that there is not, or what the instruction is
with its arguments in place is no command, or starts a script that cannot be started, or is a call that the host
refuses. -/
inductive Fails (host : Host σ) (frame : Frame σ) (id : Int) (arguments : List Float) (instruction : Instruction) :
    ScriptError → Prop where
  | argument {before after : List Token} {operand : Token} {figures : List Char}
      (h : instruction.operands = before ++ operand :: after)
      (hbefore : ∀ other ∈ before, ∃ token, Instruction.resolve arguments other = .ok token)
      (hoperand : Instruction.reference? operand = some figures)
      (hrange : arguments.length ≤ min (Decimal.digitsValue figures) Instruction.maxIndex) :
      Fails host frame id arguments instruction
        (.argumentOutOfRange (min (Decimal.digitsValue figures) Instruction.maxIndex) arguments.length)
  | illegal {resolved : Instruction} {error : ScriptError} (h : instruction.substitute arguments = .ok resolved)
      (hillegal : resolved.Illegal error) : Fails host frame id arguments instruction error
  | start {operands : List Token} {values : List Float} {error : ScriptError}
      (h : instruction.substitute arguments = .ok ("ScriptRun" :: operands))
      (hvalues : Instruction.mapTokens (Instruction.operandValue ("ScriptRun" :: operands)) operands = .ok values)
      (hstart : frame.engine.RefusesStart values error) : Fails host frame id arguments instruction error
  | refused {opcode : Token} {operands : List Token} {state : σ} {reason : String}
      (h : instruction.substitute arguments = .ok (opcode :: operands)) (hopcode : opcode ∉ Instruction.reserved)
      (hanswer : host.handle frame.host id (opcode :: operands) = (state, .error reason)) :
      Fails host frame id arguments instruction (.host (opcode :: operands) reason)

/-! ### When an instruction fails -/

theorem perform_start_eq_error_iff {values : List Float} :
    (frame.perform host now id (.start values)).2 = .error error ↔ frame.engine.RefusesStart values error := by
  rw [← Engine.start_eq_error_iff, perform]
  cases frame.engine.start values <;> simp

theorem perform_call_eq_error_iff {call : Instruction} :
    (frame.perform host now id (.call call)).2 = .error error ↔
      ∃ state reason, host.handle frame.host id call = (state, .error reason) ∧ error = .host call reason := by
  rw [perform]
  cases host.handle frame.host id call with
  | mk state answer =>
      cases answer with
      | ok _ => simp
      | error reason =>
          constructor
          · intro h
            exact ⟨state, reason, rfl, (Except.error.inj h).symm⟩
          · rintro ⟨_, _, hanswer, rfl⟩
            cases hanswer
            rfl

theorem Fails.execute (h : frame.Fails host id arguments instruction error) :
    (frame.execute host now id arguments instruction).2 = .error error := by
  cases h with
  | argument h hbefore hoperand hrange =>
      have hresolve := Instruction.resolve_eq_error_iff.mpr ⟨_, hoperand, hrange, rfl⟩
      rw [Frame.execute, Instruction.substitute_eq_error_iff.mpr ⟨_, _, _, h, hbefore, hresolve⟩]
      rfl
  | @illegal resolved _ h hillegal =>
      have hcommand : (instruction.substitute arguments).bind Instruction.command = .error error := by
        rw [h]
        exact Instruction.command_eq_error_iff.mpr hillegal
      rw [Frame.execute, hcommand]
  | @start operands values _ h hvalues hstart =>
      have hcommand : (instruction.substitute arguments).bind Instruction.command = .ok (.start values) := by
        rw [h]
        exact Instruction.command_eq_ok_iff.mpr (.start rfl hvalues)
      rw [Frame.execute, hcommand]
      exact perform_start_eq_error_iff.mpr hstart
  | @refused opcode operands state reason h hopcode hanswer =>
      have hcommand : (instruction.substitute arguments).bind Instruction.command =
          .ok (.call (opcode :: operands)) := by
        rw [h]
        exact Instruction.command_of_not_mem_reserved hopcode
      rw [Frame.execute, hcommand]
      exact perform_call_eq_error_iff.mpr ⟨state, reason, hanswer, rfl⟩

theorem fails_of_execute (h : (frame.execute host now id arguments instruction).2 = .error error) :
    frame.Fails host id arguments instruction error := by
  unfold Frame.execute at h
  cases hresolved : instruction.substitute arguments with
  | error e =>
      rw [hresolved] at h
      obtain rfl : e = error := Except.error.inj h
      obtain ⟨before, operand, after, hoperands, hbefore, hresolve⟩ :=
        Instruction.substitute_eq_error_iff.mp hresolved
      obtain ⟨figures, hoperand, hrange, rfl⟩ := Instruction.resolve_eq_error_iff.mp hresolve
      exact .argument hoperands hbefore hoperand hrange
  | ok resolved =>
      have hbind : (instruction.substitute arguments).bind Instruction.command = resolved.command := by
        rw [hresolved]
        rfl
      rw [hbind] at h
      cases hcommand : resolved.command with
      | error e =>
          rw [hcommand] at h
          obtain rfl : e = error := Except.error.inj h
          exact .illegal hresolved (Instruction.command_eq_error_iff.mp hcommand)
      | ok command =>
          rw [hcommand] at h
          cases Instruction.command_eq_ok_iff.mp hcommand with
          | finish | sleep => cases h
          | start hstart hvalues =>
              subst hstart
              exact .start hresolved hvalues (perform_start_eq_error_iff.mp h)
          | call hcall hopcode =>
              obtain ⟨state, reason, hanswer, rfl⟩ := perform_call_eq_error_iff.mp h
              subst hcall
              exact .refused hresolved hopcode hanswer

/-- That a script goes on to its next instruction makes no difference to whether this one fails. -/
theorem fails_advance_iff :
    (frame.advance id).Fails host id arguments instruction error ↔ frame.Fails host id arguments instruction error := by
  have hslots := frame.engine.contains_mapInstance id (f := fun i => { i with next := i.next + 1 })
  have hrunning := frame.engine.isRunning_mapInstance id (f := fun i => { i with next := i.next + 1 })
  constructor
  · intro h
    cases h with
    | argument h hbefore hoperand hrange => exact .argument h hbefore hoperand hrange
    | illegal h hillegal => exact .illegal h hillegal
    | start h hvalues hstart =>
        exact .start h hvalues (hstart.congr (fun other => (hslots other).symm) (fun other => (hrunning other).symm))
    | refused h hopcode hanswer => exact .refused h hopcode hanswer
  · intro h
    cases h with
    | argument h hbefore hoperand hrange => exact .argument h hbefore hoperand hrange
    | illegal h hillegal => exact .illegal h hillegal
    | start h hvalues hstart => exact .start h hvalues (hstart.congr hslots hrunning)
    | refused h hopcode hanswer => exact .refused h hopcode hanswer

/-- Executing the next instruction of a script fails just if the instruction fails where the script stands. -/
theorem execute_advance_eq_error_iff :
    ((frame.advance id).execute host now id arguments instruction).2 = .error error ↔
      frame.Fails host id arguments instruction error := by
  rw [← fails_advance_iff]
  exact ⟨fails_of_execute, Fails.execute⟩

/-! ### What a failure changes -/

theorem visit_of_fails {script : Script} {i : Instance}
    (hslot : frame.engine.slots.get? id = some ⟨script, some i⟩) (hready : i.wakeAt ≤ now)
    (hinstruction : script.instructions[i.next]? = some instruction)
    (hfails : frame.Fails host id i.arguments instruction error) :
    ∃ state, frame.visit host now id = { (frame.advance id).fail id i.next error with host := state } := by
  have hinstance : frame.engine.instance? id = some i := Engine.instance?_eq_some_iff.mpr ⟨script, hslot⟩
  have hvisit : frame.engine.isReady id now = true :=
    Engine.isReady_eq_true_iff.mpr ⟨i, hinstance, decide_eq_true hready⟩
  rw [visit, if_pos hvisit]
  have hexecute : ((frame.advance id).execute host now id i.arguments instruction).2 = .error error :=
    execute_advance_eq_error_iff.mpr hfails
  cases hresult : (frame.advance id).execute host now id i.arguments instruction with
  | mk after outcome =>
      rw [hresult] at hexecute
      obtain rfl : outcome = .error error := hexecute
      refine ⟨after.host, ?_⟩
      rw [tick_of_error hslot hinstruction hresult, execute_of_error hresult]
      rfl

/-- A fault of one script: the script is stopped and the fault is reported, after one more instruction. All other
scripts are as before, and nothing else is reported. -/
structure Isolated (id : Int) (script : Script) (fault : Fault) (before after : Frame σ) : Prop where
  idle : after.engine.slots.get? id = some ⟨script, none⟩
  others : ∀ other, other ≠ id → after.engine.slots.get? other = before.engine.slots.get? other
  started : after.report.started = before.report.started
  finished : after.report.finished = before.report.finished
  faults : after.report.faults = before.report.faults.push fault
  executed : after.report.executed = before.report.executed + 1

theorem isolated_fail_advance {script : Script} {i : Instance}
    (hslot : frame.engine.slots.get? id = some ⟨script, some i⟩) (number : Nat) (error : ScriptError) (state : σ) :
    Isolated id script ⟨id, number, error.message⟩ frame
      { (frame.advance id).fail id number error with host := state } := by
  refine ⟨?_, fun other hother => ?_, rfl, rfl, rfl, rfl⟩
  · show ((frame.engine.mapInstance id _).stop id).slots.get? id = _
    rw [Engine.get?_stop, if_pos rfl, Engine.get?_mapInstance, if_pos rfl, hslot]
    rfl
  · show ((frame.engine.mapInstance id _).stop id).slots.get? other = _
    rw [Engine.get?_stop, if_neg hother, Engine.get?_mapInstance, if_neg hother]

/-- A script whose next instruction fails is stopped with a fault at this instruction, and no other script notices.
An instruction fails for one of the reasons that `Fails` lists, and for no other; in particular a script that is to
start another with an operand that is not a number has started nothing. -/
theorem fault_isolated {script : Script} {i : Instance}
    (hslot : frame.engine.slots.get? id = some ⟨script, some i⟩) (hready : i.wakeAt ≤ now)
    (hinstruction : script.instructions[i.next]? = some instruction) :
    (∀ error, ((frame.advance id).execute host now id i.arguments instruction).2 = .error error ↔
        frame.Fails host id i.arguments instruction error) ∧
      ∀ error, frame.Fails host id i.arguments instruction error →
        Isolated id script ⟨id, i.next, error.message⟩ frame (frame.visit host now id) := by
  refine ⟨fun error => execute_advance_eq_error_iff, ?_⟩
  intro error hfails
  obtain ⟨state, hvisit⟩ := visit_of_fails hslot hready hinstruction hfails
  rw [hvisit]
  exact isolated_fail_advance hslot i.next error state

/-- A script that is about to start another with an operand that is not a number. -/
def blunder : Frame Recorder :=
  ⟨⟨⟨[(1, ⟨⟨1, [["Ring"], ["ScriptRun", "2", "x"]]⟩, some ⟨1, [1.0], 0.0⟩⟩), (2, ⟨⟨2, [["Ring"]]⟩, none⟩)],
    by simp⟩, 0.0⟩, .rejecting [], .ofTime 0.0⟩

theorem fails_blunder :
    blunder.Fails Recorder.host 1 [1.0] ["ScriptRun", "2", "x"]
      (.malformed ["ScriptRun", "2", "x"] (.notNumber "x")) := by
  have hid : (Instruction.operandNumber? "2").isSome := by decide +kernel
  have hx : Instruction.operandNumber? "x" = none := Option.isNone_iff_eq_none.mp (by decide +kernel)
  have hoperands : ["ScriptRun", "2", "x"] = "ScriptRun" :: (["2"] ++ "x" :: []) := rfl
  exact .illegal rfl (.operand hoperands (List.forall_mem_singleton.mpr hid) hx)

/-- The other script is not started. -/
theorem blunder_isolated :
    (blunder.engine.slots.get? 1 =
          some ⟨⟨1, [["Ring"], ["ScriptRun", "2", "x"]]⟩, some ⟨1, [1.0], 0.0⟩⟩ ∧ (0.0 : Float) ≤ 0.0) ∧
      Isolated 1 ⟨1, [["Ring"], ["ScriptRun", "2", "x"]]⟩
        ⟨1, 1, "malformed instruction 'ScriptRun 2 x': 'x' is not a number"⟩ blunder
        (blunder.visit Recorder.host 0.0 1) := by
  have hslot : blunder.engine.slots.get? 1 =
      some ⟨⟨1, [["Ring"], ["ScriptRun", "2", "x"]]⟩, some ⟨1, [1.0], 0.0⟩⟩ := rfl
  have hready : (0.0 : Float) ≤ 0.0 := by decide +kernel
  refine ⟨⟨hslot, hready⟩, ?_⟩
  exact (fault_isolated hslot hready rfl).2 _ fails_blunder

end Frame

end LevelPlay
