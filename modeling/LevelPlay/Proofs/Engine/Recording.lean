import LevelPlay.Proofs.Engine.Execution

/-! The calls that a recorder keeps in a step. What it keeps are the calls that the executed instructions make, each
once and marked with the recorder's frame, whether it refuses them or not. -/

namespace LevelPlay

namespace Recorder

/-- A later state of the recorder, in which it has kept some more calls: at most so many, all in its frame. -/
def Records (recorder : Recorder) (most : Nat) (later : Recorder) : Prop :=
  ∃ calls : List HostCall, later = { recorder with calls := recorder.calls ++ calls } ∧
    (∀ call ∈ calls, call.frame = recorder.frame) ∧ calls.length ≤ most

theorem foldl_after (recorder : Recorder) {calls : List HostCall}
    (hframe : ∀ call ∈ calls, call.frame = recorder.frame) :
    calls.foldl Recorder.host.after recorder = { recorder with calls := recorder.calls ++ calls } := by
  induction calls generalizing recorder with
  | nil =>
      rw [List.foldl_nil, Array.appendList_nil]
  | cons call rest ih =>
      obtain ⟨hcall, hrest⟩ := List.forall_mem_cons.mp hframe
      have hafter : Recorder.host.after recorder call = { recorder with calls := recorder.calls.push call } := by
        rw [← show (⟨recorder.frame, call.script, call.opcode, call.operands⟩ : HostCall) = call by rw [← hcall]]
        rfl
      calc (call :: rest).foldl Recorder.host.after recorder
          = rest.foldl Recorder.host.after { recorder with calls := recorder.calls.push call } := by
            rw [List.foldl_cons, hafter]
        _ = { recorder with calls := recorder.calls.push call ++ rest } :=
            ih { recorder with calls := recorder.calls.push call } hrest
        _ = { recorder with calls := recorder.calls ++ (call :: rest) } := by
            rw [Array.appendList_cons]

end Recorder

theorem Execution.frame_of_mem_filterMap {frame : Nat} {executions : List Execution} :
    ∀ call ∈ executions.filterMap (Execution.call? frame), call.frame = frame := by
  intro call hcall
  obtain ⟨⟨id, arguments, instruction⟩, -, hcall⟩ := List.mem_filterMap.mp hcall
  exact (Execution.call?_eq_some_iff.mp hcall).1

namespace Engine

variable (engine : Engine) (recorder : Recorder) (now : Float)

theorem recorder_step :
    (engine.step Recorder.host recorder now).host =
      { recorder with calls := recorder.calls ++
          (engine.executions Recorder.host recorder now).filterMap (Execution.call? recorder.frame) } := by
  rw [engine.host_step Recorder.host recorder now recorder.frame]
  exact recorder.foldl_after Execution.frame_of_mem_filterMap

theorem length_calls_le :
    ((engine.executions Recorder.host recorder now).filterMap (Execution.call? recorder.frame)).length ≤
      (engine.step Recorder.host recorder now).report.executed := by
  rw [← engine.length_executions Recorder.host recorder now]
  exact List.length_filterMap_le _ _

/-- The calls that a step adds are marked with its frame, and no more than the instructions that it executes. -/
theorem step_records :
    recorder.Records (engine.step Recorder.host recorder now).report.executed
      (engine.step Recorder.host recorder now).host :=
  ⟨_, engine.recorder_step recorder now, Execution.frame_of_mem_filterMap, engine.length_calls_le recorder now⟩

/-- A recorder keeps exactly the calls that are made. What it had kept before a step it has kept after it; then come
the calls that the executed instructions make, one for one and in the order in which they were executed, marked
with its frame, also those that it refuses. So there are no more of them than instructions were executed. -/
theorem calls_kept_exactly :
    (engine.step Recorder.host recorder now).host =
        { recorder with calls := recorder.calls ++
            (engine.executions Recorder.host recorder now).filterMap (Execution.call? recorder.frame) } ∧
      (engine.executions Recorder.host recorder now).length =
        (engine.step Recorder.host recorder now).report.executed ∧
      ((engine.executions Recorder.host recorder now).filterMap (Execution.call? recorder.frame)).length ≤
        (engine.step Recorder.host recorder now).report.executed :=
  ⟨engine.recorder_step recorder now, engine.length_executions Recorder.host recorder now,
    engine.length_calls_le recorder now⟩

-- A call that is refused is kept with its argument in place, and stops its script.
example :
    let engine : Engine := ⟨⟨[(7, ⟨⟨7, [["Ring", "$0"], ["Knock"]]⟩, some ⟨0, [7.0], 0.0⟩⟩)], by simp⟩, 0.0⟩
    let after := engine.step Recorder.host (.rejecting ["Ring"]) 0.0
    after.host.calls = #[⟨0, 7, "Ring", ["7"]⟩] ∧ after.report.executed = 1 ∧ after.report.faults.size = 1 := by
  decide +kernel

end Engine

end LevelPlay
