import LevelPlay.Proofs.Engine.Account
import LevelPlay.Proofs.Engine.Calls

/-! What becomes of scripts over any number of calls. Each instance that was started has finished, has been
stopped by a fault, or is still running, and only one of these. -/

namespace LevelPlay

/-- An engine, and what has been reported of its scripts: those that were started, by a call or by another
script, those that finished, and those that faulted. -/
structure History where
  engine : Engine
  started : List Int
  finished : List Int
  faulted : List Int

namespace History

/-- What the answers to some calls tell of the engine that gave them. -/
def ofAnswers (engine : Engine) (answers : List Engine.Answer) : History where
  engine := engine
  started := answers.flatMap Engine.Answer.started
  finished := answers.flatMap Engine.Answer.finished
  faulted := (answers.flatMap Engine.Answer.faults).map Fault.script

def ofCalls (scripts : Scripts) (calls : List Engine.Call) : History :=
  let last := (Engine.ofScripts scripts).answers calls
  ofAnswers last.1 last.2

/-- The instances of a script that were started are those that have ended or still run. -/
def Conserves (history : History) (id : Int) : Prop :=
  history.started.count id =
    history.finished.count id + history.faulted.count id + (history.engine.isRunning id).toNat

end History

theorem Engine.isRunning_ofScripts (scripts : Scripts) (id : Int) :
    (Engine.ofScripts scripts).isRunning id = false := by
  unfold isRunning instance? ofScripts
  rw [IdMap.get?_map]
  cases scripts.get? id <;> rfl

/-- In a step, the scripts that ran before it and those started in it are those that finish or fault in it and
those that run after it. -/
theorem Engine.step_conserves {σ : Type} (engine : Engine) (host : Host σ) (state : σ) (now : Float) (id : Int) :
    (engine.isRunning id).toNat + (engine.step host state now).report.started.count id =
      (engine.step host state now).report.finished.count id +
        (engine.step host state now).report.faults.countP (fun fault => fault.script = id) +
        ((engine.step host state now).engine.isRunning id).toNat := by
  have haccount := congrFun (Frame.account_passes host now ⟨{ engine with now }, state, .ofTime now⟩) id
  have hbefore : (⟨{ engine with now }, state, .ofTime now⟩ : Frame σ).account id =
      (engine.isRunning id).toNat := by
    simp [Frame.account, Report.ofTime, Engine.isRunning, Engine.instance?]
  rw [hbefore, Frame.account] at haccount
  unfold Engine.step
  omega

/-- The same of any call. -/
theorem Engine.answer_conserves (engine : Engine) (call : Call) (id : Int) :
    (engine.isRunning id).toNat + (engine.answer call).2.started.count id =
      (engine.answer call).2.finished.count id + ((engine.answer call).2.faults.map Fault.script).count id +
        ((engine.answer call).1.isRunning id).toNat := by
  cases call with
  | start arguments =>
      cases hstart : engine.start arguments with
      | error e =>
          rw [answer_start_of_error hstart]
          simp [Answer.started, Answer.finished, Answer.faults, Except.toOption]
      | ok next =>
          obtain ⟨started, after⟩ := next
          obtain ⟨hstopped, hrunning⟩ := isRunning_start hstart
          rw [answer_start_of_ok hstart, hrunning]
          by_cases hid : id = started
          · subst hid
            simp [Answer.started, Answer.finished, Answer.faults, Except.toOption, hstopped]
          · simp [Answer.started, Answer.finished, Answer.faults, Except.toOption, hid, Ne.symm hid]
  | step host state now =>
      have hstep := engine.step_conserves host state now id
      have hfaulted : ((engine.step host state now).report.faults.toList.map Fault.script).count id =
          (engine.step host state now).report.faults.countP (fun fault => fault.script = id) := by
        rw [List.count_eq_countP, List.countP_map, ← Array.countP_toList]
        rfl
      simp only [answer, Answer.started, Answer.finished, Answer.faults, Array.count_toList, hfaulted]
      exact hstep

/-- The same of any calls. -/
theorem Engine.answers_conserve (engine : Engine) (calls : List Call) (id : Int) :
    (engine.isRunning id).toNat + ((engine.answers calls).2.flatMap Answer.started).count id =
      ((engine.answers calls).2.flatMap Answer.finished).count id +
        (((engine.answers calls).2.flatMap Answer.faults).map Fault.script).count id +
        ((engine.answers calls).1.isRunning id).toNat := by
  induction calls generalizing engine with
  | nil => simp [answers]
  | cons call rest ih =>
      have hcall := engine.answer_conserves call id
      have hrest := ih (engine.answer call).1
      simp only [answers, List.flatMap_cons, List.map_append, List.count_append]
      omega

namespace History

theorem conserves_ofCalls (scripts : Scripts) (calls : List Engine.Call) (id : Int) :
    (ofCalls scripts calls).Conserves id := by
  have hcalls := (Engine.ofScripts scripts).answers_conserve calls id
  rw [Engine.isRunning_ofScripts, Bool.toNat_false, Nat.zero_add] at hcalls
  exact hcalls

/-- Script instances are conserved, in each step and over any calls of an engine: no instance is started or
ends without a report, and none ends twice. -/
theorem instances_conserved :
    (∀ (σ : Type) (engine : Engine) (host : Host σ) (state : σ) (now : Float) (id : Int),
      (engine.isRunning id).toNat + (engine.step host state now).report.started.count id =
        (engine.step host state now).report.finished.count id +
          (engine.step host state now).report.faults.countP (fun fault => fault.script = id) +
          ((engine.step host state now).engine.isRunning id).toNat) ∧
      ∀ (scripts : Scripts) (calls : List Engine.Call) (id : Int), (ofCalls scripts calls).Conserves id := by
  constructor
  · intro σ engine host state now id
    exact engine.step_conserves host state now id
  · intro scripts calls id
    exact conserves_ofCalls scripts calls id

end History

end LevelPlay
