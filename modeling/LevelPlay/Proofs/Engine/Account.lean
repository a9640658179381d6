import LevelPlay.Engine.Step
import LevelPlay.Proofs.Engine.Command

/-! The account of a script: its instances that have ended or still run, less those that were started. Nothing
that happens within a step changes an account. An instance may end in four places of a turn; in each of them
it is reported, and it is reported only if it was running. -/

namespace LevelPlay

namespace Engine

/-! ### What runs after a change -/

theorem isRunning_setInstance (engine : Engine) (id other : Int) (active : Option Instance) :
    (engine.setInstance id active).isRunning other =
      if other = id then engine.slots.contains id && active.isSome else engine.isRunning other := by
  unfold isRunning instance? setInstance
  rw [IdMap.get?_modify, IdMap.contains]
  by_cases h : other = id
  · subst h
    rw [if_pos rfl, if_pos rfl]
    cases engine.slots.get? other <;> rfl
  · rw [if_neg h, if_neg h]

theorem isRunning_stop (engine : Engine) (id other : Int) :
    (engine.stop id).isRunning other = if other = id then false else engine.isRunning other := by
  rw [stop, isRunning_setInstance]
  by_cases h : other = id
  · rw [if_pos h, if_pos h, Option.isSome_none, Bool.and_false]
  · rw [if_neg h, if_neg h]

theorem isRunning_mapInstance (engine : Engine) (id other : Int) (f : Instance → Instance) :
    (engine.mapInstance id f).isRunning other = engine.isRunning other := by
  unfold isRunning instance? mapInstance
  rw [IdMap.get?_modify]
  by_cases h : other = id
  · rw [if_pos h]
    cases engine.slots.get? other with
    | none => rfl
    | some slot => exact Option.isSome_map
  · rw [if_neg h]

/-- A script that is started was not running, and runs from then on; nothing else changes in what runs. -/
theorem isRunning_start {engine after : Engine} {arguments : List Float} {id : Int}
    (h : engine.start arguments = .ok (id, after)) :
    engine.isRunning id = false ∧
      ∀ other, after.isRunning other = if other = id then true else engine.isRunning other := by
  obtain ⟨-, ⟨script, hslot⟩, rfl⟩ := start_eq_ok_iff.mp h
  refine ⟨by simp [isRunning, instance?, hslot], fun other => ?_⟩
  rw [isRunning_setInstance, IdMap.contains, hslot]
  rfl

end Engine

namespace Frame

variable {σ : Type}

/-- The instances of a script that ended in this step or run at this point of it, less those that were
started by other scripts in it. -/
def account (frame : Frame σ) (id : Int) : Int :=
  frame.report.finished.count id + frame.report.faults.countP (fun fault => fault.script = id) +
    (frame.engine.isRunning id).toNat - frame.report.started.count id

theorem account_finish (frame : Frame σ) (id : Int) : (frame.finish id).account = frame.account := by
  funext other
  unfold finish
  cases hrunning : frame.engine.isRunning id with
  | false => rfl
  | true =>
      simp only [account, if_true, Engine.isRunning_stop, Array.count_push, beq_iff_eq]
      by_cases h : other = id
      · rw [h, hrunning, if_pos rfl, if_pos rfl, Bool.toNat_true, Bool.toNat_false]
        omega
      · rw [if_neg h, if_neg (Ne.symm h), Nat.add_zero]

theorem account_fail (frame : Frame σ) {id : Int} (hrunning : frame.engine.isRunning id = true)
    (instruction : Nat) (error : ScriptError) : (frame.fail id instruction error).account = frame.account := by
  funext other
  simp only [account, fail, Engine.isRunning_stop, Array.countP_push, decide_eq_true_eq]
  by_cases h : other = id
  · rw [h, hrunning, if_pos rfl, if_pos rfl, Bool.toNat_true, Bool.toNat_false]
    omega
  · rw [if_neg h, if_neg (Ne.symm h), Nat.add_zero]

theorem account_advance (frame : Frame σ) (id : Int) : (frame.advance id).account = frame.account := by
  funext other
  simp only [account, advance, Engine.isRunning_mapInstance]

/-- Whatever a script asks for, nothing is lost. Only a script that was started is new among those that run,
and what is refused leaves the engine as it was. -/
theorem account_perform (host : Host σ) (now : Float) (frame : Frame σ) (id : Int) (command : Command) :
    (frame.perform host now id command).1.account = frame.account := by
  cases command with
  | finish => exact account_finish frame id
  | sleep seconds =>
      funext other
      simp only [account, perform, Engine.isRunning_mapInstance]
  | start arguments =>
      rw [perform]
      cases hstart : frame.engine.start arguments with
      | error e => rfl
      | ok next =>
          obtain ⟨started, after⟩ := next
          obtain ⟨hstopped, hrunning⟩ := Engine.isRunning_start hstart
          funext other
          simp only [account, hrunning, Array.count_push, beq_iff_eq]
          by_cases h : other = started
          · rw [h, hstopped, if_pos rfl, if_pos rfl, Bool.toNat_true, Bool.toNat_false]
            omega
          · rw [if_neg h, if_neg (Ne.symm h), Nat.add_zero]
  | call instruction =>
      rw [perform]
      split
      · rfl
      · rfl

/-- What is refused has changed nothing but the host's own state. -/
theorem perform_of_error {host : Host σ} {now : Float} {frame after : Frame σ} {id : Int} {command : Command}
    {error : ScriptError} (h : frame.perform host now id command = (after, .error error)) :
    after = { frame with host := after.host } := by
  cases command with
  | finish | sleep => cases h
  | start arguments =>
      rw [perform] at h
      split at h
      · cases h
        rfl
      · cases h
  | call instruction =>
      rw [perform] at h
      split at h
      · cases h
      · cases h
        rfl

theorem account_execute (host : Host σ) (now : Float) (frame : Frame σ) (id : Int) (arguments : List Float)
    (instruction : Instruction) :
    (frame.execute host now id arguments instruction).1.account = frame.account := by
  unfold execute
  cases (instruction.substitute arguments).bind Instruction.command with
  | error e => rfl
  | ok command => exact account_perform host now frame id command

theorem execute_of_error {host : Host σ} {now : Float} {frame after : Frame σ} {id : Int} {arguments : List Float}
    {instruction : Instruction} {error : ScriptError}
    (h : frame.execute host now id arguments instruction = (after, .error error)) :
    after = { frame with host := after.host } := by
  unfold execute at h
  cases hcommand : (instruction.substitute arguments).bind Instruction.command with
  | error e =>
      rw [hcommand] at h
      cases h
      rfl
  | ok command =>
      rw [hcommand] at h
      exact perform_of_error h

theorem account_settle (now : Float) (frame : Frame σ) (id : Int) :
    (frame.settle now id).account = frame.account := by
  unfold settle
  split
  · split
    · exact account_finish frame id
    · rfl
  · rfl

/-- A turn changes no account. If it ends in a fault then the script still ran, because what failed left the
engine as it was. -/
theorem account_tick (host : Host σ) (now : Float) (frame : Frame σ) (id : Int) :
    (frame.tick host now id).account = frame.account := by
  unfold tick
  split
  · rename_i script i hslot
    have hrunning : frame.engine.isRunning id = true := by
      rw [Engine.isRunning, Engine.instance?, hslot]
      rfl
    cases script.instructions[i.next]? with
    | none => exact account_finish frame id
    | some instruction =>
        have hexecute := account_execute host now (frame.advance id) id i.arguments instruction
        dsimp only
        cases hresult : (frame.advance id).execute host now id i.arguments instruction with
        | mk after outcome =>
            rw [hresult] at hexecute
            cases outcome with
            | ok _ =>
                calc (after.settle now id).account
                    = after.account := account_settle now after id
                  _ = (frame.advance id).account := hexecute
                  _ = frame.account := account_advance frame id
            | error e =>
                have hstill : after.engine.isRunning id = true := by
                  rw [execute_of_error hresult]
                  show (frame.advance id).engine.isRunning id = true
                  rw [advance, Engine.isRunning_mapInstance]
                  exact hrunning
                calc (after.fail id i.next e).account
                    = after.account := account_fail after hstill i.next e
                  _ = (frame.advance id).account := hexecute
                  _ = frame.account := account_advance frame id
  · rfl

theorem account_pass (host : Host σ) (now : Float) (ids : List Int) (frame : Frame σ) :
    (frame.pass host now ids).account = frame.account := by
  induction ids generalizing frame with
  | nil => rfl
  | cons id rest ih =>
      rw [pass]
      split
      · rfl
      · rw [ih]
        split
        · exact account_tick host now frame id
        · rfl

theorem account_passes (host : Host σ) (now : Float) (frame : Frame σ) :
    (frame.passes host now).account = frame.account := by
  induction frame using passes.induct host now with
  | case1 frame ready hempty =>
      rw [passes, if_pos hempty]
  | case2 frame ready executed hready hspent =>
      rw [passes, if_neg hready, if_pos hspent]
      rfl
  | case3 frame ready executed hready hbudget next hprogress ih =>
      rw [passes, if_neg hready, if_neg hbudget, if_pos hprogress, ih]
      exact account_pass host now ready frame.countPass
  | case4 frame ready executed hready hbudget next hidle =>
      rw [passes, if_neg hready, if_neg hbudget, if_neg hidle]
      exact account_pass host now ready frame.countPass

end Frame

end LevelPlay
