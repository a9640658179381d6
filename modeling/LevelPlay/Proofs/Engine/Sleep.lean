import Mathlib.Data.List.Forall2
import LevelPlay.Proofs.Engine.Simulation

/-! Scripts that sleep. A script that runs and is not ready has no turn, and no other script can start, end or
change it: an attempt to start it is refused because it runs. So over any calls before its time to wake comes
it stays as it is, and nothing that the engine answers or asks of a host speaks of it. -/

namespace LevelPlay

namespace Frame

variable {σ : Type}

/-! ### Within a step -/

/-- The script runs as this instance, and has neither been started nor ended nor called the host in this step. -/
structure Untouched (id : Int) (i : Instance) (frame : Frame (σ × List Int)) : Prop where
  running : frame.engine.instance? id = some i
  started : id ∉ frame.report.started
  ended : ¬frame.Ended id
  callers : id ∉ frame.host.2

section Turn

variable {id other : Int} {i : Instance} {frame : Frame (σ × List Int)}

theorem Untouched.finish (h : frame.Untouched id i) (hne : other ≠ id) :
    (frame.finish other).Untouched id i := by
  have hrunning := (turn_finish frame other).others (Ne.symm hne) h.running
  unfold Frame.finish at hrunning ⊢
  split
  · rename_i hother
    rw [if_pos hother] at hrunning
    refine ⟨hrunning, h.started, fun hended => h.ended ?_, h.callers⟩
    refine hended.imp_left fun hfinished => ?_
    rcases Array.mem_push.mp hfinished with hfinished | rfl
    · exact hfinished
    · exact absurd rfl hne
  · exact h

theorem Untouched.fail (h : frame.Untouched id i) (hne : other ≠ id) (instruction : Nat) (error : ScriptError) :
    (frame.fail other instruction error).Untouched id i := by
  have hrunning := (turn_fail frame other instruction error).others (Ne.symm hne) h.running
  refine ⟨hrunning, h.started, fun hended => h.ended ?_, h.callers⟩
  refine hended.imp_right fun ⟨fault, hfault, hid⟩ => ?_
  rcases Array.mem_push.mp hfault with hfault | rfl
  · exact ⟨fault, hfault, hid⟩
  · exact absurd hid hne

theorem Untouched.advance (h : frame.Untouched id i) (hne : other ≠ id) :
    (frame.advance other).Untouched id i :=
  ⟨(turn_advance frame other).others (Ne.symm hne) h.running, h.started, h.ended, h.callers⟩

theorem Untouched.settle (h : frame.Untouched id i) (hne : other ≠ id) (now : Float) :
    (frame.settle now other).Untouched id i := by
  unfold Frame.settle
  split
  · split
    · exact h.finish hne
    · exact h
  · exact h

variable (host : Host σ) (now : Float)

theorem Untouched.perform (h : frame.Untouched id i) (hne : other ≠ id) (command : Command) :
    (frame.perform host.noting now other command).1.Untouched id i := by
  have hrunning := (turn_perform host.noting now frame other command).others (Ne.symm hne) h.running
  cases command with
  | finish => exact h.finish hne
  | sleep seconds => exact ⟨hrunning, h.started, h.ended, h.callers⟩
  | start arguments =>
      rw [Frame.perform] at hrunning ⊢
      cases hstart : frame.engine.start arguments with
      | error e => exact h
      | ok next =>
          obtain ⟨started, after⟩ := next
          rw [hstart] at hrunning
          -- What is started did not run before, so it is not the sleeper.
          have hid : id ≠ started := by
            rintro rfl
            cases (Engine.instance?_start hstart).2.1.symm.trans h.running
          refine ⟨hrunning, fun hstarted => ?_, h.ended, h.callers⟩
          rcases Array.mem_push.mp hstarted with hstarted | hstarted
          · exact h.started hstarted
          · exact hid hstarted
  | call instruction =>
      have hcallers : id ∉ (host.noting.handle frame.host other instruction).1.2 :=
        List.not_mem_cons_of_ne_of_not_mem (Ne.symm hne) h.callers
      rw [Frame.perform] at hrunning ⊢
      generalize host.noting.handle frame.host other instruction = response at hrunning hcallers ⊢
      obtain ⟨state, answer⟩ := response
      cases answer with
      | error reason => exact ⟨hrunning, h.started, h.ended, hcallers⟩
      | ok _ => exact ⟨hrunning, h.started, h.ended, hcallers⟩

theorem Untouched.execute (h : frame.Untouched id i) (hne : other ≠ id) (arguments : List Float)
    (instruction : Instruction) :
    (frame.execute host.noting now other arguments instruction).1.Untouched id i := by
  unfold Frame.execute
  cases (instruction.substitute arguments).bind Instruction.command with
  | error e => exact h
  | ok command => exact h.perform host now hne command

/-- The turn of another script does not touch this one. -/
theorem Untouched.tick (h : frame.Untouched id i) (hne : other ≠ id) :
    (frame.tick host.noting now other).Untouched id i := by
  rcases tick_cases host.noting now frame other with
    hfinish | ⟨script, j, instruction, after, -, -, ⟨hexecute, hsettle⟩ | ⟨error, hexecute, hfail⟩⟩
  · rw [hfinish]
    exact h.finish hne
  · have hafter := (h.advance hne).execute host now hne j.arguments instruction
    rw [hexecute] at hafter
    rw [hsettle]
    exact hafter.settle hne now
  · have hafter := (h.advance hne).execute host now hne j.arguments instruction
    rw [hexecute] at hafter
    rw [hfail]
    exact hafter.fail hne j.next error

variable {now} (hasleep : ¬i.wakeAt ≤ now)

include hasleep

/-- No turn touches a script that sleeps, its own is passed over. -/
theorem Untouched.visit (h : frame.Untouched id i) (other : Int) :
    (frame.visit host.noting now other).Untouched id i := by
  unfold Frame.visit
  split
  · rename_i hready
    refine h.tick host now ?_
    rintro rfl
    obtain ⟨j, hj, hwake⟩ := Engine.isReady_eq_true_iff.mp hready
    cases h.running.symm.trans hj
    exact hasleep (of_decide_eq_true hwake)
  · exact h

theorem Untouched.pass (h : frame.Untouched id i) (ids : List Int) :
    (frame.pass host.noting now ids).Untouched id i := by
  induction ids generalizing frame with
  | nil => exact h
  | cons first rest ih =>
      rw [pass_cons]
      split
      · exact h
      · exact ih (h.visit host hasleep first)

theorem Untouched.plays (h : frame.Untouched id i) {after : Frame (σ × List Int)}
    (hplays : Plays host.noting now frame after) : after.Untouched id i := by
  induction hplays with
  | rest => exact h
  | spent => exact ⟨h.running, h.started, h.ended, h.callers⟩
  | pass _ _ _ ih =>
      refine ih (Untouched.pass host hasleep ?_ _)
      exact ⟨h.running, h.started, h.ended, h.callers⟩

end Turn

end Frame

namespace Engine

/-! ### Over any calls -/

def Call.time? : Call → Option Float
  | .start _ => none
  | .step _ _ now => some now

/-- The answer does not speak of a script, but for telling that it runs already where the call would start it. -/
def Spares (id : Int) : Call → Answer → Prop
  | .start arguments, .start result =>
      result ≠ .ok id ∧ (startId arguments = .ok id → result = .error (.alreadyRunning id))
  | .step _ _ _, .step report callers =>
      id ∉ report.started ∧ id ∉ report.finished ∧ (∀ fault ∈ report.faults, fault.script ≠ id) ∧ id ∉ callers
  | _, _ => False

theorem untouched_step {σ : Type} {engine : Engine} {id : Int} {i : Instance}
    (hrunning : engine.instance? id = some i) {now : Float} (hasleep : ¬i.wakeAt ≤ now) (host : Host σ)
    (state : σ) : (engine.step host.noting (state, []) now).Untouched id i := by
  refine Frame.Untouched.plays host hasleep ?_ (Frame.plays_passes host.noting now _)
  exact ⟨hrunning, by simp [Report.ofTime], by simp [Frame.Ended, Report.ofTime], by simp⟩

theorem start_of_running {engine : Engine} {id : Int} {i : Instance} (hrunning : engine.instance? id = some i)
    {arguments : List Float} (hid : startId arguments = .ok id) :
    engine.start arguments = .error (.alreadyRunning id) := by
  obtain ⟨script, hslot⟩ := instance?_eq_some_iff.mp hrunning
  rw [start, hid, Result.ok_bind, hslot]
  rfl

/-- A call before the time to wake leaves a script as it is. -/
theorem spares_answer {engine : Engine} {id : Int} {i : Instance} (hrunning : engine.instance? id = some i)
    (call : Call) (hasleep : ∀ now ∈ call.time?, ¬i.wakeAt ≤ now) :
    (engine.answer call).1.instance? id = some i ∧ Spares id call (engine.answer call).2 := by
  cases call with
  | start arguments =>
      cases hstart : engine.start arguments with
      | error e =>
          rw [answer_start_of_error hstart]
          refine ⟨hrunning, by simp, fun hid => ?_⟩
          rw [start_of_running hrunning hid] at hstart
          rw [Except.error.inj hstart]
      | ok next =>
          obtain ⟨started, after⟩ := next
          obtain ⟨-, hstopped, hinstances⟩ := instance?_start hstart
          have hne : id ≠ started := by
            rintro rfl
            cases hstopped.symm.trans hrunning
          rw [answer_start_of_ok hstart]
          refine ⟨?_, fun hok => hne (Except.ok.inj hok).symm, fun hid => ?_⟩
          · dsimp only
            rw [hinstances, if_neg hne]
            exact hrunning
          · cases (start_of_running hrunning hid).symm.trans hstart
  | step host state now =>
      have huntouched := untouched_step hrunning (hasleep now rfl) host state
      have halike := engine.alike_step_noting host state [] now
      refine ⟨?_, ?_⟩
      · rw [answer, halike.engine]
        exact huntouched.running
      · rw [answer, halike.report]
        refine ⟨huntouched.started, fun hfinished => huntouched.ended (.inl hfinished), ?_, huntouched.callers⟩
        exact fun fault hfault hid => huntouched.ended (.inr ⟨fault, hfault, hid⟩)

/-- A script that sleeps is left alone. Over any starts and steps, with any hosts, of which no step comes at or
after its time to wake, it goes on running as the same instance; it is not started, does not end, and calls
no host; and every call that would start it is told that it runs already. -/
theorem sleeper_left_alone (engine : Engine) {id : Int} {i : Instance} (hrunning : engine.instance? id = some i)
    (calls : List Call) (hasleep : ∀ call ∈ calls, ∀ now ∈ call.time?, ¬i.wakeAt ≤ now) :
    (engine.answers calls).1.instance? id = some i ∧ List.Forall₂ (Spares id) calls (engine.answers calls).2 := by
  induction calls generalizing engine with
  | nil => exact ⟨hrunning, .nil⟩
  | cons call rest ih =>
      obtain ⟨hcall, hrest⟩ := List.forall_mem_cons.mp hasleep
      obtain ⟨hnext, hspares⟩ := spares_answer hrunning call hcall
      obtain ⟨hlast, hall⟩ := ih (engine.answer call).1 hnext hrest
      exact ⟨hlast, .cons hspares hall⟩

/-- Script 1 sleeps, and script 2 is about to start it. -/
def nap : Engine :=
  ⟨⟨[(1, ⟨⟨1, [["Delay", "5"], ["Ring"]]⟩, some ⟨1, [1.0], 5.0⟩⟩),
    (2, ⟨⟨2, [["ScriptRun", "1"]]⟩, some ⟨0, [2.0], 0.0⟩⟩)], by simp⟩, 0.0⟩

/-- A start of script 1, and a step in which script 2 has its turn. -/
def disturbances : List Call := [.start [1.0], .step Host.ignore () 3.0]

/-- Neither wakes script 1. -/
theorem nap_undisturbed :
    (nap.instance? 1 = some ⟨1, [1.0], 5.0⟩ ∧
        ∀ call ∈ disturbances, ∀ now ∈ call.time?, ¬(5.0 : Float) ≤ now) ∧
      (nap.answers disturbances).1.instance? 1 = some ⟨1, [1.0], 5.0⟩ ∧
        List.Forall₂ (Spares 1) disturbances (nap.answers disturbances).2 := by
  have hrunning : nap.instance? 1 = some ⟨1, [1.0], 5.0⟩ := rfl
  have hearly : ¬(5.0 : Float) ≤ 3.0 := by decide +kernel
  have hasleep : ∀ call ∈ disturbances, ∀ now ∈ call.time?, ¬(5.0 : Float) ≤ now := by
    simpa [disturbances, Call.time?] using hearly
  exact ⟨⟨hrunning, hasleep⟩, sleeper_left_alone nap hrunning disturbances hasleep⟩

end Engine

end LevelPlay
