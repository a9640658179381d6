import LevelPlay.Proofs.Engine.Execution
import LevelPlay.Proofs.Engine.History
import Mathlib.Logic.Relation

/-! Where running instances come from. A turn ends scripts, or moves their counters and times to wake, but never
touches the arguments of one that runs; what runs newly has been started with the arguments that the instruction of
this turn gives, the first of which is its id. Everything that happens to an engine is made of turns, starts, and the
beginnings of steps, so each instance keeps its arguments for as long as it runs. -/

namespace LevelPlay

/-- The arguments of the script that a command is to start. -/
def Command.start? : Command → Option (List Float)
  | .start values => some values
  | _ => none

/-- The arguments of the script that an execution is to start. -/
def Execution.start? (execution : Execution) : Option (List Float) :=
  match (execution.instruction.substitute execution.arguments).bind Instruction.command with
  | .ok command => command.start?
  | .error _ => none

theorem Execution.start?_eq_some_iff {execution : Execution} {values : List Float} :
    execution.start? = some values ↔
      (execution.instruction.substitute execution.arguments).bind Instruction.command = .ok (.start values) := by
  unfold Execution.start?
  constructor
  · intro h
    split at h
    · rename_i command hcommand
      cases command with
      | start others =>
          cases h
          exact hcommand
      | finish | sleep | call => cases h
    · cases h
  · intro h
    rw [h]
    rfl

namespace Engine

/-- What runs afterwards ran before, with the same arguments, or has been started with these. -/
def Follows (started : Option (List Float)) (before after : Engine) : Prop :=
  ∀ id j, after.instance? id = some j →
    (∃ i, before.instance? id = some i ∧ j.arguments = i.arguments) ∨
      before.instance? id = none ∧ started = some j.arguments ∧ startId j.arguments = .ok id

variable {started : Option (List Float)} {before middle after : Engine} {id : Int} {i j : Instance}

theorem Follows.refl (started : Option (List Float)) (engine : Engine) : Follows started engine engine :=
  fun _ j hj => .inl ⟨j, hj, rfl⟩

theorem Follows.trans (h : Follows started before middle) (h' : Follows none middle after) :
    Follows started before after := by
  intro id k hk
  rcases h' id k hk with ⟨j, hj, hkj⟩ | ⟨-, hnone, -⟩
  · rw [hkj]
    exact h id j hj
  · cases hnone

theorem Follows.arguments_eq (h : Follows started before after) (hi : before.instance? id = some i)
    (hj : after.instance? id = some j) : j.arguments = i.arguments := by
  rcases h id j hj with ⟨i', hi', harguments⟩ | ⟨hnone, -⟩
  · cases hi.symm.trans hi'
    exact harguments
  · cases hi.symm.trans hnone

theorem Follows.started_eq (h : Follows started before after) (hidle : before.instance? id = none)
    (hj : after.instance? id = some j) : started = some j.arguments ∧ startId j.arguments = .ok id := by
  rcases h id j hj with ⟨i, hi, -⟩ | ⟨-, hstarted⟩
  · cases hidle.symm.trans hi
  · exact hstarted

/-! ### Changes of one script -/

theorem follows_stop (engine : Engine) (id : Int) : Follows none engine (engine.stop id) := by
  intro other j hj
  rw [instance?_stop] at hj
  split at hj
  · cases hj
  · exact .inl ⟨j, hj, rfl⟩

theorem follows_mapInstance (engine : Engine) (id : Int) {f : Instance → Instance}
    (hf : ∀ i, (f i).arguments = i.arguments) : Follows none engine (engine.mapInstance id f) := by
  intro other j hj
  rw [instance?_mapInstance] at hj
  split at hj
  · obtain ⟨i, hi, rfl⟩ := Option.map_eq_some_iff.mp hj
    exact .inl ⟨i, hi, hf i⟩
  · exact .inl ⟨j, hj, rfl⟩

theorem follows_start {arguments : List Float} (h : before.start arguments = .ok (id, after)) :
    Follows (some arguments) before after := by
  obtain ⟨hid, -⟩ := start_eq_ok_iff.mp h
  obtain ⟨-, hidle, hinstances⟩ := instance?_start h
  intro other j hj
  rw [hinstances] at hj
  split at hj
  · rename_i hother
    cases hj
    rw [hother]
    exact .inr ⟨hidle, rfl, hid⟩
  · exact .inl ⟨j, hj, rfl⟩

end Engine

namespace Frame

variable {σ : Type} (host : Host σ) (now : Float) (frame : Frame σ) (id : Int)

open Engine (Follows)

/-! ### Turns -/

theorem follows_finish : Follows none frame.engine (frame.finish id).engine := by
  unfold finish
  split
  · exact Engine.follows_stop frame.engine id
  · exact .refl none frame.engine

theorem follows_settle : Follows none frame.engine (frame.settle now id).engine := by
  unfold settle
  split
  · split
    · exact follows_finish frame id
    · exact .refl none frame.engine
  · exact .refl none frame.engine

theorem follows_perform (command : Command) :
    Follows command.start? frame.engine (frame.perform host now id command).1.engine := by
  cases command with
  | finish => exact follows_finish frame id
  | sleep seconds => exact Engine.follows_mapInstance frame.engine id fun _ => rfl
  | start arguments =>
      rw [perform]
      cases hstart : frame.engine.start arguments with
      | error e => exact .refl _ frame.engine
      | ok next => exact Engine.follows_start hstart
  | call instruction =>
      rw [perform]
      split
      · exact .refl _ frame.engine
      · exact .refl _ frame.engine

theorem follows_execute (execution : Execution) :
    Follows execution.start? frame.engine
      (frame.execute host now id execution.arguments execution.instruction).1.engine := by
  unfold execute Execution.start?
  cases (execution.instruction.substitute execution.arguments).bind Instruction.command with
  | error e => exact .refl none frame.engine
  | ok command => exact follows_perform host now frame id command

variable {frame id} in
/-- That a script goes on to its next instruction makes no difference to what runs with which arguments. -/
theorem follows_of_advance {started : Option (List Float)} {after : Engine}
    (h : Follows started (frame.advance id).engine after) : Follows started frame.engine after := by
  have hadvance : ∀ other, (frame.advance id).engine.instance? other = none → frame.engine.instance? other = none := by
    intro other hnone
    rw [advance, Engine.instance?_mapInstance] at hnone
    split at hnone
    · exact Option.map_eq_none_iff.mp hnone
    · exact hnone
  intro other k hk
  rcases h other k hk with ⟨j, hj, hkj⟩ | ⟨hnone, hstarted⟩
  · have hkept := Engine.follows_mapInstance frame.engine id (f := fun i => { i with next := i.next + 1 }) fun _ => rfl
    rcases hkept other j hj with ⟨i, hi, hji⟩ | ⟨-, hnothing, -⟩
    · exact .inl ⟨i, hi, hkj.trans hji⟩
    · cases hnothing
  · exact .inr ⟨hadvance other hnone, hstarted⟩

/-- A turn starts no script but by the instruction that is executed in it. -/
theorem follows_tick :
    Follows ((frame.execution? id).bind Execution.start?) frame.engine (frame.tick host now id).engine := by
  cases hexecution : frame.execution? id with
  | none =>
      rw [tick_of_execution?_eq_none host now hexecution]
      exact follows_finish frame id
  | some execution =>
      obtain ⟨after, outcome, hexecute, rfl, htick⟩ := tick_of_execution?_eq_some host now hexecution
      have hafter := follows_execute host now (frame.advance execution.script) execution.script execution
      rw [hexecute] at hafter
      have hstarted := follows_of_advance hafter
      rcases htick with hsettle | ⟨number, error, hfail⟩
      · rw [hsettle]
        exact hstarted.trans (follows_settle now after execution.script)
      · rw [hfail]
        exact hstarted.trans (Engine.follows_stop after.engine execution.script)

end Frame

namespace Engine

/-! ### Everything that happens -/

/-- The next thing that happens to an engine: a script is started, or has its turn in a step for some host, or a step
begins. -/
inductive Happens : Engine → Engine → Prop where
  | start {before after : Engine} {arguments : List Float} {id : Int}
      (h : before.start arguments = .ok (id, after)) : Happens before after
  | turn {σ : Type} (host : Host σ) (now : Float) (frame : Frame σ) (id : Int) :
      Happens frame.engine (frame.tick host now id).engine
  | begin (engine : Engine) (now : Float) : Happens engine { engine with now }

theorem Happens.follows {before after : Engine} (h : Happens before after) :
    ∃ started, Follows started before after := by
  cases h with
  | start h => exact ⟨_, follows_start h⟩
  | turn host now frame id => exact ⟨_, frame.follows_tick host now id⟩
  | begin now => exact ⟨none, fun _ j hj => .inl ⟨j, hj, rfl⟩⟩

open Relation (ReflTransGen)

/-- A step is its beginning, and turns. -/
theorem happens_step {σ : Type} (engine : Engine) (host : Host σ) (state : σ) (now : Float) :
    ReflTransGen Happens engine (engine.step host state now).engine := by
  apply Frame.Plays.induction (P := fun frame => ReflTransGen Happens engine frame.engine) _ _
    (Frame.plays_passes host now _)
  · exact .single (.begin engine now)
  · exact fun _ _ h => h
  · exact fun _ h => h.tail (.turn host now _ _)

/-- However an engine is called, this is all that happens to it. -/
theorem happens_answer (engine : Engine) (call : Call) : ReflTransGen Happens engine (engine.answer call).1 := by
  cases call with
  | start arguments =>
      cases hstart : engine.start arguments with
      | error e =>
          rw [answer_start_of_error hstart]
      | ok next =>
          rw [answer_start_of_ok hstart]
          exact .single (.start hstart)
  | step host state now => exact happens_step engine host state now

theorem happens_answers (engine : Engine) (calls : List Call) :
    ReflTransGen Happens engine (engine.answers calls).1 := by
  induction calls generalizing engine with
  | nil => exact .refl
  | cons call rest ih => exact (happens_answer engine call).trans (ih (engine.answer call).1)

/-- The first argument of an instance is the id of its script. -/
theorem startId_of_happens {scripts : Scripts} {engine : Engine} (h : ReflTransGen Happens (ofScripts scripts) engine)
    {id : Int} {i : Instance} (hi : engine.instance? id = some i) : startId i.arguments = .ok id := by
  induction h generalizing id i with
  | refl =>
      have hidle := isRunning_ofScripts scripts id
      rw [isRunning, hi] at hidle
      cases hidle
  | tail _ hnext ih =>
      obtain ⟨started, hfollows⟩ := hnext.follows
      rcases hfollows id i hi with ⟨j, hj, harguments⟩ | ⟨-, -, hid⟩
      · rw [harguments]
        exact ih hj
      · exact hid

end Engine

end LevelPlay
