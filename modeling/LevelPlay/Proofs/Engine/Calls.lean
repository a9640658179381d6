import LevelPlay.Engine.Step
import LevelPlay.Proofs.Result

/-! Calls of an engine. A call starts a script, or has the engine step with a host. A start is carried out in place, and
is refused before anything has changed, so that a refused start leaves the engine as it was. -/

namespace LevelPlay

/-- The host that also keeps the ids of the scripts that call it, the last one first. -/
def Host.noting {σ : Type} (host : Host σ) : Host (σ × List Int) where
  handle state id instruction :=
    let response := host.handle state.1 id instruction
    ((response.1, id :: state.2), response.2)

namespace Engine

/-! ### Starts -/

/-- A start that changes the engine in place. Where a check fails, what has been changed until then stays changed. -/
def startInPlace (arguments : List Float) : ExceptT ScriptError (StateM Engine) Int := do
  let id ← startId arguments
  let engine ← get
  match engine.slots.get? id with
  | none => throw (.unknownScript id)
  | some slot =>
    if slot.active.isSome then throw (.alreadyRunning id)
    else
      set (engine.setInstance id (some ⟨0, arguments, engine.now⟩))
      return id

theorem startInPlace_run (engine : Engine) (arguments : List Float) :
    (startInPlace arguments).run.run engine =
      match engine.start arguments with
      | .error error => (.error error, engine)
      | .ok (id, after) => (.ok id, after) := by
  unfold startInPlace start
  cases startId arguments with
  | error e => rfl
  | ok id =>
      rw [Result.ok_bind]
      show StateT.run (ExceptT.run (match engine.slots.get? id with | none => _ | some slot => _)) engine = _
      cases engine.slots.get? id with
      | none => rfl
      | some slot =>
          obtain ⟨script, active⟩ := slot
          cases active with
          | none => rfl
          | some i => rfl

/-! ### Calls and answers -/

/-- A call of the engine: the start of a script, or a step with any host, in any state of the host and at any
time. -/
inductive Call : Type 1 where
  | start (arguments : List Float)
  | step {σ : Type} (host : Host σ) (state : σ) (now : Float)

/-- What the engine answers to a call: the id of the script that was started or why none was, or the report of
the step, which is kept with the scripts that called the host in it. -/
inductive Answer where
  | start (result : Except ScriptError Int)
  | step (report : Report) (callers : List Int)

namespace Answer

def started : Answer → List Int
  | start result => result.toOption.toList
  | step report _ => report.started.toList

def finished : Answer → List Int
  | start _ => []
  | step report _ => report.finished.toList

def faults : Answer → List Fault
  | start _ => []
  | step report _ => report.faults.toList

end Answer

/-- The scripts that call the host in a step. -/
def callers {σ : Type} (engine : Engine) (host : Host σ) (state : σ) (now : Float) : List Int :=
  (engine.step host.noting (state, []) now).host.2

/-- The engine after a call, and its answer. -/
def answer (engine : Engine) : Call → Engine × Answer
  | .start arguments =>
      let (result, after) := (startInPlace arguments).run.run engine
      (after, .start result)
  | .step host state now =>
      let frame := engine.step host state now
      (frame.engine, .step frame.report (engine.callers host state now))

/-- The engine after some calls, and its answers to them in order. -/
def answers (engine : Engine) : List Call → Engine × List Answer
  | [] => (engine, [])
  | call :: rest =>
      let next := engine.answer call
      let last := next.1.answers rest
      (last.1, next.2 :: last.2)

theorem answer_start_of_error {engine : Engine} {arguments : List Float} {error : ScriptError}
    (h : engine.start arguments = .error error) :
    engine.answer (.start arguments) = (engine, .start (.error error)) := by
  rw [answer, startInPlace_run, h]

theorem answer_start_of_ok {engine after : Engine} {arguments : List Float} {id : Int}
    (h : engine.start arguments = .ok (id, after)) :
    engine.answer (.start arguments) = (after, .start (.ok id)) := by
  rw [answer, startInPlace_run, h]

end Engine

end LevelPlay
