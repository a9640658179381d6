import LevelPlay.Proofs.Engine.Budget
import LevelPlay.Proofs.Engine.Calls
import LevelPlay.Proofs.Engine.Command

/-! The same step with two hosts. The engine learns nothing of a host but its answers. So where two hosts answer
alike in states that stay related, however different these states are, the two steps go the same way: each
operation of the one is matched by the same operation of the other, with the same engine and the same report. -/

namespace LevelPlay

/-- In related states the hosts give equal answers to equal calls, and pass to related states. -/
def Host.Matches {σ τ : Type} (R : σ → τ → Prop) (host : Host σ) (other : Host τ) : Prop :=
  ∀ s t id instruction, R s t → (other.handle t id instruction).2 = (host.handle s id instruction).2 ∧
    R (host.handle s id instruction).1 (other.handle t id instruction).1

/-- The same of the calls that an engine makes, in which the instruction is never empty. -/
def Host.MatchesCalls {σ τ : Type} (R : σ → τ → Prop) (host : Host σ) (other : Host τ) : Prop :=
  ∀ s t id instruction, instruction ≠ [] → R s t →
    (other.handle t id instruction).2 = (host.handle s id instruction).2 ∧
      R (host.handle s id instruction).1 (other.handle t id instruction).1

theorem Host.Matches.calls {σ τ : Type} {R : σ → τ → Prop} {host : Host σ} {other : Host τ}
    (h : Host.Matches R host other) : Host.MatchesCalls R host other :=
  fun s t id instruction _ => h s t id instruction

/-- Without an opcode there is no command, and so no call. -/
theorem Instruction.ne_nil_of_call {instruction call : Instruction}
    (h : instruction.command = .ok (.call call)) : call ≠ [] := by
  obtain ⟨rfl, opcode, operands, rfl, -⟩ := command_eq_call_iff.mp h
  exact List.cons_ne_nil opcode operands

/-- Frames that differ in their hosts only, which are in related states. -/
structure Frame.Alike {σ τ : Type} (R : σ → τ → Prop) (frame : Frame σ) (other : Frame τ) : Prop where
  engine : other.engine = frame.engine
  report : other.report = frame.report
  host : R frame.host other.host

namespace Frame

variable {σ τ : Type} {R : σ → τ → Prop} {frame : Frame σ} {other : Frame τ}

theorem Alike.executed_eq (h : Alike R frame other) : other.executed = frame.executed :=
  congrArg Report.executed h.report

theorem Alike.finish (h : Alike R frame other) (id : Int) : Alike R (frame.finish id) (other.finish id) := by
  unfold Frame.finish
  rw [h.engine, h.report]
  split
  · exact ⟨rfl, rfl, h.host⟩
  · exact h

theorem Alike.fail (h : Alike R frame other) (id : Int) (instruction : Nat) (error : ScriptError) :
    Alike R (frame.fail id instruction error) (other.fail id instruction error) := by
  unfold Frame.fail
  rw [h.engine, h.report]
  exact ⟨rfl, rfl, h.host⟩

theorem Alike.advance (h : Alike R frame other) (id : Int) : Alike R (frame.advance id) (other.advance id) := by
  unfold Frame.advance
  rw [h.engine, h.report]
  exact ⟨rfl, rfl, h.host⟩

theorem Alike.settle (h : Alike R frame other) (now : Float) (id : Int) :
    Alike R (frame.settle now id) (other.settle now id) := by
  unfold Frame.settle
  rw [h.engine]
  split
  · split
    · exact h.finish id
    · exact h
  · exact h

section Hosts

variable {host : Host σ} {host' : Host τ} (hmatch : Host.MatchesCalls R host host')

include hmatch

theorem Alike.perform (h : Alike R frame other) (now : Float) (id : Int) {command : Command}
    (hcalls : ∀ instruction, command = .call instruction → instruction ≠ []) :
    Alike R (frame.perform host now id command).1 (other.perform host' now id command).1 ∧
      (other.perform host' now id command).2 = (frame.perform host now id command).2 := by
  cases command with
  | finish => exact ⟨h.finish id, rfl⟩
  | sleep seconds =>
      rw [Frame.perform, Frame.perform, h.engine]
      exact ⟨⟨rfl, h.report, h.host⟩, rfl⟩
  | start arguments =>
      rw [Frame.perform, Frame.perform, h.engine, h.report]
      cases frame.engine.start arguments with
      | error e => exact ⟨h, rfl⟩
      | ok next => exact ⟨⟨rfl, rfl, h.host⟩, rfl⟩
  | call instruction =>
      obtain ⟨hanswer, hstates⟩ :=
        hmatch frame.host other.host id instruction (hcalls instruction rfl) h.host
      rw [Frame.perform, Frame.perform]
      generalize host.handle frame.host id instruction = response,
        host'.handle other.host id instruction = response' at hanswer hstates ⊢
      obtain ⟨s, answer⟩ := response
      obtain ⟨t, answer'⟩ := response'
      obtain rfl : answer' = answer := hanswer
      cases answer' with
      | error reason => exact ⟨⟨h.engine, h.report, hstates⟩, rfl⟩
      | ok _ => exact ⟨⟨h.engine, h.report, hstates⟩, rfl⟩

theorem Alike.execute (h : Alike R frame other) (now : Float) (id : Int) (arguments : List Float)
    (instruction : Instruction) :
    Alike R (frame.execute host now id arguments instruction).1
        (other.execute host' now id arguments instruction).1 ∧
      (other.execute host' now id arguments instruction).2 =
        (frame.execute host now id arguments instruction).2 := by
  unfold Frame.execute
  cases hcommand : (instruction.substitute arguments).bind Instruction.command with
  | error e => exact ⟨h, rfl⟩
  | ok command =>
      obtain ⟨resolved, -, hresolved⟩ := Result.bind_eq_ok_iff.mp hcommand
      apply h.perform hmatch now id
      intro call hcall
      rw [hcall] at hresolved
      exact Instruction.ne_nil_of_call hresolved

theorem Alike.tick (h : Alike R frame other) (now : Float) (id : Int) :
    Alike R (frame.tick host now id) (other.tick host' now id) := by
  unfold Frame.tick
  rw [h.engine]
  split
  · rename_i script i _
    cases script.instructions[i.next]? with
    | none => exact h.finish id
    | some instruction =>
        obtain ⟨hafter, houtcome⟩ := (h.advance id).execute hmatch now id i.arguments instruction
        dsimp only
        generalize (frame.advance id).execute host now id i.arguments instruction = result,
          (other.advance id).execute host' now id i.arguments instruction = result' at hafter houtcome ⊢
        obtain ⟨after, outcome⟩ := result
        obtain ⟨after', outcome'⟩ := result'
        obtain rfl : outcome' = outcome := houtcome
        cases outcome' with
        | error e => exact hafter.fail id i.next e
        | ok _ => exact hafter.settle now id
  · exact h

theorem Alike.visit (h : Alike R frame other) (now : Float) (id : Int) :
    Alike R (frame.visit host now id) (other.visit host' now id) := by
  unfold Frame.visit
  rw [h.engine]
  split
  · exact h.tick hmatch now id
  · exact h

theorem Alike.pass (h : Alike R frame other) (now : Float) (ids : List Int) :
    Alike R (frame.pass host now ids) (other.pass host' now ids) := by
  induction ids generalizing frame other with
  | nil => exact h
  | cons id rest ih =>
      rw [pass_cons, pass_cons, h.executed_eq]
      split
      · exact h
      · exact ih (h.visit hmatch now id)

theorem Alike.plays (h : Alike R frame other) {now : Float} {after : Frame σ}
    (hplays : Plays host now frame after) : ∃ after', Plays host' now other after' ∧ Alike R after after' := by
  induction hplays generalizing other with
  | rest hready =>
      rw [← h.engine] at hready
      exact ⟨other, .rest hready, h⟩
  | spent hready hspent =>
      rw [← h.engine] at hready
      rw [← h.executed_eq] at hspent
      refine ⟨_, .spent hready hspent, h.engine, ?_, h.host⟩
      dsimp only
      rw [h.report]
  | @pass frame after hready hbudget _ ih =>
      have hcounted : Alike R frame.countPass other.countPass := by
        refine ⟨h.engine, ?_, h.host⟩
        rw [countPass, countPass, h.report]
      obtain ⟨after', hrest, hafter⟩ := ih (hcounted.pass hmatch now (frame.engine.readyIds now))
      rw [← h.engine] at hready hrest
      rw [← h.executed_eq] at hbudget
      exact ⟨after', .pass hready hbudget hrest, hafter⟩

/-- A step with a host that answers alike goes the same way. -/
theorem alike_step {s : σ} {t : τ} (hstates : R s t) (engine : Engine) (now : Float) :
    Alike R (engine.step host s now) (engine.step host' t now) := by
  have hbegin : Alike R (⟨{ engine with now }, s, .ofTime now⟩ : Frame σ) ⟨{ engine with now }, t, .ofTime now⟩ :=
    ⟨rfl, rfl, hstates⟩
  obtain ⟨after, hplays, halike⟩ := hbegin.plays hmatch (plays_passes host now _)
  obtain rfl := (plays_iff host' now _ after).mp hplays
  exact halike

end Hosts

end Frame

/-! ### Keeping the callers -/

/-- Hosts that answer alike also do so when they keep their callers, which are the same. -/
theorem Host.MatchesCalls.noting {σ τ : Type} {R : σ → τ → Prop} {host : Host σ} {other : Host τ}
    (h : Host.MatchesCalls R host other) :
    Host.MatchesCalls (fun s t => R s.1 t.1 ∧ t.2 = s.2) host.noting other.noting := by
  intro s t id instruction hne hstates
  obtain ⟨hanswer, hnext⟩ := h s.1 t.1 id instruction hne hstates.1
  exact ⟨hanswer, hnext, congrArg (List.cons id) hstates.2⟩

/-- In a step with a host that answers alike the same scripts call it. -/
theorem Engine.callers_eq {σ τ : Type} {R : σ → τ → Prop} {host : Host σ} {host' : Host τ}
    (hmatch : Host.MatchesCalls R host host') {s : σ} {t : τ} (hstates : R s t) (engine : Engine) (now : Float) :
    engine.callers host' t now = engine.callers host s now := by
  have hbegin : R (s, ([] : List Int)).1 (t, ([] : List Int)).1 ∧ (t, ([] : List Int)).2 = (s, ([] : List Int)).2 :=
    ⟨hstates, rfl⟩
  exact (Frame.alike_step hmatch.noting hbegin engine now).host.2

/-- A host that keeps the callers answers as it would without, and makes the same of its own state. -/
theorem Engine.alike_step_noting {σ : Type} (engine : Engine) (host : Host σ) (state : σ) (callers : List Int)
    (now : Float) :
    Frame.Alike (fun noted plain => plain = noted.1) (engine.step host.noting (state, callers) now)
      (engine.step host state now) := by
  have hmatch : Host.Matches (fun (noted : σ × List Int) plain => plain = noted.1) host.noting host := by
    rintro noted _ id instruction rfl
    exact ⟨rfl, rfl⟩
  exact Frame.alike_step hmatch.calls rfl engine now

end LevelPlay
