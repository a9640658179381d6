import LevelPlay.Proofs.Engine.Account
import LevelPlay.Proofs.Engine.Budget

/-! Scripts that are not used. A script that does not run when a step begins and is not started in it takes no part
in it: it has no turn, and the only command that would find it is one that starts it. So the step goes the same
way in an engine that does not have the script at all; to take a script away commutes with the step.

That such a script stays idle needs no induction of its own. Its account is balanced when the step begins and no
turn changes it, and a script with a balanced account that was not started does not run. -/

namespace LevelPlay

namespace Engine

/-- The engine that does not have a script. -/
def without (engine : Engine) (id : Int) : Engine :=
  { engine with slots := engine.slots.erase id }

def withoutAll (engine : Engine) (ids : List Int) : Engine :=
  ids.foldl without engine

variable {engine : Engine} {id : Int}

theorem get?_without (engine : Engine) (id other : Int) :
    (engine.without id).slots.get? other = if other = id then none else engine.slots.get? other :=
  engine.slots.get?_erase id other

theorem get?_withoutAll (engine : Engine) {ids : List Int} {other : Int} (hother : other ∉ ids) :
    (engine.withoutAll ids).slots.get? other = engine.slots.get? other := by
  induction ids generalizing engine with
  | nil => rfl
  | cons id rest ih =>
      have hrest := ih (engine.without id) (List.not_mem_of_not_mem_cons hother)
      calc ((engine.without id).withoutAll rest).slots.get? other
          = (engine.without id).slots.get? other := hrest
        _ = engine.slots.get? other := by
            rw [get?_without, if_neg (List.ne_of_not_mem_cons hother)]

/-! ### What an idle script does not show in -/

theorem instance?_eq_none (hidle : engine.isRunning id = false) : engine.instance? id = none := by
  unfold isRunning at hidle
  exact Option.isNone_iff_eq_none.mp (Option.isSome_eq_false_iff.mp hidle)

theorem instance?_without (hidle : engine.isRunning id = false) (other : Int) :
    (engine.without id).instance? other = engine.instance? other := by
  by_cases hother : other = id
  · rw [hother, instance?_eq_none hidle, instance?, get?_without, if_pos rfl]
    rfl
  · rw [instance?, get?_without, if_neg hother, instance?]

theorem isRunning_without (hidle : engine.isRunning id = false) (other : Int) :
    (engine.without id).isRunning other = engine.isRunning other := by
  rw [isRunning, instance?_without hidle, isRunning]

theorem isReady_without (hidle : engine.isRunning id = false) (other : Int) (now : Float) :
    (engine.without id).isReady other now = engine.isReady other now := by
  rw [isReady, instance?_without hidle, isReady]

theorem readyIds_without (hidle : engine.isRunning id = false) (now : Float) :
    (engine.without id).readyIds now = engine.readyIds now := by
  apply IdMap.idsWhere_erase
  have hnone := instance?_eq_none hidle
  unfold instance? at hnone
  cases hslot : engine.slots.get? id with
  | none => rfl
  | some slot =>
      rw [hslot, Option.bind_some] at hnone
      rw [Option.any_some, hnone]
      rfl

/-! ### Changes of other scripts -/

theorem setInstance_without (engine : Engine) (id other : Int) (active : Option Instance) :
    (engine.without id).setInstance other active = (engine.setInstance other active).without id := by
  unfold setInstance without
  rw [IdMap.erase_modify]

theorem mapInstance_without (engine : Engine) (id other : Int) (f : Instance → Instance) :
    (engine.without id).mapInstance other f = (engine.mapInstance other f).without id := by
  unfold mapInstance without
  rw [IdMap.erase_modify]

/-- A start of an idle script succeeds if the engine has it. So a call that does not start it has the same outcome
without it. -/
theorem start_without (hidle : engine.isRunning id = false) {arguments : List Float}
    (hother : ∀ after, engine.start arguments ≠ .ok (id, after)) :
    (engine.without id).start arguments =
      (engine.start arguments).map fun next => (next.1, next.2.without id) := by
  unfold start at hother ⊢
  cases hstart : startId arguments with
  | error e => rfl
  | ok started =>
      rw [hstart] at hother
      rw [Result.ok_bind, Result.ok_bind, get?_without]
      by_cases hid : started = id
      · subst hid
        rw [if_pos rfl]
        have hnone := instance?_eq_none hidle
        unfold instance? at hnone
        cases hslot : engine.slots.get? started with
        | none => rfl
        | some slot =>
            rw [hslot, Option.bind_some] at hnone
            simp only [Result.ok_bind, hslot, hnone] at hother
            exact absurd rfl (hother _)
      · rw [if_neg hid]
        cases engine.slots.get? started with
        | none => rfl
        | some slot =>
            dsimp only
            rw [setInstance_without]
            cases slot.active <;> rfl

end Engine

namespace Frame

variable {σ : Type} {frame : Frame σ} {id : Int}

/-- The frame in which the engine does not have a script. -/
def without (frame : Frame σ) (id : Int) : Frame σ :=
  { frame with engine := frame.engine.without id }

theorem isRunning_eq_false (haccount : frame.account id = 0) (hstarted : id ∉ frame.report.started) :
    frame.engine.isRunning id = false := by
  unfold account at haccount
  rw [Array.count_eq_zero.mpr hstarted] at haccount
  cases hrunning : frame.engine.isRunning id with
  | false => rfl
  | true =>
      rw [hrunning, Bool.toNat_true] at haccount
      omega

/-! ### What has been started stays reported -/

theorem started_finish (frame : Frame σ) (id : Int) : (frame.finish id).report.started = frame.report.started := by
  unfold finish
  split
  · rfl
  · rfl

theorem started_settle (now : Float) (frame : Frame σ) (id : Int) :
    (frame.settle now id).report.started = frame.report.started := by
  unfold settle
  split
  · split
    · exact started_finish frame id
    · rfl
  · rfl

variable (host : Host σ) (now : Float)

theorem mem_started_perform (h : id ∈ frame.report.started) (other : Int) (command : Command) :
    id ∈ (frame.perform host now other command).1.report.started := by
  cases command with
  | finish =>
      show id ∈ (frame.finish other).report.started
      rw [started_finish]
      exact h
  | sleep seconds => exact h
  | start arguments =>
      rw [perform]
      split
      · exact h
      · exact Array.mem_push_of_mem _ h
  | call instruction =>
      rw [perform]
      split
      · exact h
      · exact h

theorem mem_started_execute (h : id ∈ frame.report.started) (other : Int) (arguments : List Float)
    (instruction : Instruction) : id ∈ (frame.execute host now other arguments instruction).1.report.started := by
  unfold execute
  cases (instruction.substitute arguments).bind Instruction.command with
  | error e => exact h
  | ok command => exact mem_started_perform host now h other command

theorem mem_started_tick (h : id ∈ frame.report.started) (other : Int) :
    id ∈ (frame.tick host now other).report.started := by
  rcases tick_cases host now frame other with hfinish | ⟨script, i, instruction, after, -, -, hcases⟩
  · rw [hfinish, started_finish]
    exact h
  · have hadvanced : id ∈ (frame.advance other).report.started := h
    have hexecute := mem_started_execute host now hadvanced other i.arguments instruction
    rcases hcases with ⟨hafter, hsettle⟩ | ⟨error, hafter, hfail⟩
    · rw [hafter] at hexecute
      rw [hsettle, started_settle]
      exact hexecute
    · rw [hafter] at hexecute
      rw [hfail]
      exact hexecute

theorem mem_started_visit (h : id ∈ frame.report.started) (other : Int) :
    id ∈ (frame.visit host now other).report.started := by
  unfold visit
  split
  · exact mem_started_tick host now h other
  · exact h

theorem mem_started_pass (h : id ∈ frame.report.started) (ids : List Int) :
    id ∈ (frame.pass host now ids).report.started := by
  induction ids generalizing frame with
  | nil => exact h
  | cons first rest ih =>
      rw [pass_cons]
      split
      · exact h
      · exact ih (mem_started_visit host now h first)

/-! ### Steps without the script -/

theorem finish_without (hidle : frame.engine.isRunning id = false) (other : Int) :
    (frame.without id).finish other = (frame.finish other).without id := by
  unfold finish
  rw [show (frame.without id).engine.isRunning other = frame.engine.isRunning other from
    Engine.isRunning_without hidle other]
  split
  · simp only [without, Engine.stop, Engine.setInstance_without]
  · rfl

theorem fail_without (frame : Frame σ) (id other : Int) (instruction : Nat) (error : ScriptError) :
    (frame.without id).fail other instruction error = (frame.fail other instruction error).without id := by
  simp only [fail, without, Engine.stop, Engine.setInstance_without]

theorem advance_without (frame : Frame σ) (id other : Int) :
    (frame.without id).advance other = (frame.advance other).without id := by
  simp only [advance, without, Engine.mapInstance_without]

theorem settle_without (hidle : frame.engine.isRunning id = false) {other : Int} (hother : other ≠ id) :
    (frame.without id).settle now other = (frame.settle now other).without id := by
  unfold settle
  rw [show (frame.without id).engine.slots.get? other = frame.engine.slots.get? other by
    rw [without, Engine.get?_without, if_neg hother]]
  split
  · split
    · exact finish_without hidle other
    · rfl
  · rfl

theorem perform_without (hidle : frame.engine.isRunning id = false) {other : Int} {command : Command}
    (hstarted : id ∉ (frame.perform host now other command).1.report.started) :
    (frame.without id).perform host now other command =
      ((frame.perform host now other command).1.without id, (frame.perform host now other command).2) := by
  cases command with
  | finish =>
      rw [perform, perform, finish_without hidle]
  | sleep seconds =>
      simp only [perform, without, Engine.mapInstance_without]
  | start arguments =>
      rw [perform] at hstarted
      have hother : ∀ after, frame.engine.start arguments ≠ .ok (id, after) := by
        intro after hstart
        rw [hstart] at hstarted
        exact hstarted Array.mem_push_self
      rw [perform, perform, show (frame.without id).engine.start arguments = _ from
        Engine.start_without hidle hother]
      cases frame.engine.start arguments with
      | error e => rfl
      | ok next => rfl
  | call instruction =>
      obtain ⟨engine, state, report⟩ := frame
      simp only [perform, without]
      cases host.handle state other instruction with
      | mk state answer => cases answer <;> rfl

theorem execute_without (hidle : frame.engine.isRunning id = false) {other : Int} {arguments : List Float}
    {instruction : Instruction}
    (hstarted : id ∉ (frame.execute host now other arguments instruction).1.report.started) :
    (frame.without id).execute host now other arguments instruction =
      ((frame.execute host now other arguments instruction).1.without id,
        (frame.execute host now other arguments instruction).2) := by
  unfold execute at hstarted ⊢
  cases hcommand : (instruction.substitute arguments).bind Instruction.command with
  | error e => rfl
  | ok command =>
      rw [hcommand] at hstarted
      exact perform_without host now hidle hstarted

theorem tick_of_idle (hidle : frame.engine.isRunning id = false) : frame.tick host now id = frame := by
  rcases tick_cases host now frame id with hfinish | ⟨script, i, -, -, hslot, -, -⟩
  · rw [hfinish, finish, hidle, if_neg Bool.false_ne_true]
  · rw [Engine.isRunning, Engine.instance?_eq_some_iff.mpr ⟨script, hslot⟩] at hidle
    cases hidle

theorem tick_without (haccount : frame.account id = 0) {other : Int}
    (hstarted : id ∉ (frame.tick host now other).report.started) :
    (frame.without id).tick host now other = (frame.tick host now other).without id := by
  have hidle : frame.engine.isRunning id = false :=
    isRunning_eq_false haccount fun h => hstarted (mem_started_tick host now h other)
  by_cases hother : other = id
  · subst hother
    have hidle' : (frame.without other).engine.isRunning other = false :=
      (Engine.isRunning_without hidle other).trans hidle
    rw [tick_of_idle host now hidle', tick_of_idle host now hidle]
  have hsame : (frame.without id).engine.slots.get? other = frame.engine.slots.get? other := by
    rw [without, Engine.get?_without, if_neg hother]
  cases hinstance : frame.engine.instance? other with
  | none =>
      have hstopped : frame.engine.isRunning other = false := by
        rw [Engine.isRunning, hinstance, Option.isSome_none]
      have hstopped' : (frame.without id).engine.isRunning other = false :=
        (Engine.isRunning_without hidle other).trans hstopped
      rw [tick_of_idle host now hstopped', tick_of_idle host now hstopped]
  | some i =>
      obtain ⟨script, hslot⟩ := Engine.instance?_eq_some_iff.mp hinstance
      cases hinstruction : script.instructions[i.next]? with
      | none =>
          rw [tick_of_end (hsame.trans hslot) hinstruction, tick_of_end hslot hinstruction]
          exact finish_without hidle other
      | some instruction =>
          have hadvanced : (frame.advance other).engine.isRunning id = false := by
            rw [advance, Engine.isRunning_mapInstance, hidle]
          cases hresult : (frame.advance other).execute host now other i.arguments instruction with
          | mk after outcome =>
              have hwithout : id ∉ after.report.started →
                  ((frame.without id).advance other).execute host now other i.arguments instruction =
                    (after.without id, outcome) := by
                intro hafter
                rw [advance_without, execute_without host now hadvanced (by rw [hresult]; exact hafter), hresult]
              cases outcome with
              | error e =>
                  rw [tick_of_error hslot hinstruction hresult] at hstarted ⊢
                  rw [tick_of_error (hsame.trans hslot) hinstruction (hwithout hstarted)]
                  exact fail_without after id other i.next e
              | ok _ =>
                  rw [tick_of_ok hslot hinstruction hresult, started_settle] at hstarted
                  rw [tick_of_ok hslot hinstruction hresult,
                    tick_of_ok (hsame.trans hslot) hinstruction (hwithout hstarted)]
                  have hafter : after.account id = 0 := by
                    have haccount' := account_execute host now (frame.advance other) other i.arguments instruction
                    rw [hresult, account_advance] at haccount'
                    rw [haccount', haccount]
                  exact settle_without now (isRunning_eq_false hafter hstarted) hother

theorem visit_without (haccount : frame.account id = 0) {other : Int}
    (hstarted : id ∉ (frame.visit host now other).report.started) :
    (frame.without id).visit host now other = (frame.visit host now other).without id := by
  have hidle : frame.engine.isRunning id = false :=
    isRunning_eq_false haccount fun h => hstarted (mem_started_visit host now h other)
  unfold visit at hstarted ⊢
  rw [show (frame.without id).engine.isReady other now = frame.engine.isReady other now from
    Engine.isReady_without hidle other now]
  split
  · rename_i hready
    rw [if_pos hready] at hstarted
    exact tick_without host now haccount hstarted
  · rfl

theorem account_visit (frame : Frame σ) (id : Int) : (frame.visit host now id).account = frame.account := by
  unfold visit
  split
  · exact account_tick host now frame id
  · rfl

theorem pass_without (haccount : frame.account id = 0) (ids : List Int)
    (hstarted : id ∉ (frame.pass host now ids).report.started) :
    (frame.without id).pass host now ids = (frame.pass host now ids).without id := by
  induction ids generalizing frame with
  | nil => rfl
  | cons first rest ih =>
      rw [pass_cons] at hstarted
      rw [pass_cons, pass_cons, show (frame.without id).executed = frame.executed from rfl]
      split
      · rfl
      · rename_i hbudget
        rw [if_neg hbudget] at hstarted
        have hvisit : id ∉ (frame.visit host now first).report.started :=
          fun h => hstarted (mem_started_pass host now h rest)
        rw [visit_without host now haccount hvisit]
        apply ih _ hstarted
        rw [account_visit, haccount]

variable {host now}

theorem Plays.mem_started {after : Frame σ} (h : Plays host now frame after) (hmem : id ∈ frame.report.started) :
    id ∈ after.report.started := by
  apply h.induction (P := fun frame => id ∈ frame.report.started) _ _ hmem
  · exact fun _ _ h => h
  · exact fun {_ other} _ h => mem_started_tick host now h other

theorem Plays.without {after : Frame σ} (h : Plays host now frame after) (haccount : frame.account id = 0)
    (hstarted : id ∉ after.report.started) : Plays host now (frame.without id) (after.without id) := by
  have hidle : frame.engine.isRunning id = false :=
    isRunning_eq_false haccount fun hmem => hstarted (h.mem_started hmem)
  have hids : (frame.without id).engine.readyIds now = frame.engine.readyIds now :=
    Engine.readyIds_without hidle now
  induction h with
  | rest hready => exact .rest (hids.trans hready)
  | spent hready hspent => exact .spent (hids ▸ hready) hspent
  | @pass frame after hready hbudget hrest ih =>
      have hpass : id ∉ (frame.countPass.pass host now (frame.engine.readyIds now)).report.started :=
        fun hmem => hstarted (hrest.mem_started hmem)
      have hcounted : frame.countPass.account id = 0 := haccount
      have haccount' : (frame.countPass.pass host now (frame.engine.readyIds now)).account id = 0 := by
        rw [account_pass, hcounted]
      have hidle' := isRunning_eq_false haccount' hpass
      have hnext := ih haccount' hstarted hidle' (Engine.readyIds_without hidle' now)
      have hwithout : (frame.countPass.without id).pass host now (frame.engine.readyIds now) =
          (frame.countPass.pass host now (frame.engine.readyIds now)).without id :=
        pass_without host now hcounted _ hpass
      rw [← hwithout, ← hids] at hnext
      exact .pass (hids ▸ hready) hbudget hnext

end Frame

namespace Engine

variable {σ : Type} (engine : Engine) (host : Host σ) (state : σ) (now : Float)

/-- To take away an idle script that is not started in a step commutes with the step. -/
theorem step_without {id : Int} (hidle : engine.isRunning id = false)
    (hstarted : id ∉ (engine.step host state now).report.started) :
    (engine.without id).step host state now = (engine.step host state now).without id := by
  have haccount : (⟨{ engine with now }, state, .ofTime now⟩ : Frame σ).account id = 0 := by
    have hrunning : ({ engine with now } : Engine).isRunning id = false := hidle
    simp [Frame.account, Report.ofTime, hrunning]
  have hplays := (Frame.plays_passes host now _).without haccount hstarted
  exact ((Frame.plays_iff host now _ _).mp hplays).symm

theorem step_withoutAll {ids : List Int} (hidle : ∀ id ∈ ids, engine.isRunning id = false)
    (hstarted : ∀ id ∈ ids, id ∉ (engine.step host state now).report.started) :
    (engine.withoutAll ids).step host state now =
      { engine.step host state now with engine := (engine.step host state now).engine.withoutAll ids } := by
  induction ids generalizing engine with
  | nil => rfl
  | cons id rest ih =>
      obtain ⟨hid, hrest⟩ := List.forall_mem_cons.mp hidle
      obtain ⟨hidStarted, hrestStarted⟩ := List.forall_mem_cons.mp hstarted
      have hfirst := engine.step_without host state now hid hidStarted
      -- The others are as idle in the engine without the first, and its step starts no more of them.
      have hlast := ih (engine.without id)
        (fun other hother => (isRunning_without hid other).trans (hrest other hother))
        (fun other hother => by rw [hfirst]; exact hrestStarted other hother)
      rw [hfirst] at hlast
      exact hlast

/-- Scripts that are idle when a step begins and are not started in it do not interfere with it. Without any of
them the step gives the same report and the same state of the host, and all other scripts come to the same: the
engine afterwards is the one that it would have been, without these scripts. -/
theorem unused_scripts_do_not_interfere {ids : List Int} (hidle : ∀ id ∈ ids, engine.isRunning id = false)
    (hstarted : ∀ id ∈ ids, id ∉ (engine.step host state now).report.started) :
    ((engine.withoutAll ids).step host state now).report = (engine.step host state now).report ∧
      ((engine.withoutAll ids).step host state now).host = (engine.step host state now).host ∧
      ((engine.withoutAll ids).step host state now).engine = (engine.step host state now).engine.withoutAll ids ∧
      ∀ other, other ∉ ids → ((engine.withoutAll ids).step host state now).engine.slots.get? other =
        (engine.step host state now).engine.slots.get? other := by
  rw [engine.step_withoutAll host state now hidle hstarted]
  refine ⟨rfl, rfl, rfl, ?_⟩
  intro other hother
  exact get?_withoutAll _ hother

/-- A script that starts another and rings, that other, and a third that nobody uses. -/
def troupe : Engine :=
  ⟨⟨[(1, ⟨⟨1, [["ScriptRun", "2"], ["Ring"]]⟩, some ⟨0, [1.0], 0.0⟩⟩), (2, ⟨⟨2, [["Ring"]]⟩, none⟩),
    (3, ⟨⟨3, [["ScriptRun", "1"]]⟩, none⟩)], by simp⟩, 0.0⟩

/-- The third script may as well not be there, nor may one that is not. -/
theorem troupe_without_third :
    ((∀ id ∈ [3, 4], troupe.isRunning id = false) ∧
        ∀ id ∈ [3, 4], id ∉ (troupe.step Recorder.host (.rejecting []) 0.0).report.started) ∧
      ((troupe.withoutAll [3, 4]).step Recorder.host (.rejecting []) 0.0).report =
        (troupe.step Recorder.host (.rejecting []) 0.0).report := by
  have hidle : ∀ id ∈ [3, 4], troupe.isRunning id = false := by decide
  have hstarted : (troupe.step Recorder.host (.rejecting []) 0.0).report.started = #[2] := by decide +kernel
  have hunused : ∀ id ∈ [3, 4], id ∉ (troupe.step Recorder.host (.rejecting []) 0.0).report.started := by
    rw [hstarted]
    simp
  exact ⟨⟨hidle, hunused⟩, (unused_scripts_do_not_interfere troupe Recorder.host (.rejecting []) 0.0 hidle hunused).1⟩

end Engine

end LevelPlay
