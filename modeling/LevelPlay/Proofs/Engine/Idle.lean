import LevelPlay.Proofs.Engine.Budget

/-! Idle steps. A turn executes an instruction or ends its script, and what has been reported of either stays
reported. So a step is reported to be idle just if no script was ready for it, which is to say that it makes no pass,
and then it changes nothing but the time. -/

namespace LevelPlay

namespace Frame

variable {σ : Type} {frame : Frame σ}

/-- Something has been executed or has ended in this step. -/
def Busy (frame : Frame σ) : Prop :=
  0 < frame.executed ∨ ∃ id, frame.Ended id

theorem Later.busy {count : Nat} {before after : Frame σ} (h : Later count before after) (hbusy : before.Busy) :
    after.Busy := by
  rcases hbusy with hexecuted | ⟨id, hended⟩
  · have := h.executed
    exact .inl (by omega)
  · exact .inr ⟨id, h.ended hended⟩

theorem isIdle_eq_false_of_busy (h : frame.Busy) : frame.report.isIdle = false := by
  rcases h with hexecuted | ⟨id, hfinished | ⟨fault, hfault, -⟩⟩
  · have hne : frame.report.executed ≠ 0 := Nat.ne_of_gt hexecuted
    simp [Report.isIdle, hne]
  · have hne : frame.report.finished ≠ #[] := Array.ne_empty_of_mem hfinished
    simp [Report.isIdle, hne]
  · have hne : frame.report.faults ≠ #[] := Array.ne_empty_of_mem hfault
    simp [Report.isIdle, hne]

variable (host : Host σ) (now : Float)

theorem busy_tick {id : Int} (hready : frame.engine.isReady id now = true) : (frame.tick host now id).Busy := by
  obtain ⟨count, -, hturn, hfinish⟩ := turn_tick host now frame id
  by_cases hcount : count = 0
  · obtain ⟨i, hi, -⟩ := Engine.isReady_eq_true_iff.mp hready
    have hat : frame.At id i.next := .inr ⟨i, hi, rfl⟩
    rw [hfinish hcount]
    exact .inr ⟨id, hat.finish⟩
  · have := hturn.executed
    exact .inl (by omega)

/-- The first script that is ready has its turn, whatever becomes of the others. -/
theorem busy_pass_readyIds (hready : frame.engine.readyIds now ≠ []) (hbudget : frame.executed < instructionBudget) :
    (frame.countPass.pass host now (frame.engine.readyIds now)).Busy := by
  obtain ⟨first, rest, hids⟩ := List.exists_cons_of_ne_nil hready
  have hfirst : frame.countPass.engine.isReady first now = true := by
    apply Engine.mem_readyIds_iff.mp
    show first ∈ frame.engine.readyIds now
    rw [hids]
    exact List.mem_cons_self
  have hcounted : ¬instructionBudget ≤ frame.countPass.executed := Nat.not_le.mpr hbudget
  rw [hids, pass_cons, if_neg hcounted, visit, if_pos hfirst]
  obtain ⟨count, hrest⟩ := later_pass host now rest (frame.countPass.tick host now first)
  exact hrest.busy (busy_tick host now hfirst)

theorem busy_passes (hready : frame.engine.readyIds now ≠ []) (hbudget : frame.executed < instructionBudget) :
    (frame.passes host now).Busy := by
  rw [passes_of_ready host now hready hbudget]
  apply Plays.induction (P := Busy) _ _ (plays_passes host now _)
  · exact busy_pass_readyIds host now hready hbudget
  · exact fun _ _ h => h
  · intro frame id _ h
    obtain ⟨count, -, hturn, -⟩ := turn_tick host now frame id
    exact hturn.toLater.busy h

variable {host now} in
theorem Plays.passes_le {after : Frame σ} (h : Plays host now frame after) :
    frame.report.passes ≤ after.report.passes := by
  induction h with
  | rest => exact Nat.le_refl _
  | spent => exact Nat.le_refl _
  | @pass frame after _ _ _ ih =>
      obtain ⟨count, hlater⟩ := later_pass host now (frame.engine.readyIds now) frame.countPass
      have hpasses : _ = frame.report.passes + 1 := hlater.passes
      omega

theorem passes_passes_pos (hready : frame.engine.readyIds now ≠ []) (hbudget : frame.executed < instructionBudget) :
    0 < (frame.passes host now).report.passes := by
  obtain ⟨count, hlater⟩ := later_pass host now (frame.engine.readyIds now) frame.countPass
  have hfirst : _ = frame.report.passes + 1 := hlater.passes
  rw [passes_of_ready host now hready hbudget]
  have hrest := (plays_passes host now (frame.countPass.pass host now (frame.engine.readyIds now))).passes_le
  omega

end Frame

namespace Engine

variable {σ : Type} (engine : Engine) (host : Host σ) (state : σ) (now : Float)

variable {engine now} in
theorem step_of_rest (hready : engine.readyIds now = []) :
    engine.step host state now = ⟨{ engine with now }, state, .ofTime now⟩ :=
  Frame.passes_of_rest host now hready

/-- A step is idle just if no script is ready when it begins. -/
theorem isIdle_step_iff : (engine.step host state now).report.isIdle = true ↔ engine.readyIds now = [] := by
  constructor
  · intro hidle
    by_cases hready : engine.readyIds now = []
    · exact hready
    · have hbusy : (engine.step host state now).Busy :=
        Frame.busy_passes host now hready (Nat.zero_lt_succ 2047)
      rw [Frame.isIdle_eq_false_of_busy hbusy] at hidle
      cases hidle
  · intro hready
    rw [step_of_rest host state hready]
    rfl

theorem passes_step_eq_zero_iff :
    (engine.step host state now).report.passes = 0 ↔ engine.readyIds now = [] := by
  constructor
  · intro hnone
    by_cases hready : engine.readyIds now = []
    · exact hready
    · have hpasses : 0 < (engine.step host state now).report.passes :=
        Frame.passes_passes_pos host now hready (Nat.zero_lt_succ 2047)
      omega
  · intro hready
    rw [step_of_rest host state hready]
    rfl

variable {engine now} in
theorem readyIds_eq_nil_iff :
    engine.readyIds now = [] ↔ ∀ id i, engine.instance? id = some i → ¬i.wakeAt ≤ now := by
  rw [← not_iff_not, ← ne_eq, readyIds_ne_nil_iff]
  simp only [not_forall, not_not, exists_prop]

/-- That a step is idle means that nothing happened in it. It is idle just if it makes no pass, which is so just if no
script that runs may go on; and just if it reports nothing but the time, leaves the host as it was, and changes
nothing of the engine but the time. So although whether a step is idle is told from what it executed and what ended in
it, no script has been started either and the budget is not exhausted. -/
theorem idle_step_does_nothing :
    ((engine.step host state now).report.isIdle = true ↔ (engine.step host state now).report.passes = 0) ∧
      ((engine.step host state now).report.isIdle = true ↔
        ∀ id i, engine.instance? id = some i → ¬i.wakeAt ≤ now) ∧
      ((engine.step host state now).report.isIdle = true ↔
        engine.step host state now = ⟨{ engine with now }, state, .ofTime now⟩) := by
  refine ⟨?_, ?_, fun hidle => ?_, fun hstep => ?_⟩
  · rw [isIdle_step_iff, passes_step_eq_zero_iff]
  · rw [isIdle_step_iff, readyIds_eq_nil_iff]
  · exact step_of_rest host state ((isIdle_step_iff engine host state now).mp hidle)
  · rw [hstep]
    rfl

end Engine

end LevelPlay
