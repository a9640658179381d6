import LevelPlay.Proofs.Engine.Turn

/-! The passes of a step and their budget. A turn executes one instruction or ends a script. So in a pass that
executes nothing scripts have only been ended, and all of those that were ready: nothing is left for another
pass. Every other pass takes from the budget, so the passes end, and what the report tells of them is true. -/

namespace LevelPlay

namespace Engine

theorem readyIds_ne_nil_iff {engine : Engine} {now : Float} :
    engine.readyIds now ≠ [] ↔ ∃ id i, engine.instance? id = some i ∧ i.wakeAt ≤ now := by
  constructor
  · intro h
    obtain ⟨id, hid⟩ := List.exists_mem_of_ne_nil _ h
    obtain ⟨i, hi, hready⟩ := isReady_eq_true_iff.mp (mem_readyIds_iff.mp hid)
    exact ⟨id, i, hi, of_decide_eq_true hready⟩
  · rintro ⟨id, i, hi, hready⟩
    exact List.ne_nil_of_mem (mem_readyIds_iff.mpr (isReady_eq_true_iff.mpr ⟨i, hi, decide_eq_true hready⟩))

end Engine

namespace Frame

variable {σ : Type} (host : Host σ) (now : Float)

/-- The passes of a step. They end when no script is ready, or when the budget is spent while one is;
otherwise there is another pass over the scripts that are ready then, whatever the last pass did. -/
inductive Plays : Frame σ → Frame σ → Prop where
  | rest {frame : Frame σ} (hready : frame.engine.readyIds now = []) : Plays frame frame
  | spent {frame : Frame σ} (hready : frame.engine.readyIds now ≠ [])
      (hspent : instructionBudget ≤ frame.executed) :
      Plays frame { frame with report := { frame.report with budgetExhausted := true } }
  | pass {frame after : Frame σ} (hready : frame.engine.readyIds now ≠ [])
      (hbudget : frame.executed < instructionBudget)
      (hrest : Plays (frame.countPass.pass host now (frame.engine.readyIds now)) after) : Plays frame after

/-! ### A pass -/

theorem executed_pass_le (ids : List Int) {frame : Frame σ} (h : frame.executed ≤ instructionBudget) :
    (frame.pass host now ids).executed ≤ instructionBudget := by
  induction ids generalizing frame with
  | nil => exact h
  | cons id rest ih =>
      rw [pass_cons]
      split
      · exact h
      · obtain ⟨count, hle, hturn⟩ := turn_visit host now frame id
        have hexecuted := hturn.executed
        exact ih (by omega)

theorem isReady_finish {frame : Frame σ} {id other : Int}
    (h : (frame.finish id).engine.isReady other now = true) :
    other ≠ id ∧ frame.engine.isReady other now = true := by
  unfold finish at h
  split at h
  · unfold Engine.isReady at h
    rw [Engine.instance?_stop] at h
    split at h
    · cases h
    · rename_i hne
      exact ⟨hne, h⟩
  · rename_i hstopped
    refine ⟨?_, h⟩
    rintro rfl
    obtain ⟨i, hi, -⟩ := Engine.isReady_eq_true_iff.mp h
    rw [Engine.isRunning, hi] at hstopped
    exact hstopped rfl

/-- A turn in which nothing is executed makes no script ready, and leaves its own script not ready. -/
theorem isReady_visit_of_idle {frame : Frame σ} {id other : Int}
    (hidle : (frame.visit host now id).executed = frame.executed)
    (h : (frame.visit host now id).engine.isReady other now = true) :
    other ≠ id ∧ frame.engine.isReady other now = true := by
  unfold visit at hidle h
  split at h
  · rename_i hready
    rw [if_pos hready] at hidle
    obtain ⟨count, -, hturn, hfinish⟩ := turn_tick host now frame id
    have hcount : count = 0 := by have := hturn.executed; omega
    rw [hfinish hcount] at h
    exact isReady_finish now h
  · rename_i hready
    refine ⟨?_, h⟩
    rintro rfl
    exact hready h

/-- After a pass in which nothing is executed, no script is ready that was passed over. -/
theorem isReady_pass_of_idle (ids : List Int) {frame : Frame σ} (hbudget : frame.executed < instructionBudget)
    (hidle : (frame.pass host now ids).executed = frame.executed) {id : Int}
    (hready : (frame.pass host now ids).engine.isReady id now = true) :
    id ∉ ids ∧ frame.engine.isReady id now = true := by
  induction ids generalizing frame with
  | nil => exact ⟨List.not_mem_nil, hready⟩
  | cons first rest ih =>
      rw [pass_cons, if_neg (Nat.not_le.mpr hbudget)] at hidle hready
      obtain ⟨count, -, hturn⟩ := turn_visit host now frame first
      obtain ⟨more, hmore⟩ := later_pass host now rest (frame.visit host now first)
      have hcount := hturn.executed
      have hcount' := hmore.executed
      have hvisit : (frame.visit host now first).executed = frame.executed := by omega
      obtain ⟨hrest, hafter⟩ := ih (by omega) (by omega) hready
      obtain ⟨hne, hbefore⟩ := isReady_visit_of_idle host now hvisit hafter
      exact ⟨List.not_mem_cons_of_ne_of_not_mem hne hrest, hbefore⟩

/-- A pass over all ready scripts that executes nothing leaves none of them ready. -/
theorem readyIds_pass_of_idle {frame : Frame σ} (hbudget : frame.executed < instructionBudget)
    (hidle : (frame.countPass.pass host now (frame.engine.readyIds now)).executed = frame.executed) :
    (frame.countPass.pass host now (frame.engine.readyIds now)).engine.readyIds now = [] := by
  rw [List.eq_nil_iff_forall_not_mem]
  intro id hid
  rw [Engine.mem_readyIds_iff] at hid
  have hcounted : frame.countPass.executed < instructionBudget := hbudget
  obtain ⟨hpassed, hbefore⟩ := isReady_pass_of_idle host now _ hcounted hidle hid
  exact hpassed (Engine.mem_readyIds_iff.mpr hbefore)

/-! ### All passes -/

theorem passes_of_rest {frame : Frame σ} (hready : frame.engine.readyIds now = []) :
    frame.passes host now = frame := by
  rw [passes, hready]
  rfl

theorem passes_of_spent {frame : Frame σ} (hready : frame.engine.readyIds now ≠ [])
    (hspent : instructionBudget ≤ frame.executed) :
    frame.passes host now = { frame with report := { frame.report with budgetExhausted := true } } := by
  rw [passes, if_neg (by simpa using hready), if_pos hspent]

/-- As long as a script is ready and the budget is not spent there is another pass. That the passes stop at
one that executed nothing makes no difference, for then no script is ready. -/
theorem passes_of_ready {frame : Frame σ} (hready : frame.engine.readyIds now ≠ [])
    (hbudget : frame.executed < instructionBudget) :
    frame.passes host now = (frame.countPass.pass host now (frame.engine.readyIds now)).passes host now := by
  rw [passes.eq_def host now frame, if_neg (by simpa using hready), if_neg (Nat.not_le.mpr hbudget)]
  dsimp only
  split
  · rfl
  · rename_i hprogress
    obtain ⟨count, hlater⟩ := later_pass host now (frame.engine.readyIds now) frame.countPass
    have hexecuted := hlater.executed
    change _ = frame.executed + count at hexecuted
    exact (passes_of_rest host now (readyIds_pass_of_idle host now hbudget (by omega))).symm

theorem plays_passes (frame : Frame σ) : Plays host now frame (frame.passes host now) := by
  induction frame using passes.induct host now with
  | case1 frame ready hempty =>
      have hready : frame.engine.readyIds now = [] := List.isEmpty_iff.mp hempty
      rw [passes_of_rest host now hready]
      exact .rest hready
  | case2 frame ready executed hready hspent =>
      have hready : frame.engine.readyIds now ≠ [] := by simpa [ready] using hready
      rw [passes_of_spent host now hready hspent]
      exact .spent hready hspent
  | case3 frame ready executed hready hbudget next hprogress ih =>
      have hready : frame.engine.readyIds now ≠ [] := by simpa [ready] using hready
      have hbudget : frame.executed < instructionBudget := Nat.not_le.mp hbudget
      rw [passes_of_ready host now hready hbudget]
      exact .pass hready hbudget ih
  | case4 frame ready executed hready hbudget next hidle =>
      have hready : frame.engine.readyIds now ≠ [] := by simpa [ready] using hready
      have hbudget : frame.executed < instructionBudget := Nat.not_le.mp hbudget
      obtain ⟨count, hlater⟩ := later_pass host now ready frame.countPass
      have hexecuted : next.executed = frame.executed + count := hlater.executed
      have hrest := readyIds_pass_of_idle host now hbudget (by change next.executed = _; omega)
      rw [passes_of_ready host now hready hbudget, passes_of_rest host now hrest]
      exact .pass hready hbudget (.rest hrest)

/-- The passes of a step come to an end, and to one end only. -/
theorem plays_iff (frame after : Frame σ) : Plays host now frame after ↔ after = frame.passes host now := by
  constructor
  · intro h
    induction h with
    | rest hready => exact (passes_of_rest host now hready).symm
    | spent hready hspent => exact (passes_of_spent host now hready hspent).symm
    | pass hready hbudget _ ih => rw [passes_of_ready host now hready hbudget, ih]
  · rintro rfl
    exact plays_passes host now frame

section Kept

variable {host now}

/-- What the turns of ready scripts keep, and how passes are counted has no part in, is kept by all passes. -/
theorem Plays.induction {P : Frame σ → Prop}
    (hcount : ∀ {frame : Frame σ} (passes : Nat) (budgetExhausted : Bool), P frame →
      P { frame with report := { frame.report with passes, budgetExhausted } })
    (htick : ∀ {frame : Frame σ} {id : Int}, frame.engine.isReady id now = true → P frame →
      P (frame.tick host now id))
    {frame after : Frame σ} (h : Plays host now frame after) (hframe : P frame) : P after := by
  have hpass : ∀ (ids : List Int) {frame : Frame σ}, P frame → P (frame.pass host now ids) := by
    intro ids
    induction ids with
    | nil => exact fun hframe => hframe
    | cons id rest ih =>
        intro frame hframe
        rw [pass_cons]
        split
        · exact hframe
        · apply ih
          unfold visit
          split
          · rename_i hready
            exact htick hready hframe
          · exact hframe
  induction h with
  | rest => exact hframe
  | @spent frame => exact hcount frame.report.passes true hframe
  | @pass frame _ _ _ _ ih =>
      apply ih
      apply hpass
      exact hcount (frame.report.passes + 1) frame.report.budgetExhausted hframe

end Kept

/-! ### What the report tells -/

section Report

variable {host now}

theorem Plays.now_eq {frame after : Frame σ} (h : Plays host now frame after) :
    after.engine.now = frame.engine.now := by
  induction h with
  | rest => rfl
  | spent => rfl
  | @pass frame after _ _ _ ih =>
      obtain ⟨count, hlater⟩ := later_pass host now (frame.engine.readyIds now) frame.countPass
      exact ih.trans hlater.now

/-- Each pass but the last executes an instruction, and none begins when the budget is spent. -/
theorem Plays.bounds {frame after : Frame σ} (h : Plays host now frame after)
    (hexecuted : frame.executed ≤ instructionBudget) (hpasses : frame.report.passes ≤ frame.executed) :
    after.executed ≤ instructionBudget ∧ after.report.passes ≤ after.executed + 1 ∧
      after.report.passes ≤ instructionBudget := by
  induction h with
  | rest => omega
  | @spent frame =>
      change frame.executed ≤ instructionBudget ∧ frame.report.passes ≤ frame.executed + 1 ∧
        frame.report.passes ≤ instructionBudget
      omega
  | @pass frame after _ hbudget hrest ih =>
      obtain ⟨count, hlater⟩ := later_pass host now (frame.engine.readyIds now) frame.countPass
      have hnext : _ = frame.executed + count := hlater.executed
      have hnextPasses : _ = frame.report.passes + 1 := hlater.passes
      have hcounted : frame.countPass.executed ≤ instructionBudget := hexecuted
      have hle := executed_pass_le host now (frame.engine.readyIds now) hcounted
      by_cases hidle : count = 0
      · -- A pass that executes nothing is the last, so it alone is not paid for.
        rw [hidle, Nat.add_zero] at hnext
        have hlast := (plays_iff host now _ after).mp hrest
        rw [passes_of_rest host now (readyIds_pass_of_idle host now hbudget hnext)] at hlast
        rw [hlast]
        omega
      · exact ih hle (by omega)

/-- The budget is reported to be exhausted just if a script is left that is ready. -/
theorem Plays.exhausted_iff {frame after : Frame σ} (h : Plays host now frame after)
    (hbefore : frame.report.budgetExhausted = false) :
    (after.report.budgetExhausted = true ↔ after.engine.readyIds now ≠ []) ∧
      (after.report.budgetExhausted = true → instructionBudget ≤ after.executed) := by
  induction h with
  | rest hready => simp [hbefore, hready]
  | spent hready hspent => exact ⟨⟨fun _ => hready, fun _ => rfl⟩, fun _ => hspent⟩
  | @pass frame after _ _ _ ih =>
      obtain ⟨count, hlater⟩ := later_pass host now (frame.engine.readyIds now) frame.countPass
      exact ih (hlater.budgetExhausted.trans hbefore)

end Report

/-- What the report of a step tells of its passes is so: they stay within the budget, it is exhausted just
if some script is left that may go on, and if none is then one more step at the same time, with any host,
does nothing. -/
structure Truthful (now : Float) (frame : Frame σ) : Prop where
  executed_le : frame.report.executed ≤ 2048
  passes_le_executed : frame.report.passes ≤ frame.report.executed + 1
  passes_le : frame.report.passes ≤ 2048
  exhausted_iff : frame.report.budgetExhausted = true ↔
    ∃ id i, frame.engine.instance? id = some i ∧ i.wakeAt ≤ now
  spent : frame.report.budgetExhausted = true → frame.report.executed = 2048
  rests : frame.report.budgetExhausted = false → frame.engine.readyIds now = []
  again : frame.report.budgetExhausted = false → ∀ {τ : Type} (host : Host τ) (state : τ),
    frame.engine.step host state now = ⟨frame.engine, state, .ofTime now⟩

end Frame

/-- The passes of every step come to an end, which is the step's result, and its report is truthful. -/
theorem Engine.step_truthful {σ : Type} (engine : Engine) (host : Host σ) (state : σ) (now : Float) :
    (∀ after, Frame.Plays host now ⟨{ engine with now }, state, .ofTime now⟩ after ↔
        after = engine.step host state now) ∧
      (engine.step host state now).Truthful now := by
  have hplays : Frame.Plays host now ⟨{ engine with now }, state, .ofTime now⟩ (engine.step host state now) :=
    Frame.plays_passes host now _
  obtain ⟨hexecuted, hpasses, hpasses'⟩ := hplays.bounds (Nat.zero_le _) (Nat.le_refl 0)
  obtain ⟨hiff, hspent⟩ := hplays.exhausted_iff rfl
  have hrests : (engine.step host state now).report.budgetExhausted = false →
      (engine.step host state now).engine.readyIds now = [] := by
    refine fun hfalse => not_not.mp fun hready => ?_
    cases hfalse.symm.trans (hiff.mpr hready)
  refine ⟨Frame.plays_iff host now _, hexecuted, hpasses, hpasses', ?_, ?_, hrests, ?_⟩
  · rw [hiff, Engine.readyIds_ne_nil_iff]
  · intro h
    exact Nat.le_antisymm hexecuted (hspent h)
  · intro hfalse τ host' state'
    have hsame : ∀ {after : Engine}, after.now = now → { after with now } = after := by
      rintro ⟨slots, now⟩ rfl
      rfl
    rw [Engine.step.eq_def (engine.step host state now).engine, hsame hplays.now_eq]
    exact Frame.passes_of_rest host' now (hrests hfalse)

/-- A script without instructions takes a pass, in which it ends, and executes nothing. -/
example :
    let silent : Engine := ⟨⟨[(1, ⟨⟨1, []⟩, some ⟨0, [], 0.0⟩⟩)], by simp⟩, 0.0⟩
    let report := (silent.step Host.ignore () 0.0).report
    (report.executed, report.passes, report.finished) = (0, 1, #[1]) := by
  decide +kernel

end LevelPlay
