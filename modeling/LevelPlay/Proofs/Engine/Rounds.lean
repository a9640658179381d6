import LevelPlay.Proofs.Engine.Budget

/-! Who has a turn in a step. A pass walks the scripts that were ready when it began, and asks of each again whether
it is ready before its turn. No turn can make another script that runs unready, so this is always so; the walk
ends early only when the budget is spent. The passes are told by the frames at which they begin, the turns of a
pass by the ids of the scripts that have them. -/

namespace LevelPlay

namespace Frame

variable {σ : Type} (host : Host σ) (now : Float)

/-- The scripts that have a turn in a pass over these, in order. -/
def turns (frame : Frame σ) : List Int → List Int
  | [] => []
  | id :: rest =>
    if instructionBudget ≤ frame.executed then []
    else if frame.engine.isReady id now then id :: turns (frame.tick host now id) rest
    else turns frame rest

/-- The frame after these scripts have had their turns one after the other. -/
def serve (frame : Frame σ) (ids : List Int) : Frame σ :=
  ids.foldl (tick host now) frame

/-- The scripts that have a turn in the pass that begins at this frame. -/
def served (frame : Frame σ) : List Int :=
  frame.countPass.turns host now (frame.engine.readyIds now)

/-! ### The turns of a pass -/

theorem turns_cons (frame : Frame σ) (id : Int) (rest : List Int) :
    frame.turns host now (id :: rest) =
      if instructionBudget ≤ frame.executed then []
      else if frame.engine.isReady id now then id :: (frame.tick host now id).turns host now rest
      else frame.turns host now rest := rfl

/-- A pass consists of its turns. -/
theorem pass_eq_serve (ids : List Int) (frame : Frame σ) :
    frame.pass host now ids = frame.serve host now (frame.turns host now ids) := by
  induction ids generalizing frame with
  | nil => rfl
  | cons id rest ih =>
      rw [pass_cons, turns_cons, visit]
      by_cases hspent : instructionBudget ≤ frame.executed
      · rw [if_pos hspent, if_pos hspent]
        rfl
      rw [if_neg hspent, if_neg hspent]
      by_cases hready : frame.engine.isReady id now = true
      · rw [if_pos hready, if_pos hready]
        exact ih (frame.tick host now id)
      · rw [if_neg hready, if_neg hready]
        exact ih frame

/-- At each turn the budget is not spent, and the script is ready. -/
theorem isReady_of_turns {ids : List Int} {frame : Frame σ} {before after : List Int} {id : Int}
    (h : frame.turns host now ids = before ++ id :: after) :
    (frame.serve host now before).executed < instructionBudget ∧
      (frame.serve host now before).engine.isReady id now = true := by
  induction ids generalizing frame before with
  | nil =>
      rw [turns] at h
      simp at h
  | cons first rest ih =>
      rw [turns_cons] at h
      split at h
      · simp at h
      rename_i hbudget
      split at h
      · rename_i hready
        cases before with
        | nil =>
            obtain ⟨rfl, -⟩ := List.cons.inj h
            exact ⟨Nat.not_le.mp hbudget, hready⟩
        | cons second before =>
            obtain ⟨rfl, hrest⟩ := List.cons.inj h
            show ((frame.tick host now first).serve host now before).executed < instructionBudget ∧
              ((frame.tick host now first).serve host now before).engine.isReady id now = true
            exact ih hrest
      · exact ih h

theorem isReady_tick_other {frame : Frame σ} {id other : Int} (hne : other ≠ id)
    (h : frame.engine.isReady other now = true) : (frame.tick host now id).engine.isReady other now = true := by
  obtain ⟨i, hi, hready⟩ := Engine.isReady_eq_true_iff.mp h
  obtain ⟨count, -, hturn, -⟩ := turn_tick host now frame id
  exact Engine.isReady_eq_true_iff.mpr ⟨i, hturn.others hne hi, hready⟩

/-- If all scripts are ready when a pass over them begins, each has its turn, unless the budget is spent
before. -/
theorem turns_of_ready {ids : List Int} (hids : ids.Nodup) {frame : Frame σ}
    (hready : ∀ id ∈ ids, frame.engine.isReady id now = true) :
    frame.turns host now ids <+: ids ∧
      (frame.turns host now ids = ids ∨ instructionBudget ≤ (frame.pass host now ids).executed) := by
  induction ids generalizing frame with
  | nil => exact ⟨List.nil_prefix, .inl rfl⟩
  | cons id rest ih =>
      obtain ⟨hfirst, hrest⟩ := List.forall_mem_cons.mp hready
      obtain ⟨hnot, hnodup⟩ := List.nodup_cons.mp hids
      rw [turns_cons, pass_cons]
      by_cases hspent : instructionBudget ≤ frame.executed
      · rw [if_pos hspent, if_pos hspent]
        exact ⟨List.nil_prefix, .inr hspent⟩
      rw [if_neg hspent, if_neg hspent, visit, if_pos hfirst, if_pos hfirst]
      have hnext : ∀ other ∈ rest, (frame.tick host now id).engine.isReady other now = true := by
        intro other hother
        apply isReady_tick_other host now _ (hrest other hother)
        rintro rfl
        exact hnot hother
      obtain ⟨hinitial, hall⟩ := ih hnodup hnext
      constructor
      · exact (List.prefix_cons_inj id).mpr hinitial
      · exact hall.imp_left fun hturns => by rw [hturns]

theorem executed_serve_le (ids : List Int) (frame : Frame σ) :
    (frame.serve host now ids).executed ≤ frame.executed + ids.length := by
  induction ids generalizing frame with
  | nil => exact Nat.le_refl _
  | cons id rest ih =>
      obtain ⟨count, hle, hturn, -⟩ := turn_tick host now frame id
      have hfirst := hturn.executed
      calc ((frame.tick host now id).serve host now rest).executed
          ≤ (frame.tick host now id).executed + rest.length := ih _
        _ ≤ frame.executed + (rest.length + 1) := by omega

/-- What the pass that begins at a frame does. Its turns are an initial part of the scripts that are ready at the
frame, in ascending order of ids: each of them is still ready when its turn comes, and only the budget can cut
them off. Nothing else happens in the pass. -/
structure ServesSnapshot (frame : Frame σ) : Prop where
  ascending : (frame.engine.readyIds now).Pairwise (· < ·)
  initial : frame.served host now <+: frame.engine.readyIds now
  cut : frame.served host now = frame.engine.readyIds now ∨
    (frame.countPass.pass host now (frame.engine.readyIds now)).executed = instructionBudget
  ready : ∀ before id after, frame.served host now = before ++ id :: after →
    (frame.countPass.serve host now before).engine.isReady id now = true
  pass_eq : frame.countPass.pass host now (frame.engine.readyIds now) =
    frame.countPass.serve host now (frame.served host now)

theorem servesSnapshot {frame : Frame σ} (hbudget : frame.executed ≤ instructionBudget) :
    frame.ServesSnapshot host now := by
  have hascending := frame.engine.readyIds_ascending now
  have hready : ∀ id ∈ frame.engine.readyIds now, frame.countPass.engine.isReady id now = true :=
    fun id hid => Engine.mem_readyIds_iff.mp hid
  have hnodup : (frame.engine.readyIds now).Nodup := hascending.imp Int.ne_of_lt
  obtain ⟨hinitial, hcut⟩ := turns_of_ready host now hnodup hready
  have hcounted : frame.countPass.executed ≤ instructionBudget := hbudget
  have hle := executed_pass_le host now (frame.engine.readyIds now) hcounted
  refine ⟨hascending, hinitial, hcut.imp_right (Nat.le_antisymm hle), ?_, ?_⟩
  · intro before id after hserved
    exact (isReady_of_turns host now hserved).2
  · exact pass_eq_serve host now (frame.engine.readyIds now) frame.countPass

/-- If no more scripts are ready than the budget has left, all have a turn. -/
theorem served_eq_readyIds {frame : Frame σ}
    (hlength : frame.executed + (frame.engine.readyIds now).length ≤ instructionBudget) :
    frame.served host now = frame.engine.readyIds now := by
  have hserves := servesSnapshot host now (Nat.le_of_add_right_le hlength)
  rcases hserves.cut with hall | hspent
  · exact hall
  · -- The budget is spent with the last turn at the earliest.
    apply hserves.initial.eq_of_length_le
    have hexecuted := executed_serve_le host now (frame.served host now) frame.countPass
    rw [← hserves.pass_eq, hspent] at hexecuted
    change instructionBudget ≤ frame.executed + _ at hexecuted
    omega

/-! ### The passes of a step -/

/-- The frames at which passes begin, from a frame of the step on. -/
def rounds (frame : Frame σ) : List (Frame σ) :=
  let next := frame.countPass.pass host now (frame.engine.readyIds now)
  if frame.engine.readyIds now = [] ∨ instructionBudget ≤ frame.executed then []
  else if frame.executed < next.executed then frame :: rounds next
  else [frame]
termination_by instructionBudget - frame.executed
decreasing_by simp only [next] at *; omega

theorem rounds_of_rest {frame : Frame σ} (hready : frame.engine.readyIds now = []) :
    frame.rounds host now = [] := by
  rw [rounds, if_pos (.inl hready)]

theorem rounds_of_spent {frame : Frame σ} (hspent : instructionBudget ≤ frame.executed) :
    frame.rounds host now = [] := by
  rw [rounds, if_pos (.inr hspent)]

theorem rounds_of_ready {frame : Frame σ} (hready : frame.engine.readyIds now ≠ [])
    (hbudget : frame.executed < instructionBudget) :
    frame.rounds host now =
      frame :: (frame.countPass.pass host now (frame.engine.readyIds now)).rounds host now := by
  rw [rounds.eq_def host now frame, if_neg (not_or.mpr ⟨hready, Nat.not_le.mpr hbudget⟩)]
  split
  · rfl
  · rename_i hprogress
    obtain ⟨count, hlater⟩ := later_pass host now (frame.engine.readyIds now) frame.countPass
    have hexecuted := hlater.executed
    change _ = frame.executed + count at hexecuted
    rw [rounds_of_rest host now (readyIds_pass_of_idle host now hbudget (by omega))]

section Plays

variable {host now} {frame after : Frame σ} (h : Plays host now frame after)

include h

theorem Plays.servesSnapshot : ∀ round ∈ frame.rounds host now, round.ServesSnapshot host now := by
  induction h with
  | rest hready =>
      rw [rounds_of_rest host now hready]
      exact fun _ hround => absurd hround List.not_mem_nil
  | spent _ hspent =>
      rw [rounds_of_spent host now hspent]
      exact fun _ hround => absurd hround List.not_mem_nil
  | pass hready hbudget _ ih =>
      rw [rounds_of_ready host now hready hbudget]
      exact List.forall_mem_cons.mpr ⟨Frame.servesSnapshot host now (Nat.le_of_lt hbudget), ih⟩

theorem Plays.length_rounds : frame.report.passes + (frame.rounds host now).length = after.report.passes := by
  induction h with
  | rest hready => rw [rounds_of_rest host now hready, List.length_nil, Nat.add_zero]
  | spent _ hspent => rw [rounds_of_spent host now hspent, List.length_nil, Nat.add_zero]
  | @pass frame after hready hbudget _ ih =>
      obtain ⟨count, hlater⟩ := later_pass host now (frame.engine.readyIds now) frame.countPass
      have hpasses : _ = frame.report.passes + 1 := hlater.passes
      rw [rounds_of_ready host now hready hbudget, List.length_cons]
      omega

/-- The turns of the passes, one after the other, make up the step, but for the note that the budget is spent. -/
theorem Plays.serve_rounds :
    (frame.rounds host now).foldl (fun frame round => frame.countPass.serve host now (round.served host now)) frame =
      { after with report := { after.report with budgetExhausted := frame.report.budgetExhausted } } := by
  induction h with
  | rest hready =>
      rw [rounds_of_rest host now hready]
      rfl
  | spent _ hspent =>
      rw [rounds_of_spent host now hspent]
      rfl
  | @pass frame after hready hbudget _ ih =>
      obtain ⟨count, hlater⟩ := later_pass host now (frame.engine.readyIds now) frame.countPass
      rw [rounds_of_ready host now hready hbudget, List.foldl_cons,
        ← (Frame.servesSnapshot host now (Nat.le_of_lt hbudget)).pass_eq, ih, hlater.budgetExhausted]
      rfl

end Plays

end Frame

namespace Engine

variable {σ : Type} (engine : Engine) (host : Host σ) (state : σ) (now : Float)

/-- The frames at which the passes of a step begin. -/
def rounds : List (Frame σ) :=
  Frame.rounds host now ⟨{ engine with now }, state, .ofTime now⟩

/-- The scripts that have a turn in a step, in order. -/
def turns : List Int :=
  (engine.rounds host state now).flatMap (Frame.served host now)

/-- If no more scripts are ready than a step may execute instructions, each of them has a turn in its first pass. -/
theorem mem_turns_of_ready {id : Int} (hready : id ∈ engine.readyIds now)
    (hlength : (engine.readyIds now).length ≤ instructionBudget) : id ∈ engine.turns host state now := by
  let first : Frame σ := ⟨{ engine with now }, state, .ofTime now⟩
  have hserved : first.served host now = engine.readyIds now :=
    Frame.served_eq_readyIds host now (Nat.le_trans (Nat.le_of_eq (Nat.zero_add _)) hlength)
  have hrounds : first.rounds host now =
      first :: (first.countPass.pass host now (engine.readyIds now)).rounds host now :=
    Frame.rounds_of_ready host now (List.ne_nil_of_mem hready) (Nat.zero_lt_succ 2047)
  rw [turns, rounds, hrounds, List.flatMap_cons, hserved]
  exact List.mem_append_left _ hready

/-- A script that was started is ready at any time from the last step on. -/
theorem mem_readyIds_of_start {before engine : Engine} {arguments : List Float} {id : Int}
    (hstart : before.start arguments = .ok (id, engine)) {now : Float} (hnow : before.now ≤ now) :
    id ∈ engine.readyIds now := by
  obtain ⟨-, -, hinstances⟩ := instance?_start hstart
  have hinstance := hinstances id
  rw [if_pos rfl] at hinstance
  exact mem_readyIds_iff.mpr (isReady_eq_true_iff.mpr ⟨_, hinstance, decide_eq_true hnow⟩)

/-- Every pass of a step serves the scripts that are ready when it begins, and these only: in ascending order of ids,
each once and while it is still ready, until all have been served or the budget is spent. These turns make up the
step. So if at most 2048 scripts are ready for a step, all of them have a turn in it, and one that was just started
is among them if the step does not go back in time. -/
theorem passes_serve_snapshots :
    (∀ round ∈ engine.rounds host state now, round.ServesSnapshot host now) ∧
      (engine.rounds host state now).length = (engine.step host state now).report.passes ∧
      (engine.rounds host state now).foldl
          (fun frame round => frame.countPass.serve host now (round.served host now))
          ⟨{ engine with now }, state, .ofTime now⟩ =
        { engine.step host state now with
          report := { (engine.step host state now).report with budgetExhausted := false } } ∧
      ((engine.readyIds now).length ≤ 2048 →
        (∀ id ∈ engine.readyIds now, id ∈ engine.turns host state now) ∧
          ∀ (before : Engine) (arguments : List Float) (id : Int),
            before.start arguments = .ok (id, engine) → before.now ≤ now → id ∈ engine.turns host state now) := by
  have hplays : Frame.Plays host now ⟨{ engine with now }, state, .ofTime now⟩ (engine.step host state now) :=
    Frame.plays_passes host now _
  have hlength := hplays.length_rounds
  change 0 + _ = _ at hlength
  refine ⟨hplays.servesSnapshot, (Nat.zero_add _).symm.trans hlength, hplays.serve_rounds, ?_⟩
  intro hfew
  constructor
  · intro id hid
    exact engine.mem_turns_of_ready host state now hid hfew
  · intro before arguments id hstart hnow
    exact engine.mem_turns_of_ready host state now (mem_readyIds_of_start hstart hnow) hfew

/-- A house in which the first script runs and waits to start the second. -/
def house : Engine :=
  ⟨⟨[(1, ⟨⟨1, [["Ring"], ["ScriptRun", "2"]]⟩, some ⟨1, [1.0], 0.0⟩⟩), (2, ⟨⟨2, [["Ring"], ["end"]]⟩, none⟩)],
    by simp⟩, 0.0⟩

/-- The second script, started from outside, has its turn in the next step. -/
theorem house_second_has_turn :
    ∃ started, house.start [2.0] = .ok (2, started) ∧
      (started.readyIds 0.5).length ≤ 2048 ∧ house.now ≤ (0.5 : Float) ∧
        2 ∈ started.turns Recorder.host (.rejecting []) 0.5 := by
  have hstart : house.start [2.0] = .ok (2, house.setInstance 2 (some ⟨0, [2.0], 0.0⟩)) := by
    have hid : Decimal.idOfFloat? 2.0 = some 2 := by decide +kernel
    have hread : startId [2.0] = .ok 2 := by
      rw [startId, hid]
    rw [start, hread]
    rfl
  have hfew : ((house.setInstance 2 (some ⟨0, [2.0], 0.0⟩)).readyIds 0.5).length ≤ 2048 := by decide +kernel
  have hnow : house.now ≤ (0.5 : Float) := by decide +kernel
  refine ⟨_, hstart, hfew, hnow, ?_⟩
  exact ((passes_serve_snapshots _ Recorder.host (.rejecting []) 0.5).2.2.2 hfew).2 house [2.0] 2 hstart hnow

end Engine

end LevelPlay
