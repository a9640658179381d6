import LevelPlay.Engine.Step
import LevelPlay.Proofs.Engine.Command

/-! What a turn may do. A script that has its turn may end itself, put itself to sleep, start a script that
does not run, or call the host; the instances of all other scripts stay as they are, and what has been
reported stays reported. What the script itself has come to is followed by `At`: unless it ends, each turn
takes it to its next instruction. -/

namespace LevelPlay

namespace Engine

/-! ### Instances after a change -/

theorem instance?_eq_some_iff {engine : Engine} {id : Int} {i : Instance} :
    engine.instance? id = some i ↔ ∃ script, engine.slots.get? id = some ⟨script, some i⟩ := by
  unfold instance?
  cases engine.slots.get? id with
  | none => simp
  | some slot =>
      obtain ⟨script, active⟩ := slot
      simp

theorem instance?_stop (engine : Engine) (id other : Int) :
    (engine.stop id).instance? other = if other = id then none else engine.instance? other := by
  unfold instance? stop setInstance
  rw [IdMap.get?_modify]
  by_cases h : other = id
  · rw [if_pos h, if_pos h]
    cases engine.slots.get? other <;> rfl
  · rw [if_neg h, if_neg h]

theorem instance?_mapInstance (engine : Engine) (id other : Int) (f : Instance → Instance) :
    (engine.mapInstance id f).instance? other =
      if other = id then (engine.instance? other).map f else engine.instance? other := by
  unfold instance? mapInstance
  rw [IdMap.get?_modify]
  by_cases h : other = id
  · rw [if_pos h, if_pos h]
    cases engine.slots.get? other <;> rfl
  · rw [if_neg h, if_neg h]

/-- A script that is started did not run, and then runs from its beginning; all other instances stay. -/
theorem instance?_start {engine after : Engine} {arguments : List Float} {id : Int}
    (h : engine.start arguments = .ok (id, after)) :
    after.now = engine.now ∧ engine.instance? id = none ∧
      ∀ other, after.instance? other =
        if other = id then some ⟨0, arguments, engine.now⟩ else engine.instance? other := by
  obtain ⟨-, ⟨script, hslot⟩, rfl⟩ := start_eq_ok_iff.mp h
  refine ⟨rfl, by simp [instance?, hslot], fun other => ?_⟩
  rw [instance?, instance?, get?_setInstance]
  by_cases hother : other = id
  · rw [if_pos hother, if_pos hother, hother, hslot]
    rfl
  · rw [if_neg hother, if_neg hother]

theorem isReady_eq_true_iff {engine : Engine} {id : Int} {now : Float} :
    engine.isReady id now = true ↔ ∃ i, engine.instance? id = some i ∧ Instance.isReady i now = true := by
  unfold isReady
  cases engine.instance? id <;> simp

/-- The ready scripts are listed in ascending order. -/
theorem mem_readyIds_iff {engine : Engine} {id : Int} {now : Float} :
    id ∈ engine.readyIds now ↔ engine.isReady id now = true := by
  rw [readyIds, IdMap.mem_idsWhere_iff, isReady, instance?]
  cases engine.slots.get? id <;> rfl

theorem readyIds_ascending (engine : Engine) (now : Float) : (engine.readyIds now).Pairwise (· < ·) := by
  rw [readyIds, IdMap.idsWhere, List.pairwise_map]
  exact engine.slots.ascending.filter _

end Engine

namespace Frame

variable {σ : Type}

/-! ### Other scripts -/

/-- A script has ended in this step. -/
def Ended (frame : Frame σ) (id : Int) : Prop :=
  id ∈ frame.report.finished ∨ ∃ fault ∈ frame.report.faults, fault.script = id

/-- A later frame of the same step, after `count` more instructions. What has been reported stays reported. -/
structure Later (count : Nat) (before after : Frame σ) : Prop where
  now : after.engine.now = before.engine.now
  ended : ∀ {id}, before.Ended id → after.Ended id
  executed : after.executed = before.executed + count
  passes : after.report.passes = before.report.passes
  budgetExhausted : after.report.budgetExhausted = before.report.budgetExhausted

/-- A later frame, after a part of the turn of one script: the other scripts that run do so as they did. -/
structure Turn (id : Int) (count : Nat) (before after : Frame σ) : Prop extends Later count before after where
  others : ∀ {other i}, other ≠ id → before.engine.instance? other = some i →
    after.engine.instance? other = some i

theorem Later.refl (frame : Frame σ) : Later 0 frame frame :=
  ⟨rfl, fun h => h, rfl, rfl, rfl⟩

theorem Later.trans {count count' : Nat} {first second third : Frame σ} (h : Later count first second)
    (h' : Later count' second third) : Later (count + count') first third where
  now := h'.now.trans h.now
  ended hended := h'.ended (h.ended hended)
  executed := by rw [h'.executed, h.executed, Nat.add_assoc]
  passes := h'.passes.trans h.passes
  budgetExhausted := h'.budgetExhausted.trans h.budgetExhausted

theorem Turn.refl (id : Int) (frame : Frame σ) : Turn id 0 frame frame :=
  ⟨.refl frame, fun _ h => h⟩

theorem Turn.trans {id : Int} {count count' : Nat} {first second third : Frame σ}
    (h : Turn id count first second) (h' : Turn id count' second third) :
    Turn id (count + count') first third :=
  ⟨h.toLater.trans h'.toLater, fun hne hi => h'.others hne (h.others hne hi)⟩

theorem turn_finish (frame : Frame σ) (id : Int) : Turn id 0 frame (frame.finish id) := by
  unfold finish
  split
  · refine ⟨⟨rfl, fun hended => ?_, rfl, rfl, rfl⟩, fun hne hi => ?_⟩
    · exact hended.imp_left (Array.mem_push_of_mem _)
    · rw [Engine.instance?_stop, if_neg hne]
      exact hi
  · exact .refl id frame

theorem turn_fail (frame : Frame σ) (id : Int) (instruction : Nat) (error : ScriptError) :
    Turn id 0 frame (frame.fail id instruction error) := by
  refine ⟨⟨rfl, fun hended => ?_, rfl, rfl, rfl⟩, fun hne hi => ?_⟩
  · exact hended.imp_right fun ⟨fault, hfault, hid⟩ => ⟨fault, Array.mem_push_of_mem _ hfault, hid⟩
  · rw [fail, Engine.instance?_stop, if_neg hne]
    exact hi

theorem turn_advance (frame : Frame σ) (id : Int) : Turn id 1 frame (frame.advance id) := by
  refine ⟨⟨rfl, fun hended => hended, rfl, rfl, rfl⟩, fun hne hi => ?_⟩
  rw [advance, Engine.instance?_mapInstance, if_neg hne]
  exact hi

theorem turn_perform (host : Host σ) (now : Float) (frame : Frame σ) (id : Int) (command : Command) :
    Turn id 0 frame (frame.perform host now id command).1 := by
  cases command with
  | finish => exact turn_finish frame id
  | sleep seconds =>
      refine ⟨⟨rfl, fun hended => hended, rfl, rfl, rfl⟩, fun hne hi => ?_⟩
      rw [perform, Engine.instance?_mapInstance, if_neg hne]
      exact hi
  | start arguments =>
      rw [perform]
      cases hstart : frame.engine.start arguments with
      | error e => exact .refl id frame
      | ok next =>
          obtain ⟨started, after⟩ := next
          obtain ⟨hnow, hstopped, hinstances⟩ := Engine.instance?_start hstart
          refine ⟨⟨hnow, fun hended => hended, rfl, rfl, rfl⟩, fun {other i} _ hi => ?_⟩
          have hother : other ≠ started := by
            rintro rfl
            cases hstopped.symm.trans hi
          dsimp only
          rw [hinstances, if_neg hother]
          exact hi
  | call instruction =>
      rw [perform]
      split
      · exact ⟨⟨rfl, fun hended => hended, rfl, rfl, rfl⟩, fun _ hi => hi⟩
      · exact ⟨⟨rfl, fun hended => hended, rfl, rfl, rfl⟩, fun _ hi => hi⟩

theorem turn_execute {host : Host σ} {now : Float} {frame after : Frame σ} {id : Int} {arguments : List Float}
    {instruction : Instruction} {outcome : Except ScriptError Unit}
    (h : frame.execute host now id arguments instruction = (after, outcome)) : Turn id 0 frame after := by
  unfold execute at h
  cases hcommand : (instruction.substitute arguments).bind Instruction.command with
  | error e =>
      rw [hcommand] at h
      cases h
      exact .refl id frame
  | ok command =>
      rw [hcommand] at h
      have hturn := turn_perform host now frame id command
      dsimp only at h
      rwa [h] at hturn

theorem turn_settle (now : Float) (frame : Frame σ) (id : Int) : Turn id 0 frame (frame.settle now id) := by
  unfold settle
  split
  · split
    · exact turn_finish frame id
    · exact .refl id frame
  · exact .refl id frame

section Turns

variable {host : Host σ} {now : Float} {frame after : Frame σ} {id : Int} {script : Script} {i : Instance}
  {instruction : Instruction} {error : ScriptError}
  (hslot : frame.engine.slots.get? id = some ⟨script, some i⟩)

include hslot

theorem tick_of_end (hend : script.instructions[i.next]? = none) : frame.tick host now id = frame.finish id := by
  rw [tick, hslot]
  dsimp only
  rw [hend]

theorem tick_of_ok (hinstruction : script.instructions[i.next]? = some instruction)
    (hexecute : (frame.advance id).execute host now id i.arguments instruction = (after, .ok ())) :
    frame.tick host now id = after.settle now id := by
  rw [tick, hslot]
  dsimp only
  rw [hinstruction]
  dsimp only
  rw [hexecute]

theorem tick_of_error (hinstruction : script.instructions[i.next]? = some instruction)
    (hexecute : (frame.advance id).execute host now id i.arguments instruction = (after, .error error)) :
    frame.tick host now id = after.fail id i.next error := by
  rw [tick, hslot]
  dsimp only
  rw [hinstruction]
  dsimp only
  rw [hexecute]

end Turns

/-- A turn ends a script that has no instruction left. Otherwise it executes the next one; then the script
ends if this was the last, or if it failed. -/
theorem tick_cases (host : Host σ) (now : Float) (frame : Frame σ) (id : Int) :
    frame.tick host now id = frame.finish id ∨
      ∃ script i instruction after, frame.engine.slots.get? id = some ⟨script, some i⟩ ∧
        script.instructions[i.next]? = some instruction ∧
        ((frame.advance id).execute host now id i.arguments instruction = (after, .ok ()) ∧
            frame.tick host now id = after.settle now id ∨
          ∃ error, (frame.advance id).execute host now id i.arguments instruction = (after, .error error) ∧
            frame.tick host now id = after.fail id i.next error) := by
  unfold tick
  split
  · rename_i script i hslot
    cases hinstruction : script.instructions[i.next]? with
    | none => exact .inl rfl
    | some instruction =>
        dsimp only
        cases hresult : (frame.advance id).execute host now id i.arguments instruction with
        | mk after outcome =>
            refine .inr ⟨script, i, instruction, after, hslot, hinstruction, ?_⟩
            cases outcome with
            | ok _ => exact .inl ⟨hresult, rfl⟩
            | error e => exact .inr ⟨e, hresult, rfl⟩
  · rename_i hslot
    have hstopped : frame.engine.isRunning id = false := by
      unfold Engine.isRunning
      cases hinstance : frame.engine.instance? id with
      | none => rfl
      | some i =>
          obtain ⟨script, hscript⟩ := Engine.instance?_eq_some_iff.mp hinstance
          exact absurd hscript (hslot script i)
    rw [finish, hstopped, if_neg Bool.false_ne_true]
    exact .inl rfl

/-- A turn executes one instruction, or it ends a script without executing any. -/
theorem turn_tick (host : Host σ) (now : Float) (frame : Frame σ) (id : Int) :
    ∃ count ≤ 1, Turn id count frame (frame.tick host now id) ∧
      (count = 0 → frame.tick host now id = frame.finish id) := by
  rcases tick_cases host now frame id with
    hfinish | ⟨script, i, instruction, after, -, -, ⟨hexecute, hsettle⟩ | ⟨error, hexecute, hfail⟩⟩
  · rw [hfinish]
    exact ⟨0, Nat.zero_le 1, turn_finish frame id, fun _ => rfl⟩
  · rw [hsettle]
    have hafter : Turn id 1 frame after := (turn_advance frame id).trans (turn_execute hexecute)
    exact ⟨1, Nat.le_refl 1, hafter.trans (turn_settle now after id), fun h => nomatch h⟩
  · rw [hfail]
    have hafter : Turn id 1 frame after := (turn_advance frame id).trans (turn_execute hexecute)
    exact ⟨1, Nat.le_refl 1, hafter.trans (turn_fail after id i.next error), fun h => nomatch h⟩

/-! ### Turns in a pass -/

/-- What a pass does for a script whose turn has come: a script that is no longer ready is passed over. -/
def visit (host : Host σ) (now : Float) (frame : Frame σ) (id : Int) : Frame σ :=
  if frame.engine.isReady id now then frame.tick host now id else frame

theorem pass_cons (host : Host σ) (now : Float) (frame : Frame σ) (id : Int) (rest : List Int) :
    frame.pass host now (id :: rest) =
      if instructionBudget ≤ frame.executed then frame
      else (frame.visit host now id).pass host now rest := rfl

theorem turn_visit (host : Host σ) (now : Float) (frame : Frame σ) (id : Int) :
    ∃ count ≤ 1, Turn id count frame (frame.visit host now id) := by
  unfold visit
  split
  · obtain ⟨count, hle, hturn, -⟩ := turn_tick host now frame id
    exact ⟨count, hle, hturn⟩
  · exact ⟨0, Nat.zero_le 1, .refl id frame⟩

/-- A turn in which a script calls the host and is answered, if the call is not its last instruction. -/
theorem visit_of_call {host : Host σ} {now : Float} {frame : Frame σ} {id : Int} {script : Script}
    {i : Instance} (hslot : frame.engine.slots.get? id = some ⟨script, some i⟩) (hready : i.wakeAt ≤ now)
    {instruction call : Instruction} (hinstruction : script.instructions[i.next]? = some instruction)
    (hcommand : (instruction.substitute i.arguments).bind Instruction.command = .ok (.call call)) {state : σ}
    (hanswer : host.handle frame.host id call = (state, .ok ()))
    (hmore : i.next + 1 < script.instructions.length) :
    frame.visit host now id = { frame.advance id with host := state } := by
  have hinstance : frame.engine.instance? id = some i := Engine.instance?_eq_some_iff.mpr ⟨script, hslot⟩
  have hexecute : (frame.advance id).execute host now id i.arguments instruction =
      ({ frame.advance id with host := state }, .ok ()) := by
    have hanswer' : host.handle (frame.advance id).host id call = (state, .ok ()) := hanswer
    rw [execute, hcommand]
    dsimp only
    rw [perform]
    simp only [hanswer']
  have hnext : ({ frame.advance id with host := state } : Frame σ).engine.slots.get? id =
      some ⟨script, some { i with next := i.next + 1 }⟩ := by
    change (frame.engine.slots.modify id _).get? id = _
    rw [IdMap.get?_modify, if_pos rfl, hslot]
    rfl
  rw [visit, Engine.isReady_eq_true_iff.mpr ⟨i, hinstance, decide_eq_true hready⟩, if_pos rfl,
    tick_of_ok hslot hinstruction hexecute, settle, hnext]
  dsimp only
  rw [if_neg fun h => Nat.not_le.mpr hmore h.1]

theorem later_pass (host : Host σ) (now : Float) (ids : List Int) (frame : Frame σ) :
    ∃ count, Later count frame (frame.pass host now ids) := by
  induction ids generalizing frame with
  | nil => exact ⟨0, .refl frame⟩
  | cons id rest ih =>
      rw [pass_cons]
      split
      · exact ⟨0, .refl frame⟩
      · obtain ⟨count, -, hturn⟩ := turn_visit host now frame id
        obtain ⟨more, hrest⟩ := ih (frame.visit host now id)
        exact ⟨count + more, hturn.toLater.trans hrest⟩

/-! ### The script itself -/

/-- A script has ended in this step, or runs and its next instruction is the one of this number. -/
def At (frame : Frame σ) (id : Int) (number : Nat) : Prop :=
  frame.Ended id ∨ ∃ i, frame.engine.instance? id = some i ∧ i.next = number

theorem Turn.at_other {id other : Int} {count : Nat} {before after : Frame σ}
    (h : Turn id count before after) (hne : other ≠ id) {number : Nat} (hat : before.At other number) :
    after.At other number :=
  hat.imp h.ended fun ⟨i, hi, hnext⟩ => ⟨i, h.others hne hi, hnext⟩

theorem At.finish {frame : Frame σ} {id : Int} {number : Nat} (h : frame.At id number) :
    (frame.finish id).Ended id := by
  rcases h with hended | ⟨i, hi, -⟩
  · exact (turn_finish frame id).ended hended
  · have hrunning : frame.engine.isRunning id = true := by
      rw [Engine.isRunning, hi]
      rfl
    rw [Frame.finish, hrunning, if_pos rfl]
    exact .inl Array.mem_push_self

theorem ended_fail (frame : Frame σ) (id : Int) (number : Nat) (error : ScriptError) :
    (frame.fail id number error).Ended id :=
  .inr ⟨_, Array.mem_push_self, rfl⟩

theorem At.advance {frame : Frame σ} {id : Int} {number : Nat} (h : frame.At id number) :
    (frame.advance id).At id (number + 1) := by
  refine h.imp (turn_advance frame id).ended ?_
  rintro ⟨i, hi, rfl⟩
  refine ⟨{ i with next := i.next + 1 }, ?_, rfl⟩
  rw [Frame.advance, Engine.instance?_mapInstance, if_pos rfl, hi]
  rfl

theorem At.perform {frame : Frame σ} {id : Int} {number : Nat} (h : frame.At id number) (host : Host σ)
    (now : Float) (command : Command) : (frame.perform host now id command).1.At id number := by
  rcases h with hended | ⟨i, hi, hnext⟩
  · exact .inl ((turn_perform host now frame id command).ended hended)
  · cases command with
    | finish => exact .inl (At.finish (.inr ⟨i, hi, hnext⟩))
    | sleep seconds =>
        refine .inr ⟨{ i with wakeAt := now + seconds }, ?_, hnext⟩
        rw [Frame.perform, Engine.instance?_mapInstance, if_pos rfl, hi]
        rfl
    | start arguments =>
        rw [Frame.perform]
        cases hstart : frame.engine.start arguments with
        | error e => exact .inr ⟨i, hi, hnext⟩
        | ok next =>
            obtain ⟨started, after⟩ := next
            obtain ⟨-, hstopped, hinstances⟩ := Engine.instance?_start hstart
            have hid : id ≠ started := by
              rintro rfl
              cases hstopped.symm.trans hi
            refine .inr ⟨i, ?_, hnext⟩
            dsimp only
            rw [hinstances, if_neg hid]
            exact hi
    | call instruction =>
        rw [Frame.perform]
        split
        · exact .inr ⟨i, hi, hnext⟩
        · exact .inr ⟨i, hi, hnext⟩

theorem At.execute {host : Host σ} {now : Float} {frame after : Frame σ} {id : Int} {number : Nat}
    (hat : frame.At id number) {arguments : List Float} {instruction : Instruction}
    {outcome : Except ScriptError Unit}
    (h : frame.execute host now id arguments instruction = (after, outcome)) : after.At id number := by
  unfold Frame.execute at h
  cases hcommand : (instruction.substitute arguments).bind Instruction.command with
  | error e =>
      rw [hcommand] at h
      cases h
      exact hat
  | ok command =>
      rw [hcommand] at h
      have hperform := hat.perform host now command
      dsimp only at h
      rwa [h] at hperform

theorem At.settle {frame : Frame σ} {id : Int} {number : Nat} (h : frame.At id number) (now : Float) :
    (frame.settle now id).At id number := by
  unfold Frame.settle
  split
  · split
    · exact .inl h.finish
    · exact h
  · exact h

/-- A turn takes a script to its next instruction, unless it ends. -/
theorem At.tick {frame : Frame σ} {id : Int} {number : Nat} (h : frame.At id number) (host : Host σ)
    (now : Float) : (frame.tick host now id).At id (number + 1) := by
  rcases tick_cases host now frame id with
    hfinish | ⟨script, i, instruction, after, -, -, ⟨hexecute, hsettle⟩ | ⟨error, hexecute, hfail⟩⟩
  · rw [hfinish]
    exact .inl h.finish
  · rw [hsettle]
    exact (h.advance.execute hexecute).settle now
  · rw [hfail]
    exact .inl (ended_fail after id i.next error)

end Frame

end LevelPlay
