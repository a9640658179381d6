import LevelPlay.Proofs.Engine.Budget
import LevelPlay.Proofs.Engine.Calls
import LevelPlay.Proofs.Engine.Command

/-! What holds of an engine at any time. It keeps the scripts that it began with. Each instance that runs has come
to an instruction of its script, or just past the last, and was started under the id of its script; and a fault
is at an instruction of a script that there is. A turn keeps this: it counts an instruction only where there is
one, and what it starts is at the beginning of a script whose id it has read from the arguments. -/

namespace LevelPlay

namespace Engine

def scripts (engine : Engine) : Scripts :=
  engine.slots.map fun _ slot => slot.script

/-- The instance may be one of this script, under this id. -/
structure Instance.Fits (script : Script) (id : Int) (i : Instance) : Prop where
  next_le : i.next ≤ script.size
  started : ∃ x rest, i.arguments = x :: rest ∧ Decimal.idOfFloat? x = some id

/-- The engine has these scripts, and what runs fits them. -/
structure Sound (scripts : Scripts) (engine : Engine) : Prop where
  scripts_eq : engine.scripts = scripts
  fits : ∀ id script i, engine.slots.get? id = some ⟨script, some i⟩ → Instance.Fits script id i

variable {scripts : Scripts} {engine : Engine}

theorem Sound.get?_eq (h : engine.Sound scripts) (id : Int) :
    scripts.get? id = (engine.slots.get? id).map Slot.script := by
  rw [← h.scripts_eq, Engine.scripts, IdMap.get?_map]

theorem sound_ofScripts (scripts : Scripts) : (ofScripts scripts).Sound scripts where
  scripts_eq := by
    apply IdMap.ext_get?
    intro id
    rw [Engine.scripts, ofScripts, IdMap.get?_map, IdMap.get?_map, Option.map_map]
    exact Option.map_id'
  fits id script i h := by
    simp [ofScripts] at h

/-- A change of one script's instance is sound if what runs then fits the script. -/
theorem Sound.modify (h : engine.Sound scripts) {id : Int} {g : Option Instance → Option Instance}
    (hg : ∀ script active, engine.slots.get? id = some ⟨script, active⟩ →
      ∀ i, g active = some i → Instance.Fits script id i) :
    Sound scripts
      { engine with slots := engine.slots.modify id fun slot => { slot with active := g slot.active } } where
  scripts_eq := by
    apply IdMap.ext_get?
    intro other
    rw [h.get?_eq, Engine.scripts, IdMap.get?_map, IdMap.get?_modify]
    by_cases hother : other = id
    · rw [if_pos hother, Option.map_map]
      rfl
    · rw [if_neg hother]
  fits other script i hslot := by
    rw [IdMap.get?_modify] at hslot
    by_cases hother : other = id
    · subst hother
      rw [if_pos rfl, Option.map_eq_some_iff] at hslot
      obtain ⟨⟨script', active⟩, hbefore, hafter⟩ := hslot
      obtain ⟨rfl, hactive⟩ := Slot.mk.inj hafter
      exact hg script' active hbefore i hactive
    · rw [if_neg hother] at hslot
      exact h.fits other script i hslot

theorem Sound.stop (h : engine.Sound scripts) (id : Int) : (engine.stop id).Sound scripts := by
  apply h.modify (g := fun _ => none)
  intro script active _ i hi
  cases hi

theorem Sound.mapInstance (h : engine.Sound scripts) {id : Int} {f : Instance → Instance}
    (hf : ∀ script i, engine.slots.get? id = some ⟨script, some i⟩ → Instance.Fits script id (f i)) :
    (engine.mapInstance id f).Sound scripts := by
  apply h.modify (g := Option.map f)
  intro script active hslot i hi
  obtain ⟨before, rfl, rfl⟩ := Option.map_eq_some_iff.mp hi
  exact hf script before hslot

theorem Sound.start {after : Engine} {arguments : List Float} {id : Int} (h : engine.Sound scripts)
    (hstart : engine.start arguments = .ok (id, after)) : after.Sound scripts := by
  obtain ⟨hid, -, rfl⟩ := start_eq_ok_iff.mp hstart
  apply h.modify (g := fun _ => some ⟨0, arguments, engine.now⟩)
  intro script active _ i hi
  cases hi
  exact ⟨Nat.zero_le _, startId_eq_ok_iff.mp hid⟩

end Engine

/-- The fault is at an instruction of one of these scripts. -/
def Fault.LiesIn (scripts : Scripts) (fault : Fault) : Prop :=
  ∃ script, scripts.get? fault.script = some script ∧ fault.instruction < script.size

namespace Frame

variable {σ : Type} {scripts : Scripts} {frame : Frame σ}

/-- The engine is sound within a step, and so are the faults that have been reported in it. -/
structure Sound (scripts : Scripts) (frame : Frame σ) : Prop where
  engine : frame.engine.Sound scripts
  faults : ∀ fault ∈ frame.report.faults, fault.LiesIn scripts

theorem Sound.finish (h : frame.Sound scripts) (id : Int) : (frame.finish id).Sound scripts := by
  unfold Frame.finish
  split
  · exact ⟨h.engine.stop id, h.faults⟩
  · exact h

theorem Sound.fail (h : frame.Sound scripts) {id : Int} {instruction : Nat}
    (hlies : ∃ script, scripts.get? id = some script ∧ instruction < script.size) (error : ScriptError) :
    (frame.fail id instruction error).Sound scripts where
  engine := h.engine.stop id
  faults fault hfault := by
    rcases Array.mem_push.mp hfault with hfault | rfl
    · exact h.faults fault hfault
    · exact hlies

/-- A script that has an instruction may go on to the next, or past it. -/
theorem Sound.advance (h : frame.Sound scripts) {id : Int} {script : Script} {i : Instance}
    (hslot : frame.engine.slots.get? id = some ⟨script, some i⟩) (hnext : i.next < script.size) :
    (frame.advance id).Sound scripts where
  engine := by
    apply h.engine.mapInstance
    intro script' j hj
    cases hslot.symm.trans hj
    exact ⟨hnext, (h.engine.fits id script i hslot).started⟩
  faults := h.faults

theorem Sound.settle (h : frame.Sound scripts) (now : Float) (id : Int) : (frame.settle now id).Sound scripts := by
  unfold Frame.settle
  split
  · split
    · exact h.finish id
    · exact h
  · exact h

variable (host : Host σ) (now : Float)

theorem Sound.perform (h : frame.Sound scripts) (id : Int) (command : Command) :
    (frame.perform host now id command).1.Sound scripts := by
  cases command with
  | finish => exact h.finish id
  | sleep seconds =>
      refine ⟨h.engine.mapInstance ?_, h.faults⟩
      intro script i hslot
      exact ⟨(h.engine.fits id script i hslot).next_le, (h.engine.fits id script i hslot).started⟩
  | start arguments =>
      rw [Frame.perform]
      cases hstart : frame.engine.start arguments with
      | error e => exact h
      | ok next => exact ⟨h.engine.start hstart, h.faults⟩
  | call instruction =>
      rw [Frame.perform]
      split
      · exact ⟨h.engine, h.faults⟩
      · exact ⟨h.engine, h.faults⟩

theorem Sound.execute (h : frame.Sound scripts) (id : Int) (arguments : List Float) (instruction : Instruction) :
    (frame.execute host now id arguments instruction).1.Sound scripts := by
  unfold Frame.execute
  cases (instruction.substitute arguments).bind Instruction.command with
  | error e => exact h
  | ok command => exact h.perform host now id command

/-- A turn reports a fault only at the instruction that it has executed. -/
theorem Sound.tick (h : frame.Sound scripts) (id : Int) : (frame.tick host now id).Sound scripts := by
  rcases tick_cases host now frame id with hfinish | ⟨script, i, instruction, after, hslot, hinstruction, hcases⟩
  · rw [hfinish]
    exact h.finish id
  · have hnext : i.next < script.size := (List.getElem?_eq_some_iff.mp hinstruction).1
    have hexecute := (h.advance hslot hnext).execute host now id i.arguments instruction
    rcases hcases with ⟨hafter, hsettle⟩ | ⟨error, hafter, hfail⟩
    · rw [hsettle]
      rw [hafter] at hexecute
      exact hexecute.settle now id
    · have hscript : scripts.get? id = some script := by
        rw [h.engine.get?_eq, hslot]
        rfl
      rw [hfail]
      rw [hafter] at hexecute
      exact hexecute.fail ⟨script, hscript, hnext⟩ error

end Frame

namespace Engine

variable {scripts : Scripts} {engine : Engine}

theorem Sound.step {σ : Type} (h : engine.Sound scripts) (host : Host σ) (state : σ) (now : Float) :
    (engine.step host state now).Sound scripts := by
  apply Frame.Plays.induction (P := Frame.Sound scripts) _ _ (Frame.plays_passes host now _)
  · exact ⟨⟨h.scripts_eq, h.fits⟩, by simp [Report.ofTime]⟩
  · intro frame passes budgetExhausted hframe
    exact ⟨hframe.engine, hframe.faults⟩
  · intro frame id _ hframe
    exact hframe.tick host now id

theorem Sound.answer (h : engine.Sound scripts) (call : Call) :
    (engine.answer call).1.Sound scripts ∧ ∀ fault ∈ (engine.answer call).2.faults, fault.LiesIn scripts := by
  cases call with
  | start arguments =>
      cases hstart : engine.start arguments with
      | error e =>
          rw [answer_start_of_error hstart]
          exact ⟨h, fun _ hfault => absurd hfault List.not_mem_nil⟩
      | ok next =>
          rw [answer_start_of_ok hstart]
          exact ⟨h.start hstart, fun _ hfault => absurd hfault List.not_mem_nil⟩
  | step host state now =>
      have hstep := h.step host state now
      exact ⟨hstep.engine, fun fault hfault => hstep.faults fault (Array.mem_toList_iff.mp hfault)⟩

theorem Sound.answers (h : engine.Sound scripts) (calls : List Call) :
    (engine.answers calls).1.Sound scripts ∧
      ∀ answer ∈ (engine.answers calls).2, ∀ fault ∈ answer.faults, fault.LiesIn scripts := by
  induction calls generalizing engine with
  | nil => exact ⟨h, fun _ hanswer => absurd hanswer List.not_mem_nil⟩
  | cons call rest ih =>
      obtain ⟨hnext, hfaults⟩ := h.answer call
      obtain ⟨hlast, hrest⟩ := ih hnext
      exact ⟨hlast, List.forall_mem_cons.mpr ⟨hfaults, hrest⟩⟩

/-- Whatever is asked of an engine that began with some scripts, it keeps these scripts, each under its id, whatever
id the script itself carries. An instance that runs has come to an instruction of its script or past the last,
and the first of its arguments is the id of its script. A fault is at an instruction of one of the scripts. -/
theorem sound_of_calls (scripts : Scripts) (calls : List Call) :
    ((ofScripts scripts).answers calls).1.Sound scripts ∧
      ∀ answer ∈ ((ofScripts scripts).answers calls).2, ∀ fault ∈ answer.faults,
        ∃ script, scripts.get? fault.script = some script ∧ fault.instruction < script.size :=
  (sound_ofScripts scripts).answers calls

end Engine

end LevelPlay
