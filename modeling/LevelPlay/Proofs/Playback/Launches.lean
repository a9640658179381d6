import LevelPlay.Playback
import LevelPlay.Proofs.Engine.Calls
import LevelPlay.Proofs.Engine.Command

/-! Launches before the first frame. To start a script touches no other, so two starts that succeed one after the other
succeed as well the other way round, and leave the same engine. A start that fails changes nothing: whatever it may
fail of is checked before the script is touched. -/

namespace LevelPlay

namespace Engine

theorem setInstance_comm (engine : Engine) {id other : Int} (h : other ≠ id) (active active' : Option Instance) :
    (engine.setInstance id active).setInstance other active' =
      (engine.setInstance other active').setInstance id active := by
  unfold setInstance
  congr 1
  exact engine.slots.modify_comm h (fun slot => { slot with active }) fun slot => { slot with active := active' }

/-- Of two starts that both succeed the second is of another script, which the first has not touched. -/
theorem start_comm {engine middle last : Engine} {first second : List Float} {id other : Int}
    (hfirst : engine.start first = .ok (id, middle)) (hsecond : middle.start second = .ok (other, last)) :
    ∃ middle', engine.start second = .ok (other, middle') ∧ middle'.start first = .ok (id, last) := by
  obtain ⟨hid, ⟨script, hslot⟩, rfl⟩ := start_eq_ok_iff.mp hfirst
  obtain ⟨hother, ⟨script', hslot'⟩, rfl⟩ := start_eq_ok_iff.mp hsecond
  rw [get?_setInstance] at hslot'
  have hne : other ≠ id := by
    rintro rfl
    rw [if_pos rfl, hslot] at hslot'
    cases hslot'
  rw [if_neg hne] at hslot'
  refine ⟨_, start_eq_ok_iff.mpr ⟨hother, ⟨script', hslot'⟩, rfl⟩, ?_⟩
  apply start_eq_ok_iff.mpr
  refine ⟨hid, ⟨script, ?_⟩, engine.setInstance_comm hne _ _⟩
  rw [get?_setInstance, if_neg (Ne.symm hne)]
  exact hslot

end Engine

namespace Playback

theorem launchAll_cons_eq_ok_iff {engine last : Engine} {launch : Launch} {rest : List Launch} :
    launchAll engine (launch :: rest) = .ok last ↔
      ∃ id next, engine.start launch = .ok (id, next) ∧ launchAll next rest = .ok last := by
  rw [launchAll]
  cases engine.start launch with
  | error e => simp
  | ok next =>
      obtain ⟨id, next⟩ := next
      simp

theorem launchAll_swap {engine last : Engine} {first second : Launch} {rest : List Launch}
    (h : launchAll engine (first :: second :: rest) = .ok last) :
    launchAll engine (second :: first :: rest) = .ok last := by
  obtain ⟨id, middle, hfirst, h⟩ := launchAll_cons_eq_ok_iff.mp h
  obtain ⟨other, next, hsecond, hrest⟩ := launchAll_cons_eq_ok_iff.mp h
  obtain ⟨middle', hsecond', hfirst'⟩ := Engine.start_comm hfirst hsecond
  exact launchAll_cons_eq_ok_iff.mpr ⟨other, middle', hsecond', launchAll_cons_eq_ok_iff.mpr ⟨id, next, hfirst', hrest⟩⟩

theorem launchAll_perm {launches others : List Launch} (h : launches.Perm others) (engine last : Engine) :
    launchAll engine launches = .ok last ↔ launchAll engine others = .ok last := by
  induction h generalizing engine with
  | nil => exact Iff.rfl
  | cons launch _ ih => simp only [launchAll_cons_eq_ok_iff, ih]
  | swap first second rest => exact ⟨launchAll_swap, launchAll_swap⟩
  | trans _ _ ih ih' => exact (ih engine).trans (ih' engine)

/-- The order of launches makes no difference: if all of them succeed then they do in any other order, and leave the
same engine. It need not be assumed that they are of different scripts, since the second of two launches of one script
fails in any order. To start a script in place is to start it, and a start that fails, of whatever it does, leaves the
engine as it was. -/
theorem launch_order_irrelevant {launches others : List Launch} (hperm : launches.Perm others) (engine : Engine) :
    (∀ last, launchAll engine launches = .ok last ↔ launchAll engine others = .ok last) ∧
      (∀ launch, (Engine.startInPlace launch).run.run engine =
        match engine.start launch with
        | .error error => (.error error, engine)
        | .ok (id, after) => (.ok id, after)) ∧
      ∀ launch error, engine.start launch = .error error →
        ((Engine.startInPlace launch).run.run engine).2 = engine := by
  refine ⟨fun last => launchAll_perm hperm engine last, engine.startInPlace_run, fun launch error herror => ?_⟩
  rw [Engine.startInPlace_run, herror]

/-- Two idle scripts, and one that runs. -/
def choir : Engine :=
  ⟨⟨[(1, ⟨⟨1, [["Ring"]]⟩, none⟩), (2, ⟨⟨2, [["Hum", "$1"]]⟩, none⟩), (3, ⟨⟨3, [["Ring"]]⟩, some ⟨0, [3.0], 0.0⟩⟩)],
    by simp⟩, 0.0⟩

/-- The idle scripts may be started in either order, also in place. The one that runs cannot be started again, and goes
on. -/
theorem choir_in_either_order :
    [[1.0], [2.0, 5.0]].Perm [[2.0, 5.0], [1.0]] ∧
      (∃ last, launchAll choir [[1.0], [2.0, 5.0]] = .ok last ∧ launchAll choir [[2.0, 5.0], [1.0]] = .ok last) ∧
      (Engine.startInPlace [1.0]).run.run choir = (.ok 1, choir.setInstance 1 (some ⟨0, [1.0], 0.0⟩)) ∧
      choir.start [3.0] = .error (.alreadyRunning 3) ∧ ((Engine.startInPlace [3.0]).run.run choir).2 = choir := by
  have hperm : [[(1.0 : Float)], [2.0, 5.0]].Perm [[2.0, 5.0], [1.0]] := .swap _ _ _
  have hone : Decimal.idOfFloat? 1.0 = some 1 := by decide +kernel
  have htwo : Decimal.idOfFloat? 2.0 = some 2 := by decide +kernel
  have hthree : Decimal.idOfFloat? 3.0 = some 3 := by decide +kernel
  have hfirst : choir.start [1.0] = .ok (1, choir.setInstance 1 (some ⟨0, [1.0], 0.0⟩)) :=
    Engine.start_eq_ok_iff.mpr ⟨Engine.startId_eq_ok_iff.mpr ⟨_, _, rfl, hone⟩, ⟨_, rfl⟩, rfl⟩
  have hsecond : (choir.setInstance 1 (some ⟨0, [1.0], 0.0⟩)).start [2.0, 5.0] = .ok (2, _) :=
    Engine.start_eq_ok_iff.mpr ⟨Engine.startId_eq_ok_iff.mpr ⟨_, _, rfl, htwo⟩, ⟨_, rfl⟩, rfl⟩
  have hall : launchAll choir [[1.0], [2.0, 5.0]] = .ok _ :=
    launchAll_cons_eq_ok_iff.mpr ⟨1, _, hfirst, launchAll_cons_eq_ok_iff.mpr ⟨2, _, hsecond, rfl⟩⟩
  have hagain : choir.start [3.0] = .error (.alreadyRunning 3) :=
    Engine.start_eq_error_iff.mpr (.running hthree rfl)
  obtain ⟨horder, hinPlace, hkept⟩ := launch_order_irrelevant hperm choir
  have hrun := hinPlace [1.0]
  rw [hfirst] at hrun
  exact ⟨hperm, ⟨_, hall, (horder _).mp hall⟩, hrun, hagain, hkept [3.0] _ hagain⟩

end Playback

end LevelPlay
