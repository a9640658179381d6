import LevelPlay.Playback
import LevelPlay.Proofs.Engine.Idle
import LevelPlay.Proofs.Engine.Recording

/-! The trace of a playback. It leaves out the frames in which nothing happened. Nothing is lost with them: an
idle step changes only the time of the engine and the frame of the recorder, and both are set anew before the
next step. So the frames of the trace, played again without the others, give the same trace. -/

namespace LevelPlay

/-! ### Calls by frames -/

/-- The calls come frame after frame: those of each frame are marked with it, and are no more than the instructions
executed in it. -/
inductive Grouped : List TracedFrame → List HostCall → Prop where
  | nil : Grouped [] []
  | cons {traced : TracedFrame} {rest : List TracedFrame} {block calls : List HostCall}
      (hblock : ∀ call ∈ block, call.frame = traced.frame) (hlength : block.length ≤ traced.report.executed)
      (hrest : Grouped rest calls) : Grouped (traced :: rest) (block ++ calls)

namespace Grouped

variable {frames : List TracedFrame} {calls : List HostCall}

theorem append_singleton (h : Grouped frames calls) {traced : TracedFrame} {block : List HostCall}
    (hblock : ∀ call ∈ block, call.frame = traced.frame) (hlength : block.length ≤ traced.report.executed) :
    Grouped (frames ++ [traced]) (calls ++ block) := by
  induction h with
  | nil =>
      have hlast := Grouped.cons hblock hlength .nil
      rwa [List.append_nil] at hlast
  | cons hblock' hlength' _ ih =>
      rw [List.append_assoc]
      exact .cons hblock' hlength' ih

theorem exists_frame (h : Grouped frames calls) : ∀ call ∈ calls, ∃ traced ∈ frames, traced.frame = call.frame := by
  induction h with
  | nil => exact fun _ hcall => absurd hcall List.not_mem_nil
  | @cons traced rest block calls hblock _ _ ih =>
      intro call hcall
      rcases List.mem_append.mp hcall with hcall | hcall
      · exact ⟨traced, List.mem_cons_self, (hblock call hcall).symm⟩
      · obtain ⟨later, hlater, hframe⟩ := ih call hcall
        exact ⟨later, List.mem_cons_of_mem traced hlater, hframe⟩

/-- Calls of later frames are marked with greater numbers. -/
theorem lt_of_mem (h : Grouped frames calls) {number : Nat} (hfirst : ∀ traced ∈ frames, number < traced.frame) :
    ∀ call ∈ calls, number < call.frame := by
  intro call hcall
  obtain ⟨traced, htraced, hframe⟩ := h.exists_frame call hcall
  rw [← hframe]
  exact hfirst traced htraced

theorem ascending (h : Grouped frames calls) (hframes : frames.Pairwise fun a b => a.frame < b.frame) :
    calls.Pairwise fun a b => a.frame ≤ b.frame := by
  induction h with
  | nil => exact .nil
  | @cons traced rest block calls hblock _ hrest ih =>
      obtain ⟨hfirst, htail⟩ := List.pairwise_cons.mp hframes
      apply List.pairwise_append.mpr
      refine ⟨?_, ih htail, ?_⟩
      · apply List.pairwise_of_forall_mem_list
        intro a ha b hb
        exact Nat.le_of_eq ((hblock a ha).trans (hblock b hb).symm)
      · intro a ha b hb
        rw [hblock a ha]
        exact Nat.le_of_lt (hrest.lt_of_mem hfirst b hb)

theorem count_le (h : Grouped frames calls) (hframes : frames.Pairwise fun a b => a.frame < b.frame) :
    ∀ traced ∈ frames, calls.countP (fun call => call.frame = traced.frame) ≤ traced.report.executed := by
  induction h with
  | nil => exact fun _ htraced => absurd htraced List.not_mem_nil
  | @cons first rest block calls hblock hlength hrest ih =>
      obtain ⟨hfirst, htail⟩ := List.pairwise_cons.mp hframes
      intro traced htraced
      rw [List.countP_append]
      rcases List.mem_cons.mp htraced with rfl | htraced
      · have hlater : calls.countP (fun call => call.frame = traced.frame) = 0 := by
          apply List.countP_eq_zero.mpr
          intro call hcall
          have := hrest.lt_of_mem hfirst call hcall
          simp only [decide_eq_true_eq]
          omega
        calc block.countP (fun call => call.frame = traced.frame) + calls.countP (fun call => call.frame = traced.frame)
            = block.countP (fun call => call.frame = traced.frame) := by rw [hlater, Nat.add_zero]
          _ ≤ block.length := List.countP_le_length
          _ ≤ traced.report.executed := hlength
      · have hearlier : block.countP (fun call => call.frame = traced.frame) = 0 := by
          apply List.countP_eq_zero.mpr
          intro call hcall
          have := hfirst traced htraced
          rw [hblock call hcall]
          simp only [decide_eq_true_eq]
          omega
        rw [hearlier, Nat.zero_add]
        exact ih htail traced htraced

end Grouped

/-- The frames of a trace ascend, and so do those of its calls; each call is in a traced frame, and no frame has
more calls than instructions were executed in it. -/
structure Trace.Ordered (trace : Trace) : Prop where
  ascending : trace.frames.toList.Pairwise fun a b => a.frame < b.frame
  calls_ascending : trace.calls.toList.Pairwise fun a b => a.frame ≤ b.frame
  calls_traced : ∀ call ∈ trace.calls, ∃ traced ∈ trace.frames, traced.frame = call.frame
  calls_le : ∀ traced ∈ trace.frames,
    trace.calls.toList.countP (fun call => call.frame = traced.frame) ≤ traced.report.executed

namespace Playback

variable (frameTime : Float)

/-! ### Tracing every frame -/

/-- Plays one frame, and traces it whatever happens in it. -/
def traceFrame (playback : Playback) (frame : Nat) : Playback :=
  let after := playback.engine.step Recorder.host { playback.recorder with frame } (timeOf frameTime frame)
  ⟨after.engine, after.host, playback.frames.push ⟨frame, after.report⟩⟩

/-- The trace of an engine that is stepped at these frames and at no others. -/
def traceAt (engine : Engine) (numbers : List Nat) : Trace :=
  (numbers.foldl (traceFrame frameTime) (ofEngine engine)).trace

/-- The playback with the idle frames left out of its trace. -/
def withoutIdle (playback : Playback) : Playback :=
  { playback with frames := playback.frames.filter fun traced => !traced.report.isIdle }

theorem playFrame_withoutIdle (playback : Playback) (number : Nat) :
    playback.withoutIdle.playFrame frameTime number = (playback.traceFrame frameTime number).withoutIdle := by
  unfold withoutIdle traceFrame playFrame
  dsimp only
  rw [Array.filter_push]
  cases (playback.engine.step Recorder.host { playback.recorder with frame := number }
    (timeOf frameTime number)).report.isIdle <;> rfl

theorem playFrom_eq_foldl (playback : Playback) (first count : Nat) :
    playFrom frameTime first playback count = (List.range' first count).foldl (playFrame frameTime) playback := by
  induction count generalizing first playback with
  | zero => rfl
  | succ count ih => exact ih (playback.playFrame frameTime first) (first + 1)

theorem play_eq_foldl (engine : Engine) (frames : Nat) :
    play engine frames frameTime = ((List.range frames).foldl (playFrame frameTime) (ofEngine engine)).trace := by
  rw [play, playFrom_eq_foldl, List.range_eq_range']

/-- A playback is the trace of every frame, without those that are idle. -/
theorem play_eq_withoutIdle (engine : Engine) (frames : Nat) :
    play engine frames frameTime =
      ((List.range frames).foldl (traceFrame frameTime) (ofEngine engine)).withoutIdle.trace := by
  rw [play_eq_foldl]
  show ((List.range frames).foldl (playFrame frameTime) (ofEngine engine).withoutIdle).trace = _
  rw [List.foldl_hom withoutIdle (playFrame_withoutIdle frameTime)]

theorem map_frame_foldl (numbers : List Nat) (playback : Playback) :
    (numbers.foldl (traceFrame frameTime) playback).frames.toList.map TracedFrame.frame =
      playback.frames.toList.map TracedFrame.frame ++ numbers := by
  induction numbers generalizing playback with
  | nil => simp
  | cons number rest ih =>
      rw [List.foldl_cons, ih]
      simp [traceFrame]

theorem grouped_foldl (numbers : List Nat) {playback : Playback}
    (h : Grouped playback.frames.toList playback.recorder.calls.toList) :
    Grouped (numbers.foldl (traceFrame frameTime) playback).frames.toList
      (numbers.foldl (traceFrame frameTime) playback).recorder.calls.toList := by
  induction numbers generalizing playback with
  | nil => exact h
  | cons number rest ih =>
      obtain ⟨calls, hafter, hframe, hlength⟩ := playback.engine.step_records
        { playback.recorder with frame := number } (timeOf frameTime number)
      apply ih
      unfold traceFrame
      dsimp only
      rw [hafter, Array.toList_push]
      dsimp only
      rw [Array.toList_appendList]
      exact h.append_singleton hframe hlength

/-! ### Leaving out idle frames -/

/-- Playbacks that have come to the same, but for the time of the engine and the frame of the recorder. -/
structure Agrees (playback other : Playback) : Prop where
  slots : other.engine.slots = playback.engine.slots
  calls : other.recorder.calls = playback.recorder.calls
  rejected : other.recorder.rejected = playback.recorder.rejected
  frames : other.frames = playback.frames

variable {frameTime}

theorem Agrees.refl (playback : Playback) : Agrees playback playback :=
  ⟨rfl, rfl, rfl, rfl⟩

/-- Time and frame are set anew for each step. -/
theorem Agrees.traceFrame_eq {playback other : Playback} (h : Agrees playback other) (number : Nat) :
    other.traceFrame frameTime number = playback.traceFrame frameTime number := by
  obtain ⟨⟨slots, now⟩, ⟨calls, frame, rejected⟩, frames⟩ := playback
  obtain ⟨⟨slots', now'⟩, ⟨calls', frame', rejected'⟩, frames'⟩ := other
  obtain ⟨hslots, hcalls, hrejected, hframes⟩ := h
  cases hslots
  cases hcalls
  cases hrejected
  cases hframes
  rfl

theorem Agrees.trace_eq {playback other : Playback} (h : Agrees playback other) : other.trace = playback.trace := by
  unfold trace Engine.runningIds
  rw [h.slots, h.calls, h.frames]

theorem Agrees.playFrame_of_rest {playback other : Playback} (h : Agrees playback other) {number : Nat}
    (hready : playback.engine.readyIds (timeOf frameTime number) = []) :
    Agrees (playback.playFrame frameTime number) other := by
  unfold playFrame
  dsimp only
  rw [Engine.step_of_rest _ _ hready]
  exact ⟨h.slots, h.calls, h.rejected, h.frames⟩

theorem playFrame_of_ready {playback : Playback} {number : Nat}
    (hready : playback.engine.readyIds (timeOf frameTime number) ≠ []) :
    playback.playFrame frameTime number = playback.traceFrame frameTime number := by
  unfold playFrame traceFrame
  dsimp only
  rw [if_neg]
  rwa [Engine.isIdle_step_iff]

variable (frameTime)

/-- The frames that are traced when all these are played, played without the others, come to the same. -/
theorem exists_traced (numbers : List Nat) {playback other : Playback} (h : Agrees playback other) :
    ∃ traced : List TracedFrame,
      (numbers.foldl (playFrame frameTime) playback).frames.toList = playback.frames.toList ++ traced ∧
        (traced.map TracedFrame.frame).Sublist numbers ∧
        Agrees (numbers.foldl (playFrame frameTime) playback)
          ((traced.map TracedFrame.frame).foldl (traceFrame frameTime) other) := by
  induction numbers generalizing playback other with
  | nil => exact ⟨[], by simp, .slnil, h⟩
  | cons number rest ih =>
      by_cases hready : playback.engine.readyIds (timeOf frameTime number) = []
      -- an idle frame is left out of the replay; after any other frame the two playbacks are the same
      · have hrest := h.playFrame_of_rest hready
        obtain ⟨traced, hframes, hsublist, hagrees⟩ := ih hrest
        refine ⟨traced, ?_, hsublist.cons number, hagrees⟩
        rw [List.foldl_cons, hframes, ← hrest.frames, h.frames]
      · obtain ⟨traced, hframes, hsublist, hagrees⟩ := ih (.refl (playback.traceFrame frameTime number))
        let first : TracedFrame := ⟨number, (playback.engine.step Recorder.host
          { playback.recorder with frame := number } (timeOf frameTime number)).report⟩
        rw [List.foldl_cons, playFrame_of_ready hready]
        refine ⟨first :: traced, ?_, hsublist.cons_cons number, ?_⟩
        · rw [hframes]
          simp [traceFrame, first]
        · rw [List.map_cons, List.foldl_cons, h.traceFrame_eq]
          exact hagrees

/-- The trace of a playback tells everything that happens in it. Its frames are those that are not idle when every
frame is stepped and traced, in ascending order; the calls of the host come in the order of the frames, each in a
frame of the trace, and none has more than instructions were executed in it; and if the engine is stepped at the
frames of the trace only, the reports, the calls and the scripts that still run in the end are the same. -/
theorem play_complete (engine : Engine) (frames : Nat) :
    (traceAt frameTime engine (List.range frames)).frames.toList.map TracedFrame.frame = List.range frames ∧
      play engine frames frameTime = { traceAt frameTime engine (List.range frames) with
        frames := (traceAt frameTime engine (List.range frames)).frames.filter
          fun traced => !traced.report.isIdle } ∧
      (play engine frames frameTime).Ordered ∧
      traceAt frameTime engine ((play engine frames frameTime).frames.toList.map TracedFrame.frame) =
        play engine frames frameTime := by
  have hfull := map_frame_foldl frameTime (List.range frames) (ofEngine engine)
  obtain ⟨traced, hframes, hsublist, hagrees⟩ :=
    exists_traced frameTime (List.range frames) (.refl (ofEngine engine))
  have hplay := play_eq_foldl frameTime engine frames
  have htraced : (play engine frames frameTime).frames.toList = traced := by
    rw [hplay]
    exact hframes
  have hagain : traceAt frameTime engine (traced.map TracedFrame.frame) = play engine frames frameTime :=
    calc ((traced.map TracedFrame.frame).foldl (traceFrame frameTime) (ofEngine engine)).trace
        = ((List.range frames).foldl (playFrame frameTime) (ofEngine engine)).trace := hagrees.trace_eq
      _ = play engine frames frameTime := hplay.symm
  have hascending : traced.Pairwise fun a b => a.frame < b.frame :=
    List.pairwise_map.mp (List.Pairwise.sublist hsublist List.pairwise_lt_range)
  have hgrouped : Grouped traced (play engine frames frameTime).calls.toList := by
    rw [← htraced, ← hagain]
    exact grouped_foldl frameTime _ .nil
  rw [← htraced] at hascending hgrouped hagain
  refine ⟨hfull, play_eq_withoutIdle frameTime engine frames, ⟨hascending, ?_, ?_, ?_⟩, hagain⟩
  · exact hgrouped.ascending hascending
  · simpa using hgrouped.exists_frame
  · simpa using hgrouped.count_le hascending

end Playback

end LevelPlay
