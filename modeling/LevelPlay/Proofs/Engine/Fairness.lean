import LevelPlay.Proofs.Engine.Budget

/-! Fairness of a step. A script that has neither ended nor gone to sleep when the step is over has been
ready all the time, for neither can be undone within the step. So it had its turn in every pass, but for the
last, in which the budget may have run out before its turn came. Two such scripts are therefore at most one
instruction apart, and the one with the smaller id, which has its turn first, is ahead. -/

namespace LevelPlay

namespace Frame

variable {σ : Type} {host : Host σ} {now : Float}

/-- A script is out for the rest of the step: it has ended in it, or it sleeps. -/
def Out (now : Float) (frame : Frame σ) (id : Int) : Prop :=
  frame.Ended id ∨ ∃ i, frame.engine.instance? id = some i ∧ Engine.Instance.isReady i now = false

theorem At.ready {frame : Frame σ} {id : Int} {number : Nat} (h : frame.At id number)
    (hin : ¬frame.Out now id) : frame.engine.isReady id now = true := by
  rcases h with hended | ⟨i, hi, -⟩
  · exact absurd (.inl hended) hin
  · cases hready : Engine.Instance.isReady i now with
    | true => exact Engine.isReady_eq_true_iff.mpr ⟨i, hi, hready⟩
    | false => exact absurd (.inr ⟨i, hi, hready⟩) hin

/-! ### Staying out -/

/-- A script that is out stays out in the turns of all scripts. It has none itself if it sleeps. -/
theorem Out.visit {frame : Frame σ} {id : Int} (h : frame.Out now id) (host : Host σ) (other : Int) :
    (frame.visit host now other).Out now id := by
  obtain ⟨count, -, hturn⟩ := turn_visit host now frame other
  rcases h with hended | ⟨i, hi, hsleeps⟩
  · exact .inl (hturn.ended hended)
  · by_cases hid : id = other
    · subst hid
      have hready : frame.engine.isReady id now = false := by
        rw [Engine.isReady, hi, Option.any_some, hsleeps]
      rw [Frame.visit, hready, if_neg Bool.false_ne_true]
      exact .inr ⟨i, hi, hsleeps⟩
    · exact .inr ⟨i, hturn.others hid hi, hsleeps⟩

theorem Out.pass {frame : Frame σ} {id : Int} (h : frame.Out now id) (host : Host σ) (ids : List Int) :
    (frame.pass host now ids).Out now id := by
  induction ids generalizing frame with
  | nil => exact h
  | cons first rest ih =>
      rw [pass_cons]
      split
      · exact h
      · exact ih (h.visit host first)

theorem Out.plays {frame after : Frame σ} {id : Int} (h : frame.Out now id)
    (hplays : Plays host now frame after) : after.Out now id := by
  induction hplays with
  | rest => exact h
  | spent => exact h
  | @pass frame after _ _ _ ih =>
      have hcounted : frame.countPass.Out now id := h
      exact ih (hcounted.pass host _)

/-! ### Two scripts in a pass -/

theorem At.pass_of_not_mem {frame : Frame σ} {id : Int} {number : Nat} (h : frame.At id number)
    (host : Host σ) (now : Float) {ids : List Int} (hid : id ∉ ids) :
    (frame.pass host now ids).At id number := by
  induction ids generalizing frame with
  | nil => exact h
  | cons first rest ih =>
      rw [pass_cons]
      split
      · exact h
      · obtain ⟨count, -, hturn⟩ := turn_visit host now frame first
        exact ih (hturn.at_other (List.ne_of_not_mem_cons hid) h) (List.not_mem_of_not_mem_cons hid)

/-- A script that is not out when its turn is over has gone on to its next instruction. -/
theorem At.visit {frame : Frame σ} {id : Int} {number : Nat} (h : frame.At id number)
    (hin : ¬(frame.visit host now id).Out now id) : (frame.visit host now id).At id (number + 1) := by
  have hready : frame.engine.isReady id now = true := h.ready fun hout => hin (hout.visit host id)
  rw [Frame.visit, hready, if_pos rfl]
  exact h.tick host now

theorem At.pass_visit {frame : Frame σ} {id : Int} {number : Nat} (h : frame.At id number) {rest : List Int}
    (hfirst : ∀ other ∈ rest, id < other) (hin : ¬((frame.visit host now id).pass host now rest).Out now id) :
    ((frame.visit host now id).pass host now rest).At id (number + 1) := by
  have hnot : id ∉ rest := fun hmem => Int.lt_irrefl id (hfirst id hmem)
  exact (h.visit fun hout => hin (hout.pass host rest)).pass_of_not_mem host now hnot

/-- A script that is in its turn in a pass goes on to its next instruction, unless the budget is spent
before. -/
theorem At.pass {frame : Frame σ} {id : Int} {number : Nat} (h : frame.At id number) {ids : List Int}
    (hids : ids.Pairwise (· < ·)) (hid : id ∈ ids) (hin : ¬(frame.pass host now ids).Out now id) :
    (frame.pass host now ids).At id (number + 1) ∨
      instructionBudget ≤ (frame.pass host now ids).executed ∧ (frame.pass host now ids).At id number := by
  induction ids generalizing frame with
  | nil => exact absurd hid List.not_mem_nil
  | cons first rest ih =>
      obtain ⟨hfirst, hrest⟩ := List.pairwise_cons.mp hids
      rw [pass_cons] at hin ⊢
      split
      · rename_i hspent
        exact .inr ⟨hspent, h⟩
      · rename_i hbudget
        rw [if_neg hbudget] at hin
        rcases List.mem_cons.mp hid with rfl | hid
        · exact .inl (h.pass_visit hfirst hin)
        · obtain ⟨count, -, hturn⟩ := turn_visit host now frame first
          exact ih (hturn.at_other (Int.ne_of_gt (hfirst id hid)) h) hrest hid hin

/-- Of two scripts in a pass, both go on to their next instructions, or the budget is spent before the turn
of the second. -/
theorem At.pass_pair {frame : Frame σ} {a b : Int} {m n : Nat} (ha : frame.At a m) (hb : frame.At b n)
    (hab : a < b) {ids : List Int} (hids : ids.Pairwise (· < ·)) (haIds : a ∈ ids) (hbIds : b ∈ ids)
    (haIn : ¬(frame.pass host now ids).Out now a) (hbIn : ¬(frame.pass host now ids).Out now b) :
    (frame.pass host now ids).At a (m + 1) ∧ (frame.pass host now ids).At b (n + 1) ∨
      instructionBudget ≤ (frame.pass host now ids).executed ∧ (frame.pass host now ids).At b n ∧
        ((frame.pass host now ids).At a m ∨ (frame.pass host now ids).At a (m + 1)) := by
  induction ids generalizing frame with
  | nil => exact absurd haIds List.not_mem_nil
  | cons first rest ih =>
      obtain ⟨hfirst, hrest⟩ := List.pairwise_cons.mp hids
      rw [pass_cons] at haIn hbIn ⊢
      split
      · rename_i hspent
        exact .inr ⟨hspent, hb, .inl ha⟩
      · rename_i hbudget
        rw [if_neg hbudget] at haIn hbIn
        obtain ⟨count, -, hturn⟩ := turn_visit host now frame first
        rcases List.mem_cons.mp haIds with rfl | haRest
        · -- The turn of `a`: the rest of the pass holds that of `b`.
          have hbRest : b ∈ rest := (List.mem_cons.mp hbIds).resolve_left (Int.ne_of_gt hab)
          have haNext := ha.pass_visit hfirst haIn
          rcases (hturn.at_other (Int.ne_of_gt hab) hb).pass hrest hbRest hbIn with hbNext | ⟨hspent, hbSame⟩
          · exact .inl ⟨haNext, hbNext⟩
          · exact .inr ⟨hspent, hbSame, .inr haNext⟩
        · have hlt : first < a := hfirst a haRest
          have hbRest : b ∈ rest := (List.mem_cons.mp hbIds).resolve_left (by omega)
          exact ih (hturn.at_other (by omega) ha) (hturn.at_other (by omega) hb) hrest haRest hbRest haIn hbIn

/-! ### Two scripts in a step -/

/-- When the budget is spent there is no further pass. -/
theorem Plays.at_of_spent {frame after : Frame σ} (h : Plays host now frame after)
    (hspent : instructionBudget ≤ frame.executed) {id : Int} {number : Nat} (hat : frame.At id number) :
    after.At id number := by
  cases h with
  | rest => exact hat
  | spent => exact hat
  | pass _ hbudget _ => exact absurd hspent (Nat.not_le.mpr hbudget)

/-- Two scripts that are not out in the end have come equally far, but for the turn of the second in the last
pass. -/
theorem Plays.lockstep {frame after : Frame σ} (h : Plays host now frame after) {a b : Int} (hab : a < b)
    {m n : Nat} (ha : frame.At a m) (hb : frame.At b n) (haIn : ¬after.Out now a) (hbIn : ¬after.Out now b) :
    ∃ k l, after.At a k ∧ after.At b l ∧ l + m ≤ k + n ∧ k + n ≤ l + m + 1 := by
  induction h generalizing m n with
  | rest => exact ⟨m, n, ha, hb, by omega, by omega⟩
  | spent => exact ⟨m, n, ha, hb, by omega, by omega⟩
  | @pass frame after hready hbudget hrest ih =>
      -- Both are ready at the start of the pass, since neither is out in the end: so both are in it.
      have hplays : Plays host now frame after := .pass hready hbudget hrest
      have haReady : frame.engine.isReady a now = true := ha.ready fun hout => haIn (hout.plays hplays)
      have hbReady : frame.engine.isReady b now = true := hb.ready fun hout => hbIn (hout.plays hplays)
      have haCounted : frame.countPass.At a m := ha
      have hbCounted : frame.countPass.At b n := hb
      rcases haCounted.pass_pair hbCounted hab (frame.engine.readyIds_ascending now)
        (Engine.mem_readyIds_iff.mpr haReady) (Engine.mem_readyIds_iff.mpr hbReady)
        (fun hout => haIn (hout.plays hrest)) (fun hout => hbIn (hout.plays hrest)) with
        ⟨haNext, hbNext⟩ | ⟨hspent, hbSame, haSame | haNext⟩
      · obtain ⟨k, l, hk, hl, hle, hle'⟩ := ih haNext hbNext haIn hbIn
        exact ⟨k, l, hk, hl, by omega, by omega⟩
      · exact ⟨m, n, hrest.at_of_spent hspent haSame, hrest.at_of_spent hspent hbSame, by omega, by omega⟩
      · exact ⟨m + 1, n, hrest.at_of_spent hspent haNext, hrest.at_of_spent hspent hbSame, by omega, by omega⟩

end Frame

namespace Engine

/-- Scripts take turns fairly. Two scripts that may go on when a step is over, and have not ended in it,
have executed equally many instructions in it, or the one with the smaller id has executed one more. That
they might go on before the step, too, follows. -/
theorem step_fair {σ : Type} (engine : Engine) (host : Host σ) (state : σ) (now : Float) {a b : Int}
    (hab : a < b) {i j i' j' : Instance} (ha : engine.instance? a = some i) (hb : engine.instance? b = some j)
    (ha' : (engine.step host state now).engine.instance? a = some i') (haReady : i'.wakeAt ≤ now)
    (hb' : (engine.step host state now).engine.instance? b = some j') (hbReady : j'.wakeAt ≤ now)
    (haEnded : ¬(engine.step host state now).Ended a) (hbEnded : ¬(engine.step host state now).Ended b) :
    0 ≤ ((i'.next : Int) - i.next) - ((j'.next : Int) - j.next) ∧
      ((i'.next : Int) - i.next) - ((j'.next : Int) - j.next) ≤ 1 := by
  have hplays : Frame.Plays host now ⟨{ engine with now }, state, .ofTime now⟩ (engine.step host state now) :=
    Frame.plays_passes host now _
  have hin : ∀ {id k}, (engine.step host state now).engine.instance? id = some k → k.wakeAt ≤ now →
      ¬(engine.step host state now).Ended id → ¬(engine.step host state now).Out now id := by
    rintro id k hk hready hended (h | ⟨k', hk', hsleeps⟩)
    · exact hended h
    · cases hk.symm.trans hk'
      exact absurd (decide_eq_true hready) (by simpa [Instance.isReady] using hsleeps)
  obtain ⟨m, n, ham, hbn, hle, hle'⟩ := hplays.lockstep hab (.inr ⟨i, ha, rfl⟩) (.inr ⟨j, hb, rfl⟩)
    (hin ha' haReady haEnded) (hin hb' hbReady hbEnded)
  obtain ⟨k, hk, rfl⟩ := ham.resolve_left haEnded
  obtain ⟨l, hl, rfl⟩ := hbn.resolve_left hbEnded
  cases ha'.symm.trans hk
  cases hb'.symm.trans hl
  omega

/-! ### Two bells -/

/-- Many calls of the host. -/
def chimes : List Instruction := List.replicate 2048 ["Ring"]

/-- A script that calls the host and has come to its call of this number. -/
def bell (id : Int) (next : Nat) : Slot := ⟨⟨id, chimes⟩, some ⟨next, [], 0.0⟩⟩

def bells (first second : Nat) : Engine := ⟨⟨[(1, bell 1 first), (2, bell 2 second)], by simp⟩, 0.0⟩

/-- A frame of a step of two bells. -/
def ringing (first second executed passes : Nat) : Frame Unit :=
  ⟨bells first second, (), { Report.ofTime 0.0 with executed, passes }⟩

theorem zero_le_zero : (0.0 : Float) ≤ 0.0 := by decide +kernel

theorem command_ring :
    (Instruction.substitute [] ["Ring"]).bind Instruction.command = .ok (.call ["Ring"]) := rfl

theorem chimes_getElem? {k : Nat} (h : k < 2048) : chimes[k]? = some ["Ring"] := by
  rw [chimes, List.getElem?_replicate, if_pos h]

theorem chimes_length : chimes.length = 2048 := List.length_replicate

theorem readyIds_bells (first second : Nat) : (bells first second).readyIds 0.0 = [1, 2] := by
  simp [readyIds, IdMap.idsWhere, bells, bell, Instance.isReady, zero_le_zero]

/-- A bell that has its turn rings, and nothing else happens. -/
theorem visit_bell {frame : Frame Unit} {id : Int} {next : Nat}
    (hslot : frame.engine.slots.get? id = some (bell id next)) (hmore : next + 1 < 2048) :
    frame.visit Host.ignore 0.0 id = frame.advance id := by
  have hinstruction : chimes[next]? = some ["Ring"] := chimes_getElem? (Nat.lt_of_succ_lt hmore)
  have hanswer : Host.ignore.handle frame.host id ["Ring"] = (frame.host, .ok ()) := rfl
  have hlength : next + 1 < chimes.length := by rwa [chimes_length]
  exact Frame.visit_of_call hslot zero_le_zero hinstruction command_ring hanswer hlength

theorem pass_bells {number executed passes : Nat} (hnumber : number + 1 < 2048)
    (hexecuted : executed + 1 < instructionBudget) :
    (ringing number number executed passes).pass Host.ignore 0.0 [1, 2] =
      ringing (number + 1) (number + 1) (executed + 2) passes := by
  have hfirst : ¬instructionBudget ≤ (ringing number number executed passes).executed :=
    Nat.not_le.mpr (Nat.lt_of_succ_lt hexecuted)
  have hsecond : ¬instructionBudget ≤ (ringing (number + 1) number (executed + 1) passes).executed :=
    Nat.not_le.mpr hexecuted
  have hring : (ringing number number executed passes).visit Host.ignore 0.0 1 =
      ringing (number + 1) number (executed + 1) passes := visit_bell rfl hnumber
  have hring' : (ringing (number + 1) number (executed + 1) passes).visit Host.ignore 0.0 2 =
      ringing (number + 1) (number + 1) (executed + 2) passes := visit_bell rfl hnumber
  rw [Frame.pass_cons, if_neg hfirst, hring, Frame.pass_cons, if_neg hsecond, hring', Frame.pass]

/-- After as many passes as the budget allows, both bells are at the same call. -/
theorem passes_bells {left number : Nat} (h : number + left = 1024) :
    (ringing number number (2 * number) number).passes Host.ignore 0.0 =
      ⟨bells 1024 1024, (), ⟨0.0, 2048, 1024, true, #[], #[], #[]⟩⟩ := by
  have hready : (bells number number).readyIds 0.0 ≠ [] := by rw [readyIds_bells]; exact nofun
  induction left generalizing number with
  | zero =>
      obtain rfl : number = 1024 := h
      exact Frame.passes_of_spent Host.ignore 0.0 hready (Nat.le_refl 2048)
  | succ left ih =>
      -- `left` passes remain within the budget, and this one more.
      have hbudget : 2 * number + 1 < instructionBudget := by rw [instructionBudget]; omega
      have hpass : (ringing number number (2 * number) (number + 1)).pass Host.ignore 0.0
          ((bells number number).readyIds 0.0) =
            ringing (number + 1) (number + 1) (2 * (number + 1)) (number + 1) := by
        rw [readyIds_bells]
        exact pass_bells (by omega) hbudget
      have hnext := @ih (number + 1) (by omega) (by rw [readyIds_bells]; exact nofun)
      rw [← hpass] at hnext
      have hexecuted : (ringing number number (2 * number) number).executed < instructionBudget :=
        Nat.lt_of_succ_lt hbudget
      exact (Frame.passes_of_ready Host.ignore 0.0 hready hexecuted).trans hnext

/-- Two bells that ring until the budget is spent have rung equally often. -/
theorem fair_bells :
    ((1 : Int) < 2 ∧ (bells 0 0).instance? 1 = some ⟨0, [], 0.0⟩ ∧
        (bells 0 0).instance? 2 = some ⟨0, [], 0.0⟩) ∧
      (((bells 0 0).step Host.ignore () 0.0).engine.instance? 1 = some ⟨1024, [], 0.0⟩ ∧
        ((bells 0 0).step Host.ignore () 0.0).engine.instance? 2 = some ⟨1024, [], 0.0⟩ ∧
        (0.0 : Float) ≤ 0.0 ∧ ¬((bells 0 0).step Host.ignore () 0.0).Ended 1 ∧
        ¬((bells 0 0).step Host.ignore () 0.0).Ended 2) ∧
      0 ≤ ((1024 : Int) - 0) - (1024 - 0) ∧ ((1024 : Int) - 0) - (1024 - 0) ≤ 1 := by
  have hstep : (bells 0 0).step Host.ignore () 0.0 =
      ⟨bells 1024 1024, (), ⟨0.0, 2048, 1024, true, #[], #[], #[]⟩⟩ := passes_bells (Nat.zero_add 1024)
  have hended : ∀ id, ¬((bells 0 0).step Host.ignore () 0.0).Ended id := by
    rw [hstep]
    simp [Frame.Ended]
  have hfirst : ((bells 0 0).step Host.ignore () 0.0).engine.instance? 1 = some ⟨1024, [], 0.0⟩ := by
    rw [hstep]
    rfl
  have hsecond : ((bells 0 0).step Host.ignore () 0.0).engine.instance? 2 = some ⟨1024, [], 0.0⟩ := by
    rw [hstep]
    rfl
  exact ⟨⟨by decide, rfl, rfl⟩, ⟨hfirst, hsecond, zero_le_zero, hended 1, hended 2⟩,
    step_fair (bells 0 0) Host.ignore () 0.0 (by decide) rfl rfl hfirst zero_le_zero hsecond zero_le_zero
      (hended 1) (hended 2)⟩

end Engine

end LevelPlay
