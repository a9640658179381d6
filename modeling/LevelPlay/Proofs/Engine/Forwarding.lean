import LevelPlay.Proofs.Engine.Arguments
import LevelPlay.Proofs.Engine.Lineage

/-! Arguments that are handed on. A script that starts another writes the numbers that it hands on as text, which is
then read as numbers again; so a number arrives as it was if it reads back from its own text. From then on the started
script keeps it as long as it runs, and may hand it on in turn. -/

namespace LevelPlay

namespace Decimal

/-- The number is the one that its text is read as. -/
def ReadsBack (x : Float) : Prop :=
  number? (plain x) = some x

/-- No number begins with the mark of a reference or of an id. -/
theorem number?_of_mark {text : String} {mark : Char} {rest : List Char} (hmark : mark = '$' ∨ mark = '@')
    (h : text.toList = mark :: rest) : number? text = none := by
  rcases hmark with rfl | rfl
  · simp [number?, h, splitSign, wordValue?, decimal?]
  · simp [number?, h, splitSign, wordValue?, decimal?]

end Decimal

namespace Instruction

variable {arguments : List Float} {operand text : Token} {index : Nat} {x : Float}

/-! ### What operands mean -/

/-- The number that an operand means to a script with these arguments: an argument if it refers to one, and the number
it is if it is one, which may be written as an id. An index is at most the greatest one. -/
inductive Means (arguments : List Float) (operand : Token) : Float → Prop where
  | argument {index : Nat} {x : Float} (hrefers : RefersTo operand index) (hindex : index ≤ maxIndex)
      (hx : arguments[index]? = some x) : Means arguments operand x
  | literal {text : String} {x : Float} (htext : operand = text ∨ operand = "@" ++ text)
      (hx : Decimal.number? text = some x) : Means arguments operand x

theorem operandNumber?_of_number? (h : Decimal.number? operand = some x) : operandNumber? operand = some x := by
  have hmark : ∀ figures, operand.toList ≠ '@' :: figures := by
    intro figures hid
    rw [Decimal.number?_of_mark (.inr rfl) hid] at h
    cases h
  unfold operandNumber? operandValue
  simp only [String.ofList_toList, h]
  rfl

theorem operandNumber?_id (h : Decimal.number? text = some x) : operandNumber? ("@" ++ text) = some x := by
  have hlist : ("@" ++ text).toList = '@' :: text.toList := by simp
  unfold operandNumber? operandValue
  rw [hlist]
  simp only [String.ofList_toList, h]
  rfl

theorem resolve_of_refersTo (hrefers : RefersTo operand index) (hindex : index ≤ maxIndex)
    (hx : arguments[index]? = some x) : resolve arguments operand = .ok (Decimal.plain x) := by
  obtain ⟨figures, hfigures, rfl⟩ := refersTo_iff.mp hrefers
  rw [resolve, hfigures]
  dsimp only
  rw [Nat.min_eq_left hindex, hx]

theorem resolve_of_literal (htext : operand = text ∨ operand = "@" ++ text) (hx : Decimal.number? text = some x) :
    resolve arguments operand = .ok operand := by
  have hplain : reference? operand = none := by
    by_contra hsome
    obtain ⟨figures, hfigures⟩ := Option.ne_none_iff_exists'.mp hsome
    obtain ⟨hmark, -⟩ := reference?_eq_some_iff.mp hfigures
    rcases htext with rfl | rfl
    · rw [Decimal.number?_of_mark (.inl rfl) hmark] at hx
      cases hx
    · simp at hmark
  rw [resolve, hplain]

theorem Means.resolve (h : Means arguments operand x) (hback : ∀ y ∈ arguments, Decimal.ReadsBack y) :
    ∃ text, Instruction.resolve arguments operand = .ok text ∧ operandNumber? text = some x := by
  cases h with
  | argument hrefers hindex hx =>
      have hread : Decimal.ReadsBack x := hback x (List.mem_of_getElem? hx)
      exact ⟨_, resolve_of_refersTo hrefers hindex hx, operandNumber?_of_number? hread⟩
  | literal htext hx =>
      refine ⟨operand, resolve_of_literal htext hx, ?_⟩
      rcases htext with rfl | rfl
      · exact operandNumber?_of_number? hx
      · exact operandNumber?_id hx

end Instruction

/-! ### What is handed on -/

theorem forall₂_comp_iff {α β γ : Type} {R : α → β → Prop} {S : β → γ → Prop} {as : List α} {cs : List γ} :
    (∃ bs, List.Forall₂ R as bs ∧ List.Forall₂ S bs cs) ↔ List.Forall₂ (fun a c => ∃ b, R a b ∧ S b c) as cs := by
  induction as generalizing cs with
  | nil => simp
  | cons a as ih =>
      simp only [List.forall₂_cons_left_iff, ← ih]
      constructor
      · rintro ⟨_, ⟨b, bs, hb, hbs, rfl⟩, hcs⟩
        obtain ⟨c, cs, hc, hrest, rfl⟩ := List.forall₂_cons_left_iff.mp hcs
        exact ⟨c, cs, ⟨b, hb, hc⟩, ⟨bs, hbs, hrest⟩, rfl⟩
      · rintro ⟨c, cs, ⟨b, hb, hc⟩, ⟨bs, hbs, hcs⟩, rfl⟩
        exact ⟨b :: bs, ⟨b, bs, hb, hbs, rfl⟩, .cons hc hcs⟩

namespace Execution

open Instruction

variable {id : Int} {arguments values : List Float} {operands : List Token}

/-- A script is started with the numbers that the operands are read as, with the arguments in place. -/
theorem start?_scriptRun_eq_some_iff :
    start? ⟨id, arguments, "ScriptRun" :: operands⟩ = some values ↔
      List.Forall₂ (fun operand x => ∃ text, resolve arguments operand = .ok text ∧ operandNumber? text = some x)
        operands values := by
  rw [start?_eq_some_iff, ← forall₂_comp_iff]
  constructor
  · intro h
    obtain ⟨resolved, hresolved, hcommand⟩ := Result.bind_eq_ok_iff.mp h
    obtain ⟨texts, htexts, rfl⟩ := Result.map_eq_ok_iff.mp hresolved
    rw [command_scriptRun] at hcommand
    obtain ⟨others, hothers, hsame⟩ := Result.map_eq_ok_iff.mp hcommand
    cases hsame
    refine ⟨texts, mapTokens_eq_ok_iff.mp htexts, ?_⟩
    exact (mapTokens_eq_ok_iff.mp hothers).imp fun _ _ hread => operandValue_eq_ok_iff.mp hread
  · rintro ⟨texts, htexts, hvalues⟩
    have hresolved : substitute arguments ("ScriptRun" :: operands) = .ok ("ScriptRun" :: texts) :=
      Result.map_eq_ok_iff.mpr ⟨texts, mapTokens_eq_ok_iff.mpr htexts, rfl⟩
    refine Result.bind_eq_ok_iff.mpr ⟨_, hresolved, ?_⟩
    rw [command_scriptRun]
    refine Result.map_eq_ok_iff.mpr ⟨values, mapTokens_eq_ok_iff.mpr ?_, rfl⟩
    exact hvalues.imp fun _ _ hread => operandValue_eq_ok_iff.mpr hread

theorem start?_of_means (hback : ∀ y ∈ arguments, Decimal.ReadsBack y)
    (h : List.Forall₂ (Means arguments) operands values) :
    start? ⟨id, arguments, "ScriptRun" :: operands⟩ = some values :=
  start?_scriptRun_eq_some_iff.mpr (h.imp fun _ _ hmeans => hmeans.resolve hback)

/-- What the script that is started gets at the place of a reference is the argument it refers to. -/
theorem getElem?_of_start? (h : start? ⟨id, arguments, "ScriptRun" :: operands⟩ = some values) {place index : Nat}
    {operand : Token} (hoperand : operands[place]? = some operand) (hrefers : RefersTo operand index)
    (hindex : index ≤ maxIndex) {x : Float} (hx : arguments[index]? = some x) (hback : Decimal.ReadsBack x) :
    values[place]? = some x := by
  obtain ⟨hlength, hall⟩ := List.forall₂_iff_get.mp (start?_scriptRun_eq_some_iff.mp h)
  obtain ⟨hplace, rfl⟩ := List.getElem?_eq_some_iff.mp hoperand
  obtain ⟨text, htext, hread⟩ := hall place hplace (hlength ▸ hplace)
  rw [List.get_eq_getElem, resolve_of_refersTo hrefers hindex hx] at htext
  cases htext
  rw [operandNumber?_of_number? hback] at hread
  rw [List.getElem?_eq_some_iff]
  exact ⟨hlength ▸ hplace, (Option.some.inj hread).symm⟩

end Execution

namespace Frame

variable {σ : Type} {host : Host σ} {now : Float} {frame : Frame σ} {caller callee : Int}
  {arguments values : List Float} {instruction : Instruction} {script : Script}

/-- A script that is to be started in a turn, and is idle, runs after it with the arguments that it was given. -/
theorem instance?_tick_of_start? (hexecution : frame.execution? caller = some ⟨caller, arguments, instruction⟩)
    (hvalues : Execution.start? ⟨caller, arguments, instruction⟩ = some values)
    (hcallee : Engine.startId values = .ok callee) (hidle : frame.engine.slots.get? callee = some ⟨script, none⟩) :
    (frame.tick host now caller).engine.instance? callee = some ⟨0, values, frame.engine.now⟩ := by
  obtain ⟨own, i, instruction, hslot, hinstruction, hsame⟩ := execution?_eq_some_iff.mp hexecution
  cases hsame
  -- The caller runs, so it cannot be what it starts, and nothing that the turn makes of it concerns the other.
  have hne : callee ≠ caller := by
    rintro rfl
    cases hidle.symm.trans hslot
  have hcommand := Execution.start?_eq_some_iff.mp hvalues
  have hadvanced : (frame.advance caller).engine.slots.get? callee = some ⟨script, none⟩ := by
    change (frame.engine.slots.modify caller _).get? callee = _
    rw [IdMap.get?_modify, if_neg hne]
    exact hidle
  have hstart := Engine.start_eq_ok_iff.mpr ⟨hcallee, ⟨script, hadvanced⟩, rfl⟩
  have hexecute : ∃ after : Frame σ, (frame.advance caller).execute host now caller i.arguments instruction =
      (after, .ok ()) ∧ after.engine.instance? callee = some ⟨0, values, frame.engine.now⟩ := by
    obtain ⟨-, -, hinstances⟩ := Engine.instance?_start hstart
    rw [execute, hcommand]
    dsimp only
    rw [perform, hstart]
    exact ⟨_, rfl, (hinstances callee).trans (if_pos rfl)⟩
  obtain ⟨after, hafter, hrunning⟩ := hexecute
  rw [tick_of_ok hslot hinstruction hafter]
  exact (turn_settle now after caller).others hne hrunning

end Frame

namespace Engine

open Instruction

/-! ### Chains -/

/-- An argument of one script is handed on until it is an argument of another, in the time from one state of the engine
to a later one. It stays with a script as long as this goes on running; and it goes over to another script in a turn
that starts this one, to the place at which the operand stands that refers to it. -/
inductive Relay : Engine → Int → Nat → Engine → Int → Nat → Prop where
  | arrived (engine : Engine) (id : Int) (index : Nat) : Relay engine id index engine id index
  | wait {engine next last : Engine} {id id' : Int} {index index' : Nat} (hnext : Happens engine next)
      (hruns : next.isRunning id = true) (hrest : Relay next id index last id' index') :
      Relay engine id index last id' index'
  | hand {σ : Type} {host : Host σ} {now : Float} {frame : Frame σ} {last : Engine} {id callee id' : Int}
      {index place index' : Nat} {arguments : List Float} {operands : List Token} {operand : Token}
      (hexecution : frame.execution? id = some ⟨id, arguments, "ScriptRun" :: operands⟩)
      (hoperand : operands[place]? = some operand) (hrefers : RefersTo operand index) (hindex : index ≤ maxIndex)
      (hidle : frame.engine.isRunning callee = false)
      (hstarted : (frame.tick host now id).engine.isRunning callee = true)
      (hrest : Relay (frame.tick host now id).engine callee place last id' index') :
      Relay frame.engine id index last id' index'

theorem Relay.arrives {engine last : Engine} {id id' : Int} {index index' : Nat}
    (h : Relay engine id index last id' index') {i : Instance} (hi : engine.instance? id = some i) {x : Float}
    (hx : i.arguments[index]? = some x) (hback : Decimal.ReadsBack x) :
    ∃ j, last.instance? id' = some j ∧ j.arguments[index']? = some x := by
  -- The chain is followed from its first script on, so what is left of it begins with another instance each time.
  induction h generalizing i with
  | arrived => exact ⟨i, hi, hx⟩
  | wait hnext hruns _ ih =>
      obtain ⟨j, hj⟩ := Option.isSome_iff_exists.mp hruns
      obtain ⟨started, hfollows⟩ := hnext.follows
      apply ih hj
      rw [hfollows.arguments_eq hi hj]
      exact hx
  | @hand σ host now frame last id callee id' index place index' arguments operands operand hexecution hoperand hrefers
      hindex hidle hstarted _ ih =>
      obtain ⟨j, hj⟩ := Option.isSome_iff_exists.mp hstarted
      have hnone : frame.engine.instance? callee = none :=
        Option.isNone_iff_eq_none.mp (Option.isSome_eq_false_iff.mp hidle)
      obtain ⟨hvalues, -⟩ := (frame.follows_tick host now id).started_eq hnone hj
      rw [hexecution, Option.bind_some] at hvalues
      obtain ⟨script, i', instruction, hslot, -, hsame⟩ := Frame.execution?_eq_some_iff.mp hexecution
      cases hsame
      cases hi.symm.trans (instance?_eq_some_iff.mpr ⟨script, hslot⟩)
      exact ih hj (Execution.getElem?_of_start? hvalues hoperand hrefers hindex hx hback)

open Relation (ReflTransGen)

/-- Arguments survive being handed on. A script that starts an idle one starts it with what its operands mean, one
number for each operand. So an argument that reads back from its text reaches the end of every chain of scripts that
hand it on, with any number of other turns and starts in between. And the first argument of what runs is its id,
whatever has happened to the engine before; nothing else happens to an engine that is called. -/
theorem arguments_survive_forwarding :
    (∀ {σ : Type} (host : Host σ) (now : Float) (frame : Frame σ) (caller callee : Int) (script : Script)
        (arguments values : List Float) (operands : List Token),
      frame.execution? caller = some ⟨caller, arguments, "ScriptRun" :: operands⟩ →
      (∀ x ∈ arguments, Decimal.ReadsBack x) → List.Forall₂ (Means arguments) operands values →
      startId values = .ok callee → frame.engine.slots.get? callee = some ⟨script, none⟩ →
        (frame.tick host now caller).engine.instance? callee = some ⟨0, values, frame.engine.now⟩) ∧
      (∀ (first last : Engine) (id id' : Int) (index index' : Nat) (i : Instance) (x : Float),
        first.instance? id = some i → i.arguments[index]? = some x → Decimal.ReadsBack x →
        Relay first id index last id' index' → ∃ j, last.instance? id' = some j ∧ j.arguments[index']? = some x) ∧
      (∀ scripts calls, ReflTransGen Happens (ofScripts scripts) (History.ofCalls scripts calls).engine) ∧
      ∀ scripts engine, ReflTransGen Happens (ofScripts scripts) engine → ∀ id i, engine.instance? id = some i →
        ∃ x, i.arguments[0]? = some x ∧ Decimal.idOfFloat? x = some id := by
  refine ⟨?hop, ?chain, ?calls, ?id⟩
  case hop =>
    intro σ host now frame caller callee script arguments values operands hexecution hback hmeans hcallee hidle
    exact Frame.instance?_tick_of_start? hexecution (Execution.start?_of_means hback hmeans) hcallee hidle
  case chain =>
    intro first last id id' index index' i x hi hx hback hrelay
    exact hrelay.arrives hi hx hback
  case calls =>
    intro scripts calls
    exact happens_answers (ofScripts scripts) calls
  case id =>
    intro scripts engine hhappens id i hi
    obtain ⟨x, rest, harguments, hid⟩ := startId_eq_ok_iff.mp (startId_of_happens hhappens hi)
    exact ⟨x, by rw [harguments]; rfl, hid⟩

/-- A script that starts a second, which starts a third. -/
def errandScripts : Scripts :=
  ⟨[(1, ⟨1, [["ScriptRun", "2", "$1"]]⟩), (2, ⟨2, [["ScriptRun", "@3", "$0", "$1"]]⟩), (3, ⟨3, [["Ring", "$2"]]⟩)],
    by simp⟩

/-- The first script has been started with an argument. -/
def errands : Frame Unit :=
  ⟨(ofScripts errandScripts).setInstance 1 (some ⟨0, [1.0, 0.5], 0.0⟩), (), .ofTime 0.0⟩

/-- The second script is started with the argument of the first. When it has started the third in turn, this has the
argument as well, one place further back, and its id in front. -/
theorem errands_hand_on :
    ∃ second third : Frame Unit, second = errands.tick .ignore 0.0 1 ∧ third = second.tick .ignore 0.0 2 ∧
      second.engine.instance? 2 = some ⟨0, [2.0, 0.5], 0.0⟩ ∧
      ∃ j x, third.engine.instance? 3 = some j ∧ j.arguments[2]? = some 0.5 ∧
        j.arguments[0]? = some x ∧ Decimal.idOfFloat? x = some 3 := by
  obtain ⟨hhop, hchain, -, hids⟩ := arguments_survive_forwarding
  have hid : Decimal.idOfFloat? 1.0 = some 1 := by decide +kernel
  have hcallee : Decimal.idOfFloat? 2.0 = some 2 := by decide +kernel
  have htwo : Decimal.number? "2" = some 2.0 := by decide +kernel
  have hone : Decimal.number? (Decimal.plain 1.0) = some 1.0 := by decide +kernel
  have hhalf : Decimal.number? (Decimal.plain 0.5) = some 0.5 := by decide +kernel
  have hback : ∀ x ∈ [(1.0 : Float), 0.5], Decimal.ReadsBack x := by simp [Decimal.ReadsBack, hone, hhalf]
  have hrefers : RefersTo "$1" 1 := refersTo_iff.mpr ⟨['1'], rfl, rfl⟩
  have hmeans : List.Forall₂ (Means [1.0, 0.5]) ["2", "$1"] [2.0, 0.5] :=
    .cons (.literal (.inl rfl) htwo) (.cons (.argument hrefers (by decide) rfl) .nil)
  have hsecond : (errands.tick .ignore 0.0 1).engine.instance? 2 = some ⟨0, [2.0, 0.5], 0.0⟩ :=
    hhop .ignore 0.0 errands 1 2 _ _ _ _ rfl hback hmeans (startId_eq_ok_iff.mpr ⟨_, _, rfl, hcallee⟩) rfl
  have hexecution : (errands.tick .ignore 0.0 1).execution? 2 =
      some ⟨2, [2.0, 0.5], ["ScriptRun", "@3", "$0", "$1"]⟩ := by
    obtain ⟨script, hslot⟩ := instance?_eq_some_iff.mp hsecond
    have hscript : ((errands.tick .ignore 0.0 1).engine.slots.get? 2).map Slot.script =
        some ⟨2, [["ScriptRun", "@3", "$0", "$1"]]⟩ := by decide +kernel
    have hsame := (congrArg (Option.map Slot.script) hslot).symm.trans hscript
    cases hsame
    exact Frame.execution?_eq_some_iff.mpr ⟨_, _, _, hslot, rfl, rfl⟩
  have hidle : (errands.tick .ignore 0.0 1).engine.isRunning 3 = false := by decide +kernel
  have hstarted : ((errands.tick .ignore 0.0 1).tick .ignore 0.0 2).engine.isRunning 3 = true := by decide +kernel
  have hlast : Relay (errands.tick .ignore 0.0 1).engine 2 1
      ((errands.tick .ignore 0.0 1).tick .ignore 0.0 2).engine 3 2 :=
    .hand hexecution rfl hrefers (by decide) hidle hstarted (.arrived _ 3 2)
  have hrelay : Relay errands.engine 1 1 ((errands.tick .ignore 0.0 1).tick .ignore 0.0 2).engine 3 2 :=
    .hand rfl rfl hrefers (by decide) rfl (Option.isSome_of_eq_some hsecond) hlast
  obtain ⟨j, hj, hargument⟩ := hchain _ _ 1 3 1 2 ⟨0, [1.0, 0.5], 0.0⟩ 0.5 rfl rfl hhalf hrelay
  have hstart : (ofScripts errandScripts).start [1.0, 0.5] = .ok (1, errands.engine) :=
    start_eq_ok_iff.mpr ⟨startId_eq_ok_iff.mpr ⟨_, _, rfl, hid⟩, ⟨_, rfl⟩, rfl⟩
  have hhappens : ReflTransGen Happens (ofScripts errandScripts)
      ((errands.tick .ignore 0.0 1).tick .ignore 0.0 2).engine :=
    ((ReflTransGen.single (.start hstart)).tail (.turn .ignore 0.0 errands 1)).tail (.turn .ignore 0.0 _ 2)
  obtain ⟨x, hx, hown⟩ := hids errandScripts _ hhappens 3 j hj
  exact ⟨_, _, rfl, rfl, hsecond, j, x, hj, hargument, hx, hown⟩

end Engine

end LevelPlay
