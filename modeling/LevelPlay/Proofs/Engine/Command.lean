import LevelPlay.Engine.Basic
import LevelPlay.IdMap.Lemmas
import LevelPlay.Proofs.Result
import Mathlib.Data.List.Forall2

/-! What instructions ask for, and what is wrong with those that cannot be carried out. Four opcodes are the
engine's own; an instruction with any other is a call of the host. Operands are read from the first on, so the
first of them that cannot be read gives the error. -/

namespace LevelPlay

namespace Instruction

/-- The opcodes of the instructions that the engine executes itself. -/
def reserved : List Token := ["end", "done", "Delay", "ScriptRun"]

variable {arguments : List Float} {instruction call : Instruction} {opcode operand : Token}
  {operands : List Token} {error : ScriptError}

/-! ### The opcodes -/

theorem command_of_not_mem_reserved (h : opcode ∉ reserved) :
    command (opcode :: operands) = .ok (.call (opcode :: operands)) := by
  simp only [reserved, List.mem_cons, List.not_mem_nil, or_false, not_or] at h
  rw [command, if_neg (not_or.mpr ⟨h.1, h.2.1⟩), if_neg h.2.2.1, if_neg h.2.2.2]

theorem command_finish (h : opcode = "end" ∨ opcode = "done") : command (opcode :: operands) = .ok .finish := by
  rw [command, if_pos h]

theorem command_delay :
    command ("Delay" :: operands) = (interval ("Delay" :: operands) operands).map .sleep := by
  rw [command, if_neg (by decide), if_pos rfl]

theorem command_scriptRun : command ("ScriptRun" :: operands) =
    (mapTokens (operandValue ("ScriptRun" :: operands)) operands).map .start := by
  rw [command, if_neg (by decide), if_neg (by decide), if_pos rfl]

theorem reserved_cases (h : opcode ∈ reserved) :
    (opcode = "end" ∨ opcode = "done") ∨ opcode = "Delay" ∨ opcode = "ScriptRun" := by
  simp only [reserved, List.mem_cons, List.not_mem_nil, or_false] at h
  rcases h with h | h | h | h
  · exact .inl (.inl h)
  · exact .inl (.inr h)
  · exact .inr (.inl h)
  · exact .inr (.inr h)

/-- The instruction is this command. -/
inductive Legal (instruction : Instruction) : Command → Prop where
  | finish {opcode : Token} {operands : List Token} (h : instruction = opcode :: operands)
      (hopcode : opcode = "end" ∨ opcode = "done") : Legal instruction .finish
  | sleep {operands : List Token} {seconds : Float} (h : instruction = "Delay" :: operands)
      (hseconds : interval instruction operands = .ok seconds) : Legal instruction (.sleep seconds)
  | start {operands : List Token} {values : List Float} (h : instruction = "ScriptRun" :: operands)
      (hvalues : mapTokens (operandValue instruction) operands = .ok values) : Legal instruction (.start values)
  | call {opcode : Token} {operands : List Token} (h : instruction = opcode :: operands)
      (hopcode : opcode ∉ reserved) : Legal instruction (.call instruction)

theorem command_eq_ok_iff {command : Command} : instruction.command = .ok command ↔ instruction.Legal command := by
  constructor
  · intro h
    cases instruction with
    | nil => cases h
    | cons opcode operands =>
        by_cases hopcode : opcode ∈ reserved
        · rcases reserved_cases hopcode with hfinish | rfl | rfl
          · rw [command_finish hfinish] at h
            cases h
            exact .finish rfl hfinish
          · rw [command_delay] at h
            obtain ⟨seconds, hseconds, rfl⟩ := Result.map_eq_ok_iff.mp h
            exact .sleep rfl hseconds
          · rw [command_scriptRun] at h
            obtain ⟨values, hvalues, rfl⟩ := Result.map_eq_ok_iff.mp h
            exact .start rfl hvalues
        · rw [command_of_not_mem_reserved hopcode] at h
          cases h
          exact .call rfl hopcode
  · intro h
    cases h with
    | finish h hopcode =>
        rw [h]
        exact command_finish hopcode
    | sleep h hseconds =>
        subst h
        exact command_delay.trans (Result.map_eq_ok_iff.mpr ⟨_, hseconds, rfl⟩)
    | start h hvalues =>
        subst h
        exact command_scriptRun.trans (Result.map_eq_ok_iff.mpr ⟨_, hvalues, rfl⟩)
    | call h hopcode =>
        rw [h]
        exact command_of_not_mem_reserved hopcode

/-- An instruction calls the host if it has an opcode that is not the engine's own, and then it is the call. -/
theorem command_eq_call_iff :
    instruction.command = .ok (.call call) ↔
      call = instruction ∧ ∃ opcode operands, instruction = opcode :: operands ∧ opcode ∉ reserved := by
  rw [command_eq_ok_iff]
  constructor
  · intro h
    cases h with
    | call h hopcode => exact ⟨rfl, _, _, h, hopcode⟩
  · rintro ⟨rfl, opcode, operands, h, hopcode⟩
    exact .call h hopcode

/-! ### Operands that cannot be read -/

/-- A function fails for one of these tokens, for the first of them with this error. -/
def FailsFirst {α : Type} (f : Token → Except ScriptError α) (tokens : List Token) (error : ScriptError) : Prop :=
  ∃ before token after, tokens = before ++ token :: after ∧ (∀ other ∈ before, ∃ a, f other = .ok a) ∧
    f token = .error error

theorem failsFirst_cons {α : Type} {f : Token → Except ScriptError α} {token : Token} {rest : List Token} :
    FailsFirst f (token :: rest) error ↔
      f token = .error error ∨ (∃ a, f token = .ok a) ∧ FailsFirst f rest error := by
  constructor
  · rintro ⟨before, failing, after, htokens, hbefore, hfails⟩
    cases before with
    | nil =>
        obtain ⟨rfl, -⟩ := List.cons.inj htokens
        exact .inl hfails
    | cons first before =>
        obtain ⟨rfl, hrest⟩ := List.cons.inj htokens
        obtain ⟨hfirst, hbefore⟩ := List.forall_mem_cons.mp hbefore
        exact .inr ⟨hfirst, before, failing, after, hrest, hbefore, hfails⟩
  · rintro (hfails | ⟨hfirst, before, failing, after, rfl, hbefore, hfails⟩)
    · exact ⟨[], token, rest, rfl, fun _ hmem => absurd hmem List.not_mem_nil, hfails⟩
    · exact ⟨token :: before, failing, after, rfl, List.forall_mem_cons.mpr ⟨hfirst, hbefore⟩, hfails⟩

theorem mapTokens_eq_error_iff {α : Type} {f : Token → Except ScriptError α} {tokens : List Token} :
    mapTokens f tokens = .error error ↔ FailsFirst f tokens error := by
  induction tokens with
  | nil => simp [mapTokens, FailsFirst]
  | cons token rest ih =>
      rw [failsFirst_cons, ← ih, mapTokens, Result.bind_eq_error_iff]
      apply or_congr_right
      constructor
      · rintro ⟨a, ha, hrest⟩
        rcases Result.bind_eq_error_iff.mp hrest with hrest | ⟨as, -, hdone⟩
        · exact ⟨⟨a, ha⟩, hrest⟩
        · cases hdone
      · rintro ⟨⟨a, ha⟩, hrest⟩
        exact ⟨a, ha, Result.bind_eq_error_iff.mpr (.inl hrest)⟩

theorem mapTokens_eq_ok_iff {α : Type} {f : Token → Except ScriptError α} {tokens : List Token} {as : List α} :
    mapTokens f tokens = .ok as ↔ List.Forall₂ (fun token a => f token = .ok a) tokens as := by
  induction tokens generalizing as with
  | nil =>
      rw [List.forall₂_nil_left_iff, mapTokens]
      exact ⟨fun h => (Except.ok.inj h).symm, fun h => congrArg _ h.symm⟩
  | cons token rest ih =>
      rw [List.forall₂_cons_left_iff, mapTokens, Result.bind_eq_ok_iff]
      constructor
      · rintro ⟨a, ha, hrest⟩
        obtain ⟨as, has, hdone⟩ := Result.bind_eq_ok_iff.mp hrest
        cases hdone
        exact ⟨a, as, ha, ih.mp has, rfl⟩
      · rintro ⟨a, as, ha, has, rfl⟩
        exact ⟨a, ha, Result.bind_eq_ok_iff.mpr ⟨as, ih.mpr has, rfl⟩⟩

theorem exists_mapTokens_eq_ok_iff {α : Type} {f : Token → Except ScriptError α} {tokens : List Token} :
    (∃ as, mapTokens f tokens = .ok as) ↔ ∀ token ∈ tokens, ∃ a, f token = .ok a := by
  simp only [mapTokens_eq_ok_iff]
  induction tokens with
  | nil => exact ⟨fun _ _ h => absurd h List.not_mem_nil, fun _ => ⟨[], .nil⟩⟩
  | cons token rest ih =>
      rw [List.forall_mem_cons, ← ih]
      constructor
      · rintro ⟨_, ha | ⟨ha, has⟩⟩
        exact ⟨⟨_, ha⟩, _, has⟩
      · rintro ⟨⟨a, ha⟩, as, has⟩
        exact ⟨a :: as, .cons ha has⟩

/-- Only the operands are resolved. -/
theorem substitute_eq_error_iff :
    instruction.substitute arguments = .error error ↔ FailsFirst (resolve arguments) instruction.operands error := by
  cases instruction with
  | nil => simp [substitute, operands, FailsFirst]
  | cons opcode operands =>
      rw [substitute, Result.map_eq_error_iff, mapTokens_eq_error_iff]
      rfl

/-- An operand cannot be resolved if it refers to an argument that there is not. -/
theorem resolve_eq_error_iff :
    resolve arguments operand = .error error ↔
      ∃ figures, reference? operand = some figures ∧
        arguments.length ≤ min (Decimal.digitsValue figures) maxIndex ∧
        error = .argumentOutOfRange (min (Decimal.digitsValue figures) maxIndex) arguments.length := by
  unfold resolve
  cases reference? operand with
  | none => simp
  | some figures =>
      dsimp only
      cases hargument : arguments[min (Decimal.digitsValue figures) maxIndex]? with
      | none =>
          have hrange := List.getElem?_eq_none_iff.mp hargument
          constructor
          · intro h
            exact ⟨figures, rfl, hrange, (Except.error.inj h).symm⟩
          · rintro ⟨_, hfigures, -, rfl⟩
            cases hfigures
            rfl
      | some x =>
          have hrange := (List.getElem?_eq_some_iff.mp hargument).1
          constructor
          · intro h
            cases h
          · rintro ⟨_, hfigures, hle, -⟩
            cases hfigures
            exact absurd hle (Nat.not_le.mpr hrange)

/-- The number as which an operand is read, if it is one. -/
def operandNumber? (operand : Token) : Option Float :=
  (operandValue [] operand).toOption

/-- The instruction makes a difference to the error only. -/
theorem operandValue_eq_elim :
    operandValue instruction operand =
      (operandNumber? operand).elim (.error (.malformed instruction (.notNumber operand))) .ok := by
  unfold operandNumber? operandValue
  dsimp only
  generalize Decimal.number? _ = read
  cases read <;> rfl

theorem operandValue_eq_ok_iff {x : Float} :
    operandValue instruction operand = .ok x ↔ operandNumber? operand = some x := by
  rw [operandValue_eq_elim]
  cases operandNumber? operand <;> simp

theorem operandValue_eq_error_iff :
    operandValue instruction operand = .error error ↔
      operandNumber? operand = none ∧ error = .malformed instruction (.notNumber operand) := by
  rw [operandValue_eq_elim]
  cases operandNumber? operand <;> simp [eq_comm]

theorem failsFirst_operandValue_iff :
    FailsFirst (operandValue instruction) operands error ↔
      ∃ before operand after, operands = before ++ operand :: after ∧
        (∀ other ∈ before, (operandNumber? other).isSome) ∧ operandNumber? operand = none ∧
        error = .malformed instruction (.notNumber operand) := by
  simp only [FailsFirst, operandValue_eq_error_iff, operandValue_eq_ok_iff, Option.isSome_iff_exists]

/-- The instruction is no command: it has no opcode, it is to sleep for no time or for one that is not positive, or
an operand that is to be a number is none. -/
inductive Illegal (instruction : Instruction) : ScriptError → Prop where
  | empty (h : instruction = []) : Illegal instruction (.malformed instruction .empty)
  | noInterval (h : instruction = ["Delay"]) : Illegal instruction (.malformed instruction .noInterval)
  | interval {operand : Token} {rest : List Token} (h : instruction = "Delay" :: operand :: rest)
      (hoperand : operandNumber? operand = none) : Illegal instruction (.malformed instruction (.notNumber operand))
  | nonPositive {operand : Token} {rest : List Token} {x : Float} (h : instruction = "Delay" :: operand :: rest)
      (hoperand : operandNumber? operand = some x) (hx : ¬x > 0) : Illegal instruction (.nonPositiveDelay x)
  | operand {before after : List Token} {operand : Token}
      (h : instruction = "ScriptRun" :: (before ++ operand :: after))
      (hbefore : ∀ other ∈ before, (operandNumber? other).isSome) (hoperand : operandNumber? operand = none) :
      Illegal instruction (.malformed instruction (.notNumber operand))

theorem interval_eq_error_iff :
    interval ("Delay" :: operands) operands = .error error ↔ Illegal ("Delay" :: operands) error := by
  cases operands with
  | nil =>
      constructor
      · intro h
        cases h
        exact .noInterval rfl
      · intro h
        cases h with
        | noInterval => rfl
        | empty h | interval h | nonPositive h | operand h => simp at h
  | cons operand rest =>
      rw [interval, Result.bind_eq_error_iff, operandValue_eq_error_iff]
      simp only [operandValue_eq_ok_iff]
      constructor
      · rintro (⟨hoperand, rfl⟩ | ⟨x, hoperand, hx⟩)
        · exact .interval rfl hoperand
        · split at hx
          · cases hx
          · rename_i hnot
            cases hx
            exact .nonPositive rfl hoperand hnot
      · intro h
        cases h with
        | interval h hoperand =>
            cases h
            exact .inl ⟨hoperand, rfl⟩
        | nonPositive h hoperand hx =>
            cases h
            refine .inr ⟨_, hoperand, ?_⟩
            rw [if_neg hx]
            rfl
        | empty h | noInterval h | operand h => simp at h

theorem command_eq_error_iff : instruction.command = .error error ↔ instruction.Illegal error := by
  cases instruction with
  | nil =>
      constructor
      · intro h
        cases h
        exact .empty rfl
      · intro h
        cases h with
        | empty => rfl
        | noInterval h | interval h | nonPositive h | operand h => cases h
  | cons opcode operands =>
      by_cases hopcode : opcode ∈ reserved
      · rcases reserved_cases hopcode with hfinish | rfl | rfl
        · rw [command_finish hfinish]
          refine iff_of_false (fun h => nomatch h) (fun h => ?_)
          cases h with
          | empty h => cases h
          | noInterval h | interval h | nonPositive h | operand h =>
              obtain ⟨rfl, -⟩ := List.cons.inj h
              simp at hfinish
        · rw [command_delay, Result.map_eq_error_iff, interval_eq_error_iff]
        · rw [command_scriptRun, Result.map_eq_error_iff, mapTokens_eq_error_iff,
            failsFirst_operandValue_iff]
          constructor
          · rintro ⟨before, operand, after, rfl, hbefore, hoperand, rfl⟩
            exact .operand rfl hbefore hoperand
          · intro h
            cases h with
            | operand h hbefore hoperand =>
                obtain ⟨-, rfl⟩ := List.cons.inj h
                exact ⟨_, _, _, rfl, hbefore, hoperand, rfl⟩
            | empty h | noInterval h | interval h | nonPositive h => simp at h
      · rw [command_of_not_mem_reserved hopcode]
        refine iff_of_false (fun h => nomatch h) (fun h => ?_)
        cases h with
        | empty h => cases h
        | noInterval h | interval h | nonPositive h | operand h =>
            obtain ⟨rfl, -⟩ := List.cons.inj h
            simp [reserved] at hopcode

end Instruction

namespace Engine

variable {engine : Engine} {arguments : List Float} {error : ScriptError}

/-- The engine does not start a script with these arguments: they name none, or one that there is not, or one that
runs already. -/
inductive RefusesStart (engine : Engine) : List Float → ScriptError → Prop where
  | missing : RefusesStart engine [] .missingId
  | invalid {x : Float} {rest : List Float} (hid : Decimal.idOfFloat? x = none) :
      RefusesStart engine (x :: rest) (.invalidId x)
  | unknown {x : Float} {rest : List Float} {id : Int} (hid : Decimal.idOfFloat? x = some id)
      (hslot : engine.slots.get? id = none) : RefusesStart engine (x :: rest) (.unknownScript id)
  | running {x : Float} {rest : List Float} {id : Int} (hid : Decimal.idOfFloat? x = some id)
      (hrunning : engine.isRunning id = true) : RefusesStart engine (x :: rest) (.alreadyRunning id)

theorem startId_eq_ok_iff {id : Int} :
    startId arguments = .ok id ↔ ∃ x rest, arguments = x :: rest ∧ Decimal.idOfFloat? x = some id := by
  cases arguments with
  | nil => simp [startId]
  | cons x rest => cases h : Decimal.idOfFloat? x <;> simp [startId, h]

theorem startId_eq_error_iff :
    startId arguments = .error error ↔ arguments = [] ∧ error = .missingId ∨
      ∃ x rest, arguments = x :: rest ∧ Decimal.idOfFloat? x = none ∧ error = .invalidId x := by
  cases arguments with
  | nil => simp [startId, eq_comm]
  | cons x rest => cases h : Decimal.idOfFloat? x <;> simp [startId, h, eq_comm]

/-- Only which scripts there are and which of them run matters to a start. -/
theorem RefusesStart.congr {other : Engine} (hslots : ∀ id, other.slots.contains id = engine.slots.contains id)
    (hrunning : ∀ id, other.isRunning id = engine.isRunning id) (h : engine.RefusesStart arguments error) :
    other.RefusesStart arguments error := by
  cases h with
  | missing => exact .missing
  | invalid hid => exact .invalid hid
  | @unknown x rest id hid hslot =>
      apply RefusesStart.unknown hid
      have hcontains := hslots id
      rw [IdMap.contains, IdMap.contains, hslot, Option.isSome_none] at hcontains
      exact Option.isNone_iff_eq_none.mp (Option.isSome_eq_false_iff.mp hcontains)
  | running hid hruns => exact .running hid ((hrunning _).trans hruns)

theorem get?_setInstance (engine : Engine) (id other : Int) (active : Option Instance) :
    (engine.setInstance id active).slots.get? other =
      if other = id then (engine.slots.get? other).map fun slot => { slot with active }
      else engine.slots.get? other :=
  engine.slots.get?_modify id other _

/-- A start takes the id from the arguments. The script of this id does not run, and then runs from its beginning. -/
theorem start_eq_ok_iff {after : Engine} {id : Int} :
    engine.start arguments = .ok (id, after) ↔
      startId arguments = .ok id ∧ (∃ script, engine.slots.get? id = some ⟨script, none⟩) ∧
        after = engine.setInstance id (some ⟨0, arguments, engine.now⟩) := by
  rw [start, Result.bind_eq_ok_iff]
  constructor
  · rintro ⟨started, hid, h⟩
    cases hslot : engine.slots.get? started with
    | none =>
        rw [hslot] at h
        cases h
    | some slot =>
        obtain ⟨script, active⟩ := slot
        rw [hslot] at h
        cases active with
        | some i => cases h
        | none =>
            cases h
            exact ⟨hid, ⟨script, hslot⟩, rfl⟩
  · rintro ⟨hid, ⟨script, hslot⟩, rfl⟩
    refine ⟨id, hid, ?_⟩
    rw [hslot]
    rfl

theorem start_eq_error_iff : engine.start arguments = .error error ↔ engine.RefusesStart arguments error := by
  rw [start, Result.bind_eq_error_iff, startId_eq_error_iff]
  constructor
  · rintro ((⟨rfl, rfl⟩ | ⟨x, rest, rfl, hid, rfl⟩) | ⟨id, hid, h⟩)
    · exact .missing
    · exact .invalid hid
    · obtain ⟨x, rest, rfl, hx⟩ := startId_eq_ok_iff.mp hid
      cases hslot : engine.slots.get? id with
      | none =>
          rw [hslot] at h
          cases h
          exact .unknown hx hslot
      | some slot =>
          rw [hslot] at h
          dsimp only at h
          split at h
          · rename_i hactive
            cases h
            refine .running hx ?_
            rw [isRunning, instance?, hslot]
            exact hactive
          · cases h
  · intro h
    cases h with
    | missing => exact .inl (.inl ⟨rfl, rfl⟩)
    | invalid hid => exact .inl (.inr ⟨_, _, rfl, hid, rfl⟩)
    | unknown hid hslot =>
        refine .inr ⟨_, startId_eq_ok_iff.mpr ⟨_, _, rfl, hid⟩, ?_⟩
        rw [hslot]
        rfl
    | @running x rest id hid hrunning =>
        refine .inr ⟨id, startId_eq_ok_iff.mpr ⟨_, _, rfl, hid⟩, ?_⟩
        rw [isRunning, instance?] at hrunning
        cases hslot : engine.slots.get? id with
        | none =>
            rw [hslot] at hrunning
            cases hrunning
        | some slot =>
            rw [hslot, Option.bind_some] at hrunning
            dsimp only
            rw [if_pos hrunning]
            rfl

end Engine

end LevelPlay
