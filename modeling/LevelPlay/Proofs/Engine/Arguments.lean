import LevelPlay.Proofs.Engine.Command
import Mathlib.Data.Nat.Digits.Defs

/-! Arguments in the place of references. An operand refers to an argument if it is a dollar sign with digits after
it. There may be any number of digits, and they may begin with zeros: what they denote is a natural number without a
bound. Only where an index is reported that is beyond all bounds it is reported as the greatest there is, and there is
no argument with that index either. So no reference ever turns into another one. -/

namespace LevelPlay

namespace Decimal

/-- The value of digits is the positional one, the last of them having the lowest place. -/
theorem digitsValue_eq_ofDigits (cs : List Char) :
    digitsValue cs = Nat.ofDigits 10 (cs.reverse.map fun c => c.toNat - '0'.toNat) := by
  rw [Nat.ofDigits_eq_foldr, List.foldr_map, List.foldr_reverse, digitsValue]
  congr 1
  funext value c
  exact Nat.add_comm _ _

end Decimal

namespace Instruction

variable {arguments : List Float} {instruction resolved : Instruction} {operand text : Token} {index : Nat}
  {error : ScriptError}

/-! ### References -/

/-- The token is a dollar sign, and after it decimal digits with this value. -/
def RefersTo (token : Token) (index : Nat) : Prop :=
  ∃ figures : List Char, token.toList = '$' :: figures ∧ figures ≠ [] ∧ (∀ c ∈ figures, c.isDigit = true) ∧
    Nat.ofDigits 10 (figures.reverse.map fun c => c.toNat - '0'.toNat) = index

theorem reference?_eq_some_iff {figures : List Char} :
    reference? operand = some figures ↔
      operand.toList = '$' :: figures ∧ figures ≠ [] ∧ ∀ c ∈ figures, c.isDigit = true := by
  rw [← Decimal.areDigits_eq_true_iff]
  unfold reference?
  split
  · rename_i others hothers
    rw [hothers]
    constructor
    · intro h
      split at h
      · rename_i hdigits
        cases h
        exact ⟨rfl, hdigits⟩
      · cases h
    · rintro ⟨hsame, hdigits⟩
      cases hsame
      rw [if_pos hdigits]
  · rename_i hother
    exact iff_of_false (fun h => nomatch h) fun h => hother figures h.1

theorem refersTo_iff :
    RefersTo operand index ↔ ∃ figures, reference? operand = some figures ∧ Decimal.digitsValue figures = index := by
  simp only [RefersTo, reference?_eq_some_iff, Decimal.digitsValue_eq_ofDigits, and_assoc]

/-- The argument of an index stays the same when the index is cut off, as no argument is beyond the bound. -/
theorem getElem?_min_maxIndex (hcount : arguments.length ≤ maxIndex) (index : Nat) :
    arguments[min index maxIndex]? = arguments[index]? := by
  rcases Nat.le_total index maxIndex with hle | hle
  · rw [Nat.min_eq_left hle]
  · rw [Nat.min_eq_right hle, List.getElem?_eq_none hcount, List.getElem?_eq_none (Nat.le_trans hcount hle)]

/-! ### Operands with the arguments in place -/

/-- What an operand is for a script with these arguments: the text of an argument if it refers to one, and itself if
it is no reference. -/
inductive StandsFor (arguments : List Float) (operand : Token) : Token → Prop where
  | argument {index : Nat} {x : Float} (hrefers : RefersTo operand index) (hx : arguments[index]? = some x) :
      StandsFor arguments operand (Decimal.plain x)
  | itself (hrefers : ∀ index, ¬RefersTo operand index) : StandsFor arguments operand operand

theorem resolve_eq_ok_iff (hcount : arguments.length ≤ maxIndex) :
    resolve arguments operand = .ok text ↔ StandsFor arguments operand text := by
  unfold resolve
  cases hreference : reference? operand with
  | none =>
      have hrefers : ∀ index, ¬RefersTo operand index := by
        intro index h
        obtain ⟨figures, hfigures, -⟩ := refersTo_iff.mp h
        cases hreference.symm.trans hfigures
      constructor
      · intro h
        cases h
        exact .itself hrefers
      · intro h
        cases h with
        | argument h => exact absurd h (hrefers _)
        | itself => rfl
  | some figures =>
      have hrefers : RefersTo operand (Decimal.digitsValue figures) := refersTo_iff.mpr ⟨figures, hreference, rfl⟩
      dsimp only
      rw [getElem?_min_maxIndex hcount]
      constructor
      · intro h
        split at h
        · rename_i x hx
          cases h
          exact .argument hrefers hx
        · cases h
      · intro h
        cases h with
        | @argument index x h hx =>
            obtain ⟨others, hothers, rfl⟩ := refersTo_iff.mp h
            cases hreference.symm.trans hothers
            rw [hx]
        | itself h => exact absurd hrefers (h _)

theorem resolve_eq_argumentOutOfRange_iff (hcount : arguments.length ≤ maxIndex) :
    resolve arguments operand = .error error ↔
      ∃ index, RefersTo operand index ∧ arguments.length ≤ index ∧
        error = .argumentOutOfRange (min index maxIndex) arguments.length := by
  rw [resolve_eq_error_iff]
  constructor
  · rintro ⟨figures, hfigures, hrange, rfl⟩
    exact ⟨_, refersTo_iff.mpr ⟨figures, hfigures, rfl⟩, (Nat.le_min.mp hrange).1, rfl⟩
  · rintro ⟨index, hrefers, hrange, rfl⟩
    obtain ⟨figures, hfigures, rfl⟩ := refersTo_iff.mp hrefers
    exact ⟨figures, hfigures, Nat.le_min.mpr ⟨hrange, hcount⟩, rfl⟩

/-- Every argument that the operand refers to is there. -/
def Supplied (arguments : List Float) (operand : Token) : Prop :=
  ∀ index, RefersTo operand index → index < arguments.length

theorem exists_resolve_eq_ok_iff (hcount : arguments.length ≤ maxIndex) :
    (∃ text, resolve arguments operand = .ok text) ↔ Supplied arguments operand := by
  constructor
  · rintro ⟨text, htext⟩ index hrefers
    by_contra hrange
    have herror := (resolve_eq_argumentOutOfRange_iff hcount).mpr ⟨index, hrefers, Nat.not_lt.mp hrange, rfl⟩
    cases htext.symm.trans herror
  · intro h
    cases hresolve : resolve arguments operand with
    | ok text => exact ⟨text, rfl⟩
    | error e =>
        obtain ⟨index, hrefers, hrange, -⟩ := (resolve_eq_argumentOutOfRange_iff hcount).mp hresolve
        exact absurd (h index hrefers) (Nat.not_lt.mpr hrange)

/-! ### Instructions with the arguments in place -/

/-- An instruction as a script with these arguments executes it: the opcode stays, and each operand is what it stands
for. -/
structure Substituted (arguments : List Float) (instruction resolved : Instruction) : Prop where
  length_eq : resolved.length = instruction.length
  opcode : resolved.head? = instruction.head?
  operands : List.Forall₂ (StandsFor arguments) instruction.operands resolved.operands

/-- An operand refers to an argument that there is not, and no operand before it does. An index beyond all bounds is
reported as the greatest one. -/
def FirstLacks (arguments : List Float) (instruction : Instruction) (error : ScriptError) : Prop :=
  ∃ before operand after index, instruction.operands = before ++ operand :: after ∧
    (∀ other ∈ before, Supplied arguments other) ∧ RefersTo operand index ∧ arguments.length ≤ index ∧
    error = .argumentOutOfRange (min index maxIndex) arguments.length

theorem substitute_eq_ok_iff (hcount : arguments.length ≤ maxIndex) :
    instruction.substitute arguments = .ok resolved ↔ Substituted arguments instruction resolved := by
  cases instruction with
  | nil =>
      constructor
      · intro h
        cases h
        exact ⟨rfl, rfl, .nil⟩
      · intro h
        rw [List.length_eq_zero_iff.mp h.length_eq]
        rfl
  | cons opcode operands =>
      simp only [substitute, Result.map_eq_ok_iff, mapTokens_eq_ok_iff, resolve_eq_ok_iff hcount]
      constructor
      · rintro ⟨texts, htexts, rfl⟩
        exact ⟨congrArg (· + 1) htexts.length_eq.symm, rfl, htexts⟩
      · rintro ⟨-, hopcode, htexts⟩
        obtain ⟨texts, rfl⟩ := List.head?_eq_some_iff.mp hopcode
        exact ⟨texts, htexts, rfl⟩

theorem substitute_eq_argumentOutOfRange_iff (hcount : arguments.length ≤ maxIndex) :
    instruction.substitute arguments = .error error ↔ FirstLacks arguments instruction error := by
  simp only [substitute_eq_error_iff, FailsFirst, FirstLacks, exists_resolve_eq_ok_iff hcount,
    resolve_eq_argumentOutOfRange_iff hcount]
  constructor
  · rintro ⟨before, operand, after, hoperands, hbefore, index, hrefers, hrange, herror⟩
    exact ⟨before, operand, after, index, hoperands, hbefore, hrefers, hrange, herror⟩
  · rintro ⟨before, operand, after, index, hoperands, hbefore, hrefers, hrange, herror⟩
    exact ⟨before, operand, after, hoperands, hbefore, index, hrefers, hrange, herror⟩

theorem exists_substitute_eq_ok_iff (hcount : arguments.length ≤ maxIndex) :
    (∃ resolved, instruction.substitute arguments = .ok resolved) ↔
      ∀ operand ∈ instruction.operands, Supplied arguments operand := by
  simp only [← exists_resolve_eq_ok_iff hcount, ← exists_mapTokens_eq_ok_iff]
  cases instruction with
  | nil => exact ⟨fun _ => ⟨[], rfl⟩, fun _ => ⟨[], rfl⟩⟩
  | cons opcode operands =>
      simp only [substitute, Result.map_eq_ok_iff]
      constructor
      · rintro ⟨-, texts, htexts, -⟩
        exact ⟨texts, htexts⟩
      · rintro ⟨texts, htexts⟩
        exact ⟨_, texts, htexts, rfl⟩

/-- Arguments are put in place exactly where they are referred to. This succeeds just if there is an argument for each
reference among the operands, however many digits it has. Then the opcode and all operands that are no references stay,
and in place of a reference stands the text of its argument, as it is. Otherwise the first reference without an
argument is reported, with the number of arguments there are. -/
theorem substitution_exact (hcount : arguments.length ≤ maxIndex) (instruction : Instruction) :
    ((∃ resolved, instruction.substitute arguments = .ok resolved) ↔
        ∀ operand ∈ instruction.operands, ∀ index, RefersTo operand index → index < arguments.length) ∧
      (∀ resolved, instruction.substitute arguments = .ok resolved ↔ Substituted arguments instruction resolved) ∧
      ∀ error, instruction.substitute arguments = .error error ↔ FirstLacks arguments instruction error :=
  ⟨exists_substitute_eq_ok_iff hcount, fun _ => substitute_eq_ok_iff hcount,
    fun _ => substitute_eq_argumentOutOfRange_iff hcount⟩

/-- A reference with a leading zero, and one that would be the same if indices were counted modulo the word size. -/
theorem substitution_beyond_word :
    [3.0, 7.0, 0.5].length ≤ maxIndex ∧
      Substituted [3.0, 7.0, 0.5] ["$1", "$01", "$", "$x1"] ["$1", "7", "$", "$x1"] ∧
      FirstLacks [3.0, 7.0, 0.5] ["Spawn", "$2", "$18446744073709551617", "$3"]
        (.argumentOutOfRange 18446744073709551615 3) := by
  have hcount : [(3.0 : Float), 7.0, 0.5].length ≤ maxIndex := by decide
  have htext : Decimal.plain 7.0 = "7" := by decide +kernel
  refine ⟨hcount, ?_, ?_⟩
  · apply ((substitution_exact hcount ["$1", "$01", "$", "$x1"]).2.1 _).mp
    rw [← htext]
    rfl
  · exact ((substitution_exact hcount _).2.2 _).mp rfl

end Instruction

end LevelPlay
