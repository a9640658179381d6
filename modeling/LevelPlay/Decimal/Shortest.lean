import LevelPlay.Decimal.Binary

/-! The fewest decimal digits that read back as a given binary number. The reals that round to the number
form an interval around it, whose ends belong to it exactly when the mantissa is even. Grids of powers of
ten are tried from coarse to fine; on each, only the two neighbours of the number can be the nearest point
of the interval, and the first grid with a point in the interval gives the digits. -/

namespace LevelPlay.Decimal

/-- The decimal `coefficient * 10 ^ exponent`. -/
structure Digits where
  coefficient : Nat
  exponent : Int
  deriving DecidableEq, Repr

/-- Which of two equally near decimals is taken. -/
inductive Tie
  | even
  | up
  deriving DecidableEq, Repr

/-- Chooses between `low` and `low + 1` at equal distance. -/
def Tie.choose (tie : Tie) (low : Nat) : Nat :=
  match tie with
  | .even => if low % 2 = 0 then low else low + 1
  | .up => low + 1

def digitCount (n : Nat) : Nat :=
  (Nat.toDigits 10 n).length

/-- Moves trailing zeros of the coefficient into the exponent. -/
def Digits.normalize (digits : Digits) : Digits :=
  if h : digits.coefficient ≠ 0 ∧ digits.coefficient % 10 = 0 then
    Digits.normalize ⟨digits.coefficient / 10, digits.exponent + 1⟩
  else digits
termination_by digits.coefficient
decreasing_by omega

namespace Magnitude

/-- The exponent of the leading decimal digit of a nonzero magnitude. -/
def leading (size : Magnitude) : Int :=
  let (num, den) := size.ratio
  if den ≤ num then digitCount (num / den) - 1 else -digitCount ((den - 1) / num)

/-- How many of the grid's steps `10 ^ exponent` the mantissa's unit is, as a quotient. -/
def steps (size : Magnitude) (exponent : Int) : Nat × Nat :=
  (Nat.pow 2 size.exponent.toNat * Nat.pow 10 (-exponent).toNat,
    Nat.pow 2 (-size.exponent).toNat * Nat.pow 10 exponent.toNat)

/-- Whether `coefficient * 10 ^ exponent` rounds to the magnitude. -/
def readsBack (size : Magnitude) (exponent : Int) (coefficient : Nat) : Bool :=
  let (num, den) := size.steps exponent
  let point := 4 * coefficient * den
  let low := (4 * size.mantissa - if size.narrowBelow then 1 else 2) * num
  let high := (4 * size.mantissa + 2) * num
  if size.mantissa % 2 = 0 then decide (low ≤ point ∧ point ≤ high)
  else decide (low < point ∧ point < high)

/-- The nearest point of the grid of step `10 ^ exponent` that reads back, if there is one. -/
def onGrid? (tie : Tie) (size : Magnitude) (exponent : Int) : Option Nat :=
  let (num, den) := size.steps exponent
  let low := size.mantissa * num / den
  match size.readsBack exponent low, size.readsBack exponent (low + 1) with
  | false, false => none
  | true, false => some low
  | false, true => some (low + 1)
  | true, true =>
    match compare (2 * (size.mantissa * num)) ((2 * low + 1) * den) with
    | .lt => some low
    | .gt => some (low + 1)
    | .eq => some (tie.choose low)

/-- The exact decimal value of a magnitude. -/
def exact (size : Magnitude) : Digits :=
  match size.exponent with
  | .ofNat up => ⟨size.mantissa * Nat.pow 2 up, 0⟩
  | .negSucc down => ⟨size.mantissa * Nat.pow 5 (down + 1), .negSucc down⟩

/-- The fewest digits that read back; of equally few the nearest. Seventeen always suffice. -/
def shortest (tie : Tie) (size : Magnitude) : Digits :=
  if size.mantissa = 0 then ⟨0, 0⟩
  else
    let found := (List.range 17).findSome? fun (extra : Nat) =>
      (size.onGrid? tie (size.leading - extra)).map fun coefficient =>
        Digits.mk coefficient (size.leading - extra)
    (found.getD size.exact).normalize

end Magnitude

end LevelPlay.Decimal
