import LevelPlay.Decimal.Shortest

/-! How the digits of a number are laid out: positionally or with an exponent, with or without a fraction
when it is whole, and with a fixed number of places. -/

namespace LevelPlay.Decimal

structure Style where
  /-- How equally near digits are decided. -/
  tie : Tie
  /-- The least and the greatest exponent of a leading digit that are written positionally; if absent, all
  are. -/
  positional : Option (Int × Int)
  /-- Whether a whole number written positionally gets the fraction `.0`. -/
  fraction : Bool
  /-- The sign of an exponent that is not negative. -/
  plus : String
  deriving Repr

namespace Style

/-- Whether a number with this leading exponent is written positionally. -/
def isPositional (style : Style) (leading : Int) : Bool :=
  match style.positional with
  | none => true
  | some (least, greatest) => decide (least ≤ leading ∧ leading ≤ greatest)

/-- The digits before and after the point, without an exponent. -/
def positionally (style : Style) (digits : Digits) : String :=
  let figures := Nat.toDigits 10 digits.coefficient
  match digits.exponent with
  | .ofNat zeros =>
    String.ofList (figures ++ List.replicate zeros '0') ++ if style.fraction then ".0" else ""
  | .negSucc down =>
    let places := down + 1
    let padded := List.replicate (places + 1 - figures.length) '0' ++ figures
    let whole := padded.length - places
    String.ofList (padded.take whole ++ '.' :: padded.drop whole)

/-- One digit, the others after a point, and the exponent of the first. -/
def scientifically (style : Style) (digits : Digits) (leading : Int) : String :=
  let figures := Nat.toDigits 10 digits.coefficient
  let tail := figures.drop 1
  let significand := String.ofList (figures.take 1 ++ if tail.isEmpty then [] else '.' :: tail)
  let exponent := (if leading < 0 then "-" else style.plus) ++ toString leading.natAbs
  significand ++ "e" ++ exponent

def magnitude (style : Style) (size : Magnitude) : String :=
  let digits := size.shortest style.tie
  let leading := digits.exponent + digitCount digits.coefficient - 1
  if digits.coefficient = 0 ∨ style.isPositional leading then style.positionally digits
  else style.scientifically digits leading

def write (style : Style) : Binary → String
  | .nan => "NaN"
  | .infinite negative => if negative then "-inf" else "inf"
  | .finite negative size => (if negative then "-" else "") ++ style.magnitude size

end Style

/-- Numbers in messages and in script arguments: never an exponent, and no fraction when whole. -/
def plainStyle : Style where
  tie := .up
  positional := none
  fraction := false
  plus := ""

/-- Numbers in lists of start arguments: an exponent from `1e16` on and below `1e-4`. -/
def listStyle : Style where
  tie := .up
  positional := some (-4, 15)
  fraction := true
  plus := ""

/-- A number as messages show it. -/
def plain (x : Float) : String :=
  plainStyle.write (Binary.ofFloat x)

/-- The whole number nearest to `num / den`, of two the even one. -/
def roundQuotient (num den : Nat) : Nat :=
  let low := num / den
  match compare (2 * (num % den)) den with
  | .lt => low
  | .gt => low + 1
  | .eq => Tie.even.choose low

/-- A magnitude with exactly `places` digits after the point, rounded from its exact value. -/
def Magnitude.fixed (places : Nat) (size : Magnitude) : String :=
  let (num, den) := size.ratio
  let figures := Nat.toDigits 10 (roundQuotient (num * Nat.pow 10 places) den)
  let padded := List.replicate (places + 1 - figures.length) '0' ++ figures
  let whole := padded.length - places
  String.ofList (padded.take whole ++ if places = 0 then [] else '.' :: padded.drop whole)

def fixed (places : Nat) : Binary → String
  | .nan => "NaN"
  | .infinite negative => if negative then "-inf" else "inf"
  | .finite negative size => (if negative then "-" else "") ++ size.fixed places

end LevelPlay.Decimal
