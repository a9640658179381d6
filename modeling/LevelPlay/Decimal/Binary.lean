/-! What the bits of a binary floating-point number say: a magnitude `mantissa * 2 ^ exponent` with a sign,
an infinity, or no number. Everything the library writes or decides about a number goes through this
reading, so that it is exact. Powers are written with `Nat.pow`, which means the same whatever instances are
in scope. -/

namespace LevelPlay.Decimal

/-- A finite magnitude `mantissa * 2 ^ exponent`. The gap to the next smaller number is half as wide as the
one to the next larger number where `narrowBelow` says so. -/
structure Magnitude where
  mantissa : Nat
  exponent : Int
  narrowBelow : Bool
  deriving DecidableEq, Repr

/-- A floating-point number, read exactly. -/
inductive Binary
  | nan
  | infinite (negative : Bool)
  | finite (negative : Bool) (size : Magnitude)
  deriving DecidableEq, Repr

namespace Binary

/-- Reads bits laid out as a sign, a biased exponent and a fraction. -/
def ofBits (exponentBits fractionBits bits : Nat) : Binary :=
  let fraction := bits % Nat.pow 2 fractionBits
  let biased := bits / Nat.pow 2 fractionBits % Nat.pow 2 exponentBits
  let negative := bits / Nat.pow 2 (fractionBits + exponentBits) % 2 == 1
  let offset : Int := Nat.pow 2 (exponentBits - 1) - 1 + fractionBits
  if biased = Nat.pow 2 exponentBits - 1 then
    if fraction = 0 then infinite negative else nan
  else if biased = 0 then
    finite negative ⟨fraction, 1 - offset, false⟩
  else
    finite negative ⟨Nat.pow 2 fractionBits + fraction, biased - offset, fraction = 0 ∧ 1 < biased⟩

def ofFloat (x : Float) : Binary :=
  ofBits 11 52 x.toBits.toNat

def ofFloat32 (x : Float32) : Binary :=
  ofBits 8 23 x.toBits.toNat

end Binary

namespace Magnitude

def toNat? (size : Magnitude) : Option Nat :=
  match size.exponent with
  | .ofNat up => some (size.mantissa * Nat.pow 2 up)
  | .negSucc down =>
    let unit := Nat.pow 2 (down + 1)
    if size.mantissa % unit = 0 then some (size.mantissa / unit) else none

/-- The magnitude as a quotient of whole numbers. -/
def ratio (size : Magnitude) : Nat × Nat :=
  (size.mantissa * Nat.pow 2 size.exponent.toNat, Nat.pow 2 (-size.exponent).toNat)

end Magnitude

def Binary.toInt? : Binary → Option Int
  | .finite negative size => size.toNat?.map fun n => if negative then -(n : Int) else n
  | _ => none

/-- Whether an integer can be an id or a vertex index: these have 32 bits and a sign. -/
def isId (n : Int) : Bool :=
  decide (-2147483648 ≤ n ∧ n ≤ 2147483647)

/-- The id a number denotes: it must be whole and in range. -/
def idOfFloat? (x : Float) : Option Int :=
  (Binary.ofFloat x).toInt?.filter isId

/-- Whether a number has no fractional part. Infinities and NaN do not count as whole. -/
def isWhole (x : Float) : Bool :=
  (Binary.ofFloat x).toInt?.isSome

end LevelPlay.Decimal
