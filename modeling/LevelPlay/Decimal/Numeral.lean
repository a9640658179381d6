import LevelPlay.Decimal.Shortest

/-! Reading numbers. A numeral has an optional sign, digits with an optional point among them, and an
optional exponent; an infinity or NaN may be spelled out, in any letter case. Level text admits less: no
exponent and no word. Ids and counts are whole numbers of bounded size. -/

namespace LevelPlay.Decimal

def digitsValue (cs : List Char) : Nat :=
  cs.foldl (fun value c => 10 * value + (c.toNat - '0'.toNat)) 0

/-- Whether `cs` is a nonempty run of decimal digits. -/
def areDigits (cs : List Char) : Bool :=
  !cs.isEmpty && cs.all Char.isDigit

theorem areDigits_eq_true_iff {cs : List Char} : areDigits cs = true ↔ cs ≠ [] ∧ ∀ c ∈ cs, c.isDigit = true := by
  simp [areDigits]

/-- Splits off a leading sign; tells whether it is a minus. -/
def splitSign : List Char → Bool × List Char
  | '-' :: cs => (true, cs)
  | '+' :: cs => (false, cs)
  | cs => (false, cs)

/-! ### Whole numbers -/

def integer? (cs : List Char) : Option Int :=
  let (negative, figures) := splitSign cs
  if areDigits figures then some (if negative then -(digitsValue figures : Int) else digitsValue figures)
  else none

def id? (cs : List Char) : Option Int :=
  (integer? cs).filter isId

/-- The count of at most 64 bits written with an optional plus and digits. -/
def count? (cs : List Char) : Option Nat :=
  let figures := if cs.head? = some '+' then cs.drop 1 else cs
  if areDigits figures ∧ digitsValue figures < UInt64.size then some (digitsValue figures) else none

/-! ### Numbers -/

/-- The floating-point number nearest to `coefficient * 10 ^ exponent`. Beyond four hundred places from
the point it is infinite or zero, whatever the digits. -/
def nearest (coefficient : Nat) (exponent : Int) : Float :=
  let leading := exponent + digitCount coefficient
  if coefficient = 0 ∨ leading < -400 then 0.0
  else if 400 < leading then 1.0 / 0.0
  else
    match exponent with
    | .ofNat up => Float.ofScientific coefficient false up
    | .negSucc down => Float.ofScientific coefficient true (down + 1)

/-- The exponent part of a numeral: nothing, or `e` and an integer. -/
def exponent? : List Char → Option Int
  | [] => some 0
  | c :: cs => if c = 'e' ∨ c = 'E' then integer? cs else none

/-- The value of an unsigned numeral in digits. -/
def decimal? (cs : List Char) : Option Float :=
  let whole := cs.takeWhile Char.isDigit
  let (places, rest) :=
    match cs.dropWhile Char.isDigit with
    | '.' :: more => (more.takeWhile Char.isDigit, more.dropWhile Char.isDigit)
    | rest => ([], rest)
  if whole.isEmpty && places.isEmpty then none
  else (exponent? rest).map fun exponent => nearest (digitsValue (whole ++ places)) (exponent - places.length)

/-- The value of an unsigned numeral spelled as a word. -/
def wordValue? (cs : List Char) : Option Float :=
  let word := cs.map Char.toLower
  if word = "inf".toList ∨ word = "infinity".toList then some (1.0 / 0.0)
  else if word = "nan".toList then some (0.0 / 0.0)
  else none

def number? (s : String) : Option Float :=
  let (negative, cs) := splitSign s.toList
  ((wordValue? cs).or (decimal? cs)).map fun x => if negative then -x else x

/-- Whether a text is a number as level text admits it: an optional sign, then digits with at most one
point after, among or before them. -/
def isLevelNumber (s : String) : Bool :=
  let cs := (splitSign s.toList).2
  let rest := cs.dropWhile Char.isDigit
  match rest with
  | [] => !cs.isEmpty
  | '.' :: places => places.all Char.isDigit && (cs.head?.any Char.isDigit || !places.isEmpty)
  | _ => false

end LevelPlay.Decimal
