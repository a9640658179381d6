import LevelPlay.Decimal.Numeral
import LevelPlay.Decimal.Style
import LevelPlay.Run

/-! Launches: which script to start before the first frame, and with which arguments. A launch is written as
numbers with commas between them, the id of the script first; any number may have an `@` in front. -/

namespace LevelPlay

/-- The numbers with which a script is started; the first is its id. -/
abbrev Launch := List Float

inductive LaunchError
  | notNumber (spec part : String)
  | notWhole (spec : String)
  deriving DecidableEq, Repr

namespace LaunchError

def message : LaunchError → String
  | notNumber spec part => s!"--run {spec}: '{part}' is not a number"
  | notWhole spec => s!"--run {spec}: script id must be an integer"

/-- The reasons behind the message. -/
def causes : LaunchError → List String
  | notNumber _ part =>
    if part.isEmpty ∨ part = "@" then ["cannot parse float from empty string"]
    else ["invalid float literal"]
  | notWhole _ => []

def failure (error : LaunchError) : Failure := ⟨error.message, error.causes⟩

end LaunchError

namespace Launch

def partValue? (part : String) : Option Float :=
  match part.toList with
  | '@' :: rest => Decimal.number? (String.ofList rest)
  | _ => Decimal.number? part

def parseParts (spec : String) : List String → Except LaunchError Launch
  | [] => .ok []
  | part :: rest =>
    match partValue? (Text.trim part) with
    | none => .error (.notNumber spec (Text.trim part))
    | some x => (parseParts spec rest).map (x :: ·)

def parse (spec : String) : Except LaunchError Launch := do
  let launch ← parseParts spec (Text.cut ',' spec)
  if launch.head?.any Decimal.isWhole then return launch else throw (.notWhole spec)

/-- A launch as a list in brackets. -/
def text (launch : Launch) : String :=
  "[" ++ ", ".intercalate (launch.map fun x => Decimal.listStyle.write (.ofFloat x)) ++ "]"

end Launch

end LevelPlay
