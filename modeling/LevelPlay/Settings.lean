/-! How a level is read: whether slips are forgiven, and how deep imports may nest. -/

namespace LevelPlay

/-- Whether a slip in the structure of a level ends the reading or is passed over. -/
inductive Mode
  | strict
  | lenient
  deriving DecidableEq, Repr

structure Settings where
  mode : Mode := .strict
  /-- The number of passes in which imports may be replaced. -/
  maxDepth : Nat := 32
  deriving DecidableEq, Repr

/-- The settings of a program that was asked to be lenient or not. -/
def Settings.ofLenient (lenient : Bool) : Settings :=
  { mode := if lenient then .lenient else .strict }

end LevelPlay
