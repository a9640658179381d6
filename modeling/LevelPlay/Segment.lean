import LevelPlay.Line
import LevelPlay.Settings

/-! Segments. A line whose first word is `#Segment` begins a segment and lists its names in brackets; its
body reaches to the next such line. `#Segment End` ends the search. The first line of a level is its
header and never begins a segment. -/

namespace LevelPlay

inductive SegmentError
  | noBracket (line : Line)
  | unclosedBracket (line : Line)
  | emptyName (line : Line)
  | repeatedName (name : String)
  | noEnd
  deriving DecidableEq, Repr

def SegmentError.message : SegmentError → String
  | noBracket line => s!"segment declaration '{line}' must list its names in '[..]'"
  | unclosedBracket line => s!"segment declaration '{line}' is missing ']'"
  | emptyName line => s!"segment declaration '{line}' has an empty name"
  | repeatedName name => s!"segment '{name}' is declared more than once"
  | noEnd => "expected '#Segment End' or further data, found end-of-file"

namespace Segment

def directive : String := "#Segment"

/-- Whether a line begins a segment, or ends the search for segments. -/
def isHeader (line : Line) : Bool :=
  Text.firstWord line == directive

/-- Whether a line ends the search for segments. -/
def isEnd (line : Line) : Bool :=
  ((Text.cut ' ' line).take 2) == [directive, "End"]

/-- The names a segment line lists, trimmed. -/
def names (line : Line) : Except SegmentError (List String) :=
  match Text.dropBlanks (line.toList.drop directive.length) with
  | '[' :: inside =>
    if ']' ∈ inside then
      let listed := (Text.pieces (· == ',') (inside.takeWhile (· != ']'))).map Text.trimBlanks
      if listed.any (·.isEmpty) then .error (.emptyName line) else .ok (listed.map String.ofList)
    else .error (.unclosedBracket line)
  | _ => .error (.noBracket line)

/-- Where the body of the segment begins whose header is the line of this number. -/
def bodyStart (header : Nat) : Nat :=
  header + 1

def body (lines : List Line) (header : Nat) : List Line :=
  (lines.drop (bodyStart header)).takeWhile fun line => !isHeader line

/-- Where the body ends: the number of the line after its last. -/
def bodyEnd (lines : List Line) (header : Nat) : Nat :=
  bodyStart header + (body lines header).length

end Segment

/-- The names of segments with the numbers of the lines that declare them, in the order of declaration. -/
structure SegmentIndex where
  entries : List (String × Nat)
  deriving DecidableEq, Repr

namespace SegmentIndex

def empty : SegmentIndex := ⟨[]⟩

def get? (index : SegmentIndex) (name : String) : Option Nat :=
  index.entries.lookup name

def contains (index : SegmentIndex) (name : String) : Bool :=
  (index.get? name).isSome

/-- Declares names on one line. -/
def declare (index : SegmentIndex) (number : Nat) : List String → Except SegmentError SegmentIndex
  | [] => .ok index
  | name :: rest =>
    if index.contains name then .error (.repeatedName name)
    else declare ⟨index.entries ++ [(name, number)]⟩ number rest

/-- Lists the segments from the line of this number on. An error comes with the number of its line. -/
def scan (mode : Mode) (index : SegmentIndex) (number : Nat) :
    List Line → Except (Nat × SegmentError) SegmentIndex
  | [] => if mode = .strict then .error (number, .noEnd) else .ok index
  | line :: rest =>
    if Segment.isHeader line then
      if Segment.isEnd line then .ok index
      else
        match (Segment.names line).bind (index.declare number) with
        | .error e => .error (number, e)
        | .ok index => scan mode index (number + 1) rest
    else scan mode index (number + 1) rest

def ofLines (mode : Mode) : List Line → Except (Nat × SegmentError) SegmentIndex
  | [] => scan mode empty 0 []
  | _ :: rest => scan mode empty 1 rest

end SegmentIndex

end LevelPlay
