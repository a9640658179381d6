import LevelPlay.Level.Error
import LevelPlay.Value.Reader

/-! The body of a segment as the readers of its content walk it: line after line, with their numbers. -/

namespace LevelPlay

/-- The lines between a segment line and the next, or the end of the level. -/
structure SegmentBody where
  /-- The number of the first line. -/
  start : Nat
  lines : List Line
  /-- Whether a segment line follows. -/
  delimited : Bool

namespace SegmentBody

/-- The body of the segment whose header is the line of this number. -/
def ofHeader (lines : List Line) (header : Nat) : SegmentBody where
  start := Segment.bodyStart header
  lines := Segment.body lines header
  delimited := decide (Segment.bodyEnd lines header < lines.length)

/-- Takes in the lines one after the other, from the one of this number on. -/
def foldFrom {σ : Type} (take : σ → Nat → Line → Except LoadError σ) (number : Nat) (state : σ) :
    List Line → Except LoadError σ
  | [] => .ok state
  | line :: rest =>
    match take state number line with
    | .error e => .error e
    | .ok state => foldFrom take (number + 1) state rest

def fold {σ : Type} (body : SegmentBody) (take : σ → Nat → Line → Except LoadError σ) (state : σ) :
    Except LoadError σ :=
  foldFrom take body.start state body.lines

end SegmentBody

/-- A slip: an error in strict mode, passed over in lenient mode. -/
def slip (mode : Mode) (error : LoadError) : Except LoadError Unit :=
  if mode = .strict then .error error else .ok ()

/-- Reads the value that starts at a position of a line's tokens. -/
def readValue (number : Nat) (tokens : List Token) (start : Nat) : Except LoadError (Value × Nat) :=
  (Value.parseAt tokens start).mapError fun e => .content number (.value e)

/-- Tokens after the last one that was read are a slip. -/
def endLine (mode : Mode) (number : Nat) (tokens : List Token) (last : Nat) : Except LoadError Unit :=
  match tokens[last + 1]? with
  | none => .ok ()
  | some extra => slip mode (.content number (.trailing extra))

end LevelPlay
