import LevelPlay.File.Path
import LevelPlay.Segment

/-! Imports. A line whose first word is `#import` or `#include` stands for the body of a segment: of a file,
or of the level itself where it gives no path. Imports are replaced in passes, each from the last line to
the first, until none is left; a local import therefore sees the later lines as this pass has left them.
What is imported may import in turn, and the number of passes is bounded. -/

namespace LevelPlay

/-- What an import names: a segment, of the level itself if the path is empty. -/
structure ImportTarget where
  path : Path
  segment : String
  deriving DecidableEq, Repr

/-- Why a text names no segment to import. -/
inductive TargetError
  | noSeparator (spec : String)
  | noSegment (spec : String)
  deriving DecidableEq, Repr

def TargetError.message : TargetError → String
  | noSeparator spec => s!"import '{spec}' is missing '::'"
  | noSegment spec => s!"import '{spec}' names no segment"

namespace ImportTarget

/-- Reads a path and a segment with `::` between them. -/
def parse (spec : String) : Except TargetError ImportTarget :=
  match Text.around "::".toList spec.toList with
  | none => .error (.noSeparator spec)
  | some (path, segment) =>
    let segment := Text.trimBlanks segment
    if segment.isEmpty then .error (.noSegment spec)
    else .ok ⟨String.ofList (Text.trimBlanks path), String.ofList segment⟩

/-- Whether the segment is one of the level itself. -/
def isLocal (target : ImportTarget) : Bool :=
  target.path.isEmpty

end ImportTarget

/-- Why the body of the segment that an import names cannot be had. -/
inductive BodyError
  | unreadable (path : Path) (fault : FileFault)
  | segments (line : Nat) (error : SegmentError)
  | noSegment (name : String)
  deriving DecidableEq, Repr

/-- Why an import cannot be replaced. -/
inductive ImportError
  | noTarget (directive : Line)
  | target (error : TargetError)
  | body (spec : String) (error : BodyError)
  | tooDeep (maxDepth : Nat)
  deriving DecidableEq, Repr

def unreadableMessage (path : Path) (fault : FileFault) : String :=
  s!"reading {path}: {fault.message}"

def structuralMessage (line : Nat) (text : String) : String :=
  s!"structural error at line {line}: {text}"

def BodyError.message : BodyError → String
  | unreadable path fault => unreadableMessage path fault
  | segments line error => structuralMessage line error.message
  | noSegment name => structuralMessage 0 s!"no segment named '{name}'"

def ImportError.message : ImportError → String
  | noTarget directive => s!"'{directive}' names no import target"
  | target error => error.message
  | body spec error => s!"importing {spec}: {error.message}"
  | tooDeep maxDepth => s!"maximum import depth ({maxDepth}) exceeded"

/-- A failed replacement: the line of the import, the reason, and the lines as they were at that point. -/
structure ImportFailure where
  line : Nat
  error : ImportError
  lines : List Line
  deriving DecidableEq, Repr

/-- Lines without an import, and the passes and replacements that led to them. -/
structure Expansion where
  lines : List Line
  passes : Nat
  replaced : Nat
  deriving DecidableEq, Repr

namespace Import

/-- The first words of lines that import. -/
def directives : List String := ["#import", "#include"]

def isImport (line : Line) : Bool :=
  directives.contains (Text.firstWord line)

def segmentBody (mode : Mode) (lines : List Line) (segment : String) : Except BodyError (List Line) :=
  match SegmentIndex.ofLines mode lines with
  | .error (line, error) => .error (.segments line error)
  | .ok index =>
    match index.get? segment with
    | none => .error (.noSegment segment)
    | some header => .ok (Segment.body lines header)

/-- The lines a target stands for, where the level consists of `lines` at this point. -/
def targetBody (mode : Mode) (files : FileReader) (folder : Path) (lines : List Line)
    (target : ImportTarget) : Except BodyError (List Line) :=
  if target.isLocal then segmentBody mode lines target.segment
  else
    let path := Path.join folder target.path
    match files path with
    | .error fault => .error (.unreadable path fault)
    | .ok text => segmentBody mode (Line.ofText text) target.segment

/-- The target that an import line names, with the text that names it. -/
def target (directive : Line) : Except ImportError (String × ImportTarget) :=
  let spec := Text.afterFirstWord directive
  if spec.isEmpty then .error (.noTarget directive)
  else
    match ImportTarget.parse spec with
    | .error e => .error (.target e)
    | .ok target => .ok (spec, target)

/-- The lines that an import line stands for. -/
def replacement (mode : Mode) (files : FileReader) (folder : Path) (lines : List Line) (directive : Line) :
    Except ImportError (List Line) := do
  let (spec, target) ← target directive
  match targetBody mode files folder lines target with
  | .error e => throw (.body spec e)
  | .ok body => return body

/-- Replaces the imports among the lines before `after`, given from the last to the first; tells how many
there were. -/
def pass (mode : Mode) (files : FileReader) (folder : Path) :
    List Line → List Line → Except ImportFailure (List Line × Nat)
  | [], after => .ok (after, 0)
  | line :: before, after =>
    if isImport line then
      let lines := before.reverse ++ line :: after
      match replacement mode files folder lines line with
      | .error error => .error ⟨before.length, error, lines⟩
      | .ok body => (pass mode files folder before (body ++ after)).map fun done => (done.1, done.2 + 1)
    else pass mode files folder before (line :: after)

/-- Replaces imports in at most `left` further passes. -/
def passes (settings : Settings) (files : FileReader) (folder : Path) (left : Nat) (state : Expansion) :
    Except ImportFailure Expansion :=
  match state.lines.findIdx? isImport with
  | none => .ok state
  | some first =>
    match left with
    | 0 => .error ⟨first, .tooDeep settings.maxDepth, state.lines⟩
    | left + 1 => do
      let (lines, replaced) ← pass settings.mode files folder state.lines.reverse []
      passes settings files folder left ⟨lines, state.passes + 1, state.replaced + replaced⟩

/-- The lines with every import replaced. Paths are seen from `folder`. -/
def expand (settings : Settings) (files : FileReader) (folder : Path) (lines : List Line) :
    Except ImportFailure Expansion :=
  passes settings files folder settings.maxDepth ⟨lines, 0, 0⟩

end Import

end LevelPlay
