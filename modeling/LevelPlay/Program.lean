import LevelPlay.Summary

/-! The two programs: one plays a level, one lists what is in it. Each is a function from its command line
and the files it may read to a run. -/

namespace LevelPlay

inductive Program
  | play
  | list
  deriving DecidableEq, Repr

/-- A program that knows what to do: the level it loads, and its run, given the files it may read. -/
structure Job where
  level : Path
  run : FileReader → Run

namespace Program

def parse (program : Program) (arguments : List String) : Except Rejection Job :=
  match program with
  | play => (Playback.parse arguments).map fun options => ⟨options.level, Playback.run options⟩
  | list =>
    match Summary.options? arguments with
    | none => .error .usage
    | some options => .ok ⟨options.level, Summary.run options⟩

/-- Runs a program on a tree of files; nothing for a usage error. -/
def outcome? (program : Program) (arguments : List String) (files : FileTree) : Option Outcome :=
  match program.parse arguments with
  | .error .usage => none
  | .error (.failure failure) => some ((Run.ofFailure failure).outcome files)
  | .ok job => some ((job.run files.read).outcome files)

end Program

end LevelPlay
