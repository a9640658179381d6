import LevelPlay.File.Tree

/-! Runs of a program: what it prints and which files it writes, in order, and how it fails. A run is a
value, so it can be carried out on the file system or on a tree of files in memory. -/

namespace LevelPlay

/-- A failure with the reasons behind it, each the reason of the one before. -/
structure Failure where
  message : String
  causes : List String
  deriving DecidableEq, Repr

namespace Failure

/-- One reason in a report: its first line after a label, further lines aligned with it. -/
def causeText (label continuation cause : String) : String :=
  "\n" ++ label ++ ("\n" ++ continuation).intercalate (Text.cut '\n' cause)

/-- Reasons with their numbers, from the one of this number on. -/
def numberedCauses (number : Nat) : List String → String
  | [] => ""
  | cause :: rest =>
    let label := Text.alignRight 5 (toString number) ++ ": "
    causeText label "       " cause ++ numberedCauses (number + 1) rest

/-- The report of a failure. Reasons are numbered if there are several. -/
def report (failure : Failure) : String :=
  let causes :=
    match failure.causes with
    | [] => ""
    | [cause] => "\n\nCaused by:" ++ causeText "    " "    " cause
    | causes => "\n\nCaused by:" ++ numberedCauses 0 causes
  "Error: " ++ failure.message ++ causes ++ "\n"

end Failure

inductive Action
  | print (line : String)
  /-- Writes a file; if that fails, `purpose` tells what was being done. -/
  | save (path : Path) (text purpose : String)
  deriving DecidableEq, Repr

/-- What a program does, and the failure with which it ends, if it fails after that. -/
structure Run where
  actions : List Action
  failure : Option Failure
  deriving DecidableEq, Repr

/-- What remains of a run once it has been carried out. -/
structure Outcome where
  succeeded : Bool
  output : String
  errors : String
  files : FileTree

namespace Run

def ofFailure (failure : Failure) : Run := ⟨[], some failure⟩

def ofActions (actions : List Action) : Run := ⟨actions, none⟩

def saveFailure (purpose : String) (fault : FileFault) : Failure := ⟨purpose, [fault.message]⟩

/-- Carries out actions on a tree of files; a file that cannot be written ends the run. -/
def perform (failure : Option Failure) (output : String) (files : FileTree) : List Action → Outcome
  | [] =>
    match failure with
    | none => ⟨true, output, "", files⟩
    | some failure => ⟨false, output, failure.report, files⟩
  | .print line :: rest => perform failure (output ++ line ++ "\n") files rest
  | .save path text purpose :: rest =>
    match files.write path text with
    | .ok files => perform failure output files rest
    | .error fault => ⟨false, output, (saveFailure purpose fault).report, files⟩

/-- Carries out a run on a tree of files. -/
def outcome (run : Run) (files : FileTree) : Outcome :=
  perform run.failure "" files run.actions

end Run

end LevelPlay
