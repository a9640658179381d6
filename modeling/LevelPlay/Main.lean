import LevelPlay.Program

/-! The command line: `play` plays a level and `list` lists what is in it. Files are read before the program
runs, the level first and then whatever imports may name, so that the run itself is a plain function; what
it does is carried out afterwards, in order. -/

namespace LevelPlay.Program

/-- The paths that import lines name, seen from a folder. -/
def importedPaths (folder : Path) (lines : List Line) : List Path :=
  (lines.filter Import.isImport).filterMap fun line =>
    match Import.target line with
    | .ok (_, target) => if target.isLocal then none else some (Path.join folder target.path)
    | .error _ => none

/-- The fault behind an error of the operating system, whose codes come with either sign. -/
def faultOf : IO.Error → FileFault
  | .noFileOrDirectory _ _ _ => .notFound
  | .inappropriateType _ code _ => if code = 20 ∨ code = -20 then .notFolder else .isFolder
  | .invalidArgument _ code text =>
    if code = 36 ∨ code = -36 then .nameTooLong else .other s!"{text} (os error {code})"
  | error => .other (toString error)

def faultAt (path : Path) (error : IO.Error) : FileFault :=
  if '\x00' ∈ path.toList then .nulInName else faultOf error

def readText (path : Path) : IO (Except FileFault String) := do
  try
    match String.fromUTF8? (← IO.FS.readBinFile path) with
    | some text => return .ok text
    | none => return .error .notText
  catch error => return .error (faultAt path error)

/-- Reads files, and then those that they import, each once. -/
partial def gather (folder : Path) (known : List (Path × Except FileFault String)) :
    List Path → IO (List (Path × Except FileFault String))
  | [] => return known
  | path :: rest => do
    if known.any fun file => file.1 == path then gather folder known rest
    else
      let content ← readText path
      let imported :=
        match content with
        | .ok text => importedPaths folder (Line.ofText text)
        | .error _ => []
      gather folder ((path, content) :: known) (imported ++ rest)

def reportFailure (failure : Failure) : IO UInt32 := do
  (← IO.getStderr).putStr failure.report
  return 1

/-- Carries out actions in order; a file that cannot be written ends the run. -/
def carryOut (failure : Option Failure) : List Action → IO UInt32
  | [] =>
    match failure with
    | none => return 0
    | some failure => reportFailure failure
  | .print line :: rest => do
    IO.println line
    carryOut failure rest
  | .save path text purpose :: rest => do
    let fault ← try IO.FS.writeFile path text; pure none catch error => pure (some (faultAt path error))
    match fault with
    | none => carryOut failure rest
    | some fault => reportFailure (Run.saveFailure purpose fault)

/-- Runs a program on the files of the machine. -/
def runOnMachine (program : Program) (arguments : List String) : IO UInt32 := do
  match program.parse arguments with
  | .error .usage => do
    IO.eprintln "error: these arguments cannot be used"
    return 2
  | .error (.failure failure) => reportFailure failure
  | .ok job => do
    let known ← gather job.level.folder [] [job.level]
    let run := job.run fun path => (known.lookup path).getD (.error .notFound)
    carryOut run.failure run.actions

end LevelPlay.Program

open LevelPlay

def main : List String → IO UInt32
  | "play" :: arguments => Program.runOnMachine .play arguments
  | "list" :: arguments => Program.runOnMachine .list arguments
  | _ => do
    IO.eprintln "usage: levelplay play --level PATH [OPTION]... | levelplay list PATH [OPTION]..."
    return 2
