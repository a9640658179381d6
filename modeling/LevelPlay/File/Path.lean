/-! Paths of files, as text with `/` between names, and what can go wrong when a file is read or written. -/

namespace LevelPlay

abbrev Path := String

namespace Path

/-- Whether a path does not depend on the working directory. -/
def isAbsolute (path : Path) : Bool :=
  path.toList.head? == some '/'

/-- A path seen from a folder: one slash between the two, and none after the empty path. -/
def join (folder path : Path) : Path :=
  if isAbsolute path ∨ folder.isEmpty then path
  else if folder.toList.getLast? = some '/' then folder ++ path
  else folder ++ "/" ++ path

/-- Drops slashes, and dots that stand for the folder itself, from the end of a reversed path. -/
def dropEmptySteps : List Char → List Char
  | '/' :: [] => ['/']
  | '/' :: cs => dropEmptySteps cs
  | '.' :: '/' :: cs => dropEmptySteps ('/' :: cs)
  | cs => cs

/-- The folder in which the file of a path stands; empty for the working directory. -/
def folder (path : Path) : Path :=
  String.ofList (dropEmptySteps (path.toList.reverse.dropWhile (· != '/'))).reverse

end Path

/-- Why a file cannot be read or written. -/
inductive FileFault
  | notFound
  | notFolder
  | isFolder
  | nameTooLong
  | nulInName
  | notText
  /-- A fault that the operating system words itself. -/
  | other (text : String)
  deriving DecidableEq, Repr

def FileFault.message : FileFault → String
  | notFound => "No such file or directory (os error 2)"
  | notFolder => "Not a directory (os error 20)"
  | isFolder => "Is a directory (os error 21)"
  | nameTooLong => "File name too long (os error 36)"
  | nulInName => "file name contained an unexpected NUL byte"
  | notText => "stream did not contain valid UTF-8"
  | other text => text

/-- The files a level may import, by path. -/
abbrev FileReader := Path → Except FileFault String

end LevelPlay
