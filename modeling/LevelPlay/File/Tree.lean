import LevelPlay.File.Path
import LevelPlay.Text.Words

/-! Trees of files and folders, and how a path leads through them. The top of the tree is the working
directory. Above it are folders of which nothing else is known, so no file is found there. -/

namespace LevelPlay

/-- What a file holds: text, or bytes that are none. -/
inductive FileContent
  | text (s : String)
  | bytes
  deriving DecidableEq, Repr

/-- What a place in a tree is. -/
inductive FileNode
  | file (content : FileContent)
  | folder
  deriving DecidableEq, Repr

/-- Files and folders by the names that lead to them from the working directory. The folders on the way to
a file or folder need no entry of their own. -/
structure FileTree where
  files : List (List String × FileContent)
  folders : List (List String)

/-- A place that a path has led to. -/
inductive FilePlace
  | inside (names : List String)
  | above
  deriving DecidableEq, Repr

/-- The folder that `..` leads to from a place. -/
def FilePlace.parent : FilePlace → FilePlace
  | .inside names => if names.isEmpty then .above else .inside names.dropLast
  | .above => .above

namespace FileTree

def empty : FileTree := ⟨[], []⟩

/-- The longest name of a file, in bytes. -/
def maxName : Nat := 255

/-- The length, in bytes, from which on a path is too long. -/
def maxPath : Nat := 4096

def names (path : Path) : List String :=
  (Text.cut '/' path).filter fun name => !name.isEmpty && name != "."

def node? (tree : FileTree) : FilePlace → Option FileNode
  | .above => some .folder
  | .inside names =>
    match tree.files.lookup names with
    | some content => some (.file content)
    | none =>
      if names.isEmpty || (tree.files.map Prod.fst ++ tree.folders).any names.isPrefixOf then some .folder
      else none

/-- Puts a file at some names, in place of the file there, if any. -/
def put (tree : FileTree) (names : List String) (content : FileContent) : FileTree :=
  { tree with files := (names, content) :: tree.files.filter fun file => file.1 != names }

/-- The tree with one more file, and the folders on the way to it. -/
def addFile (tree : FileTree) (path : Path) (content : FileContent) : FileTree :=
  tree.put (names path) content

def addFolder (tree : FileTree) (path : Path) : FileTree :=
  { tree with folders := names path :: tree.folders }

/-- One step of a path. A name that is too long is refused in every folder, known or not. -/
def step (tree : FileTree) (place : FilePlace) (name : String) : Except FileFault FilePlace :=
  if tree.node? place != some .folder then .error .notFolder
  else if name.isEmpty ∨ name = "." then .ok place
  else if name = ".." then .ok place.parent
  else if maxName < name.utf8ByteSize then .error .nameTooLong
  else
    match place with
    | .above => .error .notFound
    | .inside names =>
      if (tree.node? (.inside (names ++ [name]))).isSome then .ok (.inside (names ++ [name]))
      else .error .notFound

def follow (tree : FileTree) (path : Path) (steps : List String) : Except FileFault FilePlace :=
  if '\x00' ∈ path.toList then .error .nulInName
  else if path.isEmpty then .error .notFound
  else if maxPath ≤ path.utf8ByteSize then .error .nameTooLong
  else steps.foldlM tree.step (if Path.isAbsolute path then .above else .inside [])

def read (tree : FileTree) : FileReader := fun path => do
  let place ← tree.follow path (Text.cut '/' path)
  match tree.node? place with
  | some (.file (.text s)) => return s
  | some (.file .bytes) => throw .notText
  | some .folder => throw .isFolder
  | none => throw .notFound

/-- Writes a file. Its folder has to be there; a path that ends in a slash names a folder. -/
def write (tree : FileTree) (path : Path) (text : String) : Except FileFault FileTree := do
  let reversed := (Text.cut '/' path).reverse.dropWhile (·.isEmpty)
  let name := reversed.headD "."
  let place ← tree.follow path (reversed.drop 1).reverse
  if tree.node? place != some .folder then throw .notFolder
  else if name = "." ∨ name = ".." ∨ path.toList.getLast? = some '/' then throw .isFolder
  else if maxName < name.utf8ByteSize then throw .nameTooLong
  else
    match place with
    | .above => return tree
    | .inside names =>
      if tree.node? (.inside (names ++ [name])) = some .folder then throw .isFolder
      else return tree.put (names ++ [name]) (.text text)

end FileTree

end LevelPlay
