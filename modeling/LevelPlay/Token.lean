import LevelPlay.Token.MacroTable

/-! Tokens of a line. Ten characters are tokens of their own wherever they stand, and so are the two marks
of an autofield, which take precedence: spaces are put around them, and the line is cut at blanks. Each
token that names a macro is then replaced by the macro's body, and the result is cut once more, so that a
body is never searched for macros. -/

namespace LevelPlay.Token

def openAutofield : Token := "\x7b:"

def closeAutofield : Token := ":\x7d"

/-- The characters that are tokens wherever they stand. -/
def delimiters : List Char := [',', '{', '}', '[', ']', '<', '>', ':', '%', '$']

/-- Puts spaces around each delimiter and each autofield mark. The private-use characters U+E000 and
U+E001 are further spellings of the two marks. -/
def spaced : List Char → List Char
  | [] => []
  | '{' :: ':' :: cs => ' ' :: '{' :: ':' :: ' ' :: spaced cs
  | ':' :: '}' :: cs => ' ' :: ':' :: '}' :: ' ' :: spaced cs
  | c :: cs =>
    if c = '\uE000' then ' ' :: '{' :: ':' :: ' ' :: spaced cs
    else if c = '\uE001' then ' ' :: ':' :: '}' :: ' ' :: spaced cs
    else if c ∈ delimiters then ' ' :: c :: ' ' :: spaced cs
    else c :: spaced cs

/-- A line with spaces around its delimiters and autofield marks. -/
def delimit (line : Line) : Line :=
  String.ofList (spaced line.toList)

/-- The tokens of a line in which nothing is a macro. -/
def plain (line : Line) : List Token :=
  Text.words (delimit line)

/-- The tokens of a line, macros replaced. -/
def ofLine (table : MacroTable) (line : Line) : List Token :=
  plain (Text.unwords ((plain line).map table.expansion))

/-- Whether a token is a nonempty run of decimal digits. -/
def isDigits (token : Token) : Bool :=
  !token.isEmpty && token.toList.all Char.isDigit

/-- Joins each `$` and the run of digits right after it into one token, the reference to a script
argument. -/
def fuseReferences : List Token → List Token
  | [] => []
  | [token] => [token]
  | token :: next :: rest =>
    if token = "$" ∧ isDigits next then ("$" ++ next) :: fuseReferences rest
    else token :: fuseReferences (next :: rest)

end LevelPlay.Token
