import LevelPlay.Text.Words

/-! Lines of level text. Cleaning a line drops its comment, trims it and leaves single spaces between its
words; a text is the list of its cleaned lines that are not empty. All line numbers in messages count
these lines, from zero. -/

namespace LevelPlay

/-- One line of level text. -/
abbrev Line := String

namespace Line

/-- The marks that open a comment, in the order in which they are looked for. -/
def commentMarks : List String := ["##", "//"]

/-- What stands before the first comment mark of each kind. -/
def withoutComment (cs : List Char) : List Char :=
  commentMarks.foldl (fun text mark => Text.before mark.toList text) cs

/-- The words of the line before its comment, one space apart. -/
def clean (line : Line) : Line :=
  Text.unwords ((Text.blankWords (withoutComment line.toList)).map String.ofList)

/-- The cleaned lines of a text that hold a word. A carriage return before the line feed is blank, so it
goes with the cleaning. -/
def ofText (text : String) : List Line :=
  ((Text.cut '\n' text).map clean).filter (!·.isEmpty)

end Line

end LevelPlay
