import LevelPlay.Text.Blank

/-! Cutting text: into pieces at a separator, into words at blanks, at the first occurrence of a marker,
and trimming of blanks. Each rule is a function on lists of characters, and has a form on strings beside
it. Pieces may be empty and words never are: joining the pieces with the separator gives the text back. -/

namespace LevelPlay.Text

/-- The stretches of `cs` between the characters that satisfy `p`. -/
def pieces (p : Char → Bool) : List Char → List (List Char)
  | [] => [[]]
  | c :: cs =>
    if p c then [] :: pieces p cs
    else
      match pieces p cs with
      | [] => [[c]]
      | piece :: rest => (c :: piece) :: rest

theorem pieces_ne_nil (p : Char → Bool) (cs : List Char) : pieces p cs ≠ [] := by
  cases cs with
  | nil => simp [pieces]
  | cons c cs => rw [pieces]; split <;> (try split) <;> simp

theorem pieces_cons_of_neg {p : Char → Bool} {c : Char} (h : p c = false) {cs piece : List Char}
    {rest : List (List Char)} (e : pieces p cs = piece :: rest) :
    pieces p (c :: cs) = (c :: piece) :: rest := by
  simp [pieces, h, e]

/-- The nonempty stretches between blanks. -/
def blankWords (cs : List Char) : List (List Char) :=
  (pieces isBlank cs).filter (!·.isEmpty)

/-- What follows the leading blanks. -/
def dropBlanks (cs : List Char) : List Char :=
  cs.dropWhile isBlank

/-- What stands between the leading and the trailing blanks. -/
def trimBlanks (cs : List Char) : List Char :=
  (dropBlanks (dropBlanks cs).reverse).reverse

/-- What stands before the first occurrence of `marker`; all of `cs` if there is none. -/
def before (marker : List Char) : List Char → List Char
  | [] => []
  | c :: cs => if marker.isPrefixOf (c :: cs) then [] else c :: before marker cs

/-- The two sides of the first occurrence of `marker`. -/
def around (marker : List Char) : List Char → Option (List Char × List Char)
  | [] => if marker.isEmpty then some ([], []) else none
  | c :: cs =>
    if marker.isPrefixOf (c :: cs) then some ([], (c :: cs).drop marker.length)
    else (around marker cs).map fun sides => (c :: sides.1, sides.2)

/-! ### The same on strings -/

/-- The words of a text: its longest stretches without a blank. -/
def words (s : String) : List String :=
  (blankWords s.toList).map String.ofList

/-- Words with one space between neighbours. -/
def unwords (ws : List String) : String :=
  " ".intercalate ws

/-- The pieces between the occurrences of one separating character. -/
def cut (separator : Char) (s : String) : List String :=
  (pieces (· == separator) s.toList).map String.ofList

def trim (s : String) : String :=
  String.ofList (trimBlanks s.toList)

/-- The text before the first space: all of it if there is no space. -/
def firstWord (s : String) : String :=
  String.ofList (s.toList.takeWhile (· != ' '))

/-- What follows the first word, trimmed. -/
def afterFirstWord (s : String) : String :=
  String.ofList (trimBlanks (s.toList.dropWhile (· != ' ')))

/-- Pads on the left with spaces to at least `width` characters. -/
def alignRight (width : Nat) (s : String) : String :=
  String.ofList (List.replicate (width - s.length) ' ') ++ s

end LevelPlay.Text
