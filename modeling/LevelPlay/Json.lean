import LevelPlay.Decimal.Style

/-! JSON documents. Numbers keep their width, because the fewest digits that identify a number of 32 bits
are fewer than those of the same number with 64; members of an object keep the order in which they were
written. A document is printed on one line, or with one member a line and two spaces for each level. -/

namespace LevelPlay

inductive Json
  | null
  | bool (b : Bool)
  | int (n : Int)
  | number32 (x : Float32)
  | number64 (x : Float)
  | string (s : String)
  | array (items : List Json)
  | object (members : List (String × Json))

namespace Json

instance : Inhabited Json := ⟨null⟩

/-! ### Leaves -/

/-- The format of numbers of 64 bits: positional from five zeros after the point to sixteen digits. -/
def style64 : Decimal.Style where
  tie := .even
  positional := some (-5, 15)
  fraction := true
  plus := "+"

/-- The format of numbers of 32 bits: positional from six zeros after the point to thirteen digits. -/
def style32 : Decimal.Style where
  tie := .even
  positional := some (-6, 12)
  fraction := true
  plus := "+"

/-- The text of a number; one that is not finite is `null`. -/
def numberText (style : Decimal.Style) : Decimal.Binary → String
  | .finite negative size => style.write (.finite negative size)
  | _ => "null"

def hexDigit (n : Nat) : Char :=
  Nat.digitChar (n % 16)

/-- The form of a character inside a string. -/
def escape (c : Char) : List Char :=
  if c = '"' then ['\\', '"']
  else if c = '\\' then ['\\', '\\']
  else if c = '\n' then ['\\', 'n']
  else if c = '\r' then ['\\', 'r']
  else if c = '\t' then ['\\', 't']
  else if c = '\x08' then ['\\', 'b']
  else if c = '\x0c' then ['\\', 'f']
  else if c.toNat < 32 then ['\\', 'u', '0', '0', hexDigit (c.toNat / 16), hexDigit c.toNat]
  else [c]

def quote (s : String) : String :=
  String.ofList ('"' :: s.toList.flatMap escape ++ ['"'])

/-! ### Documents -/

mutual

/-- A document on one line, without spaces. -/
def compact : Json → String
  | null => "null"
  | bool b => if b then "true" else "false"
  | int n => toString n
  | number32 x => numberText style32 (.ofFloat32 x)
  | number64 x => numberText style64 (.ofFloat x)
  | string s => quote s
  | array items => "[" ++ ",".intercalate (compactItems items) ++ "]"
  | object members => "\x7b" ++ ",".intercalate (compactMembers members) ++ "\x7d"

def compactItems : List Json → List String
  | [] => []
  | item :: rest => compact item :: compactItems rest

def compactMembers : List (String × Json) → List String
  | [] => []
  | (key, value) :: rest => (quote key ++ ":" ++ compact value) :: compactMembers rest

end

/-- A line break and the indentation of `depth` levels. -/
def newline (depth : Nat) : String :=
  String.ofList ('\n' :: List.replicate (2 * depth) ' ')

/-- Brackets around parts, each part on a line of its own one level deeper. -/
def block (depth : Nat) (left right : String) (parts : List String) : String :=
  if parts.isEmpty then left ++ right
  else
    left ++ newline (depth + 1) ++ ("," ++ newline (depth + 1)).intercalate parts ++ newline depth ++ right

mutual

def prettyAt (depth : Nat) : Json → String
  | array items => block depth "[" "]" (prettyItems (depth + 1) items)
  | object members => block depth "\x7b" "\x7d" (prettyMembers (depth + 1) members)
  | leaf => compact leaf

def prettyItems (depth : Nat) : List Json → List String
  | [] => []
  | item :: rest => prettyAt depth item :: prettyItems depth rest

def prettyMembers (depth : Nat) : List (String × Json) → List String
  | [] => []
  | (key, value) :: rest => (quote key ++ ": " ++ prettyAt depth value) :: prettyMembers depth rest

end

/-- A document over several lines. -/
def pretty (json : Json) : String :=
  prettyAt 0 json

/-- An optional part, `null` where it is absent. -/
def optional {α : Type} (encode : α → Json) : Option α → Json
  | none => null
  | some a => encode a

def ofList {α : Type} (encode : α → Json) (items : List α) : Json :=
  array (items.map encode)

end Json

end LevelPlay
