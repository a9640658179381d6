import LevelPlay.Decimal.Numeral
import LevelPlay.Token
import LevelPlay.Value.Autofield
import LevelPlay.Value.Error

/-! Reading from the front of a list of tokens: what a value may consist of, short of containers. Whatever is
read, what is left of the tokens is shorter than what was given, and the result carries the proof. -/

namespace LevelPlay.Value

/-- What is left of `tokens` once something has been read from its front. -/
abbrev Rest (tokens : List Token) := { rest : List Token // rest.length < tokens.length }

/-- Something read from the front of `tokens`, and what is left. -/
abbrev Reading (α : Type) (tokens : List Token) := Except ValueError (α × Rest tokens)

theorem length_lt_length_cons (token : Token) (rest : List Token) : rest.length < (token :: rest).length :=
  Nat.lt_succ_self rest.length

/-- What is read after a token is read after the token and what follows it. -/
def Reading.after {α : Type} (token : Token) {rest : List Token} (reading : Reading α rest) :
    Reading α (token :: rest) :=
  reading.map fun found => (found.1, ⟨found.2.1, Nat.lt_succ_of_lt found.2.2⟩)

/-! ### Single tokens -/

/-- Passes over one given token. -/
def pass (wanted : Token) : (tokens : List Token) → Except ValueError (Rest tokens)
  | [] => .error .endOfLine
  | token :: rest =>
    if token = wanted then .ok ⟨rest, length_lt_length_cons token rest⟩
    else .error (.unexpected wanted token)

/-- The number a token is. -/
def numberOf (token : Token) : Except ValueError Float :=
  if Decimal.isLevelNumber token then
    match Decimal.number? token with
    | some x => .ok x
    | none => .error (.malformedNumber token)
  else .error (.notNumber token)

def readNumber : (tokens : List Token) → Reading Float tokens
  | [] => .error .endOfLine
  | token :: rest => (numberOf token).map fun x => (x, ⟨rest, length_lt_length_cons token rest⟩)

/-- Reads three numbers in angle brackets, with commas between them. -/
def readTriple (tokens : List Token) : Reading (Float × Float × Float) tokens := do
  let ⟨afterOpen, h₁⟩ ← pass "<" tokens
  let (x, ⟨afterX, h₂⟩) ← readNumber afterOpen
  let ⟨beforeY, h₃⟩ ← pass "," afterX
  let (y, ⟨afterY, h₄⟩) ← readNumber beforeY
  let ⟨beforeZ, h₅⟩ ← pass "," afterY
  let (z, ⟨afterZ, h₆⟩) ← readNumber beforeZ
  let ⟨rest, h₇⟩ ← pass ">" afterZ
  return ((x, y, z), ⟨rest, by omega⟩)

/-- A vector of level space, each coordinate rounded to single precision. -/
def roundedVector (xyz : Float × Float × Float) : Vec3 :=
  ⟨xyz.1.toFloat32, xyz.2.1.toFloat32, xyz.2.2.toFloat32⟩

/-- The index that a component of an integer vector denotes. -/
def indexOf (x : Float) : Except ValueError Int :=
  match Decimal.idOfFloat? x with
  | some index => .ok index
  | none => .error (.fractional x)

/-- An integer vector; the first component that is no index is the error. -/
def indices (xyz : Float × Float × Float) : Except ValueError IntVec3 := do
  let x ← indexOf xyz.1
  let y ← indexOf xyz.2.1
  let z ← indexOf xyz.2.2
  return ⟨x, y, z⟩

/-- Whether a token can be a type name: letters, digits and underscores, no digit first. -/
def isTypeName (token : Token) : Bool :=
  match token.toList with
  | [] => false
  | c :: cs => (c.isAlpha || c == '_') && cs.all fun c => c.isAlphanum || c == '_'

/-- What the first token of a value announces. -/
inductive Opening
  | typed
  | autofield
  | vector
  | intVector
  | rotation
  | tag
  | identifier
  | number
  | other
  deriving DecidableEq, Repr

/-- Classifies the first token of a value. -/
def Opening.of (token : Token) : Opening :=
  if token = "[" then .typed
  else if token = Token.openAutofield then .autofield
  else if token = "<" then .vector
  else if token = "%" then .intVector
  else if token = "$" then .rotation
  else if token.toList.head? = some '#' then .tag
  else if token.toList.head? = some '@' then .identifier
  else if Decimal.isLevelNumber token then .number
  else .other

/-! ### Types -/

/-- Reads the type name of a typed value, past the bracket that closes it. -/
def readType : (tokens : List Token) → Reading TypeName tokens
  | [] => .error .endOfLine
  | token :: rest =>
    if isTypeName token then do
      let ⟨body, h⟩ ← pass "]" rest
      match TypeName.ofName? token with
      | none => .error (.unknownType token)
      | some type => return (type, ⟨body, by simp only [List.length_cons]; omega⟩)
    else .error (.malformedType token)

/-- What the first token of a typed value's body announces. -/
inductive Body
  | fields
  | items
  deriving DecidableEq, Repr

/-- Reads the token that opens the body of a typed value. -/
def readBody (type : TypeName) : (tokens : List Token) → Reading Body tokens
  | [] => .error .endOfLine
  | token :: rest =>
    if token = "\x7b" then .ok (.fields, ⟨rest, length_lt_length_cons token rest⟩)
    else if token = "[" then .ok (.items, ⟨rest, length_lt_length_cons token rest⟩)
    else .error (.noBody type token)

end LevelPlay.Value
