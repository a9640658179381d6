import LevelPlay.Value.Entries

/-! Reading a value from the front of a list of tokens. The first token tells what is read: a typed object
or list, an autofield, three numbers in angle brackets, an id or a number. The entries of a container are
values in turn; its reader is given a reader for fewer tokens, and the two are tied together at the end. -/

namespace LevelPlay.Value

/-- A reader of values from the front of fewer than `bound` tokens. -/
abbrev SubReader (bound : Nat) := (tokens : List Token) → tokens.length < bound → Reading Value tokens

/-! ### Taking in entries -/

/-- Puts a value into a field that has not been set in this object. -/
def setOnce (type : ObjectType) (name : Token) (value : Value) (state : Object × List Token) :
    Except ValueError (Object × List Token) :=
  if name ∈ state.2 then .error (.repeatedField name type)
  else
    match state.1.setField name value with
    | .error e => .error (.field name type e)
    | .ok changed => .ok (changed, name :: state.2)

/-- Appends a value to the items of a list with elements of the given type. -/
def appendItem (element : TypeName) (value : Value) (items : List Value) : Except ValueError (List Value) :=
  match value.fit? element with
  | none => .error (.misfit element value.kind)
  | some item => .ok (items ++ [item])

def putValue (value : Value) (a : Autofield) : Except ValueError Autofield :=
  match a.insert? value with
  | none => .error (.repeatedKind value.kind)
  | some a => .ok a

/-- Puts the tag that a token names into an autofield. -/
def putTag (token : Token) (a : Autofield) : Except ValueError Autofield :=
  match Tag.ofName? (String.ofList (token.toList.drop 1)) with
  | none => .error (.unknownTag token)
  | some tag => .ok (a.addTag tag)

/-- The object type that a body in braces needs. -/
def objectTypeOf (type : TypeName) : Except ValueError ObjectType :=
  match type.objectType? with
  | none => .error (.notConstructible type)
  | some type => .ok type

/-! ### Entries -/

/-- Reads a field of an object: its name, a colon and a value. -/
def readField {bound : Nat} (sub : SubReader bound) (type : ObjectType) (state : Object × List Token) :
    (tokens : List Token) → tokens.length < bound → Reading (Object × List Token) tokens
  | [], _ => .error .endOfLine
  | name :: afterName, h => do
    let ⟨front, h₁⟩ ← pass ":" afterName
    let (value, ⟨rest, h₂⟩) ← sub front (by simp only [List.length_cons] at h; omega)
    let state ← setOnce type name value state
    return (state, ⟨rest, by simp only [List.length_cons]; omega⟩)

def readItem {bound : Nat} (sub : SubReader bound) (element : TypeName) (items : List Value)
    (tokens : List Token) (h : tokens.length < bound) : Reading (List Value) tokens := do
  let (value, rest) ← sub tokens h
  let items ← appendItem element value items
  return (items, rest)

def readMember {bound : Nat} (sub : SubReader bound) (a : Autofield) :
    (tokens : List Token) → tokens.length < bound → Reading Autofield tokens
  | [], _ => .error .endOfLine
  | token :: after, h =>
    if Opening.of token = .tag then
      (putTag token a).map fun a => (a, ⟨after, length_lt_length_cons token after⟩)
    else do
      let (value, rest) ← sub (token :: after) h
      let a ← putValue value a
      return (a, rest)

/-! ### Containers -/

/-- Reads the fields of an object, after its opening brace. -/
def readObject {bound : Nat} (sub : SubReader bound) (name : TypeName) (tokens : List Token)
    (h : tokens.length < bound) : Reading Value tokens := do
  let type ← objectTypeOf name
  let rest ← close "\x7b" "\x7d" tokens
  let (built, _) ← readEntries (rest.1.length + 1) (readField sub type) (Object.blank type, []) tokens h
  return (object built, rest)

/-- Reads the items of a list, after its opening bracket. -/
def readList {bound : Nat} (sub : SubReader bound) (element : TypeName) (tokens : List Token)
    (h : tokens.length < bound) : Reading Value tokens := do
  let rest ← close "[" "]" tokens
  let items ← readEntries (rest.1.length + 1) (readItem sub element) [] tokens h
  return (list element items, rest)

/-- Reads the tags and values of an autofield, after its opening mark. -/
def readAutofield {bound : Nat} (sub : SubReader bound) (tokens : List Token)
    (h : tokens.length < bound) : Reading Value tokens := do
  let rest ← close Token.openAutofield Token.closeAutofield tokens
  let a ← readEntries (rest.1.length + 1) (readMember sub) Autofield.empty tokens h
  return (autofield a, rest)

/-- Reads a typed value, after the bracket that opens its type. -/
def readTyped {bound : Nat} (sub : SubReader bound) (tokens : List Token) (h : tokens.length < bound) :
    Reading Value tokens := do
  let (type, ⟨afterType, h₁⟩) ← readType tokens
  let (body, ⟨inside, h₂⟩) ← readBody type afterType
  let (value, ⟨rest, h₃⟩) ←
    match body with
    | .fields => readObject sub type inside (by omega)
    | .items => readList sub type inside (by omega)
  return (value, ⟨rest, by omega⟩)

/-! ### Values -/

def readVector (tokens : List Token) : Reading Value tokens :=
  (readTriple tokens).map fun found => (vector (roundedVector found.1), found.2)

/-- Reads an integer vector, after its percent sign. -/
def readIntVector (tokens : List Token) : Reading Value tokens := do
  let (xyz, rest) ← readTriple tokens
  let v ← indices xyz
  return (intVector v, rest)

/-- Reads a rotation in degrees, after its dollar sign. -/
def readRotation (tokens : List Token) : Reading Value tokens :=
  (readTriple tokens).map fun found => (rotation (.ofDegrees (roundedVector found.1)), found.2)

/-- The id that a token denotes, after its at sign. -/
def identifierOf (token : Token) : Except ValueError Value :=
  match Decimal.id? (token.toList.drop 1) with
  | none => .error (.malformedId token)
  | some id => .ok (identifier id)

/-- Reads a value from its first token and those after it. -/
def readOpened {bound : Nat} (sub : SubReader bound) (token : Token) (rest : List Token)
    (h : rest.length < bound) : Reading Value (token :: rest) :=
  match Opening.of token with
  | .typed => (readTyped sub rest h).after token
  | .autofield => (readAutofield sub rest h).after token
  | .vector => readVector (token :: rest)
  | .intVector => (readIntVector rest).after token
  | .rotation => (readRotation rest).after token
  | .tag => .error (.looseTag token)
  | .identifier => (identifierOf token).map fun value => (value, ⟨rest, length_lt_length_cons token rest⟩)
  | .number => (numberOf token).map fun x => (number x, ⟨rest, length_lt_length_cons token rest⟩)
  | .other => .error (.unrecognized token)

/-- Reads the value at the front of the tokens. -/
def parse : (tokens : List Token) → Reading Value tokens
  | [] => .error .endOfLine
  | token :: rest =>
    readOpened (fun inner (_ : inner.length < rest.length + 1) => parse inner) token rest (Nat.lt_succ_self _)
termination_by tokens => tokens.length

/-- The value that starts at a position of the tokens, and the position of its last token. -/
def parseAt (tokens : List Token) (start : Nat) : Except ValueError (Value × Nat) :=
  (parse (tokens.drop start)).map fun reading => (reading.1, tokens.length - reading.2.1.length - 1)

end LevelPlay.Value
