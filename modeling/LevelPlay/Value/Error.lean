import LevelPlay.Decimal.Style
import LevelPlay.Token.MacroTable
import LevelPlay.Value.Fields

/-! Why a run of tokens is not a value, and how messages say it. -/

namespace LevelPlay

inductive ValueError
  | endOfLine
  | unexpected (wanted found : Token)
  | notNumber (found : Token)
  | malformedNumber (found : Token)
  | fractional (x : Float)
  | looseTag (found : Token)
  | malformedId (found : Token)
  | unrecognized (found : Token)
  | unclosed (bracket : Token)
  | overrun
  | noComma (found : Token)
  | malformedType (found : Token)
  | unknownType (found : Token)
  | noBody (type : TypeName) (found : Token)
  | notConstructible (type : TypeName)
  | repeatedField (name : Token) (type : ObjectType)
  | field (name : Token) (type : ObjectType) (error : FieldError)
  | misfit (element : TypeName) (found : Kind)
  | unknownTag (found : Token)
  | repeatedKind (kind : Kind)

def FieldError.message (name : Token) (type : ObjectType) : FieldError → String
  | unknown => s!"unknown field '{name}' on {type.name}"
  | mismatch expected found => s!"field '{name}' on {type.name} expects {expected}, found {found.text}"

namespace ValueError

def message : ValueError → String
  | endOfLine => "unexpected end of line while reading a value"
  | unexpected wanted found => s!"expected '{wanted}', found '{found}'"
  | notNumber found => s!"expected a number, found '{found}'"
  | malformedNumber found => s!"malformed number '{found}'"
  | fractional x => s!"integer vector component {Decimal.plain x} is not an integer"
  | looseTag found => s!"tag '{found}' may only appear inside an autofield"
  | malformedId found => s!"malformed identifier '{found}'"
  | unrecognized found => s!"unrecognized value token '{found}'"
  | unclosed bracket => s!"unterminated '{bracket}'"
  | overrun => "value runs past its closing bracket"
  | noComma found => s!"expected ',' between entries, found '{found}'"
  | malformedType found => s!"malformed type name '{found}'"
  | unknownType found => s!"unknown type '{found}'"
  | noBody type found => s!"expected '\x7b' or '[' after [{type.name}], found '{found}'"
  | notConstructible type => s!"type '{type.name}' cannot be constructed as an object"
  | repeatedField name type => s!"field '{name}' set twice on {type.name}"
  | field name type error => error.message name type
  | misfit element found => s!"[{element.name}] list cannot hold a {found.text}"
  | unknownTag found => s!"unknown tag '{found}'"
  | repeatedKind kind => s!"autofield already holds a {kind.text} value"

end ValueError

end LevelPlay
