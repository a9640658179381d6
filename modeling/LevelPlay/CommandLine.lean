import LevelPlay.Launch

/-! Command lines. Options begin with two dashes and may stand anywhere; an option with a value takes the
part after `=`, or the next argument, which must not look like an option. After `--` every argument stands
for itself. An option that is given twice, unless it may be, and one that is not known are usage errors. -/

namespace LevelPlay

namespace CommandLine

/-- The options a program knows: those that stand alone, and those with a value. -/
structure OptionTable where
  flags : List String
  valued : List String

/-- An argument, by the part it plays. -/
inductive Argument
  | flag (name : String)
  | valued (name value : String)
  | plain (text : String)
  deriving DecidableEq, Repr

/-- Whether an argument looks like an option. A single dash does not. -/
def looksLikeOption (argument : String) : Bool :=
  argument.toList.head? == some '-' && argument != "-"

/-- Tells the parts that arguments play; nothing if one plays none. -/
def scan (table : OptionTable) : List String → Option (List Argument)
  | [] => some []
  | argument :: rest =>
    if argument = "--" then some (rest.map .plain)
    else if "--".toList.isPrefixOf argument.toList then
      let body := argument.toList.drop 2
      match Text.around ['='] body with
      | some (name, value) =>
        if String.ofList name ∈ table.valued then
          (scan table rest).map (.valued (String.ofList name) (String.ofList value) :: ·)
        else none
      | none =>
        let name := String.ofList body
        if name ∈ table.flags then (scan table rest).map (.flag name :: ·)
        else if name ∈ table.valued then
          match rest with
          | [] => none
          | value :: more =>
            if looksLikeOption value then none else (scan table more).map (.valued name value :: ·)
        else none
    else if looksLikeOption argument then none
    else (scan table rest).map (.plain argument :: ·)

/-- Whether a flag is given; nothing if it is given twice. -/
def flag? (arguments : List Argument) (name : String) : Option Bool :=
  match arguments.count (.flag name) with
  | 0 => some false
  | 1 => some true
  | _ => none

def values (arguments : List Argument) (name : String) : List String :=
  arguments.filterMap fun
    | .valued other value => if other = name then some value else none
    | _ => none

/-- The value of an option that may be given once; nothing if it is given twice. -/
def value? (arguments : List Argument) (name : String) : Option (Option String) :=
  match values arguments name with
  | [] => some none
  | [value] => some (some value)
  | _ => none

/-- The value of an option, read; nothing if it is given twice or cannot be read. -/
def readValue? {α : Type} (arguments : List Argument) (name : String) (absent : α)
    (read : String → Option α) : Option α :=
  match value? arguments name with
  | none => none
  | some none => some absent
  | some (some value) => read value

/-- A path, which must not be empty. -/
def path? (text : String) : Option Path :=
  if text.isEmpty then none else some text

/-- The arguments that are no options. -/
def plains (arguments : List Argument) : List String :=
  arguments.filterMap fun
    | .plain text => some text
    | _ => none

end CommandLine

/-- Why a command line cannot be used: it is malformed, or a value in it makes no sense. -/
inductive Rejection
  | usage
  | failure (failure : Failure)
  deriving DecidableEq, Repr

end LevelPlay
