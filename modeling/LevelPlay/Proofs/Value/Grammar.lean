import Mathlib.Data.List.Forall2
import LevelPlay.Value.Reader

/-! The grammar of values. It tells which lists of tokens denote a value, and which value, without saying how
such a list is found: containers hold entries with commas between them, and a comma may follow the last. -/

namespace LevelPlay.Value

/-- Entries with commas between them, and possibly one comma after the last. -/
inductive Entries {α : Type} (entry : List Token → α → Prop) : List Token → List α → Prop where
  | none : Entries entry [] []
  | last {tokens : List Token} {a : α} (hentry : entry tokens a) : Entries entry tokens [a]
  | more {tokens rest : List Token} {a : α} {as : List α} (hentry : entry tokens a)
      (hrest : Entries entry rest as) : Entries entry (tokens ++ "," :: rest) (a :: as)

/-- An entry of an object: a name, a colon and a value. -/
inductive FieldOf (denotes : List Token → Value → Prop) : List Token → Token × Value → Prop where
  | mk (name : Token) {tokens : List Token} {v : Value} (hvalue : denotes tokens v) :
      FieldOf denotes (name :: ":" :: tokens) (name, v)

/-- An entry of an autofield: a known tag after `#`, or a value. -/
inductive MemberOf (denotes : List Token → Value → Prop) : List Token → Tag ⊕ Value → Prop where
  | tag {name : String} {tag : Tag} (htag : Tag.ofName? name = some tag) :
      MemberOf denotes ["#" ++ name] (.inl tag)
  | value {tokens : List Token} {v : Value} (hvalue : denotes tokens v) : MemberOf denotes tokens (.inr v)

/-- A token that is a number of level text, with its value. -/
def IsNumber (token : Token) (x : Float) : Prop :=
  Decimal.isLevelNumber token = true ∧ Decimal.number? token = some x

/-- Three numbers in angle brackets. -/
inductive Triple : List Token → Float × Float × Float → Prop where
  | mk {a b c : Token} {x y z : Float} (hx : IsNumber a x) (hy : IsNumber b y) (hz : IsNumber c z) :
      Triple ["<", a, ",", b, ",", c, ">"] (x, y, z)

/-- The tokens denote the value. -/
inductive Denotes : List Token → Value → Prop where
  | number {token : Token} {x : Float} (hx : IsNumber token x) : Denotes [token] (.number x)
  | identifier {figures : String} {id : Int} (hid : Decimal.id? figures.toList = some id) :
      Denotes ["@" ++ figures] (.identifier id)
  | vector {tokens : List Token} {xyz : Float × Float × Float} (hxyz : Triple tokens xyz) :
      Denotes tokens (.vector (roundedVector xyz))
  | intVector {tokens : List Token} {x y z : Float} {i j k : Int} (hxyz : Triple tokens (x, y, z))
      (hi : Decimal.idOfFloat? x = some i) (hj : Decimal.idOfFloat? y = some j)
      (hk : Decimal.idOfFloat? z = some k) : Denotes ("%" :: tokens) (.intVector ⟨i, j, k⟩)
  | rotation {tokens : List Token} {xyz : Float × Float × Float} (hxyz : Triple tokens xyz) :
      Denotes ("$" :: tokens) (.rotation (.ofDegrees (roundedVector xyz)))
  /-- An object of a type that is built field by field. Each field is set at most once, starting from the
  object whose fields have not been set. -/
  | object {name : Token} {type : ObjectType} {tokens : List Token} {fields : List (Token × Value)}
      {o : Object} (htype : TypeName.ofName? name = some (.object type))
      (hentries : Entries (FieldOf Denotes) tokens fields) (hdistinct : (fields.map Prod.fst).Nodup)
      (hset : fields.foldlM (fun o field => o.setField field.1 field.2) (Object.blank type) = .ok o) :
      Denotes ("[" :: name :: "]" :: "\x7b" :: (tokens ++ ["\x7d"])) (.object o)
  /-- A list whose items each fit the element type. -/
  | list {name : Token} {element : TypeName} {tokens : List Token} {values items : List Value}
      (htype : TypeName.ofName? name = some element) (hentries : Entries Denotes tokens values)
      (hfit : List.Forall₂ (fun v item => fit? element v = some item) values items) :
      Denotes ("[" :: name :: "]" :: "[" :: (tokens ++ ["]"])) (.list element items)
  /-- An autofield with the tags and, in order, the values of its entries, at most one of each kind. -/
  | autofield {tokens : List Token} {members : List (Tag ⊕ Value)} {a : Autofield}
      (hentries : Entries (MemberOf Denotes) tokens members)
      (htags : ∀ tag, a.tags.has tag = true ↔ .inl tag ∈ members)
      (hfields : a.fields = members.filterMap Sum.getRight?) (hkinds : (a.fields.map kind).Nodup) :
      Denotes (Token.openAutofield :: (tokens ++ [Token.closeAutofield])) (.autofield a)

end LevelPlay.Value
