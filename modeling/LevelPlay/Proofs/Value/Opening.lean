import LevelPlay.Proofs.Value.Balance

/-! The first token of a value. It tells what kind of value the grammar can derive from there on, and the
reader goes by the same distinction. -/

namespace LevelPlay.Value

/-- What the first token of tokens that denote the value announces. -/
def openingOf : Value → Opening
  | number _ => .number
  | identifier _ => .identifier
  | vector _ => .vector
  | intVector _ => .intVector
  | rotation _ => .rotation
  | autofield _ => .autofield
  | object _ | list _ _ => .typed

/-- The first token, given what it announces. -/
def Opening.Announces (token : Token) : Opening → Prop
  | .typed => token = "["
  | .autofield => token = Token.openAutofield
  | .vector => token = "<"
  | .intVector => token = "%"
  | .rotation => token = "$"
  | .tag => ∃ name, token = "#" ++ name
  | .identifier => ∃ figures, token = "@" ++ figures
  | .number => Decimal.isLevelNumber token = true
  | .other => True

theorem exists_of_head {token : Token} {c : Char} (h : token.toList.head? = some c) :
    ∃ tail, token = String.singleton c ++ tail := by
  obtain ⟨cs, hcs⟩ := List.head?_eq_some_iff.mp h
  refine ⟨String.ofList cs, String.toList_inj.mp ?_⟩
  rw [hcs]
  simp

theorem announces_of (token : Token) : Opening.Announces token (Opening.of token) := by
  rw [Opening.of]
  split_ifs with h₁ h₂ h₃ h₄ h₅ htag hid hnumber
  · exact h₁
  · exact h₂
  · exact h₃
  · exact h₄
  · exact h₅
  · exact exists_of_head htag
  · exact exists_of_head hid
  · exact hnumber
  · trivial

/-- The tokens that announce a value by themselves. -/
def openingMarks : List Token :=
  ["[", Token.openAutofield, "<", "%", "$"]

/-- Any other token announces a value by how it begins. -/
theorem of_eq_of_ne {token : Token} (hne : ∀ mark ∈ openingMarks, token ≠ mark) :
    Opening.of token =
      if token.toList.head? = some '#' then .tag
      else if token.toList.head? = some '@' then .identifier
      else if Decimal.isLevelNumber token then .number
      else .other := by
  simp only [openingMarks, List.forall_mem_cons] at hne
  obtain ⟨h₁, h₂, h₃, h₄, h₅, -⟩ := hne
  rw [Opening.of, if_neg h₁, if_neg h₂, if_neg h₃, if_neg h₄, if_neg h₅]

theorem ne_mark_of_head {token : Token} {c : Char} (h : token.toList.head? = some c)
    (hmarks : ∀ mark ∈ openingMarks, mark.toList.head? ≠ some c) : ∀ mark ∈ openingMarks, token ≠ mark := by
  rintro mark hmark rfl
  exact hmarks token hmark h

theorem of_tag (name : String) : Opening.of ("#" ++ name) = .tag := by
  have hhead : ("#" ++ name).toList.head? = some '#' := by simp
  rw [of_eq_of_ne (ne_mark_of_head hhead (by decide)), if_pos hhead]

theorem of_identifier (figures : String) : Opening.of ("@" ++ figures) = .identifier := by
  have hhead : ("@" ++ figures).toList.head? = some '@' := by simp
  rw [of_eq_of_ne (ne_mark_of_head hhead (by decide)), if_neg (by rw [hhead]; decide), if_pos hhead]

/-- A number begins with a sign, a digit or a point. -/
theorem head_ne_of_isLevelNumber {token : Token} (h : Decimal.isLevelNumber token = true) {c : Char}
    (hc : c = '#' ∨ c = '@') : token.toList.head? ≠ some c := by
  intro hhead
  obtain ⟨cs, hcs⟩ := List.head?_eq_some_iff.mp hhead
  rw [Decimal.isLevelNumber, hcs] at h
  rcases hc with rfl | rfl <;> exact Bool.noConfusion h

theorem of_isLevelNumber {token : Token} (h : Decimal.isLevelNumber token = true) :
    Opening.of token = .number := by
  have hmarks : ∀ mark ∈ openingMarks, Decimal.isLevelNumber mark = false := by decide
  have hne : ∀ mark ∈ openingMarks, token ≠ mark := by
    rintro mark hmark rfl
    rw [hmarks token hmark] at h
    cases h
  rw [of_eq_of_ne hne, if_neg (head_ne_of_isLevelNumber h (.inl rfl)),
    if_neg (head_ne_of_isLevelNumber h (.inr rfl)), if_pos h]

/-- Tokens that denote a value begin with one that announces it. -/
theorem Denotes.exists_cons {tokens : List Token} {v : Value} (h : Denotes tokens v) :
    ∃ token front, tokens = token :: front ∧ Opening.of token = openingOf v := by
  cases h with
  | number hx => exact ⟨_, _, rfl, of_isLevelNumber hx.1⟩
  | identifier _ => exact ⟨_, _, rfl, of_identifier _⟩
  | vector hxyz =>
      obtain ⟨_, _, _⟩ := hxyz
      exact ⟨_, _, rfl, rfl⟩
  | intVector | rotation | object | list | autofield => exact ⟨_, _, rfl, rfl⟩

theorem Denotes.opening {token : Token} {tokens : List Token} {v : Value} (h : Denotes (token :: tokens) v) :
    Opening.of token = openingOf v := by
  obtain ⟨_, _, hcons, hopening⟩ := h.exists_cons
  cases hcons
  exact hopening

theorem openingOf_ne_tag (v : Value) : openingOf v ≠ .tag := by
  cases v <;> exact Opening.noConfusion

theorem openingOf_ne_other (v : Value) : openingOf v ≠ .other := by
  cases v <;> exact Opening.noConfusion

/-- A front of nonempty tokens that denotes a value has the first token in it. -/
theorem Denotes.exists_of_append {token : Token} {tokens front rest : List Token} {v : Value}
    (h : Denotes front v) (hfront : token :: tokens = front ++ rest) :
    ∃ front', front = token :: front' ∧ tokens = front' ++ rest := by
  obtain ⟨_, front', rfl, -⟩ := h.exists_cons
  cases hfront
  exact ⟨front', rfl, rfl⟩

/-! ### What is derived, by the first token -/

theorem denotes_number_iff {token : Token} {front : List Token} {v : Value}
    (htoken : Opening.of token = .number) :
    Denotes (token :: front) v ↔ front = [] ∧ ∃ x, IsNumber token x ∧ v = .number x := by
  constructor
  · intro h
    have hopening := htoken.symm.trans h.opening
    cases h with
    | number hx => exact ⟨rfl, _, hx, rfl⟩
    | identifier | vector | intVector | rotation | object | list | autofield => cases hopening
  · rintro ⟨rfl, x, hx, rfl⟩
    exact .number hx

theorem denotes_identifier_iff {figures : String} {front : List Token} {v : Value} :
    Denotes (("@" ++ figures) :: front) v ↔
      front = [] ∧ ∃ id, Decimal.id? figures.toList = some id ∧ v = .identifier id := by
  constructor
  · intro h
    have hopening := (of_identifier figures).symm.trans h.opening
    generalize hlist : ("@" ++ figures) :: front = tokens at h
    cases h with
    | @identifier other id hid =>
        obtain ⟨htoken, rfl⟩ := List.cons.inj hlist
        obtain rfl : figures = other := by simpa using htoken
        exact ⟨rfl, _, hid, rfl⟩
    | number | vector | intVector | rotation | object | list | autofield => cases hopening
  · rintro ⟨rfl, id, hid, rfl⟩
    exact .identifier hid

theorem denotes_braces_iff {name : Token} {inner : List Token} {v : Value} :
    Denotes ("[" :: name :: "]" :: "\x7b" :: (inner ++ ["\x7d"])) v ↔
      ∃ type fields o, TypeName.ofName? name = some (.object type) ∧ Entries (FieldOf Denotes) inner fields ∧
        (fields.map Prod.fst).Nodup ∧
        fields.foldlM (fun o field => o.setField field.1 field.2) (Object.blank type) = .ok o ∧
        v = .object o := by
  constructor
  · intro h
    have hopening := h.opening
    generalize hlist : "[" :: name :: "]" :: "\x7b" :: (inner ++ ["\x7d"]) = tokens at h
    cases h with
    | object htype hentries hdistinct hset =>
        simp only [List.cons.injEq, List.append_cancel_right_eq, true_and] at hlist
        obtain ⟨rfl, rfl⟩ := hlist
        exact ⟨_, _, _, htype, hentries, hdistinct, hset, rfl⟩
    | list => simp at hlist
    | number | identifier | vector | intVector | rotation | autofield => cases hopening
  · rintro ⟨type, fields, o, htype, hentries, hdistinct, hset, rfl⟩
    exact .object htype hentries hdistinct hset

theorem denotes_squares_iff {name : Token} {inner : List Token} {v : Value} :
    Denotes ("[" :: name :: "]" :: "[" :: (inner ++ ["]"])) v ↔
      ∃ element values items, TypeName.ofName? name = some element ∧ Entries Denotes inner values ∧
        List.Forall₂ (fun v item => fit? element v = some item) values items ∧ v = .list element items := by
  constructor
  · intro h
    have hopening := h.opening
    generalize hlist : "[" :: name :: "]" :: "[" :: (inner ++ ["]"]) = tokens at h
    cases h with
    | list htype hentries hfit =>
        simp only [List.cons.injEq, List.append_cancel_right_eq, true_and] at hlist
        obtain ⟨rfl, rfl⟩ := hlist
        exact ⟨_, _, _, htype, hentries, hfit, rfl⟩
    | object => simp at hlist
    | number | identifier | vector | intVector | rotation | autofield => cases hopening
  · rintro ⟨element, values, items, htype, hentries, hfit, rfl⟩
    exact .list htype hentries hfit

theorem denotes_marks_iff {front : List Token} {v : Value} :
    Denotes (Token.openAutofield :: front) v ↔
      ∃ inner members a, front = inner ++ [Token.closeAutofield] ∧ Entries (MemberOf Denotes) inner members ∧
        ((∀ tag, a.tags.has tag = true ↔ .inl tag ∈ members) ∧ a.fields = members.filterMap Sum.getRight? ∧
          (a.fields.map kind).Nodup) ∧ v = .autofield a := by
  constructor
  · intro h
    have hopening := h.opening
    generalize hlist : Token.openAutofield :: front = tokens at h
    cases h with
    | autofield hentries htags hfields hkinds =>
        exact ⟨_, _, _, (List.cons.inj hlist).2, hentries, ⟨htags, hfields, hkinds⟩, rfl⟩
    | number | identifier | vector | intVector | rotation | object | list => cases hopening
  · rintro ⟨inner, members, a, rfl, hentries, ⟨htags, hfields, hkinds⟩, rfl⟩
    exact .autofield hentries htags hfields hkinds

/-- The brackets around the body of a typed value. -/
def Body.bracket : Body → Bracket
  | .fields => .braces
  | .items => .squares

/-- What denotes a typed value has its type and a body in brackets after the first token. -/
theorem Denotes.exists_body {front : List Token} {v : Value} (h : Denotes ("[" :: front) v) :
    ∃ name type inner, ∃ body : Body, front = name :: "]" :: body.bracket.left ::
      (inner ++ [body.bracket.right]) ∧ TypeName.ofName? name = some type := by
  have hopening := h.opening
  generalize hlist : "[" :: front = tokens at h
  cases h with
  | object htype => exact ⟨_, _, _, .fields, (List.cons.inj hlist).2, htype⟩
  | list htype => exact ⟨_, _, _, .items, (List.cons.inj hlist).2, htype⟩
  | number | identifier | vector | intVector | rotation | autofield => cases hopening

end LevelPlay.Value
