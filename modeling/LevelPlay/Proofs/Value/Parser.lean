import LevelPlay.Level.Body
import LevelPlay.Proofs.Value.Containers
import LevelPlay.Proofs.Value.Opening
import LevelPlay.Proofs.Value.Taking

/-! The reader of values. It finds a value at the front of some tokens exactly where the grammar derives the
value from a front of them. Containers are read with a reader for fewer tokens, so the induction is on the
number of tokens; each kind of entry and of container is faithful to the grammar if that reader is. -/

namespace LevelPlay.Value

/-- The reader finds exactly the values that the grammar derives from a front of the tokens. -/
def Faithful {bound : Nat} (sub : SubReader bound) : Prop :=
  ∀ (tokens : List Token) (h : tokens.length < bound) (v : Value) (rest : List Token),
    Found (sub tokens h) v rest ↔ ∃ front, tokens = front ++ rest ∧ Denotes front v

/-- Reads the entries of a typed value, after the bracket that opens its body. -/
def readContents {bound : Nat} (sub : SubReader bound) (type : TypeName) (tokens : List Token)
    (h : tokens.length < bound) : Body → Reading Value tokens
  | .fields => readObject sub type tokens h
  | .items => readList sub type tokens h

section Containers

variable {bound : Nat} {sub : SubReader bound}

/-- Once its type and its bracket have been passed, a typed value is read as its contents are. -/
theorem found_readTyped_iff {tokens afterType inside rest : List Token} {type : TypeName} {body : Body}
    {h : tokens.length < bound} (hinside : inside.length < bound) {v : Value}
    (htype : Found (readType tokens) type afterType) (hbody : Found (readBody type afterType) body inside) :
    Found (readTyped sub tokens h) v rest ↔ Found (readContents sub type inside hinside body) v rest := by
  obtain ⟨h₁, htype⟩ := htype
  obtain ⟨h₂, hbody⟩ := hbody
  have hshorter : inside.length < tokens.length := Nat.lt_trans h₂ h₁
  have hread : readTyped sub tokens h = (readContents sub type inside hinside body).map fun found =>
      (found.1, ⟨found.2.1, Nat.lt_trans found.2.2 hshorter⟩) := by
    simp only [readTyped, htype, hbody, Result.ok_bind]
    cases body with
    | fields => rfl
    | items => rfl
  rw [hread]
  constructor
  · rintro ⟨hrest, hmap⟩
    obtain ⟨⟨_, ⟨_, h₃⟩⟩, hcontents, hfound⟩ := Result.map_eq_ok_iff.mp hmap
    cases hfound
    exact ⟨h₃, hcontents⟩
  · rintro ⟨h₃, hcontents⟩
    rw [hcontents]
    exact ⟨Nat.lt_trans h₃ hshorter, rfl⟩

variable (hsub : Faithful sub)

include hsub

/-! ### Entries -/

theorem readsEntry_readField (type : ObjectType) :
    ReadsEntry (FieldOf Denotes) (fun state field => setOnce type field.1 field.2 state)
      (readField sub type) := by
  intro state tokens h next rest
  constructor
  · rintro ⟨hrest, hread⟩
    cases tokens with
    | nil => cases hread
    | cons name tokens =>
        obtain ⟨⟨afterColon, h₁⟩, hcolon, hread⟩ := Result.bind_eq_ok_iff.mp hread
        obtain ⟨⟨v, ⟨rest', h₂⟩⟩, hv, hread⟩ := Result.bind_eq_ok_iff.mp hread
        obtain ⟨next', hset, hread⟩ := Result.bind_eq_ok_iff.mp hread
        cases hread
        obtain ⟨front, hfront, hvalue⟩ := (hsub _ _ _ _).mp ⟨h₂, hv⟩
        rw [pass_eq_ok_iff] at hcolon
        dsimp only at hcolon
        exact ⟨_, _, by rw [hcolon, hfront]; rfl, .mk name hvalue, hset⟩
  · rintro ⟨_, _, rfl, ⟨name, hvalue⟩, hset⟩
    rename_i tokens v
    have hbound : (tokens ++ rest).length < bound := by
      simp only [List.cons_append, List.length_cons] at h
      omega
    obtain ⟨hlength, hread⟩ := (hsub _ hbound _ _).mpr ⟨tokens, rfl, hvalue⟩
    refine ⟨by simp only [List.cons_append, List.length_cons]; omega, ?_⟩
    dsimp only at hset
    simp only [readField, List.cons_append, pass_cons, hread, hset, Result.ok_bind]
    rfl

theorem readsEntry_readItem (element : TypeName) :
    ReadsEntry Denotes (fun items v => appendItem element v items) (readItem sub element) := by
  intro items tokens h next rest
  refine (found_check (f := fun v => appendItem element v items)).trans ?_
  simp only [hsub tokens h]
  constructor
  · rintro ⟨v, ⟨front, hfront, hvalue⟩, happend⟩
    exact ⟨front, v, hfront, hvalue, happend⟩
  · rintro ⟨front, v, hfront, hvalue, happend⟩
    exact ⟨v, ⟨front, hfront, hvalue⟩, happend⟩

theorem readsEntry_readMember : ReadsEntry (MemberOf Denotes) takeMember (readMember sub) := by
  intro a tokens h next rest
  cases tokens with
  | nil =>
      constructor
      · exact fun hread => absurd hread not_found_error
      · rintro ⟨front, member, hfront, hmember, -⟩
        obtain rfl := (List.append_eq_nil_iff.mp hfront.symm).1
        cases hmember with
        | value hvalue =>
            obtain ⟨_, _, hcons, -⟩ := hvalue.exists_cons
            cases hcons
  | cons token tokens =>
      by_cases htag : Opening.of token = .tag
      · have hannounces := announces_of token
        rw [htag] at hannounces
        obtain ⟨name, rfl⟩ := hannounces
        rw [readMember, if_pos htag]
        refine (found_token (f := id)).trans ?_
        simp only [putTag_eq_ok_iff]
        constructor
        · rintro ⟨rfl, _, ⟨tag, hname, rfl⟩, rfl⟩
          exact ⟨["#" ++ name], .inl tag, rfl, .tag hname, rfl⟩
        · rintro ⟨front, member, hfront, hmember, htake⟩
          cases hmember with
          | @tag other tag hname =>
              obtain ⟨htoken, rfl⟩ := List.cons.inj hfront
              obtain rfl : name = other := by simpa using htoken
              cases htake
              exact ⟨rfl, _, ⟨tag, hname, rfl⟩, rfl⟩
          | value hvalue =>
              obtain ⟨front', rfl, -⟩ := hvalue.exists_of_append hfront
              exact absurd (hvalue.opening.symm.trans htag) (openingOf_ne_tag _)
      · rw [readMember, if_neg htag]
        refine (found_check (f := fun v => putValue v a)).trans ?_
        simp only [hsub (token :: tokens) h]
        constructor
        · rintro ⟨v, ⟨front, hfront, hvalue⟩, hput⟩
          exact ⟨front, .inr v, hfront, .value hvalue, hput⟩
        · rintro ⟨front, member, hfront, hmember, htake⟩
          cases hmember with
          | tag _ =>
              cases hfront
              exact absurd (of_tag _) htag
          | @value _ v hvalue => exact ⟨v, ⟨front, hfront, hvalue⟩, htake⟩

/-! ### Containers -/

theorem found_readObject {name : Token} {type : TypeName} (hname : TypeName.ofName? name = some type)
    {tokens rest : List Token} (h : tokens.length < bound) {v : Value} :
    Found (readObject sub type tokens h) v rest ↔
      ∃ inner, tokens = inner ++ "\x7d" :: rest ∧
        Denotes ("[" :: name :: "]" :: "\x7b" :: (inner ++ ["\x7d"])) v := by
  simp only [denotes_braces_iff, hname]
  rw [readObject, objectTypeOf]
  cases htype : type.objectType? with
  | none =>
      constructor
      · exact fun hread => absurd hread not_found_error
      · rintro ⟨_, -, _, _, _, hobject, -⟩
        cases hobject
        cases htype
  | some object =>
      obtain rfl : type = .object object := by
        cases type <;> cases htype
        rfl
      have hnested : ∀ {inner fields last}, Entries (FieldOf Denotes) inner fields →
          fields.foldlM (fun state field => setOnce object field.1 field.2 state) (Object.blank object, []) =
            .ok last → Nested inner := by
        intro inner fields last hentries hfold
        obtain ⟨-, -, hset⟩ := foldlM_setOnce_eq_ok_iff.mp ⟨last.2, hfold⟩
        exact nested_fields hentries hset fun hvalue _ => hvalue.nested
      refine (found_container .braces (fun built => .object built.1) (readsEntry_readField hsub object)
        hnested).trans ?_
      constructor
      · rintro ⟨inner, fields, last, htokens, hentries, hfold, rfl⟩
        obtain ⟨-, hdistinct, hset⟩ := foldlM_setOnce_eq_ok_iff.mp ⟨last.2, hfold⟩
        exact ⟨inner, htokens, object, fields, last.1, rfl, hentries, hdistinct, hset, rfl⟩
      · rintro ⟨inner, htokens, _, fields, o, hobject, hentries, hdistinct, hset, rfl⟩
        cases hobject
        obtain ⟨seen, hfold⟩ := foldlM_setOnce_eq_ok_iff.mpr ⟨fun _ _ => List.not_mem_nil, hdistinct, hset⟩
        exact ⟨inner, fields, (o, seen), htokens, hentries, hfold, rfl⟩

theorem found_readList {name : Token} {element : TypeName} (hname : TypeName.ofName? name = some element)
    {tokens rest : List Token} (h : tokens.length < bound) {v : Value} :
    Found (readList sub element tokens h) v rest ↔
      ∃ inner, tokens = inner ++ "]" :: rest ∧ Denotes ("[" :: name :: "]" :: "[" :: (inner ++ ["]"])) v := by
  have hnested : ∀ {inner values last}, Entries Denotes inner values →
      values.foldlM (fun items v => appendItem element v items) [] = .ok last → Nested inner :=
    fun hentries _ => hentries.nested fun hvalue _ _ => hvalue.nested
  refine (found_container .squares (.list element) (readsEntry_readItem hsub element) hnested).trans ?_
  simp only [denotes_squares_iff, hname, foldlM_appendItem_eq_ok_iff, List.nil_append]
  constructor
  · rintro ⟨inner, values, items, htokens, hentries, ⟨_, hfit, rfl⟩, rfl⟩
    exact ⟨inner, htokens, element, values, items, rfl, hentries, hfit, rfl⟩
  · rintro ⟨inner, htokens, _, values, items, helement, hentries, hfit, rfl⟩
    cases helement
    exact ⟨inner, values, items, htokens, hentries, ⟨items, hfit, rfl⟩, rfl⟩

theorem found_readAutofield {tokens rest : List Token} (h : tokens.length < bound) {v : Value} :
    Found (readAutofield sub tokens h) v rest ↔
      ∃ front, tokens = front ++ rest ∧ Denotes (Token.openAutofield :: front) v := by
  have hnested : ∀ {inner members last}, Entries (MemberOf Denotes) inner members →
      members.foldlM takeMember Autofield.empty = .ok last → Nested inner :=
    fun hentries _ => nested_members hentries fun hvalue _ => hvalue.nested
  refine (found_container .marks .autofield (readsEntry_readMember hsub) hnested).trans ?_
  simp only [denotes_marks_iff, foldlM_takeMember_empty_eq_ok_iff]
  constructor
  · rintro ⟨inner, members, a, rfl, hentries, htaken, rfl⟩
    exact ⟨inner ++ [Token.closeAutofield], by rw [List.append_assoc]; rfl, inner, members, a, rfl, hentries,
      htaken, rfl⟩
  · rintro ⟨_, rfl, inner, members, a, rfl, hentries, htaken, rfl⟩
    exact ⟨inner, members, a, by rw [List.append_assoc]; rfl, hentries, htaken, rfl⟩

theorem found_readContents {name : Token} {type : TypeName} (hname : TypeName.ofName? name = some type)
    {tokens rest : List Token} (h : tokens.length < bound) (body : Body) {v : Value} :
    Found (readContents sub type tokens h body) v rest ↔
      ∃ inner, tokens = inner ++ body.bracket.right :: rest ∧
        Denotes ("[" :: name :: "]" :: body.bracket.left :: (inner ++ [body.bracket.right])) v := by
  cases body with
  | fields => exact found_readObject hsub hname h
  | items => exact found_readList hsub hname h

theorem found_readTyped {tokens rest : List Token} {h : tokens.length < bound} {v : Value} :
    Found (readTyped sub tokens h) v rest ↔ ∃ front, tokens = front ++ rest ∧ Denotes ("[" :: front) v := by
  constructor
  · rintro ⟨hrest, hread⟩
    obtain ⟨⟨type, ⟨afterType, h₁⟩⟩, htype, hrest'⟩ := Result.bind_eq_ok_iff.mp hread
    obtain ⟨⟨body, ⟨inside, h₂⟩⟩, hbody, -⟩ := Result.bind_eq_ok_iff.mp hrest'
    obtain ⟨name, htokens, hname⟩ := found_readType.mp ⟨h₁, htype⟩
    have hleft := found_readBody.mp ⟨h₂, hbody⟩
    have hinside : inside.length < bound := Nat.lt_trans h₂ (Nat.lt_trans h₁ h)
    have hcontents := (found_readTyped_iff hinside ⟨h₁, htype⟩ ⟨h₂, hbody⟩).mp ⟨hrest, hread⟩
    obtain ⟨inner, hinner, hvalue⟩ := (found_readContents hsub hname hinside body).mp hcontents
    refine ⟨_, ?_, hvalue⟩
    rw [htokens, hleft, hinner]
    simp only [List.cons_append, List.append_assoc, List.nil_append]
  · rintro ⟨_, rfl, hvalue⟩
    obtain ⟨name, type, inner, body, rfl, hname⟩ := hvalue.exists_body
    have hinside : (inner ++ body.bracket.right :: rest).length < bound := by
      simp only [List.cons_append, List.length_cons, List.length_append] at h ⊢
      omega
    have hlist : name :: "]" :: body.bracket.left :: (inner ++ [body.bracket.right]) ++ rest =
        name :: "]" :: body.bracket.left :: (inner ++ body.bracket.right :: rest) := by
      simp only [List.cons_append, List.append_assoc, List.nil_append]
    have htype := found_readType.mpr ⟨name, hlist, hname⟩
    have hbody : Found (readBody type (body.bracket.left :: (inner ++ body.bracket.right :: rest))) body _ :=
      found_readBody.mpr rfl
    exact (found_readTyped_iff hinside htype hbody).mpr
      ((found_readContents hsub hname hinside body).mpr ⟨inner, rfl, hvalue⟩)

end Containers

/-! ### Values -/

theorem identifierOf_eq_ok_iff {figures : String} {v : Value} :
    identifierOf ("@" ++ figures) = .ok v ↔
      ∃ id, Decimal.id? figures.toList = some id ∧ v = .identifier id := by
  have hfigures : ("@" ++ figures).toList.drop 1 = figures.toList := by simp
  rw [identifierOf, hfigures]
  cases Decimal.id? figures.toList with
  | none => simp
  | some id => simp [eq_comm]

theorem indices_eq_ok_iff {x y z : Float} {v : IntVec3} :
    indices (x, y, z) = .ok v ↔ ∃ i j k, Decimal.idOfFloat? x = some i ∧ Decimal.idOfFloat? y = some j ∧
      Decimal.idOfFloat? z = some k ∧ v = ⟨i, j, k⟩ := by
  have hindex : ∀ (x : Float) (i : Int), indexOf x = .ok i ↔ Decimal.idOfFloat? x = some i := by
    intro x i
    rw [indexOf]
    cases Decimal.idOfFloat? x <;> simp
  simp only [indices, Result.bind_eq_ok_iff, hindex]
  constructor
  · rintro ⟨i, hi, j, hj, k, hk, hv⟩
    cases hv
    exact ⟨i, j, k, hi, hj, hk, rfl⟩
  · rintro ⟨i, j, k, hi, hj, hk, rfl⟩
    exact ⟨i, hi, j, hj, k, hk, rfl⟩

theorem found_readVector {tokens rest : List Token} {v : Value} :
    Found (readVector ("<" :: tokens)) v rest ↔ ∃ front, tokens = front ++ rest ∧ Denotes ("<" :: front) v := by
  refine (found_map (f := fun xyz => vector (roundedVector xyz))).trans ?_
  simp only [found_readTriple]
  constructor
  · rintro ⟨xyz, ⟨front, hfront, hxyz⟩, rfl⟩
    have hvalue := Denotes.vector hxyz
    obtain ⟨front', rfl, hfront'⟩ := hvalue.exists_of_append hfront
    exact ⟨front', hfront', hvalue⟩
  · rintro ⟨front, rfl, hvalue⟩
    have hopening := hvalue.opening
    generalize hlist : "<" :: front = tokens at hvalue
    cases hvalue with
    | vector hxyz => exact ⟨_, ⟨tokens, by rw [← hlist]; rfl, hxyz⟩, rfl⟩
    | number | identifier | intVector | rotation | object | list | autofield => cases hopening

theorem found_readIntVector {tokens rest : List Token} {v : Value} :
    Found (readIntVector tokens) v rest ↔ ∃ front, tokens = front ++ rest ∧ Denotes ("%" :: front) v := by
  constructor
  · rintro ⟨h, hread⟩
    obtain ⟨⟨⟨x, y, z⟩, ⟨_, h'⟩⟩, hxyz, hread⟩ := Result.bind_eq_ok_iff.mp hread
    obtain ⟨_, hindices, hread⟩ := Result.bind_eq_ok_iff.mp hread
    cases hread
    obtain ⟨front, hfront, htriple⟩ := found_readTriple.mp ⟨h', hxyz⟩
    obtain ⟨i, j, k, hi, hj, hk, rfl⟩ := indices_eq_ok_iff.mp hindices
    exact ⟨front, hfront, .intVector htriple hi hj hk⟩
  · rintro ⟨front, rfl, hvalue⟩
    have hopening := hvalue.opening
    generalize hlist : "%" :: front = tokens at hvalue
    cases hvalue with
    | intVector htriple hi hj hk =>
        cases hlist
        obtain ⟨h, hxyz⟩ := found_readTriple.mpr ⟨front, rfl, htriple⟩
        have hindices := indices_eq_ok_iff.mpr ⟨_, _, _, hi, hj, hk, rfl⟩
        exact ⟨h, by simp only [readIntVector, hxyz, hindices, Result.ok_bind]; rfl⟩
    | number | identifier | vector | rotation | object | list | autofield => cases hopening

theorem found_readRotation {tokens rest : List Token} {v : Value} :
    Found (readRotation tokens) v rest ↔ ∃ front, tokens = front ++ rest ∧ Denotes ("$" :: front) v := by
  refine (found_map (f := fun xyz => rotation (.ofDegrees (roundedVector xyz)))).trans ?_
  simp only [found_readTriple]
  constructor
  · rintro ⟨xyz, ⟨front, hfront, hxyz⟩, rfl⟩
    exact ⟨front, hfront, .rotation hxyz⟩
  · rintro ⟨front, hfront, hvalue⟩
    have hopening := hvalue.opening
    generalize hlist : "$" :: front = tokens at hvalue
    cases hvalue with
    | rotation hxyz =>
        cases hlist
        exact ⟨_, ⟨front, hfront, hxyz⟩, rfl⟩
    | number | identifier | vector | intVector | object | list | autofield => cases hopening

/-- With a faithful reader for the entries of containers, a value is found behind its first token exactly
where the grammar derives it. -/
theorem found_readOpened {bound : Nat} {sub : SubReader bound} (hsub : Faithful sub) {token : Token}
    {tokens rest : List Token} (h : tokens.length < bound) {v : Value} :
    Found (readOpened sub token tokens h) v rest ↔
      ∃ front, tokens = front ++ rest ∧ Denotes (token :: front) v := by
  have hannounces := announces_of token
  -- Whatever the grammar derives from this token on, it announces.
  have hopening : ∀ {front v}, Denotes (token :: front) v → openingOf v = Opening.of token :=
    fun hvalue => hvalue.opening.symm
  rw [readOpened]
  cases hcase : Opening.of token with
  | typed =>
      rw [hcase] at hannounces
      subst hannounces
      exact found_after.trans (found_readTyped hsub)
  | autofield =>
      rw [hcase] at hannounces
      subst hannounces
      exact found_after.trans (found_readAutofield hsub h)
  | vector =>
      rw [hcase] at hannounces
      subst hannounces
      exact found_readVector
  | intVector =>
      rw [hcase] at hannounces
      subst hannounces
      exact found_after.trans found_readIntVector
  | rotation =>
      rw [hcase] at hannounces
      subst hannounces
      exact found_after.trans found_readRotation
  | tag =>
      constructor
      · exact fun hread => absurd hread not_found_error
      · rintro ⟨front, -, hvalue⟩
        exact absurd ((hopening hvalue).trans hcase) (openingOf_ne_tag v)
  | identifier =>
      rw [hcase] at hannounces
      obtain ⟨figures, rfl⟩ := hannounces
      refine (found_token (f := id)).trans ?_
      simp only [identifierOf_eq_ok_iff, denotes_identifier_iff]
      constructor
      · rintro ⟨rfl, _, ⟨id, hid, rfl⟩, rfl⟩
        exact ⟨[], rfl, rfl, id, hid, rfl⟩
      · rintro ⟨_, rfl, rfl, id, hid, rfl⟩
        exact ⟨rfl, _, ⟨id, hid, rfl⟩, rfl⟩
  | number =>
      refine (found_token (f := number)).trans ?_
      simp only [numberOf_eq_ok_iff, denotes_number_iff hcase]
      constructor
      · rintro ⟨rfl, x, hx, rfl⟩
        exact ⟨[], rfl, rfl, x, hx, rfl⟩
      · rintro ⟨_, rfl, rfl, x, hx, rfl⟩
        exact ⟨rfl, x, hx, rfl⟩
  | other =>
      constructor
      · exact fun hread => absurd hread not_found_error
      · rintro ⟨front, -, hvalue⟩
        exact absurd ((hopening hvalue).trans hcase) (openingOf_ne_other v)

/-- The reader of values is faithful to the grammar. The induction is on the number of tokens: the entries of
a container are read from fewer. -/
theorem found_parse {tokens rest : List Token} {v : Value} :
    Found (parse tokens) v rest ↔ ∃ front, tokens = front ++ rest ∧ Denotes front v := by
  induction hlength : tokens.length using Nat.strongRecOn generalizing tokens rest v with
  | ind n ih =>
      subst hlength
      rw [parse.eq_def]
      cases tokens with
      | nil =>
          constructor
          · exact fun hread => absurd hread not_found_error
          · rintro ⟨front, hfront, hvalue⟩
            obtain ⟨_, _, rfl, -⟩ := hvalue.exists_cons
            cases hfront
      | cons token tokens =>
          have hsub : Faithful fun inner (_ : inner.length < tokens.length + 1) => parse inner :=
            fun inner hinner _ _ => ih inner.length hinner rfl
          refine (found_readOpened hsub (Nat.lt_succ_self _)).trans ?_
          constructor
          · rintro ⟨front, hfront, hvalue⟩
            exact ⟨token :: front, by rw [hfront]; rfl, hvalue⟩
          · rintro ⟨front, hfront, hvalue⟩
            obtain ⟨front', rfl, hfront'⟩ := hvalue.exists_of_append hfront
            exact ⟨front', hfront', hvalue⟩

/-! ### Positions -/

theorem drop_of_getElem? {tokens : List Token} {token : Token} {start : Nat} (h : tokens[start]? = some token) :
    tokens.drop start = token :: tokens.drop (start + 1) := by
  rw [List.drop_eq_getElem?_toList_append, h]
  rfl

/-- The tokens between two positions, both included, denote the value. -/
def DenotesAt (tokens : List Token) (start last : Nat) (v : Value) : Prop :=
  start ≤ last ∧ last < tokens.length ∧ Denotes (tokens.extract start (last + 1)) v

theorem parseAt_eq_ok_iff {tokens : List Token} {start last : Nat} {v : Value} :
    parseAt tokens start = .ok (v, last) ↔ DenotesAt tokens start last v := by
  rw [parseAt, Result.map_eq_ok_iff]
  constructor
  · rintro ⟨⟨v', rest, hrest⟩, hparse, hfound⟩
    cases hfound
    obtain ⟨front, hfront, hvalue⟩ := found_parse.mp ⟨hrest, hparse⟩
    have hlength := congrArg List.length hfront
    simp only [List.length_drop, List.length_append] at hlength
    have hpositive : 0 < front.length := by
      obtain ⟨_, _, rfl, -⟩ := hvalue.exists_cons
      exact Nat.zero_lt_succ _
    have hslice : tokens.extract start (tokens.length - rest.length - 1 + 1) = front := by
      rw [List.extract_eq_take_drop, hfront]
      exact List.take_left' (by omega)
    exact ⟨by dsimp only; omega, by dsimp only; omega, hslice ▸ hvalue⟩
  · rintro ⟨hstart, hlast, hvalue⟩
    have hsplit : tokens.drop start = tokens.extract start (last + 1) ++ tokens.drop (last + 1) := by
      rw [List.extract_eq_take_drop, ← List.take_append_drop (last + 1 - start) (tokens.drop start),
        List.drop_drop, Nat.add_sub_cancel' (Nat.le_succ_of_le hstart), List.take_left' (by simp; omega)]
    obtain ⟨hrest, hparse⟩ := found_parse.mpr ⟨_, hsplit, hvalue⟩
    refine ⟨_, hparse, ?_⟩
    simp
    omega

end LevelPlay.Value

namespace LevelPlay

open Value

theorem readValue_eq_ok_iff {number start last : Nat} {tokens : List Token} {v : Value} :
    readValue number tokens start = .ok (v, last) ↔ DenotesAt tokens start last v := by
  rw [readValue, Result.mapError_eq_ok_iff, parseAt_eq_ok_iff]

/-- A value is read from a position on exactly when the tokens from there to the last one that is read denote
it. Neither the value nor the last token is a matter of choice: no other tokens from the same position on
denote a value. And nothing but these tokens matters: the same ones elsewhere, whatever stands around them,
are read as the same value. -/
theorem readValue_eq_ok_iff_denotesAt (number : Nat) (tokens : List Token) (start last : Nat) (v : Value) :
    (readValue number tokens start = .ok (v, last) ↔ DenotesAt tokens start last v) ∧
      (DenotesAt tokens start last v → ∀ last' v', DenotesAt tokens start last' v' → last' = last ∧ v' = v) ∧
      (DenotesAt tokens start last v → ∀ number' tokens' start',
        tokens'.extract start' (start' + (last + 1 - start)) = tokens.extract start (last + 1) →
        readValue number' tokens' start' = .ok (v, start' + (last - start))) := by
  refine ⟨readValue_eq_ok_iff, ?_, ?_⟩
  · intro hvalue last' v' hvalue'
    have hread' : readValue number tokens start = .ok (v', last') := readValue_eq_ok_iff.mpr hvalue'
    cases hread'.symm.trans (readValue_eq_ok_iff.mpr hvalue)
    exact ⟨rfl, rfl⟩
  · rintro ⟨hstart, hlast, hvalue⟩ number' tokens' start' hslice
    refine readValue_eq_ok_iff.mpr ⟨Nat.le_add_right _ _, ?_, ?_⟩
    · have hlength := congrArg List.length hslice
      simp only [List.extract_eq_take_drop, List.length_take, List.length_drop] at hlength
      omega
    · rw [Nat.add_assoc, ← Nat.sub_add_comm hstart, hslice]
      exact hvalue

/-- An autofield with a tag and a list of two ids, after a token that is not read and before another. -/
def taggedIds : List Token :=
  [",", "\x7b:", "#NoWall", ",", "[", "int", "]", "[", "@1", ",", "@2", ",", "]", ":\x7d", "]"]

theorem readValue_taggedIds :
    ∃ a : Autofield, a.tags.toList = [.noWall] ∧ a.fields = [.list .int [.identifier 1, .identifier 2]] ∧
      readValue 7 taggedIds 1 = .ok (.autofield a, 13) ∧
      (∀ last v, DenotesAt taggedIds 1 last v → last = 13 ∧ v = .autofield a) ∧
      readValue 0 (taggedIds.drop 1) 0 = .ok (.autofield a, 12) := by
  have hone : Denotes ["@1"] (.identifier 1) := @Denotes.identifier "1" 1 rfl
  have htwo : Denotes ["@2"] (.identifier 2) := @Denotes.identifier "2" 2 rfl
  have htag : MemberOf Denotes ["#NoWall"] (.inl .noWall) := @MemberOf.tag _ "NoWall" .noWall rfl
  have hitems : Entries Denotes ["@1", ",", "@2", ","] [.identifier 1, .identifier 2] :=
    .more hone (.more htwo .none)
  have hlist : Denotes ["[", "int", "]", "[", "@1", ",", "@2", ",", "]"]
      (.list .int [.identifier 1, .identifier 2]) :=
    .list rfl hitems (.cons rfl (.cons rfl .nil))
  have hmembers : Entries (MemberOf Denotes) ["#NoWall", ",", "[", "int", "]", "[", "@1", ",", "@2", ",", "]"]
      [.inl .noWall, .inr (.list .int [.identifier 1, .identifier 2])] :=
    .more htag (.last (.value hlist))
  have hvalue : DenotesAt taggedIds 1 13
      (.autofield ⟨TagSet.insert .empty .noWall, [.list .int [.identifier 1, .identifier 2]]⟩) := by
    refine ⟨by decide, by decide, .autofield hmembers ?_ rfl (by simp)⟩
    intro tag
    simp [TagSet.empty]
  obtain ⟨hread, hunique, hlocal⟩ := readValue_eq_ok_iff_denotesAt 7 taggedIds 1 13 _
  exact ⟨_, rfl, rfl, hread.mpr hvalue, hunique hvalue, hlocal hvalue 0 (taggedIds.drop 1) 0 rfl⟩

end LevelPlay
