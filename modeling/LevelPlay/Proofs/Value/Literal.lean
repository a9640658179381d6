import LevelPlay.Proofs.Value.Parser

/-! Literals of containers. What is written of a container is its entries with commas between them, and possibly one
after the last. Where each entry is written such that no other stands in front of the same tokens, the entries of the
container are read one by one, whatever they are. -/

namespace LevelPlay.Value

/-! ### Tokens that are read to the last -/

/-- The tokens are read as the value, to the last. -/
def ReadsAs (tokens : List Token) (v : Value) : Prop :=
  ∃ last, parseAt tokens 0 = .ok (v, last) ∧ last + 1 = tokens.length

theorem readsAs_iff_denotes {tokens : List Token} {v : Value} : ReadsAs tokens v ↔ Denotes tokens v := by
  constructor
  · rintro ⟨last, hread, hlength⟩
    obtain ⟨-, -, hvalue⟩ := parseAt_eq_ok_iff.mp hread
    rwa [hlength, List.extract_eq_take_drop, List.drop_zero, Nat.sub_zero, List.take_length] at hvalue
  · intro hvalue
    obtain ⟨token, front, rfl, -⟩ := hvalue.exists_cons
    refine ⟨front.length, parseAt_eq_ok_iff.mpr ⟨Nat.zero_le _, Nat.lt_succ_self _, ?_⟩, rfl⟩
    rwa [List.extract_eq_take_drop, List.drop_zero, Nat.sub_zero, ← List.length_cons, List.take_length]

/-- No two fronts of the same tokens denote values. -/
theorem Denotes.eq_of_append_eq {front rest front' rest' : List Token} {v v' : Value} (h : Denotes front v)
    (h' : Denotes front' v') (heq : front ++ rest = front' ++ rest') : front = front' ∧ v = v' := by
  obtain ⟨_, hread⟩ := found_parse.mpr ⟨front, rfl, h⟩
  obtain ⟨_, hread'⟩ := found_parse.mpr ⟨front', heq, h'⟩
  cases hread.symm.trans hread'
  exact ⟨List.append_cancel_right heq, rfl⟩

/-! ### Commas -/

/-- Pieces with commas between them, and possibly one after the last. -/
def commas (pieces : List (List Token)) (trailing : Bool) : List Token :=
  [","].intercalate pieces ++ if trailing then [","] else []

theorem commas_cons_cons (piece next : List Token) (rest : List (List Token)) (trailing : Bool) :
    commas (piece :: next :: rest) trailing = piece ++ "," :: commas (next :: rest) trailing := by
  rw [commas, commas, List.intercalate_cons_cons, List.append_assoc, List.append_assoc]
  rfl

section Entries

variable {α : Type} {entry : List Token → α → Prop} {pieces : List (List Token)} {trailing : Bool} {as : List α}

/-- Neither no token nor a single comma is an entry. -/
def Proper (entry : List Token → α → Prop) : Prop := ∀ a, ¬ entry [] a ∧ ¬ entry [","] a

/-- There are tokens in the piece, and no other entry stands in front of tokens that begin with it. -/
def Delimits (entry : List Token → α → Prop) (piece : List Token) : Prop :=
  piece ≠ [] ∧ ∀ front rest rest' a, entry front a → front ++ rest = piece ++ rest' → front = piece

theorem entries_commas (h : List.Forall₂ entry pieces as) (htrailing : pieces = [] → trailing = false) :
    Entries entry (commas pieces trailing) as := by
  induction h with
  | nil =>
      rw [htrailing rfl]
      exact .none
  | @cons piece a pieces as hpiece hrest ih =>
      cases pieces with
      | nil =>
          cases hrest
          cases trailing with
          | false => simpa [commas] using Entries.last hpiece
          | true => simpa [commas] using Entries.more hpiece .none
      | cons next rest =>
          rw [commas_cons_cons]
          exact .more hpiece (ih nofun)

theorem Proper.eq_nil (hproper : Proper entry) (h : Entries entry [] as) : as = [] := by
  generalize htokens : ([] : List Token) = tokens at h
  cases h with
  | none => rfl
  | last hentry => exact absurd (htokens ▸ hentry) (hproper _).1
  | more => simp at htokens

theorem Proper.not_comma (hproper : Proper entry) : ¬ Entries entry [","] as := by
  intro h
  generalize htokens : [","] = tokens at h
  cases h with
  | none => cases htokens
  | last hentry => exact (hproper _).2 (htokens ▸ hentry)
  | more hentry _ =>
      rcases List.append_eq_singleton_iff.mp htokens.symm with ⟨rfl, -⟩ | ⟨-, hnil⟩
      · exact (hproper _).1 hentry
      · cases hnil

/-- The first entry is the piece, and the others are in what follows the comma after it, if there is one. -/
theorem Delimits.exists_of_entries {piece rest : List Token} (hpiece : Delimits entry piece)
    (h : Entries entry (piece ++ rest) as) :
    ∃ a as', as = a :: as' ∧ entry piece a ∧
      (rest = [] ∧ as' = [] ∨ ∃ more, rest = "," :: more ∧ Entries entry more as') := by
  obtain ⟨hne, hpiece⟩ := hpiece
  generalize htokens : piece ++ rest = tokens at h
  cases h with
  | none => exact absurd (List.append_eq_nil_iff.mp htokens).1 hne
  | last hentry =>
      obtain rfl := hpiece _ [] _ _ hentry ((List.append_nil _).trans htokens.symm)
      exact ⟨_, [], rfl, hentry, .inl ⟨by simpa using htokens, rfl⟩⟩
  | more hentry hrest =>
      obtain rfl := hpiece _ _ _ _ hentry htokens.symm
      exact ⟨_, _, rfl, hentry, .inr ⟨_, List.append_cancel_left htokens, hrest⟩⟩

theorem forall₂_of_entries_commas (hproper : Proper entry) (hpieces : ∀ piece ∈ pieces, Delimits entry piece)
    (h : Entries entry (commas pieces trailing) as) :
    (pieces = [] → trailing = false) ∧ List.Forall₂ entry pieces as := by
  induction pieces generalizing as with
  | nil =>
      cases trailing with
      | false =>
          rw [hproper.eq_nil h]
          exact ⟨fun _ => rfl, .nil⟩
      | true => exact absurd h hproper.not_comma
  | cons piece rest ih =>
      refine ⟨nofun, ?_⟩
      obtain ⟨hpiece, hrest⟩ := List.forall_mem_cons.mp hpieces
      cases rest with
      | nil =>
          rw [commas, List.intercalate_singleton] at h
          obtain ⟨a, as', rfl, ha, ⟨-, rfl⟩ | ⟨more, hmore, has'⟩⟩ := hpiece.exists_of_entries h
          · exact .cons ha .nil
          · have hnil : more = [] := by
              split at hmore
              · exact (List.cons.inj hmore).2.symm
              · cases hmore
            rw [hnil] at has'
            rw [hproper.eq_nil has']
            exact .cons ha .nil
      | cons next rest =>
          rw [commas_cons_cons] at h
          obtain ⟨a, as', rfl, ha, ⟨hnil, -⟩ | ⟨more, hmore, has'⟩⟩ := hpiece.exists_of_entries h
          · cases hnil
          · cases hmore
            exact .cons ha (ih hrest has').2

/-- The entries of pieces with commas between them are the pieces, one by one. -/
theorem entries_commas_iff (hproper : Proper entry) (hpieces : ∀ piece ∈ pieces, Delimits entry piece) :
    Entries entry (commas pieces trailing) as ↔ (pieces = [] → trailing = false) ∧ List.Forall₂ entry pieces as :=
  ⟨forall₂_of_entries_commas hproper hpieces, fun h => entries_commas h.2 h.1⟩

end Entries

/-! ### What the entries of containers delimit -/

theorem Denotes.delimits {piece : List Token} {v : Value} (h : Denotes piece v) : Delimits Denotes piece := by
  refine ⟨?_, fun front rest rest' v' hfront heq => (hfront.eq_of_append_eq h heq).1⟩
  obtain ⟨_, _, rfl, -⟩ := h.exists_cons
  exact nofun

theorem proper_denotes : Proper Denotes := by
  intro v
  constructor
  · intro h
    obtain ⟨_, _, hcons, -⟩ := h.exists_cons
    cases hcons
  · intro h
    have hopening := h.opening
    exact openingOf_ne_other v (hopening.symm.trans (by decide))

theorem delimits_field (name : Token) {tokens : List Token} {v : Value} (h : Denotes tokens v) :
    Delimits (FieldOf Denotes) (name :: ":" :: tokens) := by
  refine ⟨nofun, ?_⟩
  rintro _ rest rest' _ ⟨name', hvalue⟩ heq
  simp only [List.cons_append, List.cons.injEq, true_and] at heq
  obtain ⟨rfl, heq⟩ := heq
  rw [(hvalue.eq_of_append_eq h heq).1]

theorem proper_field : Proper (FieldOf Denotes) := by
  intro field
  constructor
  · rintro ⟨⟩
  · rintro ⟨⟩

/-- An entry of an autofield in level text: a token that begins like a tag, known or not, or tokens that are read as a
value to the last. -/
inductive WrittenMember : List Token → Prop where
  | tag (name : String) : WrittenMember ["#" ++ name]
  | value {tokens : List Token} {v : Value} (hvalue : ReadsAs tokens v) : WrittenMember tokens

theorem WrittenMember.delimits {piece : List Token} (h : WrittenMember piece) : Delimits (MemberOf Denotes) piece := by
  cases h with
  | tag name =>
      refine ⟨nofun, fun front rest rest' member hmember heq => ?_⟩
      cases hmember with
      | tag _ =>
          obtain ⟨htoken, -⟩ := List.cons.inj heq
          rw [htoken]
      | value hvalue =>
          obtain ⟨_, rfl, -⟩ := hvalue.exists_of_append heq.symm
          exact absurd (hvalue.opening.symm.trans (of_tag name)) (openingOf_ne_tag _)
  | @value _ v hread =>
      have hvalue : Denotes piece v := readsAs_iff_denotes.mp hread
      refine ⟨hvalue.delimits.1, fun front rest rest' member hmember heq => ?_⟩
      cases hmember with
      | tag _ =>
          obtain ⟨_, rfl, -⟩ := hvalue.exists_of_append heq
          exact absurd (hvalue.opening.symm.trans (of_tag _)) (openingOf_ne_tag _)
      | value hvalue' => exact hvalue.delimits.2 _ _ _ _ hvalue' heq

theorem proper_member : Proper (MemberOf Denotes) := by
  intro member
  constructor
  · intro h
    cases h with
    | value hvalue => exact (proper_denotes _).1 hvalue
  · intro h
    generalize htokens : [","] = tokens at h
    cases h with
    | @tag name =>
        have hhead := congrArg String.toList (List.cons.inj htokens).1
        simp at hhead
    | value hvalue => exact (proper_denotes _).2 (htokens ▸ hvalue)

theorem WrittenMember.nested {piece : List Token} (h : WrittenMember piece) : Nested piece := by
  cases h with
  | tag name => exact .cons (plain_of_tag name) nested_nil
  | value hread => exact (readsAs_iff_denotes.mp hread).nested

theorem nested_commas {pieces : List (List Token)} (h : ∀ piece ∈ pieces, Nested piece) (trailing : Bool) :
    Nested (commas pieces trailing) := by
  have hcomma : Nested [","] := .cons (plain_punctuation _ (by simp)) nested_nil
  induction pieces with
  | nil =>
      cases trailing with
      | false => exact nested_nil
      | true => exact hcomma
  | cons piece rest ih =>
      obtain ⟨hpiece, hrest⟩ := List.forall_mem_cons.mp h
      cases rest with
      | nil =>
          rw [commas, List.intercalate_singleton]
          cases trailing with
          | false => exact hpiece.append nested_nil
          | true => exact hpiece.append hcomma
      | cons next rest =>
          rw [commas_cons_cons]
          exact hpiece.append (hcomma.append (ih hrest))

/-! ### Literals -/

theorem ofName?_name (type : TypeName) : TypeName.ofName? type.name = some type := by
  rcases type with ((_ | _ | _) | _ | _ | _ | _ | _ | _) <;> decide

section Literals

variable {trailing : Bool} {v : Value}

/-- An object as it is written: its type, and in braces its fields. -/
def objectLiteral (type : ObjectType) (fields : List (Token × List Token)) (trailing : Bool) : List Token :=
  "[" :: type.name :: "]" :: "\x7b" ::
    (commas (fields.map fun field => field.1 :: ":" :: field.2) trailing ++ ["\x7d"])

/-- A list as it is written: the type of its elements, and in brackets its items. -/
def listLiteral (element : TypeName) (items : List (List Token)) (trailing : Bool) : List Token :=
  "[" :: element.name :: "]" :: "[" :: (commas items trailing ++ ["]"])

/-- An autofield as it is written: its tags and values between marks. -/
def autofieldLiteral (members : List (List Token)) (trailing : Bool) : List Token :=
  Token.openAutofield :: (commas members trailing ++ [Token.closeAutofield])

/-- A field is written as its name and tokens that denote its value. -/
def Writes (written : Token × List Token) (field : Token × Value) : Prop :=
  field.1 = written.1 ∧ Denotes written.2 field.2

theorem fieldOf_iff_writes {written : Token × List Token} {field : Token × Value} :
    FieldOf Denotes (written.1 :: ":" :: written.2) field ↔ Writes written field := by
  constructor
  · intro h
    cases h with
    | mk _ hvalue => exact ⟨rfl, hvalue⟩
  · obtain ⟨name, v⟩ := field
    rintro ⟨rfl, hvalue⟩
    exact .mk written.1 hvalue

theorem denotes_objectLiteral_iff {type : ObjectType} {written : List (Token × List Token)}
    (hwritten : ∀ field ∈ written, ∃ v, Denotes field.2 v) :
    Denotes (objectLiteral type written trailing) v ↔
      (written = [] → trailing = false) ∧ ∃ fields o, List.Forall₂ Writes written fields ∧
        (fields.map Prod.fst).Nodup ∧
        fields.foldlM (fun o field => o.setField field.1 field.2) (Object.blank type) = .ok o ∧ v = .object o := by
  have hpieces : ∀ piece ∈ written.map fun field => field.1 :: ":" :: field.2, Delimits (FieldOf Denotes) piece := by
    rw [List.forall_mem_map]
    intro field hfield
    obtain ⟨v, hvalue⟩ := hwritten field hfield
    exact delimits_field field.1 hvalue
  have hname : TypeName.ofName? type.name = some (.object type) := ofName?_name (.object type)
  rw [objectLiteral, denotes_braces_iff, hname]
  simp only [entries_commas_iff proper_field hpieces, List.map_eq_nil_iff, List.forall₂_map_left_iff,
    fieldOf_iff_writes]
  constructor
  · rintro ⟨_, fields, o, htype, ⟨htrailing, hfields⟩, hdistinct, hset, rfl⟩
    cases htype
    exact ⟨htrailing, fields, o, hfields, hdistinct, hset, rfl⟩
  · rintro ⟨htrailing, fields, o, hfields, hdistinct, hset, rfl⟩
    exact ⟨type, fields, o, rfl, ⟨htrailing, hfields⟩, hdistinct, hset, rfl⟩

theorem denotes_listLiteral_iff {element : TypeName} {written : List (List Token)}
    (hwritten : ∀ item ∈ written, ∃ v, Denotes item v) :
    Denotes (listLiteral element written trailing) v ↔
      (written = [] → trailing = false) ∧ ∃ values items, List.Forall₂ Denotes written values ∧
        List.Forall₂ (fun v item => fit? element v = some item) values items ∧ v = .list element items := by
  have hpieces : ∀ piece ∈ written, Delimits Denotes piece := by
    intro item hitem
    obtain ⟨v, hvalue⟩ := hwritten item hitem
    exact hvalue.delimits
  rw [listLiteral, denotes_squares_iff, ofName?_name]
  simp only [entries_commas_iff proper_denotes hpieces]
  constructor
  · rintro ⟨_, values, items, htype, ⟨htrailing, hvalues⟩, hfit, rfl⟩
    cases htype
    exact ⟨htrailing, values, items, hvalues, hfit, rfl⟩
  · rintro ⟨htrailing, values, items, hvalues, hfit, rfl⟩
    exact ⟨element, values, items, rfl, ⟨htrailing, hvalues⟩, hfit, rfl⟩

theorem denotes_autofieldLiteral_iff {written : List (List Token)} (hwritten : ∀ piece ∈ written, WrittenMember piece) :
    Denotes (autofieldLiteral written trailing) v ↔
      (written = [] → trailing = false) ∧ ∃ members a, List.Forall₂ (MemberOf Denotes) written members ∧
        (∀ tag, a.tags.has tag = true ↔ .inl tag ∈ members) ∧ a.fields = members.filterMap Sum.getRight? ∧
        (a.fields.map kind).Nodup ∧ v = .autofield a := by
  have hpieces : ∀ piece ∈ written, Delimits (MemberOf Denotes) piece := fun piece hpiece =>
    (hwritten piece hpiece).delimits
  rw [autofieldLiteral, denotes_marks_iff]
  constructor
  · rintro ⟨inner, members, a, hinner, hentries, ⟨htags, hfields, hkinds⟩, rfl⟩
    obtain rfl := List.append_cancel_right hinner
    obtain ⟨htrailing, hmembers⟩ := (entries_commas_iff proper_member hpieces).mp hentries
    exact ⟨htrailing, members, a, hmembers, htags, hfields, hkinds, rfl⟩
  · rintro ⟨htrailing, members, a, hmembers, htags, hfields, hkinds, rfl⟩
    exact ⟨_, members, a, rfl, (entries_commas_iff proper_member hpieces).mpr ⟨htrailing, hmembers⟩,
      ⟨htags, hfields, hkinds⟩, rfl⟩

end Literals

end LevelPlay.Value

namespace LevelPlay

/-- A line that is a value from its first token to its last is read to the last. -/
theorem readValue_of_denotes {tokens : List Token} {v : Value} (h : Value.Denotes tokens v) (number : Nat) :
    readValue number tokens 0 = .ok (v, tokens.length - 1) := by
  obtain ⟨last, hread, hlength⟩ := Value.readsAs_iff_denotes.mpr h
  rw [← hlength, Nat.add_sub_cancel, readValue, hread]
  rfl

end LevelPlay
