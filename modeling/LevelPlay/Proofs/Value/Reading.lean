import LevelPlay.Proofs.Value.Opening

/-! Readings from the front of a list of tokens, described by what is found and what is left. The parts of a
value short of containers are read exactly where they stand, and the entries of a container are read exactly
where the grammar has entries, as long as this holds of a single entry. -/

namespace LevelPlay.Value

/-- The reading succeeds with `a` and leaves `rest`. -/
def Found {α : Type} {tokens : List Token} (reading : Reading α tokens) (a : α) (rest : List Token) : Prop :=
  ∃ h, reading = .ok (a, ⟨rest, h⟩)

theorem found_after {α : Type} {token : Token} {tokens rest : List Token} {reading : Reading α tokens}
    {a : α} : Found (reading.after token) a rest ↔ Found reading a rest := by
  constructor
  · rintro ⟨h, hreading⟩
    obtain ⟨⟨a', rest', h'⟩, hok, hfound⟩ := Result.map_eq_ok_iff.mp hreading
    cases hfound
    exact ⟨h', hok⟩
  · rintro ⟨h, rfl⟩
    exact ⟨Nat.lt_succ_of_lt h, rfl⟩

theorem found_map {α β : Type} {tokens rest : List Token} {reading : Reading α tokens} {f : α → β} {b : β} :
    Found (reading.map fun found => (f found.1, found.2) : Reading β tokens) b rest ↔
      ∃ a, Found reading a rest ∧ f a = b := by
  constructor
  · rintro ⟨h, hread⟩
    obtain ⟨⟨a, _⟩, hok, hfound⟩ := Result.map_eq_ok_iff.mp hread
    cases hfound
    exact ⟨a, ⟨h, hok⟩, rfl⟩
  · rintro ⟨a, ⟨h, rfl⟩, rfl⟩
    exact ⟨h, rfl⟩

/-- What is made of a reading may be refused, without a change in what is left. -/
theorem found_check {α β : Type} {tokens rest : List Token} {reading : Reading α tokens}
    {f : α → Except ValueError β} {b : β} :
    Found (do
      let (a, rest) ← reading
      let b ← f a
      return (b, rest) : Reading β tokens) b rest ↔ ∃ a, Found reading a rest ∧ f a = .ok b := by
  constructor
  · rintro ⟨h, hread⟩
    obtain ⟨⟨a, _⟩, hok, hread⟩ := Result.bind_eq_ok_iff.mp hread
    obtain ⟨b, hb, hfound⟩ := Result.bind_eq_ok_iff.mp hread
    cases hfound
    exact ⟨a, ⟨h, hok⟩, hb⟩
  · rintro ⟨a, ⟨h, rfl⟩, hb⟩
    exact ⟨h, by simp only [Result.ok_bind, hb]; rfl⟩

theorem found_token {α β : Type} {token : Token} {tokens rest : List Token} {made : Except ValueError α}
    {f : α → β} {b : β} :
    Found (made.map fun a => (f a, ⟨tokens, length_lt_length_cons token tokens⟩) :
      Reading β (token :: tokens)) b rest ↔ tokens = rest ∧ ∃ a, made = .ok a ∧ f a = b := by
  constructor
  · rintro ⟨_, hread⟩
    obtain ⟨a, ha, hfound⟩ := Result.map_eq_ok_iff.mp hread
    cases hfound
    exact ⟨rfl, a, ha, rfl⟩
  · rintro ⟨rfl, a, rfl, rfl⟩
    exact ⟨length_lt_length_cons token tokens, rfl⟩

theorem not_found_error {α : Type} {tokens rest : List Token} {e : ValueError} {a : α} :
    ¬ Found (.error e : Reading α tokens) a rest := by
  rintro ⟨_, hread⟩
  cases hread

/-! ### Single tokens -/

theorem pass_eq_ok_iff {wanted : Token} {tokens : List Token} {rest : Rest tokens} :
    pass wanted tokens = .ok rest ↔ tokens = wanted :: rest.1 := by
  cases tokens with
  | nil => simp [pass]
  | cons token tokens =>
      by_cases h : token = wanted
      · simp [pass, h, Subtype.ext_iff]
      · simp [pass, h]

theorem pass_cons (token : Token) (rest : List Token) :
    pass token (token :: rest) = .ok ⟨rest, length_lt_length_cons token rest⟩ :=
  pass_eq_ok_iff.mpr rfl

theorem numberOf_eq_ok_iff {token : Token} {x : Float} : numberOf token = .ok x ↔ IsNumber token x := by
  rw [numberOf, IsNumber]
  cases Decimal.isLevelNumber token <;> cases Decimal.number? token <;> simp

theorem readNumber_cons {token : Token} {x : Float} (hx : IsNumber token x) (rest : List Token) :
    readNumber (token :: rest) = .ok (x, ⟨rest, length_lt_length_cons token rest⟩) := by
  rw [readNumber, numberOf_eq_ok_iff.mpr hx]
  rfl

theorem readNumber_eq_ok_iff {tokens : List Token} {x : Float} {rest : Rest tokens} :
    readNumber tokens = .ok (x, rest) ↔ ∃ token, tokens = token :: rest.1 ∧ IsNumber token x := by
  constructor
  · intro h
    cases tokens with
    | nil => cases h
    | cons token tokens =>
        obtain ⟨_, hx, hfound⟩ := Result.map_eq_ok_iff.mp h
        cases hfound
        exact ⟨token, rfl, numberOf_eq_ok_iff.mp hx⟩
  · rintro ⟨token, hcons, hx⟩
    obtain ⟨rest, hlength⟩ := rest
    dsimp only at hcons
    subst hcons
    exact readNumber_cons hx rest

theorem found_readTriple {tokens rest : List Token} {xyz : Float × Float × Float} :
    Found (readTriple tokens) xyz rest ↔ ∃ front, tokens = front ++ rest ∧ Triple front xyz := by
  constructor
  · rintro ⟨h, hread⟩
    obtain ⟨⟨afterOpen, h₁⟩, hopen, hread⟩ := Result.bind_eq_ok_iff.mp hread
    obtain ⟨⟨x, afterX, h₂⟩, hx, hread⟩ := Result.bind_eq_ok_iff.mp hread
    obtain ⟨⟨beforeY, h₃⟩, hcomma, hread⟩ := Result.bind_eq_ok_iff.mp hread
    obtain ⟨⟨y, afterY, h₄⟩, hy, hread⟩ := Result.bind_eq_ok_iff.mp hread
    obtain ⟨⟨beforeZ, h₅⟩, hcomma', hread⟩ := Result.bind_eq_ok_iff.mp hread
    obtain ⟨⟨z, afterZ, h₆⟩, hz, hread⟩ := Result.bind_eq_ok_iff.mp hread
    obtain ⟨⟨last, h₇⟩, hclose, hread⟩ := Result.bind_eq_ok_iff.mp hread
    cases hread
    obtain ⟨a, ha, hx⟩ := readNumber_eq_ok_iff.mp hx
    obtain ⟨b, hb, hy⟩ := readNumber_eq_ok_iff.mp hy
    obtain ⟨c, hc, hz⟩ := readNumber_eq_ok_iff.mp hz
    rw [pass_eq_ok_iff] at hopen hcomma hcomma' hclose
    refine ⟨["<", a, ",", b, ",", c, ">"], ?_, .mk hx hy hz⟩
    dsimp only at hopen ha hcomma hb hcomma' hc hclose
    rw [hopen, ha, hcomma, hb, hcomma', hc, hclose]
    rfl
  · rintro ⟨front, rfl, hx, hy, hz⟩
    refine ⟨by simp; omega, ?_⟩
    simp only [readTriple, List.cons_append, List.nil_append, pass_cons, readNumber_cons hx,
      readNumber_cons hy, readNumber_cons hz, Result.ok_bind]
    rfl

/-! ### Types -/

theorem isTypeName_of_ofName? {name : Token} {type : TypeName} (h : TypeName.ofName? name = some type) :
    isTypeName name = true := by
  have hname : type.name = name := by simpa using List.find?_some h
  rw [← hname]
  rcases type with ((_ | _ | _) | _ | _ | _ | _ | _ | _) <;> decide

theorem found_readType {tokens rest : List Token} {type : TypeName} :
    Found (readType tokens) type rest ↔
      ∃ name, tokens = name :: "]" :: rest ∧ TypeName.ofName? name = some type := by
  constructor
  · rintro ⟨h, hread⟩
    cases tokens with
    | nil => cases hread
    | cons name tokens =>
        rw [readType] at hread
        split at hread
        · obtain ⟨⟨body, hbody⟩, hclose, hread⟩ := Result.bind_eq_ok_iff.mp hread
          dsimp only at hread
          split at hread
          · cases hread
          · rename_i hname
            cases hread
            exact ⟨name, by rw [pass_eq_ok_iff.mp hclose], hname⟩
        · cases hread
  · rintro ⟨name, rfl, hname⟩
    refine ⟨Nat.lt_succ_of_lt (length_lt_length_cons _ _), ?_⟩
    rw [readType, if_pos (isTypeName_of_ofName? hname), pass_cons, Result.ok_bind, hname]
    rfl

theorem found_readBody {type : TypeName} {tokens rest : List Token} {body : Body} :
    Found (readBody type tokens) body rest ↔ tokens = body.bracket.left :: rest := by
  constructor
  · rintro ⟨h, hread⟩
    cases tokens with
    | nil => cases hread
    | cons token tokens =>
        rw [readBody] at hread
        split_ifs at hread with hbrace hbracket
        · cases hread
          rw [hbrace]
          rfl
        · cases hread
          rw [hbracket]
          rfl
  · rintro rfl
    refine ⟨length_lt_length_cons _ _, ?_⟩
    cases body <;> rfl

end LevelPlay.Value
