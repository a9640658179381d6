import LevelPlay.Proofs.Decimal.Recognition
import LevelPlay.Proofs.Result
import LevelPlay.Value.Reader

/-! Why tokens are refused. An error says something of the token at which reading stopped, and what it says is so: a
token that is not the expected one is another, and one that is no number is not written as level text writes numbers.
That a number is written as it should be and cannot be read all the same is never said. The errors of a reader are its
own and those of its parts, which it passes on as they are. -/

namespace LevelPlay.Value

/-- What the error says of a token or a value by itself is so. What it says of the tokens all together, or of an object
or an autofield in the making, is left out. -/
def Warranted : ValueError → Prop
  | .unexpected wanted found => found ≠ wanted
  | .notNumber found => ¬Decimal.Pattern.Matches Decimal.Pattern.levelNumeral found.toList
  | .malformedNumber _ => False
  | .fractional x => Decimal.idOfFloat? x = none
  | .looseTag found => Opening.of found = .tag
  | .malformedId found => Decimal.id? (found.toList.drop 1) = none
  | .unrecognized found => Opening.of found = .other
  | .noComma found => found ≠ ","
  | .malformedType found => isTypeName found = false
  | .unknownType found => TypeName.ofName? found = none
  | .noBody _ found => found ≠ "\x7b" ∧ found ≠ "["
  | .notConstructible type => type.objectType? = none
  | .misfit element found => ∃ v, Value.kind v = found ∧ v.fit? element = none
  | .unknownTag found => Tag.ofName? (String.ofList (found.toList.drop 1)) = none
  | .endOfLine | .unclosed _ | .overrun | .repeatedField _ _ | .field _ _ _ | .repeatedKind _ => True

/-- The error, if there is one, says what is so. -/
def Truthful {α : Type} (x : Except ValueError α) : Prop :=
  ∀ e, x = .error e → Warranted e

section

variable {α β : Type} {x : Except ValueError α} {bound : Nat}

theorem Truthful.ok (a : α) : Truthful (.ok a) :=
  fun _ h => nomatch h

theorem Truthful.error {e : ValueError} (he : Warranted e) : Truthful (.error e : Except ValueError α) := by
  rintro _ ⟨⟩
  exact he

theorem Truthful.bind {f : α → Except ValueError β} (hx : Truthful x) (hf : ∀ a, Truthful (f a)) :
    Truthful (x >>= f) := by
  intro e he
  rcases Result.bind_eq_error_iff.mp he with hfirst | ⟨a, -, hsecond⟩
  · exact hx e hfirst
  · exact hf a e hsecond

theorem Truthful.map (hx : Truthful x) (f : α → β) : Truthful (x.map f) :=
  fun e he => hx e (Result.map_eq_error_iff.mp he)

/-! ### Single tokens -/

theorem truthful_pass (wanted : Token) (tokens : List Token) : Truthful (pass wanted tokens) := by
  unfold pass
  split
  · exact .error trivial
  · split_ifs with h
    · exact .ok _
    · exact .error h

/-- A text that level text admits as a number is read as one. -/
theorem truthful_numberOf (token : Token) : Truthful (numberOf token) := by
  rw [numberOf]
  split_ifs with hlevel
  · have hmatch := Decimal.isLevelNumber_iff_matches.mp hlevel
    obtain ⟨x, hx⟩ := Decimal.exists_number?_iff.mpr (Decimal.numeral_of_levelNumeral hmatch)
    rw [hx]
    exact .ok x
  · exact .error (mt Decimal.isLevelNumber_iff_matches.mpr hlevel)

theorem truthful_readNumber (tokens : List Token) : Truthful (readNumber tokens) := by
  unfold readNumber
  split
  · exact .error trivial
  · exact (truthful_numberOf _).map _

theorem truthful_readTriple (tokens : List Token) : Truthful (readTriple tokens) := by
  unfold readTriple
  refine (truthful_pass _ _).bind fun ⟨_, _⟩ => (truthful_readNumber _).bind fun ⟨_, _, _⟩ => ?_
  refine (truthful_pass _ _).bind fun ⟨_, _⟩ => (truthful_readNumber _).bind fun ⟨_, _, _⟩ => ?_
  refine (truthful_pass _ _).bind fun ⟨_, _⟩ => (truthful_readNumber _).bind fun ⟨_, _, _⟩ => ?_
  exact (truthful_pass _ _).bind fun ⟨_, _⟩ => .ok _

theorem truthful_indexOf (x : Float) : Truthful (indexOf x) := by
  rw [indexOf]
  split
  · exact .ok _
  · exact .error ‹_›

theorem truthful_indices (xyz : Float × Float × Float) : Truthful (indices xyz) :=
  (truthful_indexOf _).bind fun _ => (truthful_indexOf _).bind fun _ => (truthful_indexOf _).bind fun _ => .ok _

theorem truthful_identifierOf (token : Token) : Truthful (identifierOf token) := by
  rw [identifierOf]
  split
  · exact .error ‹_›
  · exact .ok _

theorem truthful_readType (tokens : List Token) : Truthful (readType tokens) := by
  unfold readType
  split
  · exact .error trivial
  · split_ifs with hname
    · refine (truthful_pass _ _).bind fun body => ?_
      split
      split
      · exact .error ‹_›
      · exact .ok _
    · exact .error (Bool.eq_false_iff.mpr hname)

theorem truthful_readBody (type : TypeName) (tokens : List Token) : Truthful (readBody type tokens) := by
  unfold readBody
  split
  · exact .error trivial
  · split_ifs with hbrace hbracket
    · exact .ok _
    · exact .ok _
    · exact .error ⟨hbrace, hbracket⟩

/-! ### Taking entries in -/

theorem truthful_setOnce (type : ObjectType) (name : Token) (v : Value) (state : Object × List Token) :
    Truthful (setOnce type name v state) := by
  rw [setOnce]
  split_ifs
  · exact .error trivial
  · split
    · exact .error trivial
    · exact .ok _

theorem truthful_appendItem (element : TypeName) (v : Value) (items : List Value) :
    Truthful (appendItem element v items) := by
  rw [appendItem]
  split
  · exact .error ⟨v, rfl, ‹_›⟩
  · exact .ok _

theorem truthful_putValue (v : Value) (a : Autofield) : Truthful (putValue v a) := by
  rw [putValue]
  split
  · exact .error trivial
  · exact .ok _

theorem truthful_putTag (token : Token) (a : Autofield) : Truthful (putTag token a) := by
  rw [putTag]
  split
  · exact .error ‹_›
  · exact .ok _

theorem truthful_objectTypeOf (type : TypeName) : Truthful (objectTypeOf type) := by
  rw [objectTypeOf]
  split
  · exact .error ‹_›
  · exact .ok _

/-! ### Containers -/

theorem truthful_close (left right : Token) (tokens : List Token) : Truthful (close left right tokens) := by
  rw [close]
  split
  · exact .error trivial
  · exact .ok _

/-- The entries of a container are refused for what is true if a single one of them is. -/
theorem truthful_readEntries {σ : Type} {entry : σ → (tokens : List Token) → tokens.length < bound → Reading σ tokens}
    (hentry : ∀ state tokens h, Truthful (entry state tokens h)) (closing : Nat) (state : σ) (tokens : List Token)
    (h : tokens.length < bound) : Truthful (readEntries closing entry state tokens h) := by
  induction hlength : tokens.length using Nat.strongRecOn generalizing tokens state with
  | ind n ih =>
      rw [readEntries.eq_def]
      split_ifs
      · exact .ok _
      · split
        · rename_i e he
          exact .error (hentry state tokens h e he)
        · rename_i next rest hrest _
          split_ifs
          · exact .error trivial
          · exact .ok _
          · cases rest with
            | nil => exact .ok _
            | cons separator more =>
                dsimp only
                split_ifs with hcomma
                · rw [List.length_cons] at hrest
                  exact ih more.length (by omega) next more _ rfl
                · exact .error hcomma

section

variable {sub : SubReader bound} (hsub : ∀ tokens h, Truthful (sub tokens h))
include hsub

theorem truthful_readField (type : ObjectType) (state : Object × List Token) (tokens : List Token)
    (h : tokens.length < bound) : Truthful (readField sub type state tokens h) := by
  unfold readField
  split
  · exact .error trivial
  · refine (truthful_pass _ _).bind fun ⟨_, _⟩ => (hsub _ _).bind fun ⟨_, _, _⟩ => ?_
    exact (truthful_setOnce _ _ _ _).bind fun _ => .ok _

theorem truthful_readItem (element : TypeName) (items : List Value) (tokens : List Token)
    (h : tokens.length < bound) : Truthful (readItem sub element items tokens h) :=
  (hsub _ _).bind fun ⟨_, _⟩ => (truthful_appendItem _ _ _).bind fun _ => .ok _

theorem truthful_readMember (a : Autofield) (tokens : List Token) (h : tokens.length < bound) :
    Truthful (readMember sub a tokens h) := by
  unfold readMember
  split
  · exact .error trivial
  · split_ifs
    · exact (truthful_putTag _ _).map _
    · exact (hsub _ _).bind fun ⟨_, _⟩ => (truthful_putValue _ _).bind fun _ => .ok _

theorem truthful_readObject (name : TypeName) (tokens : List Token) (h : tokens.length < bound) :
    Truthful (readObject sub name tokens h) :=
  (truthful_objectTypeOf _).bind fun _ => (truthful_close _ _ _).bind fun _ =>
    (truthful_readEntries (truthful_readField hsub _) _ _ _ _).bind fun ⟨_, _⟩ => .ok _

theorem truthful_readList (element : TypeName) (tokens : List Token) (h : tokens.length < bound) :
    Truthful (readList sub element tokens h) :=
  (truthful_close _ _ _).bind fun _ =>
    (truthful_readEntries (truthful_readItem hsub _) _ _ _ _).bind fun _ => .ok _

theorem truthful_readAutofield (tokens : List Token) (h : tokens.length < bound) :
    Truthful (readAutofield sub tokens h) :=
  (truthful_close _ _ _).bind fun _ =>
    (truthful_readEntries (truthful_readMember hsub) _ _ _ _).bind fun _ => .ok _

theorem truthful_readTyped (tokens : List Token) (h : tokens.length < bound) :
    Truthful (readTyped sub tokens h) := by
  refine (truthful_readType _).bind fun ⟨_, _, _⟩ => (truthful_readBody _ _).bind fun ⟨body, _, _⟩ => ?_
  cases body with
  | fields => exact (truthful_readObject hsub _ _ _).bind fun ⟨_, _, _⟩ => .ok _
  | items => exact (truthful_readList hsub _ _ _).bind fun ⟨_, _, _⟩ => .ok _

/-! ### Values -/

theorem truthful_readOpened (token : Token) (rest : List Token) (h : rest.length < bound) :
    Truthful (readOpened sub token rest h) := by
  unfold readOpened
  split
  · exact (truthful_readTyped hsub _ _).map _
  · exact (truthful_readAutofield hsub _ _).map _
  · exact (truthful_readTriple _).map _
  · exact ((truthful_readTriple _).bind fun ⟨_, _⟩ => (truthful_indices _).bind fun _ => .ok _).map _
  · exact ((truthful_readTriple _).map _).map _
  · exact .error ‹_›
  · exact (truthful_identifierOf _).map _
  · exact (truthful_numberOf _).map _
  · exact .error ‹_›

end

/-- Whatever tokens are read and wherever reading stops, what the error says is so. -/
theorem truthful_parse (tokens : List Token) : Truthful (parse tokens) := by
  induction hlength : tokens.length using Nat.strongRecOn generalizing tokens with
  | ind n ih =>
      cases tokens with
      | nil =>
          rw [parse]
          exact .error trivial
      | cons token rest =>
          rw [parse]
          exact truthful_readOpened (fun inner hinner => ih _ (hlength ▸ hinner) inner rfl) token rest _

theorem truthful_parseAt (tokens : List Token) (start : Nat) : Truthful (parseAt tokens start) :=
  (truthful_parse _).map _

end

end LevelPlay.Value
