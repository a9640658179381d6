import LevelPlay.Proofs.Result
import LevelPlay.Proofs.Value.Grammar

/-! Brackets in the tokens of a value. The closing bracket of a container is found by counting the brackets
of one pair alone. That it is the right one rests on balance: whatever denotes a value can be passed over
without a change in the number of open brackets, for each of the three pairs. -/

namespace LevelPlay.Value

/-- The pairs of brackets around the entries of containers. -/
inductive Bracket where
  | braces
  | squares
  | marks
  deriving DecidableEq

namespace Bracket

def left : Bracket → Token
  | braces => "\x7b"
  | squares => "["
  | marks => Token.openAutofield

def right : Bracket → Token
  | braces => "\x7d"
  | squares => "]"
  | marks => Token.closeAutofield

theorem left_ne_right (b : Bracket) : b.left ≠ b.right := by
  cases b <;> decide

/-- Passing over these tokens leaves as many brackets of the pair open as there were. -/
def Balanced (b : Bracket) (tokens : List Token) : Prop :=
  ∀ depth rest, afterClosing b.left b.right depth (tokens ++ rest) = afterClosing b.left b.right depth rest

end Bracket

/-- A token that is no bracket of a container. -/
def Plain (token : Token) : Prop := ∀ b : Bracket, token ≠ b.left ∧ token ≠ b.right

/-- Tokens that are balanced in each pair of brackets. -/
def Nested (tokens : List Token) : Prop := ∀ b : Bracket, b.Balanced tokens

/-! ### Building balanced tokens -/

theorem nested_nil : Nested [] := fun _ _ _ => rfl

theorem Nested.append {front back : List Token} (hfront : Nested front) (hback : Nested back) :
    Nested (front ++ back) := by
  intro b depth rest
  rw [List.append_assoc, hfront b, hback b]

theorem Nested.cons {token : Token} {tokens : List Token} (htoken : Plain token) (h : Nested tokens) :
    Nested (token :: tokens) := by
  intro b depth rest
  obtain ⟨hleft, hright⟩ := htoken b
  rw [List.cons_append, afterClosing.eq_def]
  simp only [hleft, hright, if_false]
  exact h b depth rest

/-- An opening bracket and its closing bracket around balanced tokens. -/
theorem Nested.enclose {inner : List Token} (h : Nested inner) (b : Bracket) :
    Nested (b.left :: (inner ++ [b.right])) := by
  intro pair depth rest
  rw [List.cons_append, List.append_assoc, List.singleton_append]
  by_cases hpair : pair = b
  · subst hpair
    rw [afterClosing.eq_def]
    simp only [if_true]
    rw [h pair, afterClosing.eq_def]
    simp only [pair.left_ne_right.symm, if_false, if_true]
  · have houter : b.left ≠ pair.left ∧ b.left ≠ pair.right ∧ b.right ≠ pair.left ∧ b.right ≠ pair.right := by
      revert hpair
      cases b <;> cases pair <;> decide
    obtain ⟨h₁, h₂, h₃, h₄⟩ := houter
    rw [afterClosing.eq_def]
    simp only [h₁, h₂, if_false]
    rw [h pair, afterClosing.eq_def]
    simp only [h₃, h₄, if_false]

/-! ### Tokens that are no brackets -/

theorem plain_of_forall {token : Token} (h : ∀ b : Bracket, token = b.left ∨ token = b.right → False) :
    Plain token :=
  fun b => ⟨fun e => h b (.inl e), fun e => h b (.inr e)⟩

theorem IsNumber.plain {token : Token} {x : Float} (h : IsNumber token x) : Plain token := by
  refine plain_of_forall fun b hb => ?_
  have hnumber := h.1
  cases b <;> rcases hb with rfl | rfl <;> exact absurd hnumber (by decide)

theorem plain_of_head {token : Token} {c : Char} {cs : List Char} (h : token.toList = c :: cs)
    (hc : c = '#' ∨ c = '@') : Plain token := by
  refine plain_of_forall fun b hb => ?_
  cases b <;> rcases hb with rfl | rfl <;> cases h <;> revert hc <;> decide

theorem plain_of_typeName {name : Token} {type : TypeName} (h : TypeName.ofName? name = some type) :
    Plain name := by
  have hname : type.name = name := by simpa using List.find?_some h
  refine plain_of_forall fun b hb => ?_
  rw [← hname] at hb
  rcases type with ((_ | _ | _) | _ | _ | _ | _ | _ | _) <;> cases b <;> revert hb <;> decide

theorem plain_of_tag (name : String) : Plain ("#" ++ name) := by
  have hlist : ("#" ++ name).toList = '#' :: name.toList := by simp
  exact plain_of_head hlist (.inl rfl)

theorem plain_of_identifier (figures : String) : Plain ("@" ++ figures) := by
  have hlist : ("@" ++ figures).toList = '@' :: figures.toList := by simp
  exact plain_of_head hlist (.inr rfl)

/-- A field that can be assigned is one of the table. -/
theorem mem_names_of_assign {α : Type} {fields : List (Field α)} {target changed : α} {name : String}
    {v : Value} (h : Field.assign fields target name v = .ok changed) : name ∈ fields.map Field.name := by
  rw [Field.assign] at h
  split at h
  · cases h
  · rename_i field hfind
    have hname : field.name = name := by simpa using List.find?_some hfind
    exact List.mem_map.mpr ⟨field, List.mem_of_find?_eq_some hfind, hname⟩

theorem plain_of_mem_names {names : List String}
    (hnames : ∀ b : Bracket, b.left ∉ names ∧ b.right ∉ names) {name : String} (h : name ∈ names) :
    Plain name := by
  refine plain_of_forall fun b hb => ?_
  rcases hb with rfl | rfl
  · exact (hnames b).1 h
  · exact (hnames b).2 h

/-- No field is named like a bracket. -/
theorem plain_of_setField {o changed : Object} {name : Token} {v : Value}
    (h : o.setField name v = .ok changed) : Plain name := by
  cases o with
  | sector s =>
      obtain ⟨_, hassign, -⟩ := Result.map_eq_ok_iff.mp h
      exact plain_of_mem_names (by intro b; cases b <;> decide) (mem_names_of_assign hassign)
  | boundary s =>
      obtain ⟨_, hassign, -⟩ := Result.map_eq_ok_iff.mp h
      exact plain_of_mem_names (by intro b; cases b <;> decide) (mem_names_of_assign hassign)
  | transform s =>
      obtain ⟨_, hassign, -⟩ := Result.map_eq_ok_iff.mp h
      exact plain_of_mem_names (by intro b; cases b <;> decide) (mem_names_of_assign hassign)

theorem plain_of_setFields {fields : List (Token × Value)} {o built : Object}
    (h : fields.foldlM (fun o field => o.setField field.1 field.2) o = .ok built) :
    ∀ field ∈ fields, Plain field.1 := by
  induction fields generalizing o with
  | nil => simp
  | cons field fields ih =>
      rw [List.foldlM_cons] at h
      obtain ⟨next, hset, hrest⟩ := Result.bind_eq_ok_iff.mp h
      exact List.forall_mem_cons.mpr ⟨plain_of_setField hset, ih hrest⟩

/-! ### What denotes a value is balanced -/

theorem Entries.nested {α : Type} {entry : List Token → α → Prop} {tokens : List Token} {as : List α}
    (h : Entries entry tokens as)
    (hentry : ∀ {front a}, entry front a → a ∈ as → front.length ≤ tokens.length → Nested front) :
    Nested tokens := by
  induction h with
  | none => exact nested_nil
  | last hlast => exact hentry hlast List.mem_cons_self (Nat.le_refl _)
  | @more front rest a as hfirst _ ih =>
      have hcomma : Plain "," := by intro b; cases b <;> decide
      refine Nested.append (hentry hfirst List.mem_cons_self (by simp)) (.cons hcomma (ih ?_))
      intro front' a' h' hmem hlength
      exact hentry h' (List.mem_cons_of_mem _ hmem) (by simp; omega)

theorem plain_punctuation : ∀ token ∈ ["<", ",", ">", ":", "%", "$"], Plain token := by
  intro token htoken b
  revert token
  cases b <;> decide

theorem Triple.nested {tokens : List Token} {xyz : Float × Float × Float} (h : Triple tokens xyz) :
    Nested tokens := by
  obtain ⟨hx, hy, hz⟩ := h
  have hopen : Plain "<" := plain_punctuation _ (by simp)
  have hcomma : Plain "," := plain_punctuation _ (by simp)
  have hclose : Plain ">" := plain_punctuation _ (by simp)
  exact .cons hopen (.cons hx.plain (.cons hcomma (.cons hy.plain (.cons hcomma
    (.cons hz.plain (.cons hclose nested_nil))))))

/-- The front of a typed value, with its body in brackets. -/
theorem nested_typed {name : Token} {type : TypeName} {inner : List Token}
    (htype : TypeName.ofName? name = some type) (hinner : Nested inner) (b : Bracket) :
    Nested ("[" :: name :: "]" :: b.left :: (inner ++ [b.right])) := by
  have hname : Nested [name] := .cons (plain_of_typeName htype) nested_nil
  exact (hname.enclose .squares).append (hinner.enclose b)

section Entries

variable {denotes : List Token → Value → Prop} {tokens : List Token}

/-- The entries of an object are balanced where their values are. -/
theorem nested_fields {fields : List (Token × Value)} {o built : Object}
    (h : Entries (FieldOf denotes) tokens fields)
    (hset : fields.foldlM (fun o field => o.setField field.1 field.2) o = .ok built)
    (hvalue : ∀ {front v}, denotes front v → front.length ≤ tokens.length → Nested front) :
    Nested tokens := by
  have hplain := plain_of_setFields hset
  refine h.nested ?_
  rintro front field ⟨name, hfield⟩ hmem hle
  refine .cons (hplain _ hmem) (.cons (plain_punctuation _ (by simp)) (hvalue hfield ?_))
  simp only [List.length_cons] at hle
  omega

/-- The entries of an autofield are balanced where their values are. -/
theorem nested_members {members : List (Tag ⊕ Value)} (h : Entries (MemberOf denotes) tokens members)
    (hvalue : ∀ {front v}, denotes front v → front.length ≤ tokens.length → Nested front) :
    Nested tokens := by
  refine h.nested fun hmember _ hle => ?_
  cases hmember with
  | tag _ => exact .cons (plain_of_tag _) nested_nil
  | value hmember => exact hvalue hmember hle

end Entries

/-- What holds of each value that holds of the values that its entries denote holds of all. The induction is on the
number of tokens, which bounds that of what stands in brackets. -/
theorem Denotes.induction {motive : List Token → Value → Prop}
    (hstep : ∀ {tokens : List Token} {v : Value}, Denotes tokens v →
      (∀ (opening : List Token) {inner front : List Token} {closing : Token} {w : Value},
        tokens = opening ++ (inner ++ [closing]) → Denotes front w → front.length ≤ inner.length → motive front w) →
      motive tokens v) {tokens : List Token} {v : Value} (h : Denotes tokens v) : motive tokens v := by
  induction hlength : tokens.length using Nat.strongRecOn generalizing tokens v with
  | ind n ih =>
      subst hlength
      refine hstep h ?_
      rintro opening inner front closing w rfl hfront hle
      refine ih _ ?_ hfront rfl
      simp only [List.length_append, List.length_singleton]
      omega

/-- Tokens that denote a value are balanced. -/
theorem Denotes.nested {tokens : List Token} {v : Value} (h : Denotes tokens v) : Nested tokens := by
  refine h.induction (motive := fun tokens _ => Nested tokens) ?_
  intro tokens v h hbody
  cases h with
  | number hx => exact .cons hx.plain nested_nil
  | identifier _ => exact .cons (plain_of_identifier _) nested_nil
  | vector hxyz => exact hxyz.nested
  | intVector hxyz _ _ _ => exact .cons (plain_punctuation _ (by simp)) hxyz.nested
  | rotation hxyz => exact .cons (plain_punctuation _ (by simp)) hxyz.nested
  | @object name _ _ _ _ htype hentries _ hset =>
      exact nested_typed htype (nested_fields hentries hset (hbody ["[", name, "]", _] rfl)) .braces
  | @list name _ _ _ _ htype hentries _ =>
      refine nested_typed htype (hentries.nested fun hvalue _ hle => ?_) .squares
      exact hbody ["[", name, "]", _] rfl hvalue hle
  | autofield hentries _ _ _ => exact (nested_members hentries (hbody [_] rfl)).enclose .marks

end LevelPlay.Value
