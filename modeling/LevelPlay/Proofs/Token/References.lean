import LevelPlay.Proofs.Token.Lexemes

/-! References among the tokens of a line. A dollar sign is a token of its own, and where digits come right after it the
two are joined. A pair is joined wherever it stands, and dollar signs and digits beside it are left as they are. So
nothing is left to join; and since no token of a line is a reference before that, to take the references apart gives the
tokens of the line. -/

namespace LevelPlay.Token

/-! ### References -/

/-- Whether a token is a dollar sign and a nonempty run of decimal digits in one. -/
def isReference (token : Token) : Bool :=
  match token.toList with
  | '$' :: figures => isDigits (String.ofList figures)
  | _ => false

/-- What a token has been joined from: the dollar sign and the digits of a reference, and itself otherwise. -/
def unjoined (token : Token) : List Token :=
  if isReference token then ["$", String.ofList (token.toList.drop 1)] else [token]

/-- No dollar sign has digits right after it. -/
def Joined (tokens : List Token) : Prop :=
  ∀ digits, isDigits digits = true → ¬["$", digits] <:+: tokens

theorem toList_dollar_append (digits : Token) : ("$" ++ digits).toList = '$' :: digits.toList := by simp

theorem isReference_dollar_append (digits : Token) : isReference ("$" ++ digits) = isDigits digits := by
  rw [isReference, toList_dollar_append]
  exact congrArg isDigits String.ofList_toList

theorem isReference_iff {token : Token} :
    isReference token = true ↔ ∃ digits, isDigits digits = true ∧ token = "$" ++ digits := by
  constructor
  · intro h
    rw [isReference] at h
    split at h
    · rename_i figures hlist
      exact ⟨String.ofList figures, h, String.toList_injective (by simp [hlist])⟩
    · cases h
  · rintro ⟨digits, hdigits, rfl⟩
    rwa [isReference_dollar_append]

theorem unjoined_of_isDigits {digits : Token} (h : isDigits digits = true) :
    unjoined ("$" ++ digits) = ["$", digits] := by
  rw [unjoined, isReference_dollar_append, if_pos h, toList_dollar_append, List.drop_one, List.tail_cons,
    String.ofList_toList]

theorem unjoined_of_not_isReference {token : Token} (h : isReference token = false) : unjoined token = [token] := by
  rw [unjoined, h, if_neg Bool.false_ne_true]

/-- A line is cut between a dollar sign and what follows it. -/
theorem Lexeme.isReference_eq_false {token : Token} (h : Lexeme token.toList) : isReference token = false := by
  by_contra href
  obtain ⟨digits, hdigits, rfl⟩ := isReference_iff.mp (by simpa using href)
  rw [toList_dollar_append] at h
  cases hlist : digits.toList with
  | nil => simp [isDigits, String.toList_eq_nil_iff.mp hlist] at hdigits
  | cons c figures =>
      rw [hlist] at h
      cases h with
      | sign hsign => cases hsign
      | word _ _ hordinary => exact (hordinary '$' List.mem_cons_self).not_delimiter (by decide)

/-! ### Joining -/

theorem fuseReferences_pair {digits : Token} (h : isDigits digits = true) (rest : List Token) :
    fuseReferences ("$" :: digits :: rest) = ("$" ++ digits) :: fuseReferences rest := by
  rw [fuseReferences, if_pos ⟨rfl, h⟩]

/-- A token that is not the first of a pair stays as it is. -/
theorem fuseReferences_other {token : Token} {rest : List Token}
    (h : token = "$" → ∀ next ∈ rest.head?, isDigits next = false) :
    fuseReferences (token :: rest) = token :: fuseReferences rest := by
  cases rest with
  | nil => rfl
  | cons next rest =>
      rw [fuseReferences, if_neg]
      rintro ⟨hdollar, hdigits⟩
      cases hdigits.symm.trans (h hdollar next rfl)

/-- Induction over the tokens of a line: a pair goes together, any other token by itself. -/
@[elab_as_elim]
theorem pair_induction {motive : List Token → Prop} (nil : motive [])
    (pair : ∀ digits rest, isDigits digits = true → motive rest → motive ("$" :: digits :: rest))
    (other : ∀ token rest, (token = "$" → ∀ next ∈ rest.head?, isDigits next = false) → motive rest →
      motive (token :: rest)) (tokens : List Token) : motive tokens := by
  fun_induction fuseReferences tokens with
  | case1 => exact nil
  | case2 token => exact other token [] (fun _ _ hnext => nomatch hnext) nil
  | case3 token next rest hpair ih =>
      obtain ⟨rfl, hdigits⟩ := hpair
      exact pair next rest hdigits ih
  | case4 token next rest hother ih =>
      refine other token (next :: rest) (fun hdollar other hnext => ?_) ih
      cases hnext
      simpa [hdollar] using hother

/-- No pair reaches across a dollar sign that is not its first token. -/
theorem fuseReferences_append_dollar (front rest : List Token) :
    fuseReferences (front ++ "$" :: rest) = fuseReferences front ++ fuseReferences ("$" :: rest) := by
  induction front using pair_induction with
  | nil => rfl
  | pair digits front hdigits ih =>
      rw [List.cons_append, List.cons_append, fuseReferences_pair hdigits, fuseReferences_pair hdigits, ih]
      rfl
  | other token front hother ih =>
      rw [fuseReferences_other hother, List.cons_append, List.cons_append, fuseReferences_other, ih]
      intro hdollar next hnext
      cases front with
      | nil =>
          cases hnext
          decide
      | cons first front => exact hother hdollar next hnext

theorem fuseReferences_append_pair {digits : Token} (h : isDigits digits = true) (front back : List Token) :
    fuseReferences (front ++ "$" :: digits :: back) =
      fuseReferences front ++ ("$" ++ digits) :: fuseReferences back := by
  rw [fuseReferences_append_dollar, fuseReferences_pair h]

/-- Digits that come first were digits that came first. -/
theorem head?_fuseReferences {tokens : List Token} {digits : Token} (hdigits : isDigits digits = true)
    (h : digits ∈ (fuseReferences tokens).head?) : digits ∈ tokens.head? := by
  cases tokens using pair_induction with
  | nil => exact h
  | pair figures rest hfigures _ =>
      rw [fuseReferences_pair hfigures] at h
      cases h
      simp [isDigits] at hdigits
  | other token rest hother _ =>
      rw [fuseReferences_other hother] at h
      exact h

theorem joined_cons_iff {token : Token} {tokens : List Token} :
    Joined (token :: tokens) ↔
      (token = "$" → ∀ next ∈ tokens.head?, isDigits next = false) ∧ Joined tokens := by
  have hfirst : ∀ digits, ["$", digits] <+: token :: tokens ↔ token = "$" ∧ tokens.head? = some digits := by
    intro digits
    rw [List.cons_prefix_cons, eq_comm]
    cases tokens <;> simp [eq_comm]
  constructor
  · refine fun h => ⟨fun hdollar next hnext => ?_, fun digits hdigits hpair => ?_⟩
    · rw [← Bool.not_eq_true]
      exact fun hdigits => h next hdigits ((hfirst next).mpr ⟨hdollar, hnext⟩).isInfix
    · exact h digits hdigits (List.infix_cons hpair)
  · rintro ⟨hhead, htail⟩ digits hdigits hpair
    rcases List.infix_cons_iff.mp hpair with hhere | hlater
    · obtain ⟨hdollar, hnext⟩ := (hfirst digits).mp hhere
      cases hdigits.symm.trans (hhead hdollar digits hnext)
    · exact htail digits hdigits hlater

theorem joined_fuseReferences (tokens : List Token) : Joined (fuseReferences tokens) := by
  induction tokens using pair_induction with
  | nil => exact fun _ _ hpair => nomatch List.eq_nil_of_infix_nil hpair
  | pair digits rest hdigits ih =>
      rw [fuseReferences_pair hdigits]
      refine joined_cons_iff.mpr ⟨fun hdollar => ?_, ih⟩
      have hnone : digits = "" := by simpa using hdollar
      subst hnone
      cases hdigits
  | other token rest hother ih =>
      rw [fuseReferences_other hother]
      refine joined_cons_iff.mpr ⟨fun hdollar next hnext => ?_, ih⟩
      rw [← Bool.not_eq_true]
      intro hdigits
      cases hdigits.symm.trans (hother hdollar next (head?_fuseReferences hdigits hnext))

/-- Where nothing is left to join, nothing changes. -/
theorem fuseReferences_of_joined {tokens : List Token} (h : Joined tokens) : fuseReferences tokens = tokens := by
  induction tokens with
  | nil => rfl
  | cons token rest ih =>
      obtain ⟨hfirst, hrest⟩ := joined_cons_iff.mp h
      rw [fuseReferences_other hfirst, ih hrest]

/-! ### Taking apart -/

theorem flatMap_unjoined_fuseReferences {tokens : List Token} (h : ∀ token ∈ tokens, isReference token = false) :
    (fuseReferences tokens).flatMap unjoined = tokens := by
  induction tokens using pair_induction with
  | nil => rfl
  | pair digits rest hdigits ih =>
      simp only [List.forall_mem_cons] at h
      rw [fuseReferences_pair hdigits, List.flatMap_cons, unjoined_of_isDigits hdigits, ih h.2.2]
      rfl
  | other token rest hother ih =>
      obtain ⟨htoken, hrest⟩ := List.forall_mem_cons.mp h
      rw [fuseReferences_other hother, List.flatMap_cons, unjoined_of_not_isReference htoken, ih hrest]
      rfl

/-- The tokens that have not been joined stand among those from which the others have been, in the same order. -/
theorem filter_sublist_flatMap_unjoined (tokens : List Token) :
    (tokens.filter (!isReference ·)).Sublist (tokens.flatMap unjoined) := by
  induction tokens with
  | nil => exact List.Sublist.slnil
  | cons token rest ih =>
      rw [List.flatMap_cons]
      cases href : isReference token with
      | true =>
          rw [List.filter_cons_of_neg (by simp [href])]
          exact ih.trans (List.sublist_append_right _ _)
      | false =>
          rw [List.filter_cons_of_pos (by simp [href]), unjoined_of_not_isReference href]
          exact ih.cons_cons token

/-- To join the references of a line loses nothing: taken apart again they give its tokens, and the tokens that are no
references keep their order. It also leaves nothing to do: a dollar sign with digits right after it is joined with them,
whatever stands before and behind the two, so that afterwards there is no such pair, and to join once more changes
nothing. -/
theorem references_joined_losslessly :
    (∀ table line, (fuseReferences (ofLine table line)).flatMap unjoined = ofLine table line ∧
      ((fuseReferences (ofLine table line)).filter (!isReference ·)).Sublist (ofLine table line)) ∧
      (∀ tokens, Joined (fuseReferences tokens) ∧ fuseReferences (fuseReferences tokens) = fuseReferences tokens) ∧
      ∀ front digits back, isDigits digits = true →
        fuseReferences (front ++ "$" :: digits :: back) =
          fuseReferences front ++ ("$" ++ digits) :: fuseReferences back := by
  refine ⟨fun table line => ?_, fun tokens => ?_, fun front digits back h => fuseReferences_append_pair h front back⟩
  · have hapart : (fuseReferences (ofLine table line)).flatMap unjoined = ofLine table line :=
      flatMap_unjoined_fuseReferences fun token htoken => (lexeme_of_mem_ofLine token htoken).isReference_eq_false
    have hsublist := filter_sublist_flatMap_unjoined (fuseReferences (ofLine table line))
    rw [hapart] at hsublist
    exact ⟨hapart, hsublist⟩
  · exact ⟨joined_fuseReferences tokens, fuseReferences_of_joined (joined_fuseReferences tokens)⟩

/-- Of two dollar signs the second takes the digits, and of two runs of digits the first is taken. -/
theorem crowded_references_joined :
    isDigits "1" = true ∧ ofLine .empty "$$1 2 $" = ["$", "$", "1", "2", "$"] ∧
      fuseReferences ["$", "$", "1", "2", "$"] = ["$", "$1", "2", "$"] ∧
      ["$", "$1", "2", "$"].flatMap unjoined = ["$", "$", "1", "2", "$"] := by
  have hdigits : isDigits "1" = true := by decide
  have htokens : ofLine .empty "$$1 2 $" = ["$", "$", "1", "2", "$"] := by decide +kernel
  have hfused : fuseReferences ["$", "$", "1", "2", "$"] = ["$", "$1", "2", "$"] := by
    obtain ⟨-, -, hpair⟩ := references_joined_losslessly
    exact hpair ["$"] "1" ["2", "$"] hdigits
  refine ⟨hdigits, htokens, hfused, ?_⟩
  rw [← hfused, ← htokens]
  exact (references_joined_losslessly.1 .empty "$$1 2 $").1

end LevelPlay.Token
