import LevelPlay.Proofs.Value.Reading

/-! Containers. Entries are read one after the other into a state until only the closing bracket and what
follows it are left. If single entries are read where the grammar has them, then so are the entries of the
container; and balance makes the bracket that is found first the one where they end. -/

namespace LevelPlay.Value

/-! ### Closing brackets -/

theorem exists_of_afterClosing {left right : Token} {depth : Nat} {tokens rest : List Token}
    (h : afterClosing left right depth tokens = some rest) : ∃ inner, tokens = inner ++ right :: rest := by
  induction tokens generalizing depth with
  | nil => cases h
  | cons token tokens ih =>
      rw [afterClosing.eq_def] at h
      dsimp only at h
      split at h
      · obtain ⟨inner, rfl⟩ := ih h
        exact ⟨token :: inner, rfl⟩
      · split at h
        · rename_i htoken
          cases depth with
          | zero =>
              cases h
              exact ⟨[], by rw [htoken]; rfl⟩
          | succ depth =>
              obtain ⟨inner, rfl⟩ := ih h
              exact ⟨token :: inner, rfl⟩
        · obtain ⟨inner, rfl⟩ := ih h
          exact ⟨token :: inner, rfl⟩

/-- After balanced tokens, the closing bracket of the pair is the one that is found. -/
theorem Bracket.Balanced.afterClosing_append {b : Bracket} {inner : List Token} (h : b.Balanced inner)
    (rest : List Token) : afterClosing b.left b.right 0 (inner ++ b.right :: rest) = some rest := by
  rw [h, afterClosing.eq_def]
  simp only [b.left_ne_right.symm, if_false, if_true]

theorem close_eq_ok_iff {left right : Token} {tokens : List Token} {rest : Rest tokens} :
    close left right tokens = .ok rest ↔ afterClosing left right 0 tokens = some rest.1 := by
  rw [close]
  split
  · rename_i hnone
    simp [hnone]
  · rename_i found hsome
    simp [hsome, Subtype.ext_iff]

/-! ### Entries -/

/-- A token that stands before the tail of a list stands within what comes before the tail. -/
theorem exists_append_of_append_eq {inner after front more : List Token} {separator : Token}
    (h : inner ++ after = front ++ separator :: more) (hlength : after.length ≤ more.length) :
    ∃ inner', inner = front ++ separator :: inner' ∧ more = inner' ++ after := by
  rcases List.append_eq_append_iff.mp h with ⟨middle, -, rfl⟩ | ⟨middle, rfl, hmiddle⟩
  · simp only [List.length_append, List.length_cons] at hlength
    omega
  · cases middle with
    | nil =>
        rw [List.nil_append] at hmiddle
        rw [← hmiddle, List.length_cons] at hlength
        omega
    | cons token inner' =>
        cases hmiddle
        exact ⟨inner', rfl, rfl⟩

section Entries

variable {σ α : Type} {bound : Nat} {entry : List Token → α → Prop} {take : σ → α → Except ValueError σ}
  {read : σ → (tokens : List Token) → tokens.length < bound → Reading σ tokens}

/-- Reading an entry finds exactly what the grammar calls an entry, and takes it into the state. -/
def ReadsEntry (entry : List Token → α → Prop) (take : σ → α → Except ValueError σ)
    (read : σ → (tokens : List Token) → tokens.length < bound → Reading σ tokens) : Prop :=
  ∀ (state : σ) (tokens : List Token) (h : tokens.length < bound) (next : σ) (rest : List Token),
    Found (read state tokens h) next rest ↔
      ∃ front a, tokens = front ++ rest ∧ entry front a ∧ take state a = .ok next

theorem readEntries_of_le {closing : Nat} {state : σ} {tokens : List Token} {h : tokens.length < bound}
    (hclosing : tokens.length ≤ closing) : readEntries closing read state tokens h = .ok state := by
  rw [readEntries.eq_def, if_pos hclosing]

/-- Before the closing bracket one entry is read, after which stands the bracket or a comma. -/
theorem readEntries_eq_ok_iff {closing : Nat} {state last : σ} {tokens : List Token}
    {h : tokens.length < bound} (hclosing : closing < tokens.length) :
    readEntries closing read state tokens h = .ok last ↔
      ∃ next rest, Found (read state tokens h) next rest ∧
        ((rest.length = closing ∧ next = last) ∨
          (closing < rest.length ∧ ∃ more hmore, rest = "," :: more ∧
            readEntries closing read next more hmore = .ok last)) := by
  rw [readEntries.eq_def, if_neg (Nat.not_le.mpr hclosing)]
  cases hread : read state tokens h with
  | error e => simp [Found]
  | ok reading =>
      obtain ⟨next, rest, hlength⟩ := reading
      have hfound : ∀ {next' rest'}, Found (Except.ok (next, ⟨rest, hlength⟩) : Reading σ tokens) next' rest' ↔
          next' = next ∧ rest' = rest := by
        intro next' rest'
        constructor
        · rintro ⟨_, heq⟩
          cases heq
          exact ⟨rfl, rfl⟩
        · rintro ⟨rfl, rfl⟩
          exact ⟨hlength, rfl⟩
      simp only [hfound]
      rcases Nat.lt_trichotomy rest.length closing with hlt | heq | hgt
      · simp [hlt]
        omega
      · simp [heq]
      · cases rest with
        | nil => simp at hgt
        | cons separator more =>
            have hbound : more.length < bound := by
              simp only [List.length_cons] at hlength
              omega
            dsimp only
            rw [if_neg (Nat.not_lt.mpr (Nat.le_of_lt hgt)), if_neg (Nat.ne_of_gt hgt)]
            constructor
            · intro hread'
              split at hread'
              · rename_i hcomma
                exact ⟨next, _, ⟨rfl, rfl⟩, .inr ⟨hgt, more, hbound, by rw [hcomma], hread'⟩⟩
              · cases hread'
            · rintro ⟨_, _, ⟨rfl, rfl⟩, ⟨heq, -⟩ | ⟨-, more', hmore, hcons, hread'⟩⟩
              · exact absurd heq (Nat.ne_of_gt hgt)
              · cases hcons
                rw [if_pos rfl]
                exact hread'

/-- The entries before the closing bracket are read exactly where the grammar has entries, and are taken in
from the first on. -/
theorem readEntries_append_eq_ok_iff (hentry : ReadsEntry entry take read) {state last : σ}
    {inner after : List Token} (h : (inner ++ after).length < bound) :
    readEntries after.length read state (inner ++ after) h = .ok last ↔
      ∃ as, Entries entry inner as ∧ as.foldlM take state = .ok last := by
  constructor
  · intro hread
    induction hlength : inner.length using Nat.strongRecOn generalizing inner state with
    | ind n ih =>
        subst hlength
        cases inner with
        | nil =>
            rw [readEntries_of_le (by simp)] at hread
            cases hread
            exact ⟨[], .none, rfl⟩
        | cons token inner =>
            have hclosing : after.length < (token :: inner ++ after).length := by
              simp only [List.length_append, List.length_cons]
              omega
            obtain ⟨next, rest, hfound, hrest⟩ := (readEntries_eq_ok_iff hclosing).mp hread
            obtain ⟨front, a, hfront, ha, htake⟩ := (hentry _ _ _ _ _).mp hfound
            -- Either the entry is all that is left before the bracket, or a comma follows it there.
            rcases hrest with ⟨hclosing, rfl⟩ | ⟨hclosing, more, hmore, rfl, hmore'⟩
            · obtain ⟨rfl, rfl⟩ := List.append_inj' hfront hclosing.symm
              exact ⟨[a], .last ha, by rw [List.foldlM_cons, htake]; rfl⟩
            · obtain ⟨inner', hinner, rfl⟩ :=
                exists_append_of_append_eq hfront (Nat.le_of_lt_succ hclosing)
              have hshorter : inner'.length < (token :: inner).length := by
                rw [hinner, List.length_append, List.length_cons]
                omega
              obtain ⟨as, hentries, hfold⟩ := ih _ hshorter hmore hmore' rfl
              rw [hinner]
              exact ⟨a :: as, .more ha hentries, by rw [List.foldlM_cons, htake]; exact hfold⟩
  · rintro ⟨as, hentries, hfold⟩
    induction hentries generalizing state with
    | none =>
        cases hfold
        exact readEntries_of_le (by simp)
    | @last tokens a ha =>
        rw [List.foldlM_cons] at hfold
        obtain ⟨next, htake, hnext⟩ := Result.bind_eq_ok_iff.mp hfold
        cases hnext
        have hfound := (hentry state _ h last after).mpr ⟨tokens, a, rfl, ha, htake⟩
        exact (readEntries_eq_ok_iff hfound.1).mpr ⟨last, after, hfound, .inl ⟨rfl, rfl⟩⟩
    | @more tokens rest a as ha _ ih =>
        rw [List.foldlM_cons] at hfold
        obtain ⟨next, htake, hnext⟩ := Result.bind_eq_ok_iff.mp hfold
        have hmore : (rest ++ after).length < bound := by
          simp only [List.length_append, List.length_cons] at h ⊢
          omega
        have hfound := (hentry state _ h next ("," :: (rest ++ after))).mpr
          ⟨tokens, a, by rw [List.append_assoc]; rfl, ha, htake⟩
        refine (readEntries_eq_ok_iff ?_).mpr ⟨next, _, hfound, .inr ⟨?_, rest ++ after, hmore, rfl, ih hmore hnext⟩⟩
        · simp only [List.length_append, List.length_cons]
          omega
        · simp only [List.length_append, List.length_cons]
          omega

/-- A container is found exactly where balanced entries are followed by its closing bracket. -/
theorem found_container (b : Bracket) (finish : σ → Value) (hentry : ReadsEntry entry take read) {state : σ}
    {tokens rest : List Token} {h : tokens.length < bound} {v : Value}
    (hnested : ∀ {inner as last}, Entries entry inner as → as.foldlM take state = .ok last → Nested inner) :
    Found (do
      let rest ← close b.left b.right tokens
      let last ← readEntries (rest.1.length + 1) read state tokens h
      return (finish last, rest) : Reading Value tokens) v rest ↔
      ∃ inner as last, tokens = inner ++ b.right :: rest ∧ Entries entry inner as ∧
        as.foldlM take state = .ok last ∧ v = finish last := by
  constructor
  · rintro ⟨hrest, hread⟩
    obtain ⟨⟨after, hafter⟩, hclose, hread⟩ := Result.bind_eq_ok_iff.mp hread
    obtain ⟨last, hentries, hread⟩ := Result.bind_eq_ok_iff.mp hread
    cases hread
    obtain ⟨inner, hinner⟩ := exists_of_afterClosing (close_eq_ok_iff.mp hclose)
    dsimp only at hinner
    subst hinner
    obtain ⟨as, hentries, hfold⟩ := (readEntries_append_eq_ok_iff hentry h).mp hentries
    exact ⟨inner, as, last, rfl, hentries, hfold, rfl⟩
  · rintro ⟨inner, as, last, rfl, hentries, hfold, rfl⟩
    have hrest : rest.length < (inner ++ b.right :: rest).length := by
      simp only [List.length_append, List.length_cons]
      omega
    -- Balance enters here: the bracket that is found by counting is the one after the entries.
    have hclose : close b.left b.right (inner ++ b.right :: rest) = .ok ⟨rest, hrest⟩ :=
      close_eq_ok_iff.mpr ((hnested hentries hfold b).afterClosing_append rest)
    have hread : readEntries (rest.length + 1) read state (inner ++ b.right :: rest) h = .ok last :=
      (readEntries_append_eq_ok_iff hentry h).mpr ⟨as, hentries, hfold⟩
    exact ⟨hrest, by simp only [hclose, hread, Result.ok_bind]; rfl⟩

end Entries

end LevelPlay.Value
