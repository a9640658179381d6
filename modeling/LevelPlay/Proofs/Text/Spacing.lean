import LevelPlay.Proofs.Text.Words

/-! Words with one space between neighbours. A text is written in this way if each of its blanks is a space with
something on either side that is no blank. Its words, joined again, are then the text, and to join the words of any text
gives a text that is written so. -/

namespace LevelPlay.Text

/-- Each blank is a space, and what stands right before it and right after it is no blank. -/
def SingleSpaced (cs : List Char) : Prop :=
  ∀ front b back, cs = front ++ b :: back → isBlank b = true →
    b = ' ' ∧ (∃ c ∈ front.getLast?, isBlank c = false) ∧ ∃ c ∈ back.head?, isBlank c = false

/-- Words with one space between neighbours. -/
def joined (words : List (List Char)) : List Char :=
  [' '].intercalate words

theorem toList_unwords (words : List String) : (unwords words).toList = joined (words.map String.toList) := by
  rw [unwords, String.toList_intercalate]
  rfl

theorem joined_cons_cons (word next : List Char) (rest : List (List Char)) :
    joined (word :: next :: rest) = word ++ ' ' :: joined (next :: rest) := by
  simp [joined, List.intercalate_cons_cons]

theorem joined_cons (word : List Char) {rest : List (List Char)} (hrest : rest ≠ []) :
    joined (word :: rest) = word ++ ' ' :: joined rest := by
  cases rest with
  | nil => exact absurd rfl hrest
  | cons next rest => exact joined_cons_cons word next rest

theorem exists_head?_joined {words : List (List Char)} (hne : words ≠ [])
    (h : ∀ word ∈ words, word ≠ [] ∧ Solid word) : ∃ c ∈ (joined words).head?, isBlank c = false := by
  cases words with
  | nil => exact absurd rfl hne
  | cons word rest =>
      obtain ⟨hword, hsolid⟩ := h word List.mem_cons_self
      obtain ⟨first, letters, rfl⟩ := List.exists_cons_of_ne_nil hword
      refine ⟨first, ?_, hsolid first List.mem_cons_self⟩
      cases rest with
      | nil => simp [joined]
      | cons next rest =>
          rw [joined_cons_cons]
          rfl

theorem Solid.singleSpaced {cs : List Char} (h : Solid cs) : SingleSpaced cs := by
  rintro front b back rfl hb
  cases hb.symm.trans (h b (by simp))

/-- A blank of a text is the first one, or stands behind it. -/
theorem first_or_behind {word rest front back : List Char} {b b' : Char} (hword : Solid word) (hb' : isBlank b' = true)
    (h : word ++ b :: rest = front ++ b' :: back) :
    (front = word ∧ b' = b ∧ back = rest) ∨ ∃ passed, front = word ++ b :: passed ∧ rest = passed ++ b' :: back := by
  rcases List.append_eq_append_iff.mp h with ⟨passed, rfl, hback⟩ | ⟨letters, rfl, hback⟩
  · cases passed with
    | nil =>
        cases hback
        exact .inl ⟨List.append_nil word, rfl, rfl⟩
    | cons first passed =>
        cases hback
        exact .inr ⟨passed, rfl, rfl⟩
  · cases letters with
    | nil =>
        cases hback
        exact .inl ⟨(List.append_nil front).symm, rfl, rfl⟩
    | cons first letters =>
        cases hback
        cases hb'.symm.trans (hword b' (by simp))

/-- The first blank of a text is written as it should be, and so are those behind it. -/
theorem singleSpaced_append_cons_iff {word rest : List Char} {b : Char} (hword : Solid word) (hb : isBlank b = true) :
    SingleSpaced (word ++ b :: rest) ↔
      b = ' ' ∧ word ≠ [] ∧ (∃ c ∈ rest.head?, isBlank c = false) ∧ SingleSpaced rest := by
  constructor
  · intro h
    obtain ⟨hspace, ⟨last, hlast, -⟩, hhead⟩ := h word b rest rfl hb
    refine ⟨hspace, ?_, hhead, ?_⟩
    · rintro rfl
      cases hlast
    · rintro front b' back rfl hb'
      obtain ⟨hspace', hfront, hback⟩ := h (word ++ b :: front) b' back (by simp) hb'
      refine ⟨hspace', ?_, hback⟩
      cases front with
      | nil =>
          obtain ⟨c, hc, hnot⟩ := hhead
          cases hc
          cases hb'.symm.trans hnot
      | cons first front => simpa using hfront
  · rintro ⟨hspace, hne, hhead, hrest⟩ front b' back hcs hb'
    rcases first_or_behind hword hb' hcs with ⟨rfl, rfl, rfl⟩ | ⟨passed, rfl, rfl⟩
    · have hlast : front.getLast? = some (front.getLast hne) := List.getLast?_eq_some_getLast hne
      exact ⟨hspace, ⟨front.getLast hne, hlast, hword _ (List.getLast_mem hne)⟩, hhead⟩
    · obtain ⟨hspace', ⟨c, hc, hnot⟩, hback⟩ := hrest passed b' back rfl hb'
      refine ⟨hspace', ⟨c, ?_, hnot⟩, hback⟩
      cases passed with
      | nil => cases hc
      | cons second passed => simpa using hc

theorem singleSpaced_joined {words : List (List Char)} (h : ∀ word ∈ words, word ≠ [] ∧ Solid word) :
    SingleSpaced (joined words) := by
  induction words with
  | nil => exact solid_nil.singleSpaced
  | cons word rest ih =>
      obtain ⟨⟨hne, hsolid⟩, hrest⟩ := List.forall_mem_cons.mp h
      cases rest with
      | nil =>
          rw [joined, List.intercalate_singleton]
          exact hsolid.singleSpaced
      | cons next rest =>
          rw [joined_cons_cons]
          exact (singleSpaced_append_cons_iff hsolid (by decide)).mpr
            ⟨rfl, hne, exists_head?_joined (List.cons_ne_nil next rest) hrest, ih hrest⟩

/-- A text is written with one space between its words if they are the text when they are joined. -/
theorem singleSpaced_iff {cs : List Char} : SingleSpaced cs ↔ joined (blankWords cs) = cs := by
  constructor
  · intro h
    induction cs using blank_induction with
    | solid word hword =>
        by_cases hne : word = []
        · subst hne
          rfl
        · rw [blankWords_of_solid hword hne, joined, List.intercalate_singleton]
    | blank word b rest hword hb ih =>
        obtain ⟨hspace, hne, ⟨c, hc, -⟩, hrest⟩ := (singleSpaced_append_cons_iff hword hb).mp h
        have hwords : blankWords rest ≠ [] := by
          intro hnone
          have hnil := ih hrest
          rw [hnone] at hnil
          rw [← hnil] at hc
          cases hc
        rw [blankWords_append_blank hb, blankWords_of_solid hword hne, List.singleton_append, joined_cons word hwords,
          ih hrest, hspace]
  · intro h
    rw [← h]
    exact singleSpaced_joined fun word => of_mem_blankWords

/-! ### Texts inside words -/

/-- What holds no separator does not reach across one. -/
theorem isInfix_append_cons {separator : Char} {part cs rest : List Char} (hpart : separator ∉ part)
    (h : part <:+: cs ++ separator :: rest) : part <:+: cs ∨ part <:+: rest := by
  obtain ⟨front, back, hall⟩ := h
  rcases List.append_eq_append_iff.mp hall with ⟨after, hcs, -⟩ | ⟨after, hfront, hback⟩
  · exact .inl ⟨front, after, hcs.symm⟩
  · cases after with
    | nil => exact .inl ⟨front, [], by simpa using hfront⟩
    | cons first after =>
        cases hback
        rcases List.append_eq_append_iff.mp hfront with ⟨passed, -, rfl⟩ | ⟨passed, -, hpassed⟩
        · exact absurd (by simp) hpart
        · cases passed with
          | nil =>
              rw [List.nil_append] at hpassed
              exact absurd (by simp [← hpassed]) hpart
          | cons first passed =>
              cases hpassed
              exact .inr ⟨passed, back, rfl⟩

theorem exists_isInfix_of_joined {part : List Char} (hne : part ≠ []) (hpart : ' ' ∉ part) {words : List (List Char)}
    (h : part <:+: joined words) : ∃ word ∈ words, part <:+: word := by
  induction words with
  | nil => exact absurd (List.infix_nil.mp h) hne
  | cons word rest ih =>
      cases rest with
      | nil =>
          rw [joined, List.intercalate_singleton] at h
          exact ⟨word, List.mem_cons_self, h⟩
      | cons next rest =>
          rw [joined_cons_cons] at h
          rcases isInfix_append_cons hpart h with hhere | hlater
          · exact ⟨word, List.mem_cons_self, hhere⟩
          · obtain ⟨other, hother, hinfix⟩ := ih hlater
            exact ⟨other, List.mem_cons_of_mem word hother, hinfix⟩

theorem isInfix_of_mem_blankWords {cs word : List Char} (h : word ∈ blankWords cs) : word <:+: cs := by
  induction cs using blank_induction with
  | solid cs hcs =>
      obtain ⟨rfl, -⟩ := (mem_blankWords_of_solid hcs).mp h
      exact List.infix_rfl
  | blank cs b rest hcs hb ih =>
      rw [blankWords_append_blank hb, List.mem_append] at h
      rcases h with hfirst | hrest
      · obtain ⟨rfl, -⟩ := (mem_blankWords_of_solid hcs).mp hfirst
        exact (List.prefix_append word (b :: rest)).isInfix
      · exact (ih hrest).trans ((List.suffix_cons b rest).isInfix.trans (List.suffix_append cs (b :: rest)).isInfix)

end LevelPlay.Text
