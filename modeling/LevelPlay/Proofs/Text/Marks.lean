import Mathlib.Data.List.Infix
import LevelPlay.Proofs.Text.Words

/-! Cutting a text at a mark. What stands before the earliest of several marks can be had by cutting at one mark after
the other, in any order, as long as they have no character in common: then no mark reaches across the place where
another one has cut, and so a mark that is gone takes no other with it that is not behind it. -/

namespace LevelPlay.Text

/-- The text `front` is what stands before the earliest of the marks in `cs`: all of `cs` if there is none. -/
structure BeforeMarks (marks : List (List Char)) (cs front : List Char) : Prop where
  reaches : front = cs ∨ ∃ mark ∈ marks, front ++ mark <+: cs
  earliest : ∀ mark ∈ marks, ∀ passed, passed ++ mark <+: cs → front.length ≤ passed.length

namespace BeforeMarks

variable {marks : List (List Char)} {mark cs front other : List Char}

theorem isPrefix (h : BeforeMarks marks cs front) : front <+: cs := by
  rcases h.reaches with rfl | ⟨mark, -, hmark⟩
  · exact List.prefix_rfl
  · exact (List.prefix_append front mark).trans hmark

theorem length_le (h : BeforeMarks marks cs front) (h' : BeforeMarks marks cs other) :
    front.length ≤ other.length := by
  rcases h'.reaches with rfl | ⟨mark, hmark, hother⟩
  · exact h.isPrefix.length_le
  · exact h.earliest mark hmark other hother

theorem det (h : BeforeMarks marks cs front) (h' : BeforeMarks marks cs other) : front = other := by
  have hle : front <+: other := List.prefix_of_prefix_length_le h.isPrefix h'.isPrefix (h.length_le h')
  exact hle.eq_of_length (Nat.le_antisymm (h.length_le h') (h'.length_le h))

/-- No mark is left. -/
theorem not_isInfix (h : BeforeMarks marks cs front) (hmark : mark ∈ marks) (hne : mark ≠ []) :
    ¬mark <:+: front := by
  rintro ⟨passed, rest, hfront⟩
  have hpassed : passed ++ mark <+: cs := (List.prefix_append _ rest).trans (hfront ▸ h.isPrefix)
  have hle : front.length ≤ passed.length := h.earliest mark hmark passed hpassed
  have hlength : passed.length + mark.length + rest.length = front.length := by
    rw [← hfront, List.length_append, List.length_append]
  exact hne (List.length_eq_zero_iff.mp (by omega))

/-- A mark that begins before the place of the cut ends before it as well. -/
theorem isPrefix_of_lt (h : BeforeMarks marks cs front) (hmarks : ∀ other ∈ marks, ∃ c ∈ other.head?, c ∉ mark)
    {passed : List Char} (hmark : passed ++ mark <+: cs) (hlt : passed.length < front.length) :
    passed ++ mark <+: front := by
  rcases h.reaches with rfl | ⟨other, hother, hcut⟩
  · exact hmark
  · apply List.prefix_of_prefix_length_le hmark h.isPrefix
    by_contra hlonger
    rw [Nat.not_le, List.length_append] at hlonger
    -- The first character of the mark that cuts would be one of this mark.
    obtain ⟨c, hc, hnot⟩ := hmarks other hother
    obtain ⟨tail, rfl⟩ := List.head?_eq_some_iff.mp hc
    obtain ⟨after, rfl⟩ := hcut
    obtain ⟨later, hlater⟩ := hmark
    have hhere : (front ++ c :: tail ++ after)[front.length]? = some c := by simp
    rw [← hlater, List.append_assoc, List.getElem?_append_right (Nat.le_of_lt hlt),
      List.getElem?_append_left (by omega)] at hhere
    exact hnot (List.mem_of_getElem? hhere)

/-- To cut at some marks and then at one more is to cut at the earliest of all. -/
theorem snoc (h : BeforeMarks marks cs front) (h' : BeforeMarks [mark] front other)
    (hmarks : ∀ other ∈ marks, ∃ c ∈ other.head?, c ∉ mark) : BeforeMarks (marks ++ [mark]) cs other where
  reaches := by
    rcases h'.reaches with rfl | ⟨last, hlast, hother⟩
    · rcases h.reaches with hall | ⟨first, hfirst, hfront⟩
      · exact .inl hall
      · exact .inr ⟨first, List.mem_append_left _ hfirst, hfront⟩
    · exact .inr ⟨last, List.mem_append_right _ hlast, hother.trans h.isPrefix⟩
  earliest := by
    intro last hlast passed hpassed
    have hle : other.length ≤ front.length := h'.isPrefix.length_le
    rcases List.mem_append.mp hlast with hfirst | hmark
    · exact hle.trans (h.earliest last hfirst passed hpassed)
    · rcases Nat.lt_or_ge passed.length front.length with hlt | hge
      · cases List.mem_singleton.mp hmark
        exact h'.earliest mark hmark passed (h.isPrefix_of_lt hmarks hpassed hlt)
      · exact hle.trans hge

end BeforeMarks

theorem beforeMarks_before (mark cs : List Char) : BeforeMarks [mark] cs (before mark cs) := by
  induction cs with
  | nil => exact ⟨.inl rfl, fun _ _ _ _ => Nat.zero_le _⟩
  | cons c cs ih =>
      rw [before]
      cases hhere : mark.isPrefixOf (c :: cs) with
      | true =>
          rw [if_pos rfl]
          exact ⟨.inr ⟨mark, List.mem_singleton_self mark, List.isPrefixOf_iff_prefix.mp hhere⟩,
            fun _ _ _ _ => Nat.zero_le _⟩
      | false =>
          rw [if_neg Bool.false_ne_true]
          refine ⟨?_, ?_⟩
          · rcases ih.reaches with hall | ⟨last, hlast, hcut⟩
            · exact .inl (by rw [hall])
            · exact .inr ⟨last, hlast, List.cons_prefix_cons.mpr ⟨rfl, hcut⟩⟩
          · intro last hlast passed hpassed
            cases passed with
            | nil =>
                rw [List.mem_singleton.mp hlast, List.nil_append, ← List.isPrefixOf_iff_prefix, hhere] at hpassed
                cases hpassed
            | cons first passed =>
                obtain ⟨-, hrest⟩ := List.cons_prefix_cons.mp hpassed
                exact Nat.succ_le_succ (ih.earliest last hlast passed hrest)

/-- What is in no mark is cut off with what stands before it, or stays behind what is left. -/
theorem before_append_singleton {mark : List Char} {c : Char} (hne : mark ≠ []) (hc : c ∉ mark) (cs : List Char) :
    before mark (cs ++ [c]) = before mark cs ∨ before mark (cs ++ [c]) = before mark cs ++ [c] := by
  have hshort : ∀ front : List Char, mark <+: front ++ [c] → mark <+: front := by
    intro front h
    apply List.prefix_of_prefix_length_le h (List.prefix_append front [c])
    by_contra hlonger
    have hall : mark = front ++ [c] := h.eq_of_length (by
      have hle := h.length_le
      rw [List.length_append, List.length_singleton] at hle ⊢
      omega)
    exact hc (by rw [hall]; simp)
  induction cs with
  | nil =>
      right
      rw [List.nil_append, before, before, if_neg]
      · rfl
      · rw [List.isPrefixOf_iff_prefix]
        exact fun h => hne (List.prefix_nil.mp (hshort [] h))
  | cons first cs ih =>
      by_cases hhere : mark <+: first :: cs
      · left
        have hlonger : mark <+: first :: (cs ++ [c]) := hhere.trans (List.prefix_append (first :: cs) [c])
        rw [List.cons_append, before, before, if_pos (List.isPrefixOf_iff_prefix.mpr hlonger),
          if_pos (List.isPrefixOf_iff_prefix.mpr hhere)]
      · have hlonger : ¬mark <+: first :: (cs ++ [c]) := fun h => hhere (hshort (first :: cs) h)
        rw [List.cons_append, before, before, if_neg (mt List.isPrefixOf_iff_prefix.mp hlonger),
          if_neg (mt List.isPrefixOf_iff_prefix.mp hhere)]
        rcases ih with hsame | hlast
        · exact .inl (by rw [hsame])
        · exact .inr (by rw [hlast, List.cons_append])

/-- A text is cut in two around the earliest occurrence of a mark. -/
theorem around_of_beforeMarks {mark front : List Char} (hne : mark ≠ []) (back : List Char)
    (h : BeforeMarks [mark] (front ++ mark ++ back) front) :
    around mark (front ++ mark ++ back) = some (front, back) := by
  induction front with
  | nil =>
      obtain ⟨first, rest, rfl⟩ := List.exists_cons_of_ne_nil hne
      have hhere : (first :: rest).isPrefixOf (first :: (rest ++ back)) = true :=
        List.isPrefixOf_iff_prefix.mpr (List.prefix_append (first :: rest) back)
      rw [List.nil_append, List.cons_append, around, if_pos hhere]
      simp
  | cons c front ih =>
      have hhere : ¬mark <+: c :: (front ++ mark ++ back) := by
        intro hmark
        simpa using h.earliest mark (List.mem_singleton_self mark) [] hmark
      have hrest : BeforeMarks [mark] (front ++ mark ++ back) front := by
        refine ⟨.inr ⟨mark, List.mem_singleton_self mark, List.prefix_append _ back⟩, ?_⟩
        intro other hother passed hpassed
        have hle := h.earliest other hother (c :: passed) (List.cons_prefix_cons.mpr ⟨rfl, hpassed⟩)
        simpa using hle
      rw [List.cons_append, List.cons_append, around, if_neg (mt List.isPrefixOf_iff_prefix.mp hhere), ih hrest]
      rfl

end LevelPlay.Text
