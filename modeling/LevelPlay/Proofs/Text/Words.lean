import Mathlib.Data.List.Basic
import LevelPlay.Text.Words

/-! Words of a text. A blank cuts a text in two: its words are those of what stands before the blank and then those of
what follows. Since each text is either without a blank or can be cut at its first, all that there is to know of words
follows from this: no word is empty or holds a blank, and one after the other they spell the text but for its blanks. -/

namespace LevelPlay.Text

/-- The text holds no blank. -/
def Solid (cs : List Char) : Prop := ∀ c ∈ cs, isBlank c = false

instance (cs : List Char) : Decidable (Solid cs) := List.decidableBAll _ cs

theorem solid_nil : Solid [] := fun _ hc => (List.not_mem_nil hc).elim

/-- Induction from one blank of a text to the next. -/
@[elab_as_elim]
theorem blank_induction {motive : List Char → Prop} (solid : ∀ word, Solid word → motive word)
    (blank : ∀ word b rest, Solid word → isBlank b = true → motive rest → motive (word ++ b :: rest))
    (cs : List Char) : motive cs := by
  -- What has been passed since the last blank is kept in front.
  suffices hfront : ∀ word, Solid word → motive (word ++ cs) from hfront [] solid_nil
  induction cs with
  | nil =>
      intro word hword
      rw [List.append_nil]
      exact solid word hword
  | cons c cs ih =>
      intro word hword
      cases hc : isBlank c with
      | true => exact blank word c cs hword hc (ih [] solid_nil)
      | false =>
          rw [List.append_cons]
          apply ih
          rintro other hother
          rcases List.mem_append.mp hother with hmem | hmem
          · exact hword other hmem
          · rw [List.mem_singleton.mp hmem]
            exact hc

theorem pieces_eq_splitOnP (p : Char → Bool) (cs : List Char) : pieces p cs = cs.splitOnP p := by
  induction cs with
  | nil => rfl
  | cons c cs ih =>
      rw [List.splitOnP_cons_eq_if_modifyHead, ← ih]
      cases hc : p c with
      | true => simp [pieces, hc]
      | false =>
          cases hpieces : pieces p cs with
          | nil => exact absurd hpieces (pieces_ne_nil p cs)
          | cons piece rest =>
              rw [pieces_cons_of_neg hc hpieces]
              rfl

theorem pieces_append_cons {p : Char → Bool} {b : Char} (hb : p b = true) (cs rest : List Char) :
    pieces p (cs ++ b :: rest) = pieces p cs ++ pieces p rest := by
  simp only [pieces_eq_splitOnP, List.splitOnP_append_cons cs rest hb]

theorem pieces_of_forall {p : Char → Bool} {cs : List Char} (h : ∀ c ∈ cs, p c = false) : pieces p cs = [cs] := by
  rw [pieces_eq_splitOnP, List.splitOnP_eq_singleton h]

theorem of_mem_pieces {p : Char → Bool} {cs piece : List Char} (h : piece ∈ pieces p cs) :
    ∀ c ∈ piece, p c = false := by
  induction cs generalizing piece with
  | nil =>
      obtain rfl : piece = [] := by simpa [pieces] using h
      exact fun _ hc => (List.not_mem_nil hc).elim
  | cons c cs ih =>
      cases hc : p c with
      | true =>
          rw [pieces, hc, if_pos rfl, List.mem_cons] at h
          rcases h with rfl | hmem
          · exact fun _ hc => (List.not_mem_nil hc).elim
          · exact ih hmem
      | false =>
          cases hpieces : pieces p cs with
          | nil => exact absurd hpieces (pieces_ne_nil p cs)
          | cons first rest =>
              rw [pieces_cons_of_neg hc hpieces, List.mem_cons] at h
              rw [hpieces] at ih
              rcases h with rfl | hmem
              · exact List.forall_mem_cons.mpr ⟨hc, ih List.mem_cons_self⟩
              · exact ih (List.mem_cons_of_mem first hmem)

/-- A text is cut into the pieces without a separator of which it is made. -/
theorem pieces_separator_eq_iff {separator : Char} {cs : List Char} {parts : List (List Char)} :
    pieces (· == separator) cs = parts ↔
      parts ≠ [] ∧ (∀ part ∈ parts, separator ∉ part) ∧ [separator].intercalate parts = cs := by
  have hsplit : pieces (· == separator) cs = cs.splitOn separator := by
    rw [pieces_eq_splitOnP, List.splitOn_eq_splitOnP]
  constructor
  · rintro rfl
    refine ⟨pieces_ne_nil _ cs, fun part hpart hmem => ?_, ?_⟩
    · simpa using of_mem_pieces hpart separator hmem
    · rw [hsplit, List.intercalate_splitOn]
  · rintro ⟨hne, hparts, rfl⟩
    rw [hsplit, List.splitOn_intercalate separator hparts hne]

theorem head?_pieces (p : Char → Bool) (cs : List Char) :
    (pieces p cs).head? = some (cs.takeWhile fun c => !p c) := by
  induction cs with
  | nil => rfl
  | cons c cs ih =>
      cases hc : p c with
      | true => simp [pieces, hc]
      | false =>
          cases hpieces : pieces p cs with
          | nil => exact absurd hpieces (pieces_ne_nil p cs)
          | cons piece rest =>
              rw [hpieces, List.head?_cons, Option.some_inj] at ih
              rw [pieces_cons_of_neg hc hpieces, List.takeWhile_cons, hc, ih]
              rfl

theorem head?_cut_space (s : String) : (cut ' ' s).head? = some (firstWord s) := by
  rw [cut, List.head?_map, head?_pieces]
  rfl

theorem cut_of_append {separator : Char} {s front back : String}
    (h : s.toList = front.toList ++ separator :: back.toList) :
    cut separator s = cut separator front ++ cut separator back := by
  simp only [cut, h, pieces_append_cons (p := (· == separator)) (beq_self_eq_true separator), List.map_append]

theorem cut_of_not_mem {separator : Char} {s : String} (h : separator ∉ s.toList) : cut separator s = [s] := by
  rw [cut, pieces_of_forall, List.map_singleton, String.ofList_toList]
  intro c hc
  rw [beq_eq_false_iff_ne]
  exact ne_of_mem_of_not_mem hc h

theorem blankWords_append_blank {b : Char} (hb : isBlank b = true) (cs rest : List Char) :
    blankWords (cs ++ b :: rest) = blankWords cs ++ blankWords rest := by
  rw [blankWords, pieces_append_cons hb, List.filter_append]
  rfl

theorem blankWords_of_solid {word : List Char} (hword : Solid word) (hne : word ≠ []) : blankWords word = [word] := by
  rw [blankWords, pieces_of_forall hword]
  simp [hne]

theorem mem_blankWords_of_solid {cs word : List Char} (hcs : Solid cs) :
    word ∈ blankWords cs ↔ word = cs ∧ cs ≠ [] := by
  by_cases hne : cs = []
  · subst hne
    simp [blankWords, pieces]
  · simp [blankWords_of_solid hcs hne, hne]

theorem of_mem_blankWords {cs word : List Char} (h : word ∈ blankWords cs) : word ≠ [] ∧ Solid word := by
  induction cs using blank_induction with
  | solid cs hcs =>
      obtain ⟨rfl, hne⟩ := (mem_blankWords_of_solid hcs).mp h
      exact ⟨hne, hcs⟩
  | blank cs b rest hcs hb ih =>
      rw [blankWords_append_blank hb, List.mem_append] at h
      rcases h with hfirst | hrest
      · obtain ⟨rfl, hne⟩ := (mem_blankWords_of_solid hcs).mp hfirst
        exact ⟨hne, hcs⟩
      · exact ih hrest

/-- What is made of a text piece by piece, from one blank to the next, is made of its words. -/
theorem flatMap_blankWords {β : Type} {f : List Char → List β} (hnil : f [] = [])
    (hblank : ∀ {b : Char}, isBlank b = true → ∀ cs rest, f (cs ++ b :: rest) = f cs ++ f rest) (cs : List Char) :
    (blankWords cs).flatMap f = f cs := by
  have hsolid : ∀ word, Solid word → (blankWords word).flatMap f = f word := by
    intro word hword
    by_cases hne : word = []
    · subst hne
      exact hnil.symm
    · rw [blankWords_of_solid hword hne, List.flatMap_singleton]
  induction cs using blank_induction with
  | solid word hword => exact hsolid word hword
  | blank word b rest hword hb ih =>
      rw [blankWords_append_blank hb, List.flatMap_append, hsolid word hword, ih, hblank hb]

/-- One after the other, the words of a text are the text without its blanks. -/
theorem flatten_blankWords (cs : List Char) : (blankWords cs).flatten = cs.filter (!isBlank ·) := by
  have hself : ∀ word ∈ blankWords cs, word = word.filter (!isBlank ·) := by
    intro word hword
    have hsolid : Solid word := (of_mem_blankWords hword).2
    exact (List.filter_eq_self.mpr fun c hc => by simp [hsolid c hc]).symm
  calc
    (blankWords cs).flatten = (blankWords cs).flatMap fun word => word := List.flatMap_id'.symm
    _ = (blankWords cs).flatMap fun word => word.filter (!isBlank ·) := List.flatMap_congr hself
    _ = cs.filter (!isBlank ·) := by
      apply flatMap_blankWords List.filter_nil
      intro b hb front rest
      rw [List.filter_append, List.filter_cons_of_neg (by simp [hb])]

/-- A text is its first word, or goes on after a space. -/
theorem eq_firstWord_or (s : String) : s = firstWord s ∨ ∃ rest, s = firstWord s ++ " " ++ rest := by
  have hlist : (firstWord s).toList ++ s.toList.dropWhile (· != ' ') = s.toList := by
    rw [firstWord, String.toList_ofList, List.takeWhile_append_dropWhile]
  cases hback : s.toList.dropWhile (· != ' ') with
  | nil =>
      rw [hback, List.append_nil] at hlist
      exact .inl (String.toList_injective hlist.symm)
  | cons c rest =>
      have hspace : c = ' ' := by
        have hhead := List.head?_dropWhile_not (· != ' ') s.toList
        rw [hback] at hhead
        simpa using hhead
      rw [hback, hspace] at hlist
      refine .inr ⟨String.ofList rest, String.toList_injective ?_⟩
      rw [← hlist]
      simp

/-! ### Trimming -/

/-- The text neither begins nor ends with a blank. -/
structure Trimmed (cs : List Char) : Prop where
  head : ∀ c ∈ cs.head?, isBlank c = false
  last : ∀ c ∈ cs.getLast?, isBlank c = false

theorem head?_dropBlanks (cs : List Char) : ∀ c ∈ (dropBlanks cs).head?, isBlank c = false := by
  intro c hc
  have hhead := List.head?_dropWhile_not isBlank cs
  rw [← dropBlanks, Option.mem_def.mp hc] at hhead
  simpa using hhead

theorem dropBlanks_of_head {cs : List Char} (h : ∀ c ∈ cs.head?, isBlank c = false) : dropBlanks cs = cs := by
  cases cs with
  | nil => rfl
  | cons c cs => exact List.dropWhile_cons_of_neg (by simp [h c rfl])

theorem trimBlanks_of_trimmed {cs : List Char} (h : Trimmed cs) : trimBlanks cs = cs := by
  have hlast : ∀ c ∈ cs.reverse.head?, isBlank c = false := by
    rw [List.head?_reverse]
    exact h.last
  rw [trimBlanks, dropBlanks_of_head h.head, dropBlanks_of_head hlast, List.reverse_reverse]

theorem trimmed_trimBlanks (cs : List Char) : Trimmed (trimBlanks cs) where
  head := by
    obtain ⟨after, hafter⟩ : trimBlanks cs <+: dropBlanks cs := by
      rw [← List.reverse_suffix, trimBlanks, List.reverse_reverse]
      exact List.dropWhile_suffix isBlank
    intro c hc
    apply head?_dropBlanks cs
    rw [← hafter, List.head?_append, Option.mem_def.mp hc]
    rfl
  last := by
    rw [trimBlanks, List.getLast?_reverse]
    exact head?_dropBlanks _

theorem trimBlanks_cons_of_isBlank {b : Char} (hb : isBlank b = true) (cs : List Char) :
    trimBlanks (b :: cs) = trimBlanks cs := by
  have hdrop : dropBlanks (b :: cs) = dropBlanks cs := List.dropWhile_cons_of_pos hb
  rw [trimBlanks, hdrop, trimBlanks]

end LevelPlay.Text
