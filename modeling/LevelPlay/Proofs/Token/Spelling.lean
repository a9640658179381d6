import LevelPlay.Proofs.Token.Lexemes

/-! What tokens spell. Nothing but spaces is put into a line, and nothing but its blanks is lost when it is cut; so its
tokens spell the line, with one exception: a private-use character that is another spelling of a mark is spelled out. -/

namespace LevelPlay

open Text (isBlank)

def Text.withoutBlanks (s : String) : String :=
  String.ofList (s.toList.filter (!isBlank ·))

namespace Token

theorem SpacedTo.filter_eq {cs out : List Char} (h : SpacedTo cs out) :
    out.filter (!isBlank ·) = (cs.flatMap spelling).filter (!isBlank ·) := by
  have hspace (rest : List Char) : (' ' :: rest).filter (!isBlank ·) = rest.filter (!isBlank ·) :=
    List.filter_cons_of_neg (by decide)
  induction h with
  | nil => rfl
  | sign front _ hfront _ ih =>
      rw [hspace, List.filter_append, hspace, ih, List.flatMap_append, hfront, List.filter_append]
  | @ordinary c _ out hc _ ih =>
      rw [← List.singleton_append, List.filter_append, ih, List.flatMap_cons, spelling_of_ne hc.ne_open hc.ne_close,
        List.filter_append]

theorem filter_spelling (c : Char) :
    (spelling c).filter (!isBlank ·) = ([c].filter (!isBlank ·)).flatMap spelling := by
  by_cases hopen : c = '\uE000'
  · subst hopen
    decide
  · by_cases hclose : c = '\uE001'
    · subst hclose
      decide
    · rw [spelling_of_ne hopen hclose]
      cases hc : isBlank c with
      | true => simp [hc]
      | false => simp [hc, spelling_of_ne hopen hclose]

theorem filter_flatMap_spelling (cs : List Char) :
    (cs.flatMap spelling).filter (!isBlank ·) = (cs.filter (!isBlank ·)).flatMap spelling := by
  induction cs with
  | nil => rfl
  | cons c cs ih =>
      rw [List.flatMap_cons, List.filter_append, filter_spelling, ih, ← List.flatMap_append, ← List.filter_append]
      rfl

theorem flatMap_spelling_eq_self_iff {cs : List Char} :
    cs.flatMap spelling = cs ↔ '\uE000' ∉ cs ∧ '\uE001' ∉ cs := by
  constructor
  · intro h
    -- Neither of the two is left in what is spelled out.
    have hgone : ∀ c, '\uE000' ∉ spelling c ∧ '\uE001' ∉ spelling c := by
      intro c
      rw [spelling]
      split
      · decide
      · split
        · decide
        · rename_i hopen hclose
          simp [Ne.symm hopen, Ne.symm hclose]
    rw [← h]
    simp only [List.mem_flatMap, not_exists, not_and]
    exact ⟨fun c _ => (hgone c).1, fun c _ => (hgone c).2⟩
  · rintro ⟨hopen, hclose⟩
    have hsame : ∀ c ∈ cs, spelling c = [c] := by
      intro c hc
      apply spelling_of_ne
      · rintro rfl
        exact hopen hc
      · rintro rfl
        exact hclose hc
    rw [List.flatMap_congr hsame]
    exact List.flatMap_singleton' cs

theorem toList_withoutBlanks_delimit (line : Line) :
    (Text.withoutBlanks (delimit line)).toList = (Text.withoutBlanks line).toList.flatMap spelling := by
  simp only [Text.withoutBlanks, delimit, String.toList_ofList]
  rw [(spacedTo_spaced line.toList).filter_eq, filter_flatMap_spelling]

theorem join_plain (line : Line) : String.join (plain line) = Text.withoutBlanks (delimit line) := by
  apply String.toList_injective
  rw [String.toList_join, plain_eq_map, List.flatMap_map]
  simp only [Text.withoutBlanks, delimit, String.toList_ofList]
  rw [List.flatMap_id', lexemes, Text.flatten_blankWords]

/-- Spaces are put into a line and nothing else: its tokens spell all of it that is not blank. A line that holds one of
the two private-use characters is the exception, and every such line is. -/
theorem spelling_kept_iff (line : Line) :
    (Text.withoutBlanks (delimit line) = Text.withoutBlanks line ↔
        '\uE000' ∉ line.toList ∧ '\uE001' ∉ line.toList) ∧
      String.join (ofLine .empty line) = Text.withoutBlanks (delimit line) ∧
      (Text.withoutBlanks (delimit line)).toList = (Text.withoutBlanks line).toList.flatMap spelling := by
  refine ⟨?_, ?_, toList_withoutBlanks_delimit line⟩
  · rw [← String.toList_inj, toList_withoutBlanks_delimit, flatMap_spelling_eq_self_iff, Text.withoutBlanks,
      String.toList_ofList]
    have hopen : isBlank '\uE000' = false := by decide
    have hclose : isBlank '\uE001' = false := by decide
    simp [hopen, hclose]
  · rw [ofLine_empty, join_plain]

/-- A character that is no delimiter turns into a mark of two others. -/
theorem private_use_not_kept : ofLine .empty "\uE000" = [openAutofield] ∧
    Text.withoutBlanks (delimit "\uE000") ≠ Text.withoutBlanks "\uE000" := by
  decide +kernel

end Token

end LevelPlay
