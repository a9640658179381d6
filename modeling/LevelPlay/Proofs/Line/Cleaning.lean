import Mathlib.Data.List.Forall2
import LevelPlay.Line
import LevelPlay.Proofs.Text.Marks
import LevelPlay.Proofs.Text.Spacing

/-! Clean lines. A line is cleaned by dropping what stands from the earliest comment mark on and writing the words that
are left with one space between them. What comes of this holds no mark, since no mark holds a blank, and cleaning it
changes nothing. Lines are cleaned one by one, so a text can be cut between two of its lines, and as a carriage return
at the end of a line is blank it makes no difference whether there is one. -/

namespace LevelPlay

open Text (isBlank Solid joined blankWords)

namespace Line

/-- What stands in a line before its earliest comment mark, of either kind. -/
def BeforeComment (cs front : List Char) : Prop :=
  Text.BeforeMarks (commentMarks.map String.toList) cs front

/-- A line as it is left by cleaning: not empty, without a comment mark, and with single spaces between its words. -/
structure Tidy (line : Line) : Prop where
  ne_empty : line ≠ ""
  unmarked : ∀ mark ∈ commentMarks, ¬mark.toList <:+: line.toList
  spaced : Text.SingleSpaced line.toList

/-! ### Comments -/

theorem beforeComment_iff {cs front : List Char} : BeforeComment cs front ↔ front = withoutComment cs := by
  have hcut : BeforeComment cs (withoutComment cs) := by
    refine (Text.beforeMarks_before "##".toList cs).snoc (Text.beforeMarks_before "//".toList _) ?_
    intro mark hmark
    rw [List.mem_singleton.mp hmark]
    exact ⟨'#', rfl, by decide⟩
  exact ⟨fun h => h.det hcut, fun h => h ▸ hcut⟩

theorem not_isInfix_withoutComment (cs : List Char) :
    ∀ mark ∈ commentMarks, ¬mark.toList <:+: withoutComment cs := by
  intro mark hmark
  have hne : mark.toList ≠ [] := by
    revert mark
    decide
  exact (beforeComment_iff.mpr rfl).not_isInfix (List.mem_map_of_mem hmark) hne

theorem toList_clean (line : Line) : (clean line).toList = joined (blankWords (withoutComment line.toList)) := by
  rw [clean, Text.toList_unwords, List.map_map]
  congr 1
  exact List.map_id'' (fun word => String.toList_ofList) _

theorem clean_eq_of_beforeComment {line : Line} {front : List Char} (h : BeforeComment line.toList front) :
    clean line = Text.unwords (Text.words (String.ofList front)) := by
  rw [beforeComment_iff.mp h, Text.words, String.toList_ofList, clean]

/-! ### Tidy lines -/

theorem tidy_clean {line : Line} (hne : clean line ≠ "") : Tidy (clean line) where
  ne_empty := hne
  unmarked := by
    intro mark hmark hinfix
    have hmarks : ∀ mark ∈ commentMarks, mark.toList ≠ [] ∧ ' ' ∉ mark.toList := by decide
    rw [toList_clean] at hinfix
    obtain ⟨word, hword, hinside⟩ :=
      Text.exists_isInfix_of_joined (hmarks mark hmark).1 (hmarks mark hmark).2 hinfix
    exact not_isInfix_withoutComment line.toList mark hmark (hinside.trans (Text.isInfix_of_mem_blankWords hword))
  spaced := by
    rw [toList_clean]
    exact Text.singleSpaced_joined fun word => Text.of_mem_blankWords

/-- There is nothing to clean in a tidy line. -/
theorem Tidy.clean_eq {line : Line} (h : Tidy line) : clean line = line := by
  have hwhole : BeforeComment line.toList line.toList := by
    refine ⟨.inl rfl, fun mark hmark passed hpassed => ?_⟩
    obtain ⟨text, htext, rfl⟩ := List.mem_map.mp hmark
    exact absurd ((List.suffix_append passed text.toList).isInfix.trans hpassed.isInfix) (h.unmarked text htext)
  apply String.toList_injective
  rw [toList_clean, ← beforeComment_iff.mp hwhole]
  exact Text.singleSpaced_iff.mp h.spaced

theorem Tidy.not_mem_lineFeed {line : Line} (h : Tidy line) : '\n' ∉ line.toList := by
  intro hmem
  obtain ⟨front, back, hline⟩ := List.append_of_mem hmem
  exact absurd (h.spaced front '\n' back hline (by decide)).1 (by decide)

/-! ### Texts -/

theorem tidy_of_mem_ofText {text : String} : ∀ line ∈ ofText text, Tidy line := by
  intro line hline
  rw [ofText, List.mem_filter, List.mem_map] at hline
  obtain ⟨⟨raw, -, rfl⟩, hne⟩ := hline
  exact tidy_clean (by simpa using hne)

theorem ofText_append (a b : String) : ofText (a ++ "\n" ++ b) = ofText a ++ ofText b := by
  have hcut : Text.cut '\n' (a ++ "\n" ++ b) = Text.cut '\n' a ++ Text.cut '\n' b := Text.cut_of_append (by simp)
  rw [ofText, hcut, List.map_append, List.filter_append]
  rfl

theorem ofText_of_single {line : Line} (h : '\n' ∉ line.toList) :
    ofText line = if clean line = "" then [] else [clean line] := by
  rw [ofText, Text.cut_of_not_mem h, List.map_singleton]
  split_ifs with hnone <;> simp [hnone]

theorem ofText_of_tidy {line : Line} (h : Tidy line) : ofText line = [line] := by
  rw [ofText_of_single h.not_mem_lineFeed, h.clean_eq, if_neg h.ne_empty]

/-- Tidy lines are the lines of the text that they make up. -/
theorem ofText_intercalate {lines : List Line} (h : ∀ line ∈ lines, Tidy line) :
    ofText ("\n".intercalate lines) = lines := by
  induction lines with
  | nil => decide +kernel
  | cons line rest ih =>
      obtain ⟨hline, hrest⟩ := List.forall_mem_cons.mp h
      cases rest with
      | nil =>
          rw [String.intercalate_singleton]
          exact ofText_of_tidy hline
      | cons next rest =>
          rw [String.intercalate_cons_cons, ofText_append, ofText_of_tidy hline, ih hrest]
          rfl

/-! ### Carriage returns -/

/-- The text with a line feed in the place of each carriage return that has a line feed after it. -/
def withoutReturns : List Char → List Char
  | [] => []
  | '\r' :: '\n' :: cs => '\n' :: withoutReturns cs
  | c :: cs => c :: withoutReturns cs

/-- The second text is the first, or has one carriage return more at its end. -/
def MayReturn (cs other : List Char) : Prop :=
  other = cs ∨ other = cs ++ ['\r']

theorem MayReturn.cons {cs other : List Char} (c : Char) (h : MayReturn cs other) :
    MayReturn (c :: cs) (c :: other) := by
  rcases h with rfl | rfl
  · exact .inl rfl
  · exact .inr rfl

/-- Lines differ by no more than a carriage return at their end. -/
theorem forall₂_pieces_withoutReturns (cs : List Char) :
    List.Forall₂ MayReturn (Text.pieces (· == '\n') (withoutReturns cs)) (Text.pieces (· == '\n') cs) := by
  have hfeed (cs : List Char) : Text.pieces (· == '\n') ('\n' :: cs) = [] :: Text.pieces (· == '\n') cs := rfl
  fun_induction withoutReturns cs with
  | case1 => exact .cons (.inl rfl) .nil
  | case2 cs ih =>
      rw [hfeed, Text.pieces_cons_of_neg (by decide) (hfeed cs)]
      exact .cons (.inr rfl) ih
  | case3 c cs _ ih =>
      by_cases hc : c = '\n'
      · subst hc
        rw [hfeed, hfeed]
        exact .cons (.inl rfl) ih
      · have hne : (c == '\n') = false := by simpa using hc
        obtain ⟨piece, pieces, hpieces⟩ := List.exists_cons_of_ne_nil (Text.pieces_ne_nil (· == '\n') cs)
        obtain ⟨first, rest, hfirst, hrest, hshort⟩ := List.forall₂_cons_right_iff.mp (hpieces ▸ ih)
        rw [Text.pieces_cons_of_neg (p := (· == '\n')) hne hshort,
          Text.pieces_cons_of_neg (p := (· == '\n')) hne hpieces]
        exact .cons (hfirst.cons c) hrest

theorem MayReturn.before {mark cs other : List Char} (hne : mark ≠ []) (hreturn : '\r' ∉ mark)
    (h : MayReturn cs other) : MayReturn (Text.before mark cs) (Text.before mark other) := by
  rcases h with rfl | rfl
  · exact .inl rfl
  · exact Text.before_append_singleton hne hreturn cs

theorem MayReturn.clean_eq {cs other : List Char} (h : MayReturn cs other) :
    clean (String.ofList other) = clean (String.ofList cs) := by
  have hshort : MayReturn (Text.before "##".toList cs) (Text.before "##".toList other) :=
    h.before (by decide) (by decide)
  have hcut : MayReturn (withoutComment cs) (withoutComment other) := hshort.before (by decide) (by decide)
  have hwords : blankWords (withoutComment other) = blankWords (withoutComment cs) := by
    rcases hcut with hsame | hlast
    · rw [hsame]
    · rw [hlast, Text.blankWords_append_blank (by decide)]
      exact List.append_nil _
  rw [clean, clean, String.toList_ofList, String.toList_ofList, hwords]

theorem ofText_withoutReturns (text : String) : ofText (String.ofList (withoutReturns text.toList)) = ofText text := by
  rw [ofText, ofText, Text.cut, Text.cut, String.toList_ofList, List.map_map, List.map_map]
  congr 1
  have hpieces := forall₂_pieces_withoutReturns text.toList
  generalize Text.pieces (· == '\n') (withoutReturns text.toList) = pieces, Text.pieces (· == '\n') text.toList = others
    at hpieces ⊢
  induction hpieces with
  | nil => rfl
  | cons hpiece _ ih => rw [List.map_cons, List.map_cons, ih, Function.comp_apply, Function.comp_apply, hpiece.clean_eq]

/-- Lines come out in normal form at once. None is empty, holds a comment mark or has any blank but single spaces
between its words, and the lines, written one below the other, come out as they are. A line is what stands before its
earliest comment mark, written with single spaces, and it comes out if anything is left of it. It makes no difference
whether the lines of a text end with a carriage return, and a text can be cut between any two lines. -/
theorem lines_in_normal_form :
    (∀ text, ∀ line ∈ ofText text, Tidy line) ∧
      (∀ line front, BeforeComment line.toList front → clean line = Text.unwords (Text.words (String.ofList front))) ∧
      (∀ line : Line, ∃ front, BeforeComment line.toList front) ∧
      (∀ line : Line, '\n' ∉ line.toList → ofText line = if clean line = "" then [] else [clean line]) ∧
      (∀ text, ofText ("\n".intercalate (ofText text)) = ofText text) ∧
      (∀ text : String, ofText (String.ofList (withoutReturns text.toList)) = ofText text) ∧
      ∀ a b, ofText (a ++ "\n" ++ b) = ofText a ++ ofText b :=
  ⟨fun _ => tidy_of_mem_ofText, fun _ _ => clean_eq_of_beforeComment, fun _ => ⟨_, beforeComment_iff.mpr rfl⟩,
    fun _ => ofText_of_single, fun _ => ofText_intercalate tidy_of_mem_ofText, ofText_withoutReturns, ofText_append⟩

/-- A text with both comment marks, no-break spaces, and carriage returns. -/
def untidyText : String :=
  "\u00a0a\u2003 b // c ## d\r\n\r\n## e\n\tf\r // g\r"

theorem untidyText_in_normal_form :
    ofText untidyText = ["a b", "f"] ∧ "a b" ∈ ofText untidyText ∧ Tidy "a b" ∧
      BeforeComment "a // b ## c".toList "a ".toList ∧ clean "a // b ## c" = "a" ∧ ofText "a // b ## c" = ["a"] := by
  have hlines : ofText untidyText = ["a b", "f"] := by decide +kernel
  have hmem : "a b" ∈ ofText untidyText := by simp [hlines]
  have hfront : BeforeComment "a // b ## c".toList "a ".toList := beforeComment_iff.mpr (by decide)
  obtain ⟨htidy, hclean, -, hsingle, -⟩ := lines_in_normal_form
  have hleft : clean "a // b ## c" = "a" := by
    rw [hclean _ _ hfront]
    decide +kernel
  refine ⟨hlines, hmem, htidy untidyText "a b" hmem, hfront, hleft, ?_⟩
  rw [hsingle _ (by decide), hleft]
  decide

end Line

end LevelPlay
