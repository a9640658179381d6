import Mathlib.Algebra.GroupWithZero.Nat
import LevelPlay.Proofs.Token.Lexemes

/-! Replacement of macros. The bodies are put back into a line, and the line is cut once more; but they stand between
spaces, so each is cut as if it stood alone, and a token that is no macro is cut no further. What a line comes to is
therefore what its tokens come to one by one. -/

namespace LevelPlay.Token

/-- The tokens that a token is replaced with: those of its body if it is a macro, and itself otherwise. -/
def replacement (table : MacroTable) (token : Token) : List Token :=
  match table.get? token with
  | some body => ofLine .empty body
  | none => [token]

theorem replacement_congr {table other : MacroTable} {token : Token} (h : other.get? token = table.get? token) :
    replacement other token = replacement table token := by
  rw [replacement, h, replacement]

theorem lexeme_of_mem_replacement {table : MacroTable} {token : Token} (h : Lexeme token.toList) :
    ∀ replaced ∈ replacement table token, Lexeme replaced.toList := by
  rw [replacement]
  cases table.get? token with
  | none => exact List.forall_mem_singleton.mpr h
  | some body => exact lexeme_of_mem_ofLine

theorem plain_expansion (table : MacroTable) {token : Token} (h : Lexeme token.toList) :
    plain (table.expansion token) = replacement table token := by
  rw [MacroTable.expansion, replacement]
  cases table.get? token with
  | none => exact plain_of_lexeme h
  | some body => exact (ofLine_empty body).symm

theorem ofLine_eq_flatMap (table : MacroTable) (line : Line) :
    ofLine table line = (ofLine .empty line).flatMap (replacement table) :=
  calc
    ofLine table line = (plain line).flatMap fun token => plain (table.expansion token) := by
      rw [ofLine, plain_unwords, List.flatMap_map]
    _ = (plain line).flatMap (replacement table) :=
      List.flatMap_congr fun token htoken => plain_expansion table (lexeme_of_mem_plain token htoken)
    _ = (ofLine .empty line).flatMap (replacement table) := by rw [ofLine_empty]

theorem ofLine_append_space (table : MacroTable) (a b : Line) :
    ofLine table (a ++ " " ++ b) = ofLine table a ++ ofLine table b := by
  simp only [ofLine_eq_flatMap table, ofLine_empty, plain_append_space, List.flatMap_append]

/-- A line comes to what its tokens are replaced with, one after the other and each for itself. So it makes no
difference what is a macro unless it is a token of the line, even if it occurs in a body. Nothing arises from what
stands side by side in the end: every token, a mark of an autofield too, occurs as often as in the replacements. And two
lines one space apart come to what each comes to alone. -/
theorem tokens_replaced_alone (table : MacroTable) :
    (∀ line, ofLine table line = (ofLine .empty line).flatMap (replacement table)) ∧
      (∀ other line, (∀ token ∈ ofLine .empty line, other.get? token = table.get? token) →
        ofLine other line = ofLine table line) ∧
      (∀ line token, (ofLine table line).count token =
        ((ofLine .empty line).map fun replaced => (replacement table replaced).count token).sum) ∧
      ∀ a b, ofLine table (a ++ " " ++ b) = ofLine table a ++ ofLine table b := by
  refine ⟨ofLine_eq_flatMap table, fun other line hsame => ?_, fun line token => ?_, ofLine_append_space table⟩
  · rw [ofLine_eq_flatMap other, ofLine_eq_flatMap table]
    exact List.flatMap_congr fun token htoken => replacement_congr (hsame token htoken)
  · rw [ofLine_eq_flatMap, List.count_flatMap]
    rfl

/-- Two macros of which the bodies would make marks if they were joined. -/
def splitMarks : MacroTable :=
  ⟨[("OPEN", "\x7b"), ("FIELD", ": SEAL :\x7d")], by simp⟩

/-- The same with a macro for a word that stands in a body. -/
def sealedMarks : MacroTable :=
  ⟨[("OPEN", "\x7b"), ("FIELD", ": SEAL :\x7d"), ("SEAL", "#NoWall")], by simp⟩

/-- The brace of the first body and the colon of the second stay apart, and the word is not replaced. -/
theorem splitMarks_replaced_alone :
    (∀ token ∈ ofLine .empty "OPEN FIELD:OPEN", sealedMarks.get? token = splitMarks.get? token) ∧
      ofLine sealedMarks "OPEN FIELD:OPEN" = ["\x7b", ":", "SEAL", ":\x7d", ":", "\x7b"] ∧
      (ofLine splitMarks "OPEN FIELD:OPEN").count openAutofield = 0 := by
  have htokens : ofLine .empty "OPEN FIELD:OPEN" = ["OPEN", "FIELD", ":", "OPEN"] := by decide +kernel
  have hopen : replacement splitMarks "OPEN" = ["\x7b"] := by decide +kernel
  have hfield : replacement splitMarks "FIELD" = [":", "SEAL", ":\x7d"] := by decide +kernel
  have hcolon : replacement splitMarks ":" = [":"] := by decide +kernel
  have hsame : ∀ token ∈ ofLine .empty "OPEN FIELD:OPEN", sealedMarks.get? token = splitMarks.get? token := by
    rw [htokens]
    decide
  obtain ⟨hall, hcongr, hcount, -⟩ := tokens_replaced_alone splitMarks
  refine ⟨hsame, ?_, ?_⟩
  · rw [hcongr sealedMarks _ hsame, hall, htokens]
    simp only [List.flatMap_cons, List.flatMap_nil, hopen, hfield, hcolon]
    rfl
  · rw [hcount, htokens]
    simp only [List.map_cons, List.map_nil, hopen, hfield, hcolon]
    decide

end LevelPlay.Token
