import Mathlib.Data.List.Basic
import LevelPlay.Proofs.Text.Words
import LevelPlay.Token

/-! Tokens in normal form. Since there is a space on either side of every delimiter and of every mark, what stands
between two blanks is one of these or holds none of them. Such a token is cut no further, and a blank of the line stays
where it is. So the tokens of a line, one space apart, are a line with the same tokens. -/

namespace LevelPlay.Token

open Text (Solid isBlank blankWords)

/-! ### Signs and ordinary characters -/

/-- A character that is no token of its own, nor another spelling of a mark. -/
structure Ordinary (c : Char) : Prop where
  not_delimiter : c ∉ delimiters
  ne_open : c ≠ '\uE000'
  ne_close : c ≠ '\uE001'

/-- What gets a space on either side: a mark or a delimiter. -/
inductive Sign : List Char → Prop where
  | openAutofield : Sign ['{', ':']
  | closeAutofield : Sign [':', '}']
  | delimiter {c : Char} (hc : c ∈ delimiters) : Sign [c]

/-- The mark that a character is another spelling of, and the character itself if it is none. -/
def spelling (c : Char) : List Char :=
  if c = '\uE000' then ['{', ':'] else if c = '\uE001' then [':', '}'] else [c]

theorem isBlank_of_mem_delimiters {c : Char} (hc : c ∈ delimiters) : isBlank c = false := by
  have hall : (delimiters.all fun d => !isBlank d) = true := by decide
  simpa using List.all_eq_true.mp hall c hc

theorem ne_private_of_mem_delimiters {c : Char} (hc : c ∈ delimiters) : c ≠ '\uE000' ∧ c ≠ '\uE001' := by
  have hall : (delimiters.all fun d => d != '\uE000' && d != '\uE001') = true := by decide
  simpa using List.all_eq_true.mp hall c hc

theorem ordinary_of_isBlank {c : Char} (h : isBlank c = true) : Ordinary c where
  not_delimiter := by
    intro hc
    rw [isBlank_of_mem_delimiters hc] at h
    cases h
  ne_open := by
    rintro rfl
    exact absurd h (by decide)
  ne_close := by
    rintro rfl
    exact absurd h (by decide)

theorem Sign.solid {sign : List Char} (h : Sign sign) : Solid sign := by
  cases h with
  | openAutofield => decide
  | closeAutofield => decide
  | delimiter hc => exact List.forall_mem_singleton.mpr (isBlank_of_mem_delimiters hc)

theorem Sign.ne_nil {sign : List Char} (h : Sign sign) : sign ≠ [] := by
  cases h <;> exact List.cons_ne_nil _ _

theorem spelling_of_ne {c : Char} (hopen : c ≠ '\uE000') (hclose : c ≠ '\uE001') : spelling c = [c] := by
  rw [spelling, if_neg hopen, if_neg hclose]

/-! ### What is put around them -/

/-- The second text is the first with a space on either side of each sign, and with the signs spelled one way. -/
inductive SpacedTo : List Char → List Char → Prop where
  | nil : SpacedTo [] []
  | sign (front : List Char) {sign cs out : List Char} (hsign : Sign sign) (hfront : front.flatMap spelling = sign)
      (hrest : SpacedTo cs out) : SpacedTo (front ++ cs) (' ' :: (sign ++ ' ' :: out))
  | ordinary {c : Char} {cs out : List Char} (hc : Ordinary c) (hrest : SpacedTo cs out) :
      SpacedTo (c :: cs) (c :: out)

theorem spacedTo_spaced (cs : List Char) : SpacedTo cs (spaced cs) := by
  fun_induction spaced cs with
  | case1 => exact .nil
  | case2 cs ih => exact .sign ['{', ':'] .openAutofield (by decide) ih
  | case3 cs ih => exact .sign [':', '}'] .closeAutofield (by decide) ih
  | case4 cs _ _ ih => exact .sign ['\uE000'] .openAutofield (by decide) ih
  | case5 cs _ _ _ ih => exact .sign ['\uE001'] .closeAutofield (by decide) ih
  | case6 c cs _ _ hopen hclose hc ih =>
      exact .sign [c] (.delimiter hc) (by simp [spelling_of_ne hopen hclose]) ih
  | case7 c cs _ _ hopen hclose hc ih => exact .ordinary ⟨hc, hopen, hclose⟩ ih

theorem spaced_of_ordinary {c : Char} (hc : Ordinary c) (cs : List Char) : spaced (c :: cs) = c :: spaced cs := by
  rw [spaced, if_neg hc.ne_open, if_neg hc.ne_close, if_neg hc.not_delimiter]
  · rintro _ rfl -
    exact hc.not_delimiter (by decide)
  · rintro _ rfl -
    exact hc.not_delimiter (by decide)

/-- A delimiter that is not the beginning of a mark. -/
theorem spaced_of_delimiter {c : Char} (hc : c ∈ delimiters) {cs : List Char}
    (hopen : c = '{' → cs.head? ≠ some ':') (hclose : c = ':' → cs.head? ≠ some '}') :
    spaced (c :: cs) = ' ' :: c :: ' ' :: spaced cs := by
  obtain ⟨hne, hne'⟩ := ne_private_of_mem_delimiters hc
  rw [spaced, if_neg hne, if_neg hne', if_pos hc]
  · rintro _ rfl rfl
    exact hopen rfl rfl
  · rintro _ rfl rfl
    exact hclose rfl rfl

/-- A blank stays as it is, and no mark reaches across it. -/
theorem spaced_append_blank {b : Char} (hb : isBlank b = true) (cs rest : List Char) :
    spaced (cs ++ b :: rest) = spaced cs ++ b :: spaced rest := by
  have hhead : ∀ {cs : List Char} {c : Char}, c ∈ delimiters → (cs ++ b :: rest).head? = some c →
      ∃ tail, cs = c :: tail := by
    intro cs c hc h
    cases cs with
    | nil =>
        rw [List.nil_append, List.head?_cons, Option.some_inj] at h
        exact absurd (h ▸ hc) (ordinary_of_isBlank hb).not_delimiter
    | cons other tail =>
        rw [List.cons_append, List.head?_cons, Option.some_inj] at h
        exact ⟨tail, h ▸ rfl⟩
  fun_induction spaced cs with
  | case1 => exact spaced_of_ordinary (ordinary_of_isBlank hb) rest
  | case2 cs ih => simp only [List.cons_append, spaced, ih]
  | case3 cs ih => simp only [List.cons_append, spaced, ih]
  | case4 cs _ _ ih => simp [spaced, ih]
  | case5 cs _ _ _ ih => simp [spaced, ih]
  | case6 c cs hopen hclose _ _ hc ih =>
      rw [List.cons_append, spaced_of_delimiter hc, ih]
      · rfl
      · intro hbrace h
        obtain ⟨tail, htail⟩ := hhead (by decide) h
        exact hopen tail hbrace htail
      · intro hcolon h
        obtain ⟨tail, htail⟩ := hhead (by decide) h
        exact hclose tail hcolon htail
  | case7 c cs _ _ hopen hclose hc ih =>
      rw [List.cons_append, spaced_of_ordinary ⟨hc, hopen, hclose⟩, ih]
      rfl

/-! ### Lexemes -/

/-- The stretches of characters that a text is cut into. -/
def lexemes (cs : List Char) : List (List Char) :=
  blankWords (spaced cs)

/-- A stretch of characters that is one token: a sign, or some characters of which none is blank or a delimiter. -/
inductive Lexeme : List Char → Prop where
  | sign {cs : List Char} (hsign : Sign cs) : Lexeme cs
  | word {cs : List Char} (hne : cs ≠ []) (hsolid : Solid cs) (hordinary : ∀ c ∈ cs, Ordinary c) : Lexeme cs

theorem lexeme_of_mem_blankWords {front : List Char} (hsolid : Solid front) (hordinary : ∀ c ∈ front, Ordinary c) :
    ∀ word ∈ blankWords front, Lexeme word := by
  intro word hword
  obtain ⟨rfl, hne⟩ := (Text.mem_blankWords_of_solid hsolid).mp hword
  exact .word hne hsolid hordinary

theorem blankWords_sign {sign : List Char} (hsign : Sign sign) (front out : List Char) :
    blankWords (front ++ ' ' :: (sign ++ ' ' :: out)) = blankWords front ++ sign :: blankWords out := by
  rw [Text.blankWords_append_blank (by decide), Text.blankWords_append_blank (by decide),
    Text.blankWords_of_solid hsign.solid hsign.ne_nil]
  rfl

theorem SpacedTo.lexeme {cs out : List Char} (h : SpacedTo cs out) {front : List Char} (hsolid : Solid front)
    (hordinary : ∀ c ∈ front, Ordinary c) : ∀ word ∈ blankWords (front ++ out), Lexeme word := by
  -- Ordinary characters gather in front until a sign or a blank ends the word that they make up.
  induction h generalizing front with
  | nil =>
      rw [List.append_nil]
      exact lexeme_of_mem_blankWords hsolid hordinary
  | sign _ hsign _ _ ih =>
      rw [blankWords_sign hsign]
      simp only [List.forall_mem_append, List.forall_mem_cons]
      exact ⟨lexeme_of_mem_blankWords hsolid hordinary, .sign hsign, ih Text.solid_nil (by simp)⟩
  | @ordinary c _ _ hc _ ih =>
      cases hblank : isBlank c with
      | true =>
          rw [Text.blankWords_append_blank hblank]
          simp only [List.forall_mem_append]
          exact ⟨lexeme_of_mem_blankWords hsolid hordinary, ih Text.solid_nil (by simp)⟩
      | false =>
          rw [List.append_cons]
          apply ih
          · exact List.forall_mem_append.mpr ⟨hsolid, List.forall_mem_singleton.mpr hblank⟩
          · exact List.forall_mem_append.mpr ⟨hordinary, List.forall_mem_singleton.mpr hc⟩

theorem lexeme_of_mem_lexemes {cs : List Char} : ∀ lexeme ∈ lexemes cs, Lexeme lexeme :=
  (spacedTo_spaced cs).lexeme Text.solid_nil fun _ hc => (List.not_mem_nil hc).elim

theorem spaced_sign {sign : List Char} (h : Sign sign) : spaced sign = ' ' :: (sign ++ [' ']) := by
  cases h with
  | openAutofield => rfl
  | closeAutofield => rfl
  | delimiter hc => exact spaced_of_delimiter hc (by simp) (by simp)

theorem spaced_of_forall_ordinary {cs : List Char} (h : ∀ c ∈ cs, Ordinary c) : spaced cs = cs := by
  induction cs with
  | nil => rfl
  | cons c cs ih =>
      rw [List.forall_mem_cons] at h
      rw [spaced_of_ordinary h.1, ih h.2]

/-- A lexeme is cut no further. -/
theorem lexemes_of_lexeme {cs : List Char} (h : Lexeme cs) : lexemes cs = [cs] := by
  cases h with
  | sign hsign =>
      rw [lexemes, spaced_sign hsign]
      exact blankWords_sign hsign [] []
  | word hne hsolid hordinary =>
      rw [lexemes, spaced_of_forall_ordinary hordinary, Text.blankWords_of_solid hsolid hne]

theorem lexemes_append_blank {b : Char} (hb : isBlank b = true) (cs rest : List Char) :
    lexemes (cs ++ b :: rest) = lexemes cs ++ lexemes rest := by
  rw [lexemes, spaced_append_blank hb, Text.blankWords_append_blank hb]
  rfl

/-- What has its spaces is cut as it was before. -/
theorem lexemes_spaced (cs : List Char) : lexemes (spaced cs) = lexemes cs :=
  calc
    lexemes (spaced cs) = (blankWords (spaced cs)).flatMap lexemes :=
      (Text.flatMap_blankWords rfl lexemes_append_blank (spaced cs)).symm
    _ = (lexemes cs).flatMap fun lexeme => [lexeme] :=
      List.flatMap_congr fun lexeme hlexeme => lexemes_of_lexeme (lexeme_of_mem_lexemes lexeme hlexeme)
    _ = lexemes cs := List.flatMap_singleton' _

/-! ### Tokens -/

theorem plain_eq_map (line : Line) : plain line = (lexemes line.toList).map String.ofList := by
  rw [plain, Text.words, delimit, String.toList_ofList]
  rfl

theorem plain_append_space (a b : Line) : plain (a ++ " " ++ b) = plain a ++ plain b := by
  have hlist : (a ++ " " ++ b).toList = a.toList ++ ' ' :: b.toList := by simp
  rw [plain_eq_map, hlist, lexemes_append_blank (by decide), List.map_append, plain_eq_map, plain_eq_map]

theorem plain_unwords (texts : List String) : plain (Text.unwords texts) = texts.flatMap plain := by
  induction texts with
  | nil => rfl
  | cons text texts ih =>
      cases texts with
      | nil => simp [Text.unwords]
      | cons next texts =>
          rw [Text.unwords, String.intercalate_cons_cons, plain_append_space, List.flatMap_cons, ← ih]
          rfl

theorem lexeme_of_mem_plain {line : Line} : ∀ token ∈ plain line, Lexeme token.toList := by
  intro token htoken
  rw [plain_eq_map, List.mem_map] at htoken
  obtain ⟨lexeme, hlexeme, rfl⟩ := htoken
  rw [String.toList_ofList]
  exact lexeme_of_mem_lexemes lexeme hlexeme

theorem plain_of_lexeme {token : Token} (h : Lexeme token.toList) : plain token = [token] := by
  rw [plain_eq_map, lexemes_of_lexeme h, List.map_singleton, String.ofList_toList]

theorem plain_unwords_of_lexemes {tokens : List Token} (h : ∀ token ∈ tokens, Lexeme token.toList) :
    plain (Text.unwords tokens) = tokens := by
  rw [plain_unwords, List.flatMap_congr fun token htoken => plain_of_lexeme (h token htoken)]
  exact List.flatMap_singleton' tokens

theorem unwords_inj {tokens others : List Token} (h : ∀ token ∈ tokens, Lexeme token.toList)
    (h' : ∀ token ∈ others, Lexeme token.toList) : Text.unwords tokens = Text.unwords others ↔ tokens = others := by
  constructor
  · intro heq
    rw [← plain_unwords_of_lexemes h, heq, plain_unwords_of_lexemes h']
  · rintro rfl
    rfl

/-- Where nothing is a macro, the second cut finds nothing to cut. -/
theorem ofLine_empty (line : Line) : ofLine .empty line = plain line := by
  have hnone : (plain line).map MacroTable.empty.expansion = plain line := List.map_id _
  rw [ofLine, hnone]
  exact plain_unwords_of_lexemes lexeme_of_mem_plain

theorem lexeme_of_mem_ofLine {table : MacroTable} {line : Line} :
    ∀ token ∈ ofLine table line, Lexeme token.toList :=
  lexeme_of_mem_plain

/-- Tokens are in normal form, also where they come from macros: each is a mark, a delimiter or a word without either.
To cut them again gives nothing else, whether one space stands between them or what was put around the signs. -/
theorem tokens_in_normal_form (table : MacroTable) (line : Line) :
    (∀ token ∈ ofLine table line, Lexeme token.toList) ∧
      ofLine .empty (Text.unwords (ofLine table line)) = ofLine table line ∧
      Text.words (delimit (delimit line)) = Text.words (delimit line) := by
  refine ⟨lexeme_of_mem_ofLine, ?_, ?_⟩
  · rw [ofLine_empty]
    exact plain_unwords_of_lexemes lexeme_of_mem_ofLine
  · change plain (delimit line) = plain line
    rw [plain_eq_map, delimit, String.toList_ofList, lexemes_spaced, plain_eq_map]

end LevelPlay.Token
