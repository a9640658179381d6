import LevelPlay.Level.Defines
import LevelPlay.Proofs.Level.Contents
import LevelPlay.Proofs.Token.Expansion

/-! Macros and the lines that define them. A line is read twice: as it stands for the name, and with the macros of the
lines before it for the body, from which the first two tokens are dropped. The name is never replaced, since it is
new. But the directive may be a macro itself, and where it does not stand for one token the body is cut in the wrong
place. -/

namespace LevelPlay.Defines

/-! ### Lines that define macros -/

/-- The line defines a macro of this name, with a body that is made of these tokens. -/
structure IsDefinition (line : Line) (name : Token) (operands : List Token) : Prop where
  word : Text.firstWord line = directive
  tokens : Token.ofLine .empty line = directive :: name :: operands

def name? (line : Line) : Option Token :=
  if Text.firstWord line = directive then (Token.ofLine .empty line)[1]? else none

def names (lines : List Line) : List Token :=
  lines.filterMap name?

/-- The directive is the first token of its line. -/
theorem exists_tokens {line : Line} (h : Text.firstWord line = directive) :
    ∃ rest, Token.ofLine .empty line = directive :: rest := by
  have hplain : Token.plain directive = [directive] := by decide +kernel
  rw [Token.ofLine_empty]
  rcases Text.eq_firstWord_or line with hline | ⟨rest, hline⟩
  · rw [hline, h, hplain]
    exact ⟨[], rfl⟩
  · rw [hline, h, Token.plain_append_space, hplain]
    exact ⟨Token.plain rest, List.singleton_append⟩

/-- A line defines nothing, lacks a name, or defines a macro. -/
theorem line_cases (line : Line) :
    Text.firstWord line ≠ directive ∨
      (Text.firstWord line = directive ∧ Token.ofLine .empty line = [directive]) ∨
        ∃ name operands, IsDefinition line name operands := by
  by_cases hword : Text.firstWord line = directive
  · obtain ⟨rest, htokens⟩ := exists_tokens hword
    cases rest with
    | nil => exact .inr (.inl ⟨hword, htokens⟩)
    | cons name operands => exact .inr (.inr ⟨name, operands, hword, htokens⟩)
  · exact .inl hword

theorem IsDefinition.name?_eq {line : Line} {name : Token} {operands : List Token}
    (h : IsDefinition line name operands) : name? line = some name := by
  rw [name?, if_pos h.word, h.tokens]
  rfl

theorem name?_eq_some_iff {line : Line} {name : Token} :
    name? line = some name ↔ ∃ operands, IsDefinition line name operands := by
  constructor
  · intro h
    rcases line_cases line with hword | ⟨hword, htokens⟩ | ⟨other, operands, hline⟩
    · rw [name?, if_neg hword] at h
      cases h
    · rw [name?, if_pos hword, htokens] at h
      cases h
    · rw [hline.name?_eq] at h
      cases h
      exact ⟨operands, hline⟩
  · rintro ⟨operands, hline⟩
    exact hline.name?_eq

theorem mem_names_iff {lines : List Line} {name : Token} :
    name ∈ names lines ↔ ∃ line ∈ lines, ∃ operands, IsDefinition line name operands := by
  simp only [names, List.mem_filterMap, name?_eq_some_iff]

/-! ### What is wrong with a line -/

/-- What is wrong with a line, the lines before it being given. -/
inductive Fault (mode : Mode) (passed : List Line) (line : Line) : StructuralError → Prop where
  | notDefine (hmode : mode = .strict) (hword : Text.firstWord line ≠ directive) :
      Fault mode passed line (.notDefine line)
  | unnamed (hword : Text.firstWord line = directive) (htokens : Token.ofLine .empty line = [directive]) :
      Fault mode passed line .unnamedDefine
  | repeated {name : Token} {operands : List Token} (hline : IsDefinition line name operands)
      (hname : name ∈ names passed) : Fault mode passed line (.repeatedMacro name)

/-- Nothing is wrong with any of the lines. -/
def Faultless (mode : Mode) (lines : List Line) : Prop :=
  ∀ before line after fault, lines = before ++ line :: after → ¬Fault mode before line fault

variable {mode : Mode} {table next : MacroTable} {passed : List Line} {number : Nat} {line : Line} {name : Token}
  {operands : List Token}

theorem takeLine_of_word_ne (h : Text.firstWord line ≠ directive) :
    takeLine mode table number line =
      if mode = .strict then .error (.structural number (.notDefine line)) else .ok table := by
  rw [takeLine, if_neg h, slip]
  split <;> rfl

theorem takeLine_of_unnamed (hword : Text.firstWord line = directive)
    (htokens : Token.ofLine .empty line = [directive]) :
    takeLine mode table number line = .error (.structural number .unnamedDefine) := by
  rw [takeLine, if_pos hword, htokens]
  rfl

theorem IsDefinition.takeLine_eq (h : IsDefinition line name operands) :
    takeLine mode table number line =
      match table.define? name (Text.unwords ((Token.ofLine table line).drop 2)) with
      | none => .error (.structural number (.repeatedMacro name))
      | some next => .ok next := by
  rw [takeLine, if_pos h.word, h.tokens]
  rfl

theorem takeLine_of_define? {meant : String} (hline : IsDefinition line name operands)
    (hmeant : Text.unwords ((Token.ofLine table line).drop 2) = meant) (hnext : table.define? name meant = some next) :
    takeLine mode table number line = .ok next := by
  rw [hline.takeLine_eq, hmeant, hnext]

theorem IsDefinition.det {other : Token} {others : List Token} (h : IsDefinition line name operands)
    (h' : IsDefinition line other others) : other = name ∧ others = operands := by
  have htokens := h'.tokens.symm.trans h.tokens
  exact ⟨(List.cons.inj (List.cons.inj htokens).2).1, (List.cons.inj (List.cons.inj htokens).2).2⟩

/-- A line is refused if something is wrong with it, provided that the macros are those of the lines before it. -/
theorem takeLine_eq_error_iff (hnames : ∀ name, table.contains name = true ↔ name ∈ names passed)
    {error : LoadError} :
    takeLine mode table number line = .error error ↔
      ∃ fault, Fault mode passed line fault ∧ error = .structural number fault := by
  constructor
  · intro h
    rcases line_cases line with hword | ⟨hword, htokens⟩ | ⟨name, operands, hline⟩
    · rw [takeLine_of_word_ne hword] at h
      split at h
      · rename_i hmode
        cases h
        exact ⟨_, .notDefine hmode hword, rfl⟩
      · cases h
    · rw [takeLine_of_unnamed hword htokens] at h
      cases h
      exact ⟨_, .unnamed hword htokens, rfl⟩
    · rw [hline.takeLine_eq] at h
      split at h
      · rename_i hnone
        cases h
        exact ⟨_, .repeated hline ((hnames name).mp (MacroTable.define?_eq_none_iff.mp hnone)), rfl⟩
      · cases h
  · rintro ⟨fault, hfault, rfl⟩
    cases hfault with
    | notDefine hmode hword => rw [takeLine_of_word_ne hword, if_pos hmode]
    | unnamed hword htokens => exact takeLine_of_unnamed hword htokens
    | repeated hline hname =>
        rw [hline.takeLine_eq, MacroTable.define?_eq_none_iff.mpr ((hnames _).mpr hname)]

/-- A line that is taken in defines nothing, or a macro that is new. -/
theorem takeLine_eq_ok (h : takeLine mode table number line = .ok next) :
    (name? line = none ∧ next = table) ∨
      ∃ name operands, IsDefinition line name operands ∧
        table.define? name (Text.unwords ((Token.ofLine table line).drop 2)) = some next := by
  rcases line_cases line with hword | ⟨hword, htokens⟩ | ⟨name, operands, hline⟩
  · rw [takeLine_of_word_ne hword] at h
    split at h
    · cases h
    · cases h
      exact .inl ⟨if_neg hword, rfl⟩
  · rw [takeLine_of_unnamed hword htokens] at h
    cases h
  · rw [hline.takeLine_eq] at h
    split at h
    · cases h
    · rename_i hsome
      cases h
      exact .inr ⟨name, operands, hline, hsome⟩

/-! ### Bodies -/

/-- What a token means on a line that follows these: the body of the macro if one of them defines it as one. -/
def meaning (table : MacroTable) (before : List Line) (token : Token) : List Token :=
  if token ∈ names before then Token.replacement table token else [token]

/-- The body that a line gives a macro. It is cut after as many tokens as directive and name are, though the directive
may have been replaced with more or with fewer. -/
def macroBody (table : MacroTable) (before : List Line) (name : Token) (operands : List Token) : String :=
  Text.unwords
    ((meaning table before directive ++ name :: operands.flatMap (meaning table before)).drop 2)

/-- The macros are those that the lines define, each with the body that its line gives it. -/
structure Gathered (lines : List Line) (table : MacroTable) : Prop where
  contains_iff : ∀ name, table.contains name = true ↔ name ∈ names lines
  get?_eq : ∀ before line after name operands, lines = before ++ line :: after →
    IsDefinition line name operands → table.get? name = some (macroBody table before name operands)

theorem gathered_nil : Gathered [] .empty where
  contains_iff := by simp [MacroTable.contains, MacroTable.empty, names]
  get?_eq := by
    intro before line after name operands h
    simp at h

theorem meaning_congr {before : List Line} (h : ∀ token ∈ names before, next.get? token = table.get? token) :
    meaning next before = meaning table before := by
  funext token
  rw [meaning, meaning]
  split
  · rename_i htoken
    exact Token.replacement_congr (h token htoken)
  · rfl

theorem macroBody_congr {before : List Line} (h : ∀ token ∈ names before, next.get? token = table.get? token) :
    macroBody next before name operands = macroBody table before name operands := by
  rw [macroBody, meaning_congr h, macroBody]

/-- On the next line, tokens mean what they are replaced with. -/
theorem meaning_eq_replacement (hnames : ∀ name, table.contains name = true ↔ name ∈ names passed) :
    meaning table passed = Token.replacement table := by
  funext token
  rw [meaning]
  split
  · rfl
  · rename_i htoken
    have hfree : table.contains token = false := by
      rw [← Bool.not_eq_true, hnames]
      exact htoken
    rw [Token.replacement, MacroTable.get?_eq_none_iff.mpr hfree]

/-- The body that a line gives a macro is what is left of the line when directive and name are dropped. -/
theorem Gathered.macroBody_eq (h : Gathered passed table) (hline : IsDefinition line name operands)
    (hnew : name ∉ names passed) :
    Text.unwords ((Token.ofLine table line).drop 2) = macroBody table passed name operands := by
  have hname : meaning table passed name = [name] := if_neg hnew
  rw [Token.ofLine_eq_flatMap, hline.tokens, ← meaning_eq_replacement h.contains_iff, List.flatMap_cons,
    List.flatMap_cons, hname, macroBody]
  rfl

/-- A line after others is one of them, or comes last. -/
theorem split_append_singleton {before after : List Line} {line last : Line}
    (h : passed ++ [last] = before ++ line :: after) :
    (after = [] ∧ before = passed ∧ line = last) ∨
      ∃ rest, after = rest ++ [last] ∧ passed = before ++ line :: rest := by
  rcases List.eq_nil_or_concat after with rfl | ⟨rest, other, rfl⟩
  · obtain ⟨hpassed, hlast⟩ := List.append_inj' h rfl
    cases hlast
    exact .inl ⟨rfl, hpassed.symm, rfl⟩
  · rw [List.concat_eq_append, ← List.cons_append, ← List.append_assoc] at h
    obtain ⟨hpassed, hlast⟩ := List.append_inj' h rfl
    cases hlast
    exact .inr ⟨rest, List.concat_eq_append, hpassed⟩

theorem mem_names_append {before rest : List Line} (h : name ∈ names before) : name ∈ names (before ++ rest) := by
  rw [names, List.filterMap_append]
  exact List.mem_append_left _ h

theorem IsDefinition.mem_names {before rest : List Line} (h : IsDefinition line name operands) :
    name ∈ names (before ++ line :: rest) :=
  mem_names_iff.mpr ⟨line, by simp, operands, h⟩

theorem Gathered.skip (h : Gathered passed table) (hline : name? line = none) : Gathered (passed ++ [line]) table where
  contains_iff := by
    intro name
    rw [h.contains_iff, names, names, List.filterMap_append, List.filterMap_cons_none hline]
    simp
  get?_eq := by
    intro before other after name operands hsplit hother
    rcases split_append_singleton hsplit with ⟨rfl, rfl, rfl⟩ | ⟨rest, rfl, rfl⟩
    · cases hline.symm.trans hother.name?_eq
    · exact h.get?_eq before other rest name operands rfl hother

theorem Gathered.define (h : Gathered passed table) (hline : IsDefinition line name operands)
    (hnext : table.define? name (Text.unwords ((Token.ofLine table line).drop 2)) = some next) :
    Gathered (passed ++ [line]) next := by
  have hnew : name ∉ names passed := by
    rw [← h.contains_iff, ← MacroTable.define?_eq_none_iff, hnext]
    exact Option.some_ne_none next
  have hkeeps : ∀ other ∈ names passed, next.get? other = table.get? other := fun other hother =>
    MacroTable.get?_define?_of_contains hnext ((h.contains_iff other).mpr hother)
  refine ⟨?_, ?_⟩
  · intro other
    rw [MacroTable.contains_define? hnext, h.contains_iff, names, names, List.filterMap_append,
      List.filterMap_cons_some hline.name?_eq]
    simp
  · intro before last after other others hsplit hlast
    rcases split_append_singleton hsplit with ⟨rfl, rfl, rfl⟩ | ⟨rest, rfl, rfl⟩
    · obtain ⟨rfl, rfl⟩ := hline.det hlast
      rw [MacroTable.get?_define?_self hnext, h.macroBody_eq hline hnew, macroBody_congr hkeeps]
    · rw [hkeeps other hlast.mem_names, h.get?_eq before last rest other others rfl hlast,
        macroBody_congr fun token htoken => hkeeps token (mem_names_append htoken)]

theorem Gathered.take (h : Gathered passed table) (hnext : takeLine mode table number line = .ok next) :
    Gathered (passed ++ [line]) next := by
  rcases takeLine_eq_ok hnext with ⟨hline, rfl⟩ | ⟨name, operands, hline, hdefine⟩
  · exact h.skip hline
  · exact h.define hline hdefine

theorem gathered_ofBody {body : SegmentBody} (h : ofBody mode body = .ok table) : Gathered body.lines table :=
  SegmentBody.fold_induction gathered_nil h fun hpassed hnext => hpassed.take hnext

/-! ### Where reading fails -/

/-- Reading fails at the first line with which something is wrong. -/
theorem ofBody_eq_error_iff_fault {body : SegmentBody} {error : LoadError} :
    ofBody mode body = .error error ↔
      ∃ before line after fault, body.lines = before ++ line :: after ∧
        (∃ table, ofBody mode { body with lines := before } = .ok table) ∧ Fault mode before line fault ∧
          error = .structural (body.start + before.length) fault := by
  rw [ofBody, SegmentBody.fold, SegmentBody.foldFrom_eq_error_iff]
  constructor
  · rintro ⟨before, line, after, table, hsplit, hbefore, hline⟩
    have hok : ofBody mode { body with lines := before } = .ok table := hbefore
    obtain ⟨fault, hfault, herror⟩ := (takeLine_eq_error_iff (gathered_ofBody hok).contains_iff).mp hline
    exact ⟨before, line, after, fault, hsplit, ⟨table, hok⟩, hfault, herror⟩
  · rintro ⟨before, line, after, fault, hsplit, ⟨table, hbefore⟩, hfault, herror⟩
    exact ⟨before, line, after, table, hsplit, hbefore,
      (takeLine_eq_error_iff (gathered_ofBody hbefore).contains_iff).mpr ⟨fault, hfault, herror⟩⟩

theorem exists_ofBody_eq_ok_iff {body : SegmentBody} :
    (∃ table, ofBody mode body = .ok table) ↔ Faultless mode body.lines := by
  constructor
  · rintro ⟨table, hok⟩ before line after fault hsplit hfault
    cases hbefore : ofBody mode { body with lines := before } with
    | ok passed =>
        have herror := ofBody_eq_error_iff_fault.mpr ⟨before, line, after, fault, hsplit, ⟨_, hbefore⟩, hfault, rfl⟩
        cases hok.symm.trans herror
    | error e =>
        obtain ⟨front, first, back, other, hfront, hok', hother, rfl⟩ := ofBody_eq_error_iff_fault.mp hbefore
        have hsplit' : body.lines = front ++ first :: (back ++ line :: after) := by
          rw [hsplit, show before = front ++ first :: back from hfront]
          simp
        have herror := ofBody_eq_error_iff_fault.mpr ⟨front, first, _, other, hsplit', hok', hother, rfl⟩
        cases hok.symm.trans herror
  · intro hfaultless
    cases hbody : ofBody mode body with
    | ok table => exact ⟨table, rfl⟩
    | error e =>
        obtain ⟨before, line, after, fault, hsplit, -, hfault, -⟩ := ofBody_eq_error_iff_fault.mp hbody
        exact absurd hfault (hfaultless before line after fault hsplit)

theorem ofBody_eq_error_iff {body : SegmentBody} {error : LoadError} :
    ofBody mode body = .error error ↔
      ∃ before line after fault, body.lines = before ++ line :: after ∧ Faultless mode before ∧
        Fault mode before line fault ∧ error = .structural (body.start + before.length) fault := by
  simp only [ofBody_eq_error_iff_fault, exists_ofBody_eq_ok_iff]

theorem exists_ofBody_eq_error_iff {body : SegmentBody} :
    (∃ error, ofBody mode body = .error error) ↔
      ∃ before line after fault, body.lines = before ++ line :: after ∧ Fault mode before line fault := by
  constructor
  · rintro ⟨error, herror⟩
    obtain ⟨before, line, after, fault, hsplit, -, hfault, -⟩ := ofBody_eq_error_iff.mp herror
    exact ⟨before, line, after, fault, hsplit, hfault⟩
  · rintro ⟨before, line, after, fault, hsplit, hfault⟩
    cases hbody : ofBody mode body with
    | ok table => exact absurd hfault (exists_ofBody_eq_ok_iff.mp ⟨table, hbody⟩ before line after fault hsplit)
    | error e => exact ⟨e, rfl⟩

/-! ### Where bodies are cut -/

/-- Two are dropped from the front, where one stands in place of the directive: exactly then the rest is left. -/
theorem drop_two_eq_iff {front rest : List Token} :
    (front ++ name :: rest).drop 2 = rest ↔ front.length = 1 ∨ front = [] ∧ rest = [] := by
  cases front with
  | nil =>
      cases rest with
      | nil => simp
      | cons first rest => simp
  | cons first front =>
      cases front with
      | nil => simp
      | cons second front =>
          have hlonger : front ++ name :: rest ≠ rest := by
            intro h
            have hlength := congrArg List.length h
            simp only [List.length_append, List.length_cons] at hlength
            omega
          simpa using hlonger

theorem lexeme_of_mem_meaning {before : List Line} {token : Token} (h : Token.Lexeme token.toList) :
    ∀ meant ∈ meaning table before token, Token.Lexeme meant.toList := by
  rw [meaning]
  split
  · exact Token.lexeme_of_mem_replacement h
  · exact List.forall_mem_singleton.mpr h

/-- The body of a macro is its operands, replaced, exactly where the directive has been replaced with one token. That
the directive is gone and nothing is left of the operands is the one exception. -/
theorem IsDefinition.macroBody_eq_iff {before : List Line} (h : IsDefinition line name operands) :
    macroBody table before name operands = Text.unwords (operands.flatMap (meaning table before)) ↔
      (meaning table before directive).length = 1 ∨
        meaning table before directive = [] ∧ operands.flatMap (meaning table before) = [] := by
  have hline : ∀ token ∈ directive :: name :: operands, Token.Lexeme token.toList := by
    rw [← h.tokens]
    exact Token.lexeme_of_mem_ofLine
  simp only [List.forall_mem_cons] at hline
  obtain ⟨hdirective, hname, hoperands⟩ := hline
  have hrest : ∀ token ∈ operands.flatMap (meaning table before), Token.Lexeme token.toList := by
    intro token htoken
    obtain ⟨operand, hoperand, hmeant⟩ := List.mem_flatMap.mp htoken
    exact lexeme_of_mem_meaning (hoperands operand hoperand) token hmeant
  have hall : ∀ token ∈ meaning table before directive ++ name :: operands.flatMap (meaning table before),
      Token.Lexeme token.toList := by
    simp only [List.forall_mem_append, List.forall_mem_cons]
    exact ⟨lexeme_of_mem_meaning hdirective, hname, hrest⟩
  rw [macroBody, Token.unwords_inj (fun token htoken => hall token (List.mem_of_mem_drop htoken)) hrest,
    drop_two_eq_iff]

theorem ofBody_pair {first second : Line} {start : Nat} {delimited : Bool} {middle : MacroTable}
    (hfirst : takeLine mode .empty start first = .ok middle)
    (hsecond : takeLine mode middle (start + 1) second = .ok next) :
    ofBody mode ⟨start, [first, second], delimited⟩ = .ok next := by
  rw [ofBody, SegmentBody.fold, SegmentBody.foldFrom, hfirst]
  dsimp only
  rw [SegmentBody.foldFrom, hsecond]
  rfl

/-- Macros are made of earlier macros. Reading fails at the first line with which something is wrong: that does not
define a macro, where that is an error, or does not name it, or names one that is there. If there is no such line then
the macros are those that the lines define, each with what its line is replaced with but for two tokens. This is what
the operands are replaced with, unless the directive is a macro that stands for no token or for several. -/
theorem bodies_from_earlier_lines (mode : Mode) (body : SegmentBody) :
    (∀ error, ofBody mode body = .error error ↔
        ∃ before line after fault, body.lines = before ++ line :: after ∧ Faultless mode before ∧
          Fault mode before line fault ∧ error = .structural (body.start + before.length) fault) ∧
      ((∃ error, ofBody mode body = .error error) ↔
        ∃ before line after fault, body.lines = before ++ line :: after ∧ Fault mode before line fault) ∧
      ∀ table, ofBody mode body = .ok table →
        (∀ name, table.contains name = true ↔ ∃ line ∈ body.lines, ∃ operands, IsDefinition line name operands) ∧
        ∀ before line after name operands, body.lines = before ++ line :: after →
          IsDefinition line name operands →
            table.get? name = some (macroBody table before name operands) ∧
            (table.get? name = some (Text.unwords (operands.flatMap (meaning table before))) ↔
              (meaning table before directive).length = 1 ∨
                meaning table before directive = [] ∧ operands.flatMap (meaning table before) = []) := by
  refine ⟨fun error => ofBody_eq_error_iff, exists_ofBody_eq_error_iff, fun table hok => ⟨?names, ?bodies⟩⟩
  case names =>
    intro name
    rw [(gathered_ofBody hok).contains_iff, mem_names_iff]
  case bodies =>
    intro before line after name operands hsplit hline
    have hbody := (gathered_ofBody hok).get?_eq before line after name operands hsplit hline
    refine ⟨hbody, ?_⟩
    rw [hbody, Option.some_inj]
    exact hline.macroBody_eq_iff

/-- A segment of two macros, the second made of the first. -/
def wallLines : List Line :=
  ["#define DOOR @7", "#define WALL DOOR,DOOR"]

def wallMacros : MacroTable :=
  ⟨[("DOOR", "@7"), ("WALL", "@7 , @7")], by simp⟩

/-- The body of the second macro is made of the body of the first, with the comma in between. -/
theorem wall_from_door : ofBody .strict ⟨2, wallLines, true⟩ = .ok wallMacros ∧
    IsDefinition "#define WALL DOOR,DOOR" "WALL" ["DOOR", ",", "DOOR"] ∧
    wallMacros.get? "WALL" =
      some (Text.unwords (["DOOR", ",", "DOOR"].flatMap (meaning wallMacros ["#define DOOR @7"]))) := by
  have hdoor : IsDefinition "#define DOOR @7" "DOOR" ["@7"] := ⟨by decide, by decide +kernel⟩
  have hwall : IsDefinition "#define WALL DOOR,DOOR" "WALL" ["DOOR", ",", "DOOR"] := ⟨by decide, by decide +kernel⟩
  have hok : ofBody .strict ⟨2, wallLines, true⟩ = .ok wallMacros :=
    ofBody_pair (takeLine_of_define? hdoor (by decide +kernel : _ = "@7") rfl)
      (takeLine_of_define? hwall (by decide +kernel : _ = "@7 , @7") rfl)
  obtain ⟨-, -, hmacros⟩ := bodies_from_earlier_lines .strict ⟨2, wallLines, true⟩
  obtain ⟨-, hbodies⟩ := hmacros wallMacros hok
  have hone : (meaning wallMacros ["#define DOOR @7"] directive).length = 1 := by decide +kernel
  exact ⟨hok, hwall, (hbodies ["#define DOOR @7"] _ [] _ _ rfl hwall).2.mpr (.inl hone)⟩

/-- The macros of a segment in which the directive is one of them. -/
def shiftedMacros : MacroTable :=
  ⟨[("#define", "a b"), ("X", "X 1")], by simp⟩

/-- The directive stands for two tokens, and so the name is left in the body of the next macro. -/
theorem body_shifted : ofBody .strict ⟨2, ["#define #define a b", "#define X 1"], true⟩ = .ok shiftedMacros ∧
    IsDefinition "#define X 1" "X" ["1"] ∧
    shiftedMacros.get? "X" ≠ some (Text.unwords (["1"].flatMap (meaning shiftedMacros ["#define #define a b"]))) := by
  have hdirective : IsDefinition "#define #define a b" "#define" ["a", "b"] := ⟨by decide, by decide +kernel⟩
  have hline : IsDefinition "#define X 1" "X" ["1"] := ⟨by decide, by decide +kernel⟩
  refine ⟨?_, hline, by decide +kernel⟩
  exact ofBody_pair (takeLine_of_define? hdirective (by decide +kernel : _ = "a b") rfl)
    (takeLine_of_define? hline (by decide +kernel : _ = "X 1") rfl)

end LevelPlay.Defines
