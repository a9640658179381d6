import LevelPlay.Launch
import LevelPlay.Proofs.Engine.Forwarding
import LevelPlay.Proofs.Text.Words
import LevelPlay.Proofs.Value.Parser
import LevelPlay.Proofs.Value.Refusal

/-! Numbers of level text, of instructions and of launches. What level text admits as a number is a number everywhere,
and it always has a value. The other way round it is not so: an exponent, an infinity and what is no number at all are
read in an instruction and in a launch, but level text has no way to write them. -/

namespace LevelPlay

open Decimal Decimal.Pattern

variable {s spec : String} {x : Float}

/-! ### Launches -/

namespace Launch

variable {launch : Launch}

/-- No character of a number is a blank or a comma, so it is one part of a launch and nothing is trimmed off. -/
theorem trim_of_number? (hx : number? s = some x) : Text.trim s = s := by
  have hmatch : Matches numeral s.toList := exists_number?_iff.mp ⟨x, hx⟩
  have hkind : consists (fun c => !Text.isBlank c) numeral = true := by decide +kernel
  have hsolid : ∀ c ∈ s.toList, Text.isBlank c = false := by
    intro c hc
    simpa using hmatch.forall_of_consists hkind c hc
  have htrimmed : Text.Trimmed s.toList :=
    ⟨fun c hc => hsolid c (List.mem_of_mem_head? hc), fun c hc => hsolid c (List.mem_of_mem_getLast? hc)⟩
  rw [Text.trim, Text.trimBlanks_of_trimmed htrimmed, String.ofList_toList]

theorem cut_of_number? (hx : number? s = some x) : Text.cut ',' s = [s] := by
  have hmatch : Matches numeral s.toList := exists_number?_iff.mp ⟨x, hx⟩
  have hkind : consists (· != ',') numeral = true := by decide
  exact Text.cut_of_not_mem fun hc => Bool.noConfusion (hmatch.forall_of_consists hkind ',' hc)

theorem partValue?_of_number? (hx : number? s = some x) : partValue? s = some x := by
  unfold partValue?
  split
  · rename_i hid
    rw [number?_of_mark (.inr rfl) hid] at hx
    cases hx
  · exact hx

theorem parseParts_of_number? (hx : number? s = some x) : parseParts spec [s] = .ok [x] := by
  rw [parseParts, trim_of_number? hx, partValue?_of_number? hx]
  rfl

/-- The whole text is there for the messages only. -/
theorem parseParts_append {other : String} {parts more : List String} {xs ys : List Float}
    (hparts : parseParts other parts = .ok xs) (hmore : parseParts spec more = .ok ys) :
    parseParts spec (parts ++ more) = .ok (xs ++ ys) := by
  induction parts generalizing xs with
  | nil =>
      cases hparts
      exact hmore
  | cons part parts ih =>
      rw [parseParts] at hparts
      rw [List.cons_append, parseParts]
      cases hvalue : partValue? (Text.trim part) with
      | none =>
          rw [hvalue] at hparts
          cases hparts
      | some x =>
          rw [hvalue] at hparts
          obtain ⟨rest, hrest, rfl⟩ := Result.map_eq_ok_iff.mp hparts
          exact Result.map_eq_ok_iff.mpr ⟨rest ++ ys, ih hrest, rfl⟩

theorem parse_eq_ok_iff :
    parse spec = .ok launch ↔ parseParts spec (Text.cut ',' spec) = .ok launch ∧ launch.head?.any isWhole = true := by
  rw [parse, Result.bind_eq_ok_iff]
  constructor
  · rintro ⟨read, hparts, hread⟩
    split at hread
    · rename_i hwhole
      cases hread
      exact ⟨hparts, hwhole⟩
    · cases hread
  · rintro ⟨hparts, hwhole⟩
    exact ⟨launch, hparts, if_pos hwhole⟩

/-- A launch may have a number more. -/
theorem parse_append (hspec : parse spec = .ok launch) (hx : number? s = some x) :
    parse (spec ++ "," ++ s) = .ok (launch ++ [x]) := by
  obtain ⟨hparts, hwhole⟩ := parse_eq_ok_iff.mp hspec
  have hcut : Text.cut ',' (spec ++ "," ++ s) = Text.cut ',' spec ++ [s] := by
    rw [← cut_of_number? hx]
    exact Text.cut_of_append (by simp)
  refine parse_eq_ok_iff.mpr ⟨?_, ?_⟩
  · rw [hcut]
    exact parseParts_append hparts (parseParts_of_number? hx)
  · cases launch with
    | nil => cases hwhole
    | cons id arguments => exact hwhole

theorem parse_of_number? (hx : number? s = some x) :
    parse s = if isWhole x then .ok [x] else .error (.notWhole s) := by
  rw [parse, cut_of_number? hx, parseParts_of_number? hx, Result.ok_bind]
  rfl

end Launch

/-! ### What a text is taken for -/

namespace Decimal

/-- The text is taken for the number where one stands outside of level text: as an operand of any instruction, as one
more argument of any launch, and as a launch of its own if it can be the id of a script. -/
structure TakenAs (s : String) (x : Float) : Prop where
  operand (instruction : Instruction) : instruction.operandValue s = .ok x
  argument {spec : String} {launch : Launch} (h : Launch.parse spec = .ok launch) :
    Launch.parse (spec ++ "," ++ s) = .ok (launch ++ [x])
  script : Launch.parse s = if isWhole x then .ok [x] else .error (.notWhole s)

theorem takenAs_of_number? (hx : number? s = some x) : TakenAs s x where
  operand _ := Instruction.operandValue_eq_ok_iff.mpr (Instruction.operandNumber?_of_number? hx)
  argument h := Launch.parse_append h hx
  script := Launch.parse_of_number? hx

end Decimal

namespace Value

/-- No mark with which a value opens begins with the character, nor does a tag or an id. -/
def isOther (c : Char) : Bool :=
  c != '#' && c != '@' && openingMarks.all fun mark => mark.toList.head? != some c

/-- A number with an exponent, or one that is a word, announces no value. -/
theorem Opening.of_special (h : Matches special s.toList) : Opening.of s = .other := by
  have hlevel : isLevelNumber s = false :=
    Bool.eq_false_iff.mpr (mt isLevelNumber_iff_matches.mp (not_levelNumeral_of_special h))
  obtain ⟨c, hc, -⟩ := h.exists_of_needs (by decide : needs Char.isAlpha special = true)
  obtain ⟨first, cs, hcs⟩ := List.exists_cons_of_ne_nil (List.ne_nil_of_mem hc)
  have hhead : s.toList.head? = some first := by
    rw [hcs]
    rfl
  rw [hcs] at h
  have hfirst : isOther first = true := h.head_of_begins (by decide +kernel : begins isOther special = true)
  simp only [isOther, Bool.and_eq_true, bne_iff_ne, List.all_eq_true] at hfirst
  obtain ⟨⟨htag, hid⟩, hmarks⟩ := hfirst
  rw [of_eq_of_ne (ne_mark_of_head hhead hmarks), hhead, hlevel, if_neg (by simpa using htag),
    if_neg (by simpa using hid)]
  rfl

theorem numberOf_of_not_levelNumeral {token : Token} (h : ¬Matches levelNumeral token.toList) :
    numberOf token = .error (.notNumber token) := by
  rw [numberOf, if_neg (mt isLevelNumber_iff_matches.mp h)]

variable {tokens : List Token} {start : Nat}

theorem parseAt_of_isNumber (htoken : tokens[start]? = some s) (hx : IsNumber s x) :
    parseAt tokens start = .ok (.number x, start) := by
  refine parseAt_eq_ok_iff.mpr ⟨Nat.le_refl start, (List.getElem?_eq_some_iff.mp htoken).1, ?_⟩
  rw [List.extract_eq_take_drop, drop_of_getElem? htoken, Nat.add_sub_cancel_left]
  exact .number hx

theorem parseAt_of_special (htoken : tokens[start]? = some s) (h : Matches special s.toList) :
    parseAt tokens start = .error (.unrecognized s) := by
  rw [parseAt, drop_of_getElem? htoken, parse, readOpened, Opening.of_special h]
  rfl

/-- Level text admits as numbers the texts of its pattern, and what is read as a number elsewhere is of a wider one.
So a token that level text admits as a number is read as one in a level value, and is taken for the same number as an
operand and in a launch; that such a token is malformed is never said. A text in which an exponent or one of the words
occurs is not of the pattern of level text. A number that has an exponent or is a word is refused as a level value, and
has a value as an operand and in a launch. -/
theorem number_tokens_convert :
    (∀ s : String, (isLevelNumber s = true ↔ Matches levelNumeral s.toList) ∧
        ((Decimal.number? s).isSome = true ↔ Matches numeral s.toList)) ∧
      (∀ s : String, Matches levelNumeral s.toList → ∃ x, Decimal.number? s = some x ∧ numberOf s = .ok x ∧
        (∀ tokens start, tokens[start]? = some s → parseAt tokens start = .ok (.number x, start)) ∧ TakenAs s x) ∧
      (∀ found, (∀ token, numberOf token ≠ .error (.malformedNumber found)) ∧
        ∀ tokens start, parseAt tokens start ≠ .error (.malformedNumber found)) ∧
      (∀ before part after, Matches (word + exponent) part → ¬Matches levelNumeral (before ++ part ++ after)) ∧
      ∀ s : String, Matches special s.toList → numberOf s = .error (.notNumber s) ∧
        (∀ tokens start, tokens[start]? = some s → parseAt tokens start = .error (.unrecognized s)) ∧
        ∃ x, Decimal.number? s = some x ∧ TakenAs s x := by
  refine ⟨fun s => ⟨isLevelNumber_iff_matches, isSome_number?⟩, fun s hlevel => ?_, fun found => ⟨?_, ?_⟩,
    fun before part after hpart => ?_, fun s hspecial => ?_⟩
  · obtain ⟨x, hx⟩ := exists_number?_iff.mpr (numeral_of_levelNumeral hlevel)
    have hnumber : IsNumber s x := ⟨isLevelNumber_iff_matches.mpr hlevel, hx⟩
    exact ⟨x, hx, numberOf_eq_ok_iff.mpr hnumber, fun _ _ htoken => parseAt_of_isNumber htoken hnumber,
      takenAs_of_number? hx⟩
  · exact fun token hmalformed => truthful_numberOf token _ hmalformed
  · exact fun tokens start hmalformed => truthful_parseAt tokens start _ hmalformed
  · exact not_levelNumeral_of_needs hpart (by decide)
  · obtain ⟨x, hx⟩ := exists_number?_iff.mpr (numeral_of_special hspecial)
    exact ⟨numberOf_of_not_levelNumeral (not_levelNumeral_of_special hspecial),
      fun _ _ htoken => parseAt_of_special htoken hspecial, x, hx, takenAs_of_number? hx⟩

theorem half_and_infinity_convert :
    parseAt ["<", "-.5"] 1 = .ok (.number (-0.5), 1) ∧ TakenAs "-.5" (-0.5) ∧
      parseAt ["Inf"] 0 = .error (.unrecognized "Inf") ∧ ¬Matches levelNumeral "1E+2".toList ∧
      Launch.parse "7,Inf" = .ok [7.0, 1.0 / 0.0] := by
  obtain ⟨-, hlevel, -, hnone, hspecial⟩ := number_tokens_convert
  have hhalf : Matches levelNumeral "-.5".toList := isLevelNumber_iff_matches.mp (by decide)
  have hinfinity : Matches special "Inf".toList := (RegularExpression.rmatch_iff_matches' _ _).mp (by decide +kernel)
  have hexponent : Matches (word + exponent) "E+2".toList :=
    (RegularExpression.rmatch_iff_matches' _ _).mp (by decide +kernel)
  have hseven : Launch.parse "7" = .ok [7.0] :=
    (Launch.parse_of_number? (by decide +kernel : Decimal.number? "7" = some 7.0)).trans (if_pos (by decide +kernel))
  obtain ⟨x, hx, -, hparse, htaken⟩ := hlevel "-.5" hhalf
  obtain rfl : -0.5 = x := Option.some_inj.mp ((by decide +kernel : Decimal.number? "-.5" = some (-0.5)).symm.trans hx)
  obtain ⟨-, hrefused, y, hy, htaken'⟩ := hspecial "Inf" hinfinity
  obtain rfl : 1.0 / 0.0 = y :=
    Option.some_inj.mp ((by decide +kernel : Decimal.number? "Inf" = some (1.0 / 0.0)).symm.trans hy)
  exact ⟨hparse ["<", "-.5"] 1 rfl, htaken, hrefused ["Inf"] 0 rfl, hnone ['1'] _ [] hexponent,
    htaken'.argument hseven⟩

end Value

end LevelPlay
