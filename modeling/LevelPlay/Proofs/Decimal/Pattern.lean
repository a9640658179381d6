import Mathlib.Computability.RegularExpressions

/-! How numbers may be written, as patterns: what level text admits as a number, and what is read as one wherever a
number may stand. A text is taken apart by its pattern alone, with no regard to how it is read. Three things about
all texts of a pattern can be had from the pattern: of what characters they consist, with which they begin, and whether
one of some kind must be among them. -/

namespace LevelPlay.Decimal

/-- A pattern of texts. -/
abbrev Pattern := RegularExpression Char

namespace Pattern

variable {p q : Pattern} {cs : List Char}

/-- The whole text is of the pattern. -/
def Matches (p : Pattern) (cs : List Char) : Prop := cs ∈ p.matches'

def oneOf : List Char → Pattern
  | [] => 0
  | c :: cs => .char c + oneOf cs

def optional (p : Pattern) : Pattern := 1 + p

/-- A word, each letter of it small or capital. -/
def spelled : List Char → Pattern
  | [] => 1
  | c :: word => oneOf [c, c.toUpper] * spelled word

/-! ### Numbers -/

def sign : Pattern := optional (oneOf ['+', '-'])

def digit : Pattern := oneOf ['0', '1', '2', '3', '4', '5', '6', '7', '8', '9']

def digits : Pattern := digit * digit.star

def point : Pattern := .char '.'

/-- Digits that a point may follow, with or without more digits, or a point and digits. -/
def levelMantissa : Pattern := digits * optional (point * digit.star) + point * digits

/-- A number as level text admits it. -/
def levelNumeral : Pattern := sign * levelMantissa

/-- An infinity, or no number at all. -/
def word : Pattern := spelled "inf".toList + spelled "infinity".toList + spelled "nan".toList

/-- Digits, at most one point after, among or before them. -/
def mantissa : Pattern := digits + digits * (point * digit.star) + digit.star * (point * digits)

def exponent : Pattern := oneOf ['e', 'E'] * (sign * digits)

/-- A number as it is read wherever one may stand. -/
def numeral : Pattern := sign * (word + mantissa * optional exponent)

/-- A number with an exponent, or one that is a word. -/
def special : Pattern := sign * (word + mantissa * exponent)

/-! ### Matching -/

theorem matches_one : Matches 1 cs ↔ cs = [] :=
  Iff.rfl

theorem matches_char {c : Char} : Matches (.char c) cs ↔ cs = [c] :=
  Iff.rfl

theorem matches_add : Matches (p + q) cs ↔ Matches p cs ∨ Matches q cs :=
  Iff.rfl

theorem matches_mul : Matches (p * q) cs ↔ ∃ front rest, cs = front ++ rest ∧ Matches p front ∧ Matches q rest := by
  rw [Matches, RegularExpression.matches'_mul, Language.mem_mul]
  constructor
  · rintro ⟨front, hfront, rest, hrest, hcs⟩
    exact ⟨front, rest, hcs.symm, hfront, hrest⟩
  · rintro ⟨front, rest, hcs, hfront, hrest⟩
    exact ⟨front, hfront, rest, hrest, hcs.symm⟩

theorem matches_star :
    Matches p.star cs ↔ ∃ parts : List (List Char), cs = parts.flatten ∧ ∀ part ∈ parts, Matches p part :=
  Language.mem_kstar

theorem matches_optional : Matches (optional p) cs ↔ cs = [] ∨ Matches p cs :=
  Iff.rfl

theorem matches_oneOf {choices : List Char} : Matches (oneOf choices) cs ↔ ∃ c ∈ choices, cs = [c] := by
  induction choices with
  | nil => exact iff_of_false (fun h => h) fun ⟨_, hc, _⟩ => (List.not_mem_nil hc).elim
  | cons c choices ih => rw [oneOf, matches_add, matches_char, ih, List.exists_mem_cons_iff]

theorem matches_oneOf_mul {choices : List Char} :
    Matches (oneOf choices * p) cs ↔ ∃ c rest, cs = c :: rest ∧ c ∈ choices ∧ Matches p rest := by
  rw [matches_mul]
  constructor
  · rintro ⟨_, rest, rfl, hfront, hrest⟩
    obtain ⟨c, hc, rfl⟩ := matches_oneOf.mp hfront
    exact ⟨c, rest, rfl, hc, hrest⟩
  · rintro ⟨c, rest, rfl, hc, hrest⟩
    exact ⟨[c], rest, rfl, matches_oneOf.mpr ⟨c, hc, rfl⟩, hrest⟩

/-- A text of any number of the characters is a text with no others. -/
theorem matches_star_oneOf {choices : List Char} : Matches (oneOf choices).star cs ↔ ∀ c ∈ cs, c ∈ choices := by
  rw [matches_star]
  constructor
  · rintro ⟨parts, rfl, hparts⟩ c hc
    obtain ⟨part, hpart, hmem⟩ := List.mem_flatten.mp hc
    obtain ⟨choice, hchoice, rfl⟩ := matches_oneOf.mp (hparts part hpart)
    exact List.mem_singleton.mp hmem ▸ hchoice
  · intro h
    refine ⟨cs.map fun c => [c], ?_, ?_⟩
    · rw [← List.flatMap_def, List.flatMap_singleton']
    · intro part hpart
      obtain ⟨c, hc, rfl⟩ := List.mem_map.mp hpart
      exact matches_oneOf.mpr ⟨c, h c hc, rfl⟩

/-- To become a small letter a character must be that letter or its capital. -/
theorem toLower_eq_iff {letter c : Char} (hletter : letter.isLower = true) :
    c.toLower = letter ↔ c = letter ∨ c = letter.toUpper := by
  have ha : 'a'.val.toNat = 97 := rfl
  have hz : 'z'.val.toNat = 122 := rfl
  have hA : 'A'.val.toNat = 65 := rfl
  have hZ : 'Z'.val.toNat = 90 := rfl
  delta Char.isLower at hletter
  delta Char.toLower Char.toUpper
  simp only [ge_iff_le, UInt32.le_iff_toNat_le, Bool.and_eq_true, decide_eq_true_eq] at hletter ⊢
  -- What remains is arithmetic of the numbers of the characters: a capital is 32 before its small letter.
  split_ifs
  all_goals
    simp only [Char.ext_iff, ← UInt32.toNat_inj, UInt32.toNat_add, UInt32.toNat_sub]
    omega

theorem matches_spelled {word : List Char} (hword : word.all Char.isLower = true) :
    Matches (spelled word) cs ↔ cs.map Char.toLower = word := by
  induction word generalizing cs with
  | nil => rw [spelled, matches_one, List.map_eq_nil_iff]
  | cons letter word ih =>
      rw [List.all_cons, Bool.and_eq_true] at hword
      have hchoices (c : Char) : c ∈ [letter, letter.toUpper] ↔ c.toLower = letter := by
        rw [toLower_eq_iff hword.1, List.mem_pair]
      simp only [spelled, matches_oneOf_mul, List.map_eq_cons_iff, hchoices, ih hword.2]

/-! ### The characters of a pattern -/

variable {kind : Char → Bool}

/-- Whether the texts of the pattern consist of characters of the kind. -/
def consists (kind : Char → Bool) : Pattern → Bool
  | .zero | .epsilon => true
  | .char c => kind c
  | .plus p q | .comp p q => consists kind p && consists kind q
  | .star p => consists kind p

/-- Whether the texts of the pattern begin with a character of the kind, unless they are empty. -/
def begins (kind : Char → Bool) : Pattern → Bool
  | .zero | .epsilon => true
  | .char c => kind c
  | .plus p q => begins kind p && begins kind q
  | .comp p q => begins kind p && (!p.matchEpsilon || begins kind q)
  | .star p => begins kind p

/-- Whether no text of the pattern is without a character of the kind. -/
def needs (kind : Char → Bool) : Pattern → Bool
  | .zero => true
  | .epsilon | .star _ => false
  | .char c => kind c
  | .plus p q => needs kind p && needs kind q
  | .comp p q => needs kind p || needs kind q

theorem Matches.forall_of_consists (h : Matches p cs) (hkind : consists kind p = true) :
    ∀ c ∈ cs, kind c = true := by
  induction p generalizing cs with
  | zero => cases h
  | epsilon =>
      cases h
      exact fun _ hc => (List.not_mem_nil hc).elim
  | char c =>
      cases h
      exact List.forall_mem_singleton.mpr hkind
  | plus p q ihp ihq =>
      rw [consists, Bool.and_eq_true] at hkind
      rcases matches_add.mp h with hp | hq
      · exact ihp hp hkind.1
      · exact ihq hq hkind.2
  | comp p q ihp ihq =>
      rw [consists, Bool.and_eq_true] at hkind
      obtain ⟨front, rest, rfl, hp, hq⟩ := matches_mul.mp h
      exact List.forall_mem_append.mpr ⟨ihp hp hkind.1, ihq hq hkind.2⟩
  | star p ih =>
      obtain ⟨parts, rfl, hparts⟩ := matches_star.mp h
      intro c hc
      obtain ⟨part, hpart, hmem⟩ := List.mem_flatten.mp hc
      exact ih (hparts part hpart) hkind c hmem

theorem Matches.matchEpsilon (h : Matches p []) : p.matchEpsilon = true :=
  (RegularExpression.rmatch_iff_matches' p []).mpr h

theorem Matches.head_of_begins {c : Char} (h : Matches p (c :: cs)) (hkind : begins kind p = true) : kind c = true := by
  induction p generalizing cs with
  | zero => cases h
  | epsilon => cases h
  | char _ =>
      cases h
      exact hkind
  | plus p q ihp ihq =>
      rw [begins, Bool.and_eq_true] at hkind
      rcases matches_add.mp h with hp | hq
      · exact ihp hp hkind.1
      · exact ihq hq hkind.2
  | comp p q ihp ihq =>
      rw [begins, Bool.and_eq_true] at hkind
      obtain ⟨front, rest, hcs, hp, hq⟩ := matches_mul.mp h
      cases front with
      | nil =>
          cases hcs
          have hsecond := hkind.2
          rw [hp.matchEpsilon] at hsecond
          exact ihq hq hsecond
      | cons _ front =>
          cases hcs
          exact ihp hp hkind.1
  | star p ih =>
      -- Parts that are empty add nothing; the first of the others begins with the character.
      obtain ⟨parts, hparts, hall⟩ := Language.mem_kstar_iff_exists_nonempty.mp h
      cases parts with
      | nil => cases hparts
      | cons part parts =>
          obtain ⟨hpart, hne⟩ := hall part List.mem_cons_self
          obtain ⟨first, front, rfl⟩ := List.exists_cons_of_ne_nil hne
          cases hparts
          exact ih hpart hkind

theorem Matches.exists_of_needs (h : Matches p cs) (hkind : needs kind p = true) : ∃ c ∈ cs, kind c = true := by
  induction p generalizing cs with
  | zero => cases h
  | epsilon => cases hkind
  | char c =>
      cases h
      exact ⟨c, List.mem_cons_self, hkind⟩
  | plus p q ihp ihq =>
      rw [needs, Bool.and_eq_true] at hkind
      rcases matches_add.mp h with hp | hq
      · exact ihp hp hkind.1
      · exact ihq hq hkind.2
  | comp p q ihp ihq =>
      rw [needs, Bool.or_eq_true] at hkind
      obtain ⟨front, rest, rfl, hp, hq⟩ := matches_mul.mp h
      rcases hkind with hfirst | hsecond
      · obtain ⟨c, hc, hkind⟩ := ihp hp hfirst
        exact ⟨c, List.mem_append_left rest hc, hkind⟩
      · obtain ⟨c, hc, hkind⟩ := ihq hq hsecond
        exact ⟨c, List.mem_append_right front hc, hkind⟩
  | star p ih => cases hkind

/-- A level numeral has no letter, so nothing in which there is one occurs in it. -/
theorem not_levelNumeral_of_needs {before part after : List Char} (hpart : Matches p part)
    (hp : needs Char.isAlpha p = true) : ¬Matches levelNumeral (before ++ part ++ after) := by
  intro hlevel
  obtain ⟨c, hc, halpha⟩ := hpart.exists_of_needs hp
  have hmem : c ∈ before ++ part ++ after := List.mem_append_left after (List.mem_append_right before hc)
  have hnone : (!c.isAlpha) = true :=
    hlevel.forall_of_consists (by decide : consists (fun c => !c.isAlpha) levelNumeral = true) c hmem
  rw [halpha] at hnone
  cases hnone

theorem not_levelNumeral_of_special (h : Matches special cs) : ¬Matches levelNumeral cs := by
  have hwhole : [] ++ cs ++ [] = cs := by rw [List.nil_append, List.append_nil]
  exact hwhole ▸ not_levelNumeral_of_needs h (by decide)

end Pattern

end LevelPlay.Decimal
