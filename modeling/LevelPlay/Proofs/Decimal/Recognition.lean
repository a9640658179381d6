import Mathlib.Data.List.TakeWhile
import LevelPlay.Decimal.Numeral
import LevelPlay.Proofs.Decimal.Pattern

/-! What is read as a number. The readers go over a text from its front: over a sign, over as many digits as there
are, over a point and the digits after it, over an exponent. They read the texts of the patterns and no others, for no
pattern leaves a choice where one of its parts ends: behind the digits comes a point, the letter of the exponent or
the end, and none of these is a digit. -/

namespace LevelPlay.Decimal

open Pattern

variable {cs : List Char} {s : String}

/-! ### Signs and digits -/

theorem isDigit_iff_mem {c : Char} :
    c.isDigit = true ↔ c ∈ ['0', '1', '2', '3', '4', '5', '6', '7', '8', '9'] := by
  simp only [Char.isDigit, List.mem_cons, List.not_mem_nil, or_false, Char.ext_iff, UInt32.le_iff_toNat_le,
    ← UInt32.toNat_inj, Bool.and_eq_true, decide_eq_true_eq]
  simp
  omega

theorem matches_star_digit : Matches digit.star cs ↔ ∀ c ∈ cs, c.isDigit = true := by
  simp only [digit, matches_star_oneOf, isDigit_iff_mem]

theorem matches_digits : Matches digits cs ↔ cs ≠ [] ∧ ∀ c ∈ cs, c.isDigit = true := by
  rw [digits, digit, matches_oneOf_mul, ← digit]
  cases cs with
  | nil => simp
  | cons c cs => simp [matches_star_digit, isDigit_iff_mem]

/-- A character with which an unsigned number may begin. -/
def isUnsigned (c : Char) : Bool := c != '+' && c != '-'

theorem splitSign_of_head (h : ∀ c ∈ cs.head?, isUnsigned c = true) : splitSign cs = (false, cs) := by
  unfold splitSign
  split
  · cases h '-' rfl
  · cases h '+' rfl
  · rfl

/-- Where no text begins with a sign, one that is there can only be the optional one. -/
theorem matches_sign_mul {p : Pattern} (hp : begins isUnsigned p = true) :
    Matches (sign * p) cs ↔ Matches p (splitSign cs).2 := by
  rw [matches_mul]
  constructor
  · rintro ⟨front, rest, rfl, hsign, hrest⟩
    rcases matches_optional.mp hsign with rfl | hone
    · have hhead : ∀ c ∈ rest.head?, isUnsigned c = true := by
        intro c hc
        obtain ⟨tail, rfl⟩ := List.head?_eq_some_iff.mp hc
        exact hrest.head_of_begins hp
      rw [List.nil_append, splitSign_of_head hhead]
      exact hrest
    · obtain ⟨c, hc, rfl⟩ := matches_oneOf.mp hone
      obtain rfl | rfl : c = '+' ∨ c = '-' := by simpa using hc
      · exact hrest
      · exact hrest
  · have hone {c : Char} (hc : c ∈ ['+', '-']) : Matches sign [c] :=
      matches_optional.mpr (.inr (matches_oneOf.mpr ⟨c, hc, rfl⟩))
    unfold splitSign
    split
    · exact fun h => ⟨['-'], _, rfl, hone (by simp), h⟩
    · exact fun h => ⟨['+'], _, rfl, hone (by simp), h⟩
    · exact fun h => ⟨[], _, rfl, matches_optional.mpr (.inl rfl), h⟩

/-! ### Mantissas -/

/-- Digits with at most one point after, among or before them. -/
inductive Mantissa : List Char → Prop where
  | whole {whole : List Char} (hne : whole ≠ []) (hwhole : ∀ c ∈ whole, c.isDigit = true) : Mantissa whole
  | pointed {whole places : List Char} (hwhole : ∀ c ∈ whole, c.isDigit = true)
      (hplaces : ∀ c ∈ places, c.isDigit = true) (hne : whole ≠ [] ∨ places ≠ []) :
      Mantissa (whole ++ '.' :: places)

theorem matches_point_mul {p : Pattern} :
    Matches (point * p) cs ↔ ∃ rest, cs = '.' :: rest ∧ Matches p rest := by
  rw [matches_mul]
  constructor
  · rintro ⟨_, rest, rfl, rfl, hrest⟩
    exact ⟨rest, rfl, hrest⟩
  · rintro ⟨rest, rfl, hrest⟩
    exact ⟨['.'], rest, rfl, rfl, hrest⟩

theorem matches_mantissa : Matches mantissa cs ↔ Mantissa cs := by
  simp only [mantissa, matches_add, matches_mul (p := digits), matches_mul (p := digit.star), matches_point_mul,
    matches_digits, matches_star_digit]
  constructor
  · rintro ((⟨hne, hdigits⟩ | ⟨whole, _, rfl, ⟨hne, hwhole⟩, places, rfl, hplaces⟩) |
      ⟨whole, _, rfl, hwhole, places, rfl, hne, hplaces⟩)
    · exact .whole hne hdigits
    · exact .pointed hwhole hplaces (.inl hne)
    · exact .pointed hwhole hplaces (.inr hne)
  · rintro (⟨hne, hdigits⟩ | ⟨hwhole, hplaces, hne | hne⟩)
    · exact .inl (.inl ⟨hne, hdigits⟩)
    · exact .inl (.inr ⟨_, _, rfl, ⟨hne, hwhole⟩, _, rfl, hplaces⟩)
    · exact .inr ⟨_, _, rfl, hwhole, _, rfl, hne, hplaces⟩

/-- Level text writes its mantissas by another pattern, but they are the same. -/
theorem matches_levelMantissa : Matches levelMantissa cs ↔ Mantissa cs := by
  simp only [levelMantissa, matches_add, matches_mul (p := digits), matches_optional, matches_point_mul,
    matches_digits, matches_star_digit]
  constructor
  · rintro (⟨whole, _, rfl, ⟨hne, hwhole⟩, rfl | ⟨places, rfl, hplaces⟩⟩ | ⟨places, rfl, hne, hplaces⟩)
    · rw [List.append_nil]
      exact .whole hne hwhole
    · exact .pointed hwhole hplaces (.inl hne)
    · exact @Mantissa.pointed [] places (fun _ hc => (List.not_mem_nil hc).elim) hplaces (.inr hne)
  · intro h
    cases h with
    | whole hne hdigits => exact .inl ⟨cs, [], (List.append_nil cs).symm, ⟨hne, hdigits⟩, .inl rfl⟩
    | @pointed whole places hwhole hplaces hne =>
        by_cases hempty : whole = []
        · subst hempty
          exact .inr ⟨places, rfl, hne.resolve_left fun h => h rfl, hplaces⟩
        · exact .inl ⟨whole, _, rfl, ⟨hempty, hwhole⟩, .inr ⟨places, rfl, hplaces⟩⟩

/-! ### Numbers of level text -/

/-- The digits at the front of a text, and what follows them. -/
theorem exists_digits (cs : List Char) :
    ∃ whole rest, cs = whole ++ rest ∧ (∀ c ∈ whole, c.isDigit = true) ∧ ∀ c ∈ rest.head?, c.isDigit = false := by
  refine ⟨cs.takeWhile Char.isDigit, cs.dropWhile Char.isDigit, List.takeWhile_append_dropWhile.symm, ?_, ?_⟩
  · exact List.all_eq_true.mp List.all_takeWhile
  · intro c hc
    have hhead := List.head?_dropWhile_not Char.isDigit cs
    rw [Option.mem_def.mp hc] at hhead
    simpa using hhead

theorem takeWhile_digits {whole rest : List Char} (hwhole : ∀ c ∈ whole, c.isDigit = true)
    (hrest : ∀ c ∈ rest.head?, c.isDigit = false) : (whole ++ rest).takeWhile Char.isDigit = whole := by
  rw [List.takeWhile_append_of_pos hwhole]
  cases rest with
  | nil => rw [List.takeWhile_nil, List.append_nil]
  | cons c rest => rw [List.takeWhile_cons_of_neg (by simp [hrest c rfl]), List.append_nil]

theorem dropWhile_digits {whole rest : List Char} (hwhole : ∀ c ∈ whole, c.isDigit = true)
    (hrest : ∀ c ∈ rest.head?, c.isDigit = false) : (whole ++ rest).dropWhile Char.isDigit = rest := by
  rw [List.dropWhile_append_of_pos hwhole]
  cases rest with
  | nil => rfl
  | cons c rest => exact List.dropWhile_cons_of_neg (by simp [hrest c rfl])

theorem head_point {places : List Char} : ∀ c ∈ ('.' :: places).head?, c.isDigit = false := by
  rintro c ⟨⟩
  rfl

theorem isLevelNumber_iff_mantissa : isLevelNumber s = true ↔ Mantissa (splitSign s.toList).2 := by
  rw [isLevelNumber]
  generalize (splitSign s.toList).2 = cs
  constructor
  · obtain ⟨whole, rest, rfl, hwhole, hrest⟩ := exists_digits cs
    rw [dropWhile_digits hwhole hrest]
    intro h
    split at h
    · rw [List.append_nil] at h ⊢
      exact .whole (by simpa using h) hwhole
    · obtain ⟨hplaces, hsome⟩ := Bool.and_eq_true_iff.mp h
      refine .pointed hwhole (List.all_eq_true.mp hplaces) ?_
      cases whole with
      | nil => exact .inr (by simpa using hsome)
      | cons c whole => exact .inl (List.cons_ne_nil c whole)
    · cases h
  · intro h
    cases h with
    | whole hne hdigits =>
        rw [List.dropWhile_eq_nil_iff.mpr hdigits]
        simpa using hne
    | @pointed whole places hwhole hplaces hne =>
        rw [dropWhile_digits hwhole head_point]
        refine Bool.and_eq_true_iff.mpr ⟨List.all_eq_true.mpr hplaces, ?_⟩
        cases whole with
        | nil => simpa using hne
        | cons c whole => simp [hwhole c List.mem_cons_self]

/-- What level text admits as a number is what its pattern says. -/
theorem isLevelNumber_iff_matches : isLevelNumber s = true ↔ Matches levelNumeral s.toList := by
  rw [isLevelNumber_iff_mantissa, levelNumeral, matches_sign_mul (by decide), matches_levelMantissa]

/-! ### Numbers anywhere -/

theorem isSome_integer? : (integer? cs).isSome = true ↔ Matches (sign * digits) cs := by
  rw [matches_sign_mul (by decide), matches_digits, ← areDigits_eq_true_iff, integer?]
  dsimp only
  cases areDigits (splitSign cs).2 <;> simp

theorem isSome_exponent? : (exponent? cs).isSome = true ↔ Matches (optional exponent) cs := by
  rw [matches_optional, exponent, matches_oneOf_mul]
  cases cs with
  | nil => simp [exponent?]
  | cons c cs =>
      rw [exponent?]
      by_cases hc : c = 'e' ∨ c = 'E'
      · simp [hc, isSome_integer?]
      · simp [hc]

/-- Neither a digit nor a point can be taken for the beginning of an exponent. -/
theorem head_exponent (h : Matches (optional exponent) cs) : ∀ c ∈ cs.head?, c.isDigit = false ∧ c ≠ '.' := by
  intro c hc
  obtain ⟨tail, rfl⟩ := List.head?_eq_some_iff.mp hc
  have hbegins : begins (fun c => !c.isDigit && c != '.') (optional exponent) = true := by decide
  simpa using h.head_of_begins hbegins

theorem isSome_decimal?_whole {whole rest : List Char} (hwhole : ∀ c ∈ whole, c.isDigit = true)
    (hrest : ∀ c ∈ rest.head?, c.isDigit = false ∧ c ≠ '.') :
    (decimal? (whole ++ rest)).isSome = true ↔ whole ≠ [] ∧ (exponent? rest).isSome = true := by
  have hdigit : ∀ c ∈ rest.head?, c.isDigit = false := fun c hc => (hrest c hc).1
  rw [decimal?, takeWhile_digits hwhole hdigit, dropWhile_digits hwhole hdigit]
  split
  rename_i hsplit
  split at hsplit
  · exact absurd rfl (hrest '.' rfl).2
  · cases hsplit
    cases whole <;> simp

theorem isSome_decimal?_pointed {whole places rest : List Char} (hwhole : ∀ c ∈ whole, c.isDigit = true)
    (hplaces : ∀ c ∈ places, c.isDigit = true) (hrest : ∀ c ∈ rest.head?, c.isDigit = false) :
    (decimal? (whole ++ '.' :: (places ++ rest))).isSome = true ↔
      (whole ≠ [] ∨ places ≠ []) ∧ (exponent? rest).isSome = true := by
  simp only [decimal?, takeWhile_digits hwhole head_point, dropWhile_digits hwhole head_point,
    takeWhile_digits hplaces hrest, dropWhile_digits hplaces hrest]
  cases whole <;> cases places <;> simp

theorem isSome_decimal? : (decimal? cs).isSome = true ↔ Matches (mantissa * optional exponent) cs := by
  simp only [matches_mul (p := mantissa), matches_mantissa]
  constructor
  · obtain ⟨whole, rest, rfl, hwhole, hrest⟩ := exists_digits cs
    by_cases hpoint : ∃ more, rest = '.' :: more
    · obtain ⟨more, rfl⟩ := hpoint
      obtain ⟨places, last, rfl, hplaces, hlast⟩ := exists_digits more
      rw [isSome_decimal?_pointed hwhole hplaces hlast]
      rintro ⟨hne, hexponent⟩
      exact ⟨_, last, by simp, .pointed hwhole hplaces hne, isSome_exponent?.mp hexponent⟩
    · have hhead : ∀ c ∈ rest.head?, c.isDigit = false ∧ c ≠ '.' := by
        intro c hc
        refine ⟨hrest c hc, ?_⟩
        rintro rfl
        exact hpoint (List.head?_eq_some_iff.mp hc)
      rw [isSome_decimal?_whole hwhole hhead]
      rintro ⟨hne, hexponent⟩
      exact ⟨whole, rest, rfl, .whole hne hwhole, isSome_exponent?.mp hexponent⟩
  · rintro ⟨front, rest, rfl, hfront, hrest⟩
    have hexponent : (exponent? rest).isSome = true := isSome_exponent?.mpr hrest
    cases hfront with
    | whole hne hwhole => exact (isSome_decimal?_whole hwhole (head_exponent hrest)).mpr ⟨hne, hexponent⟩
    | pointed hwhole hplaces hne =>
        have hdigit : ∀ c ∈ rest.head?, c.isDigit = false := fun c hc => (head_exponent hrest c hc).1
        rw [List.append_assoc, List.cons_append]
        exact (isSome_decimal?_pointed hwhole hplaces hdigit).mpr ⟨hne, hexponent⟩

theorem isSome_wordValue? : (wordValue? cs).isSome = true ↔ Matches word cs := by
  simp only [word, matches_add, wordValue?]
  rw [matches_spelled (by decide), matches_spelled (by decide), matches_spelled (by decide)]
  generalize cs.map Char.toLower = lower
  split_ifs <;> simp_all

theorem isSome_number? : (number? s).isSome = true ↔ Matches numeral s.toList := by
  rw [numeral, matches_sign_mul (by decide), matches_add, ← isSome_wordValue?, ← isSome_decimal?, number?]
  simp

theorem exists_number?_iff : (∃ x, number? s = some x) ↔ Matches numeral s.toList := by
  rw [← Option.isSome_iff_exists, isSome_number?]

/-- Level text admits no number that would not be read anywhere else. -/
theorem numeral_of_levelNumeral (h : Matches levelNumeral cs) : Matches numeral cs := by
  rw [levelNumeral, matches_sign_mul (by decide), matches_levelMantissa] at h
  rw [numeral, matches_sign_mul (by decide)]
  refine matches_add.mpr (.inr (matches_mul.mpr ⟨_, [], (List.append_nil _).symm, matches_mantissa.mpr h, ?_⟩))
  exact matches_optional.mpr (.inl rfl)

theorem numeral_of_special (h : Matches special cs) : Matches numeral cs := by
  rw [special, matches_sign_mul (by decide)] at h
  rw [numeral, matches_sign_mul (by decide)]
  rcases matches_add.mp h with hword | hexponent
  · exact matches_add.mpr (.inl hword)
  · obtain ⟨front, rest, hcs, hfront, hrest⟩ := matches_mul.mp hexponent
    exact matches_add.mpr (.inr (matches_mul.mpr ⟨front, rest, hcs, hfront, matches_optional.mpr (.inr hrest)⟩))

end LevelPlay.Decimal
