import Mathlib.Data.List.Nodup
import LevelPlay.Proofs.Result
import LevelPlay.Proofs.Text.Words
import LevelPlay.Segment

/-! Lines that declare segments. After its first word such a line has names in brackets, with commas between them;
what follows the brackets is passed over. A line can be wrong in three ways, and it cannot be wrong and list names as
well. A name is declared once, also where one line lists it twice. -/

namespace LevelPlay

namespace Segment

theorem isHeader_of_isEnd {line : Line} (h : isEnd line = true) : isHeader line = true := by
  have hwords : (Text.cut ' ' line).take 2 = [directive, "End"] := by simpa [isEnd] using h
  have hword := Text.head?_cut_space line
  cases hcut : Text.cut ' ' line with
  | nil =>
      rw [hcut] at hword
      cases hword
  | cons word words =>
      rw [hcut] at hwords hword
      have hfirst : word = directive := (List.cons.inj hwords).1
      rw [isHeader, ← Option.some.inj hword, hfirst]
      decide

/-- What stands on a segment line after its first word. -/
def listing (line : Line) : List Char :=
  Text.dropBlanks (line.toList.drop directive.length)

/-- The line has these texts in brackets, with commas between them, and then anything. -/
structure Bracketed (line : Line) (parts : List (List Char)) : Prop where
  listing_eq : ∃ rest, listing line = '[' :: ([','].intercalate parts ++ ']' :: rest)
  closes : ']' ∉ [','].intercalate parts
  commas : ∀ part ∈ parts, ',' ∉ part
  ne_nil : parts ≠ []

/-- The line lists these names: the texts in its brackets, each trimmed, of which none comes to nothing. -/
def Lists (line : Line) (names : List String) : Prop :=
  ∃ parts, Bracketed line parts ∧ (∀ part ∈ parts, Text.trimBlanks part ≠ []) ∧
    names = parts.map fun part => String.ofList (Text.trimBlanks part)

/-- What is wrong with a line that should list names. -/
inductive Malformed (line : Line) : SegmentError → Prop where
  | noBracket (hlisting : (listing line).head? ≠ some '[') : Malformed line (.noBracket line)
  | unclosedBracket {inside : List Char} (hlisting : listing line = '[' :: inside) (hinside : ']' ∉ inside) :
      Malformed line (.unclosedBracket line)
  | emptyName {parts : List (List Char)} (hparts : Bracketed line parts) {part : List Char} (hpart : part ∈ parts)
      (hempty : Text.trimBlanks part = []) : Malformed line (.emptyName line)

/-- A line lacks the bracket, or the bracket is not closed, or it has texts in brackets. -/
theorem listing_cases (line : Line) :
    (listing line).head? ≠ some '[' ∨ (∃ inside, listing line = '[' :: inside ∧ ']' ∉ inside) ∨
      ∃ parts, Bracketed line parts := by
  by_cases hhead : (listing line).head? = some '['
  · obtain ⟨inside, hlisting⟩ := List.head?_eq_some_iff.mp hhead
    by_cases hinside : ']' ∈ inside
    · obtain ⟨before, rest, rfl, hbefore⟩ := List.eq_append_cons_of_mem hinside
      obtain ⟨hne, hcommas, hjoin⟩ := Text.pieces_separator_eq_iff.mp (rfl : Text.pieces (· == ',') before = _)
      exact .inr (.inr ⟨_, ⟨rest, by rw [hjoin, hlisting]⟩, by rwa [hjoin], hcommas, hne⟩)
    · exact .inr (.inl ⟨inside, hlisting, hinside⟩)
  · exact .inl hhead

theorem names_of_head?_ne {line : Line} (h : (listing line).head? ≠ some '[') :
    names line = .error (.noBracket line) := by
  rw [names, ← listing]
  split
  · rename_i inside hlisting
    exact absurd (by rw [hlisting, List.head?_cons]) h
  · rfl

theorem names_of_unclosed {line : Line} {inside : List Char} (h : listing line = '[' :: inside)
    (hinside : ']' ∉ inside) : names line = .error (.unclosedBracket line) := by
  rw [names, ← listing, h]
  exact if_neg hinside

theorem names_of_bracketed {line : Line} {parts : List (List Char)} (h : Bracketed line parts) :
    names line =
      if (parts.map Text.trimBlanks).any (·.isEmpty) then .error (.emptyName line)
      else .ok ((parts.map Text.trimBlanks).map String.ofList) := by
  obtain ⟨rest, hlisting⟩ := h.listing_eq
  have hclosed : ']' ∈ [','].intercalate parts ++ ']' :: rest := by simp
  have hinside : ([','].intercalate parts ++ ']' :: rest).takeWhile (· != ']') = [','].intercalate parts := by
    have hbefore : ∀ c ∈ [','].intercalate parts, (c != ']') = true := by
      rintro c hc
      rw [bne_iff_ne]
      rintro rfl
      exact h.closes hc
    rw [List.takeWhile_append_of_pos hbefore, List.takeWhile_cons_of_neg (by simp), List.append_nil]
  have hparts : Text.pieces (· == ',') ([','].intercalate parts) = parts :=
    Text.pieces_separator_eq_iff.mpr ⟨h.ne_nil, h.commas, rfl⟩
  rw [names, ← listing, hlisting]
  exact (if_pos hclosed).trans (by rw [hinside, hparts])

theorem names_eq_ok_iff {line : Line} {listed : List String} : names line = .ok listed ↔ Lists line listed := by
  constructor
  · intro h
    rcases listing_cases line with hhead | ⟨inside, hlisting, hinside⟩ | ⟨parts, hparts⟩
    · cases (names_of_head?_ne hhead).symm.trans h
    · cases (names_of_unclosed hlisting hinside).symm.trans h
    · rw [names_of_bracketed hparts] at h
      split at h
      · cases h
      · rename_i hnames
        cases h
        exact ⟨parts, hparts, by simpa using hnames, by simp⟩
  · rintro ⟨parts, hparts, hnames, rfl⟩
    rw [names_of_bracketed hparts, if_neg (by simpa using hnames)]
    simp

theorem names_eq_error_iff {line : Line} {e : SegmentError} : names line = .error e ↔ Malformed line e := by
  constructor
  · intro h
    rcases listing_cases line with hhead | ⟨inside, hlisting, hinside⟩ | ⟨parts, hparts⟩
    · cases (names_of_head?_ne hhead).symm.trans h
      exact .noBracket hhead
    · cases (names_of_unclosed hlisting hinside).symm.trans h
      exact .unclosedBracket hlisting hinside
    · rw [names_of_bracketed hparts] at h
      split at h
      · rename_i hnames
        cases h
        obtain ⟨part, hpart, hempty⟩ : ∃ part ∈ parts, Text.trimBlanks part = [] := by simpa using hnames
        exact .emptyName hparts hpart hempty
      · cases h
  · intro h
    cases h with
    | noBracket hhead => exact names_of_head?_ne hhead
    | unclosedBracket hlisting hinside => exact names_of_unclosed hlisting hinside
    | emptyName hparts hpart hempty =>
        rw [names_of_bracketed hparts]
        exact if_pos (by simpa using ⟨_, hpart, hempty⟩)

theorem Lists.det {line : Line} {listed others : List String} (h : Lists line listed) (h' : Lists line others) :
    others = listed :=
  Except.ok.inj ((names_eq_ok_iff.mpr h').symm.trans (names_eq_ok_iff.mpr h))

/-- A line that lists names is not malformed. -/
theorem Lists.not_malformed {line : Line} {listed : List String} (h : Lists line listed) (e : SegmentError) :
    ¬Malformed line e := fun h' => nomatch (names_eq_ok_iff.mpr h).symm.trans (names_eq_error_iff.mpr h')

end Segment

namespace SegmentIndex

def names (index : SegmentIndex) : List String :=
  index.entries.map Prod.fst

theorem names_append (index : SegmentIndex) (number : Nat) (declared : List String) :
    names ⟨index.entries ++ declared.map fun name => (name, number)⟩ = index.names ++ declared := by
  simp [names, Function.comp_def]

theorem contains_iff {index : SegmentIndex} {name : String} :
    index.contains name = true ↔ name ∈ index.names := by
  rw [contains, get?, names, Option.isSome_iff_ne_none, ne_eq, List.lookup_eq_none_iff]
  simp only [bne_iff_ne, ne_eq, not_forall, not_not, exists_prop, List.mem_map, eq_comm (a := name)]

theorem get?_eq_some_iff {index : SegmentIndex} (hnodup : index.names.Nodup) {name : String} {number : Nat} :
    index.get? name = some number ↔ (name, number) ∈ index.entries := by
  rw [get?, List.lookup_eq_some_iff]
  constructor
  · rintro ⟨before, after, hentries, -⟩
    rw [hentries]
    exact List.mem_append_right before List.mem_cons_self
  · intro hmem
    obtain ⟨before, after, hentries⟩ := List.append_of_mem hmem
    refine ⟨before, after, hentries, fun entry hentry => ?_⟩
    rw [names, hentries, List.map_append, List.nodup_append] at hnodup
    have hne := hnodup.2.2 entry.1 (List.mem_map_of_mem hentry) name List.mem_cons_self
    simpa using hne.symm

theorem names_append_singleton (index : SegmentIndex) (number : Nat) (name : String) :
    names ⟨index.entries ++ [(name, number)]⟩ = index.names ++ [name] :=
  names_append index number [name]

theorem nodup_append_singleton {index : SegmentIndex} (hnodup : index.names.Nodup) {name : String}
    (hfresh : index.contains name = false) : (index.names ++ [name]).Nodup := by
  have hnew : name ∉ index.names := fun h => by simp [contains_iff.mpr h] at hfresh
  rw [List.nodup_append]
  refine ⟨hnodup, List.nodup_singleton name, ?_⟩
  intro other hother name' hname' hsame
  rw [hsame, List.mem_singleton.mp hname'] at hother
  exact hnew hother

/-- Names are declared on a line when none of them is declared already, on the line or before it. -/
theorem declare_eq_ok_iff {index result : SegmentIndex} (hnodup : index.names.Nodup) {number : Nat}
    {names : List String} :
    index.declare number names = .ok result ↔
      (index.names ++ names).Nodup ∧ result = ⟨index.entries ++ names.map fun name => (name, number)⟩ := by
  induction names generalizing index with
  | nil => simp [declare, hnodup, eq_comm]
  | cons name rest ih =>
      rw [declare]
      cases hcontains : index.contains name with
      | true =>
          have hmem : name ∈ index.names := contains_iff.mp hcontains
          simp only [if_true, reduceCtorEq, false_iff, not_and]
          intro h
          exact absurd rfl ((List.nodup_append.mp h).2.2 name hmem name List.mem_cons_self)
      | false =>
          have hnames := names_append_singleton index number name
          rw [if_neg Bool.false_ne_true, ih (hnames ▸ nodup_append_singleton hnodup hcontains), hnames]
          simp

/-- They are not declared if one of them is. The first such name is the one that is found. -/
theorem declare_eq_error_iff {index : SegmentIndex} (hnodup : index.names.Nodup) {number : Nat} {names : List String}
    {e : SegmentError} :
    index.declare number names = .error e ↔
      ∃ front name back, names = front ++ name :: back ∧ (index.names ++ front).Nodup ∧
        name ∈ index.names ++ front ∧ e = .repeatedName name := by
  induction names generalizing index with
  | nil => simp [declare]
  | cons first rest ih =>
      rw [declare]
      cases hcontains : index.contains first with
      | true =>
          have hmem : first ∈ index.names := contains_iff.mp hcontains
          rw [if_pos rfl]
          constructor
          · rintro ⟨⟩
            exact ⟨[], first, rest, rfl, by rwa [List.append_nil], by rwa [List.append_nil], rfl⟩
          · rintro ⟨front, name, back, hnames, hfront, -, rfl⟩
            cases front with
            | nil =>
                cases hnames
                rfl
            | cons other front =>
                cases hnames
                exact absurd rfl ((List.nodup_append.mp hfront).2.2 first hmem first List.mem_cons_self)
      | false =>
          have hnames := names_append_singleton index number first
          rw [if_neg Bool.false_ne_true, ih (hnames ▸ nodup_append_singleton hnodup hcontains), hnames]
          constructor
          · rintro ⟨front, name, back, rfl, hfront, hname, rfl⟩
            rw [List.append_assoc, List.singleton_append] at hfront hname
            exact ⟨first :: front, name, back, rfl, hfront, hname, rfl⟩
          · rintro ⟨front, name, back, hsplit, hfront, hname, rfl⟩
            cases front with
            | nil =>
                cases hsplit
                rw [List.append_nil, ← contains_iff, hcontains] at hname
                cases hname
            | cons other front =>
                cases hsplit
                rw [List.append_cons] at hfront hname
                exact ⟨front, name, back, rfl, hfront, hname, rfl⟩

end SegmentIndex

end LevelPlay
