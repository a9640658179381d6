import LevelPlay.Line

/-! Macro tables: names with the texts they stand for. A name is given a text once; a later text for it is
refused, so the table only ever grows. -/

namespace LevelPlay

/-- One piece of a tokenized line. -/
abbrev Token := String

/-- Macro names and their bodies, in the order of definition, each name once. -/
structure MacroTable where
  entries : List (Token × String)
  nodup : (entries.map Prod.fst).Nodup

namespace MacroTable

def empty : MacroTable where
  entries := []
  nodup := List.nodup_nil

instance : Inhabited MacroTable := ⟨empty⟩

def get? (table : MacroTable) (name : Token) : Option String :=
  table.entries.lookup name

def contains (table : MacroTable) (name : Token) : Bool :=
  decide (name ∈ table.entries.map Prod.fst)

/-- The table with one more macro; nothing if the name is taken. -/
def define? (table : MacroTable) (name : Token) (body : String) : Option MacroTable :=
  if h : name ∈ table.entries.map Prod.fst then none
  else some
    { entries := table.entries ++ [(name, body)]
      nodup := by
        rw [List.map_append, List.nodup_append]
        refine ⟨table.nodup, by simp, ?_⟩
        intro taken hTaken new hNew
        have hEq : new = name := by simpa using hNew
        exact fun e => h (hEq ▸ e ▸ hTaken) }

def size (table : MacroTable) : Nat :=
  table.entries.length

/-- The entries in ascending order of their names, by code point. -/
def sorted (table : MacroTable) : List (Token × String) :=
  table.entries.mergeSort fun a b => decide (a.1 ≤ b.1)

/-- The text a token stands for: the body of a macro, itself otherwise. -/
def expansion (table : MacroTable) (token : Token) : String :=
  (table.get? token).getD token

variable {table larger : MacroTable} {name other : Token} {body : String}

theorem define?_eq_none_iff : table.define? name body = none ↔ table.contains name = true := by
  by_cases h : name ∈ table.entries.map Prod.fst <;> simp [define?, contains, h]

theorem get?_define? (h : table.define? name body = some larger) :
    larger.get? other = (table.get? other).or (if other = name then some body else none) := by
  rw [define?] at h
  split at h
  · cases h
  · cases h
    rw [get?, get?, List.lookup_append]
    by_cases hEq : other = name
    · simp [hEq]
    · rw [if_neg hEq, List.lookup_cons, show (other == name) = false from beq_eq_false_iff_ne.2 hEq]
      rfl

theorem get?_eq_none_iff : table.get? name = none ↔ table.contains name = false := by
  rw [get?, List.lookup_eq_none_iff, contains, decide_eq_false_iff_not, List.mem_map]
  constructor
  · rintro h ⟨entry, hentry, rfl⟩
    simpa using h entry hentry
  · intro h entry hentry
    rw [bne_iff_ne]
    rintro rfl
    exact h ⟨entry, hentry, rfl⟩

theorem contains_eq_isSome : table.contains name = (table.get? name).isSome := by
  cases hget : table.get? name with
  | none => exact get?_eq_none_iff.mp hget
  | some body =>
      cases hcontains : table.contains name with
      | true => rfl
      | false => cases hget.symm.trans (get?_eq_none_iff.mpr hcontains)

theorem contains_define? (h : table.define? name body = some larger) :
    larger.contains other = true ↔ table.contains other = true ∨ other = name := by
  rw [contains_eq_isSome, contains_eq_isSome, get?_define? h, Option.isSome_or, Bool.or_eq_true]
  by_cases hname : other = name <;> simp [hname]

theorem get?_define?_self (h : table.define? name body = some larger) : larger.get? name = some body := by
  have hfree : table.contains name = false := by
    rw [← Bool.not_eq_true, ← define?_eq_none_iff, h]
    exact Option.some_ne_none larger
  rw [get?_define? h, get?_eq_none_iff.mpr hfree, if_pos rfl, Option.none_or]

/-- What is a macro already keeps its body. -/
theorem get?_define?_of_contains (h : table.define? name body = some larger) (hother : table.contains other = true) :
    larger.get? other = table.get? other := by
  rw [contains_eq_isSome] at hother
  rw [get?_define? h, Option.or_of_isSome hother]

@[ext] theorem ext {a b : MacroTable} (h : a.entries = b.entries) : a = b := by
  cases a; cases b; cases h; rfl

end MacroTable

end LevelPlay
