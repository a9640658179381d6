import LevelPlay.IdMap

/-! Looking up in maps by id. Each operation is described by what it does to look-ups, and a map is determined
by its look-ups. -/

namespace LevelPlay.IdMap

universe u v

variable {α : Type u} {β : Type v}

/-! ### Entry lists -/

theorem lookup_cons_eq_ite (id key : Int) (a : α) (rest : List (Int × α)) :
    List.lookup id ((key, a) :: rest) = if id = key then some a else rest.lookup id := by
  rw [List.lookup_cons]
  by_cases h : id = key
  · simp [h]
  · rw [show (id == key) = false from beq_eq_false_iff_ne.2 h, if_neg h]

theorem lookup_insertEntry (id other : Int) (a : α) (entries : List (Int × α)) :
    (insertEntry id a entries).lookup other = if other = id then some a else entries.lookup other := by
  induction entries with
  | nil => rw [insertEntry, lookup_cons_eq_ite]
  | cons first rest ih =>
    obtain ⟨key, b⟩ := first
    rw [insertEntry]
    split
    · rw [lookup_cons_eq_ite]
    · split
      · rename_i hEq
        subst hEq
        rw [lookup_cons_eq_ite, lookup_cons_eq_ite]
        split <;> rfl
      · rename_i hNe
        rw [lookup_cons_eq_ite, lookup_cons_eq_ite, ih]
        by_cases h : other = key
        · have hNe' : other ≠ id := fun e => hNe (e.symm.trans h)
          rw [if_pos h, if_neg hNe', if_pos h]
        · rw [if_neg h, if_neg h]

theorem lookup_map (f : Int → α → β) (id : Int) (entries : List (Int × α)) :
    (entries.map fun entry => (entry.1, f entry.1 entry.2)).lookup id = (entries.lookup id).map (f id) := by
  induction entries with
  | nil => rfl
  | cons first rest ih =>
    obtain ⟨key, a⟩ := first
    rw [List.map_cons, lookup_cons_eq_ite, lookup_cons_eq_ite, ih]
    split
    · rename_i h
      rw [h, Option.map_some]
    · rfl

theorem lookup_filter_ne (id other : Int) (entries : List (Int × α)) :
    (entries.filter fun entry => entry.1 != id).lookup other = if other = id then none else entries.lookup other := by
  induction entries with
  | nil => simp
  | cons first rest ih =>
    obtain ⟨key, a⟩ := first
    by_cases hKey : key = id
    · rw [List.filter_cons_of_neg (by simp [hKey]), ih, lookup_cons_eq_ite, hKey]
      split <;> rfl
    · rw [List.filter_cons_of_pos (by simp [hKey]), lookup_cons_eq_ite, lookup_cons_eq_ite, ih]
      by_cases hOther : other = key
      · rw [if_pos hOther, if_neg (hOther ▸ hKey), if_pos hOther]
      · rw [if_neg hOther, if_neg hOther]

theorem lookup_eq_some_of_mem {entries : List (Int × α)} (h : entries.Pairwise fun a b => a.1 < b.1)
    {id : Int} {a : α} (hMem : (id, a) ∈ entries) : entries.lookup id = some a := by
  induction entries with
  | nil => cases hMem
  | cons first rest ih =>
    obtain ⟨key, b⟩ := first
    have hTail := List.pairwise_cons.1 h
    rw [lookup_cons_eq_ite]
    rcases List.mem_cons.1 hMem with hEq | hRest
    · cases hEq
      rw [if_pos rfl]
    · have hLt : key < id := hTail.1 _ hRest
      rw [if_neg (by omega)]
      exact ih hTail.2 hRest

theorem mem_of_lookup_eq_some {entries : List (Int × α)} {id : Int} {a : α}
    (h : entries.lookup id = some a) : (id, a) ∈ entries := by
  induction entries with
  | nil => cases h
  | cons first rest ih =>
    obtain ⟨key, b⟩ := first
    rw [lookup_cons_eq_ite] at h
    split at h
    · rename_i hEq
      cases h
      rw [hEq]
      exact List.mem_cons_self
    · exact List.mem_cons_of_mem _ (ih h)

/-- An entry under a new id is put between the others, which stay as they are. -/
theorem perm_insertEntry {id : Int} (a : α) {entries : List (Int × α)} (h : entries.lookup id = none) :
    (insertEntry id a entries).Perm ((id, a) :: entries) := by
  induction entries with
  | nil => exact .refl _
  | cons first rest ih =>
    obtain ⟨key, b⟩ := first
    rw [lookup_cons_eq_ite] at h
    rw [insertEntry]
    split
    · exact .refl _
    · split
      · rename_i hEq
        rw [if_pos hEq] at h
        cases h
      · rename_i hNe
        rw [if_neg hNe] at h
        exact ((ih h).cons (key, b)).trans (.swap (id, a) (key, b) rest)

/-! ### Maps -/

@[simp] theorem get?_empty (id : Int) : (empty : IdMap α).get? id = none := rfl

@[simp] theorem get?_insert (m : IdMap α) (id other : Int) (a : α) :
    (m.insert id a).get? other = if other = id then some a else m.get? other :=
  lookup_insertEntry id other a m.entries

@[simp] theorem get?_map (f : Int → α → β) (m : IdMap α) (id : Int) :
    (m.map f).get? id = (m.get? id).map (f id) :=
  lookup_map f id m.entries

@[simp] theorem get?_modify (m : IdMap α) (id other : Int) (f : α → α) :
    (m.modify id f).get? other = if other = id then (m.get? other).map f else m.get? other := by
  rw [modify, get?_map]
  by_cases h : other = id
  · simp [h]
  · simp only [h, if_false]
    cases m.get? other <;> rfl

@[simp] theorem get?_erase (m : IdMap α) (id other : Int) :
    (m.erase id).get? other = if other = id then none else m.get? other :=
  lookup_filter_ne id other m.entries

theorem mem_entries_iff (m : IdMap α) {id : Int} {a : α} : (id, a) ∈ m.entries ↔ m.get? id = some a :=
  ⟨lookup_eq_some_of_mem m.ascending, mem_of_lookup_eq_some⟩

theorem perm_entries_insert {m : IdMap α} {id : Int} (a : α) (h : m.contains id = false) :
    (m.insert id a).entries.Perm ((id, a) :: m.entries) :=
  perm_insertEntry a (Option.isSome_eq_false_iff.1 h |> Option.isNone_iff_eq_none.1)

@[simp] theorem ids_map (f : Int → α → β) (m : IdMap α) : (m.map f).ids = m.ids := by
  simp [ids, map]

@[simp] theorem ids_modify (m : IdMap α) (id : Int) (f : α → α) : (m.modify id f).ids = m.ids :=
  ids_map _ m

theorem mem_idsWhere_iff (m : IdMap α) (p : α → Bool) {id : Int} :
    id ∈ m.idsWhere p ↔ (m.get? id).any p = true := by
  constructor
  · intro h
    obtain ⟨⟨key, a⟩, hEntry, rfl⟩ := List.mem_map.1 h
    obtain ⟨hMem, hp⟩ := List.mem_filter.1 hEntry
    rw [(m.mem_entries_iff).1 hMem]
    exact hp
  · intro h
    cases hGet : m.get? id with
    | none => rw [hGet] at h; cases h
    | some a =>
      rw [hGet] at h
      exact List.mem_map.2 ⟨(id, a), List.mem_filter.2 ⟨m.mem_entries_iff.2 hGet, h⟩, rfl⟩

/-- The ids with a property are the same without an id that lacks it. -/
theorem idsWhere_erase {m : IdMap α} {p : α → Bool} {id : Int} (h : (m.get? id).any p = false) :
    (m.erase id).idsWhere p = m.idsWhere p := by
  unfold idsWhere erase
  dsimp only
  rw [List.filter_filter]
  congr 1
  apply List.filter_congr
  rintro ⟨key, a⟩ hMem
  by_cases hKey : key = id
  · subst hKey
    rw [m.mem_entries_iff.1 hMem, Option.any_some] at h
    simp [h]
  · simp [hKey]

/-- Maps that answer every look-up alike are equal. -/
theorem ext_get? {m n : IdMap α} (h : ∀ id, m.get? id = n.get? id) : m = n := by
  have hMem : ∀ entry : Int × α, entry ∈ m.entries ↔ entry ∈ n.entries := by
    intro entry
    rw [show entry = (entry.1, entry.2) from rfl, m.mem_entries_iff, n.mem_entries_iff, h]
  apply IdMap.ext
  have aux : ∀ {xs ys : List (Int × α)}, xs.Pairwise (fun a b => a.1 < b.1) →
      ys.Pairwise (fun a b => a.1 < b.1) → (∀ entry, entry ∈ xs ↔ entry ∈ ys) → xs = ys := by
    intro xs
    induction xs with
    | nil =>
      intro ys _ _ hEq
      cases ys with
      | nil => rfl
      | cons y ys => exact absurd ((hEq y).2 List.mem_cons_self) (by simp)
    | cons x xs ih =>
      intro ys hx hy hEq
      cases ys with
      | nil => exact absurd ((hEq x).1 List.mem_cons_self) (by simp)
      | cons y ys =>
        have hx' := List.pairwise_cons.1 hx
        have hy' := List.pairwise_cons.1 hy
        have hHead : x = y := by
          rcases List.mem_cons.1 ((hEq x).1 List.mem_cons_self) with e | hIn
          · exact e
          · rcases List.mem_cons.1 ((hEq y).2 List.mem_cons_self) with e | hIn'
            · exact e.symm
            · have := hy'.1 x hIn
              have := hx'.1 y hIn'
              omega
        subst hHead
        congr 1
        refine ih hx'.2 hy'.2 fun entry => ?_
        constructor
        · intro hIn
          rcases List.mem_cons.1 ((hEq entry).1 (List.mem_cons_of_mem _ hIn)) with e | hOut
          · have := hx'.1 entry hIn
            rw [e] at this
            omega
          · exact hOut
        · intro hIn
          rcases List.mem_cons.1 ((hEq entry).2 (List.mem_cons_of_mem _ hIn)) with e | hOut
          · have := hy'.1 entry hIn
            rw [e] at this
            omega
          · exact hOut
  exact aux m.ascending n.ascending hMem

/-- Changes at different ids may be made in either order. -/
theorem modify_comm (m : IdMap α) {id other : Int} (h : other ≠ id) (f g : α → α) :
    (m.modify id f).modify other g = (m.modify other g).modify id f := by
  apply ext_get?
  intro key
  simp only [get?_modify]
  by_cases hKey : key = other
  · rw [if_pos hKey, if_neg (hKey ▸ h), if_neg (hKey ▸ h), if_pos hKey]
  · rw [if_neg hKey, if_neg hKey]

theorem erase_modify (m : IdMap α) (id other : Int) (f : α → α) :
    (m.modify other f).erase id = (m.erase id).modify other f := by
  apply ext_get?
  intro key
  rw [get?_erase, get?_modify, get?_modify, get?_erase]
  by_cases hKey : key = id
  · rw [if_pos hKey, if_pos hKey, Option.map_none, ite_self]
  · rw [if_neg hKey, if_neg hKey]

end LevelPlay.IdMap
