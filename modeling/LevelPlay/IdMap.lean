/-! Finite maps keyed by integer ids. A map is its list of entries in strictly ascending order of id, so
two maps that answer every look-up alike are equal, and walking a map visits ids in ascending order. -/

namespace LevelPlay

universe u v

/-- A finite map from ids. -/
structure IdMap (α : Type u) where
  entries : List (Int × α)
  ascending : entries.Pairwise fun a b => a.1 < b.1

namespace IdMap

variable {α : Type u} {β : Type v}

/-! ### Entry lists -/

/-- Puts an entry into its place, over an entry of the same id. -/
def insertEntry (id : Int) (a : α) : List (Int × α) → List (Int × α)
  | [] => [(id, a)]
  | (other, b) :: rest =>
    if id < other then (id, a) :: (other, b) :: rest
    else if id = other then (id, a) :: rest
    else (other, b) :: insertEntry id a rest

theorem mem_insertEntry {id : Int} {a : α} {entry : Int × α} {entries : List (Int × α)}
    (h : entry ∈ insertEntry id a entries) : entry = (id, a) ∨ entry ∈ entries := by
  induction entries with
  | nil => simpa [insertEntry] using h
  | cons first rest ih =>
    obtain ⟨other, b⟩ := first
    rw [insertEntry] at h
    split at h
    · simpa using h
    · split at h
      · rcases List.mem_cons.1 h with h | h
        · exact .inl h
        · exact .inr (List.mem_cons_of_mem _ h)
      · rcases List.mem_cons.1 h with h | h
        · exact .inr (h ▸ List.mem_cons_self)
        · exact (ih h).imp_right (List.mem_cons_of_mem _)

theorem pairwise_insertEntry (id : Int) (a : α) {entries : List (Int × α)}
    (h : entries.Pairwise fun a b => a.1 < b.1) :
    (insertEntry id a entries).Pairwise fun a b => a.1 < b.1 := by
  induction entries with
  | nil => simp [insertEntry]
  | cons first rest ih =>
    obtain ⟨other, b⟩ := first
    have hTail := List.pairwise_cons.1 h
    rw [insertEntry]
    split
    · rename_i hLt
      refine List.pairwise_cons.2 ⟨fun entry hEntry => ?_, h⟩
      rcases List.mem_cons.1 hEntry with rfl | hEntry
      · exact hLt
      · exact Int.lt_trans hLt (hTail.1 entry hEntry)
    · split
      · rename_i hEq
        subst hEq
        exact List.pairwise_cons.2 ⟨hTail.1, hTail.2⟩
      · refine List.pairwise_cons.2 ⟨fun entry hEntry => ?_, ih hTail.2⟩
        rcases mem_insertEntry hEntry with rfl | hEntry
        · show other < id
          omega
        · exact hTail.1 entry hEntry

/-! ### Maps -/

def empty : IdMap α where
  entries := []
  ascending := .nil

instance : Inhabited (IdMap α) := ⟨empty⟩

def get? (m : IdMap α) (id : Int) : Option α :=
  m.entries.lookup id

def contains (m : IdMap α) (id : Int) : Bool :=
  (m.get? id).isSome

/-- The map with a value at an id, in place of the value there, if any. -/
def insert (m : IdMap α) (id : Int) (a : α) : IdMap α where
  entries := insertEntry id a m.entries
  ascending := pairwise_insertEntry id a m.ascending

def map (f : Int → α → β) (m : IdMap α) : IdMap β where
  entries := m.entries.map fun entry => (entry.1, f entry.1 entry.2)
  ascending := by
    rw [List.pairwise_map]
    exact m.ascending

def modify (m : IdMap α) (id : Int) (f : α → α) : IdMap α :=
  m.map fun other a => if other = id then f a else a

def erase (m : IdMap α) (id : Int) : IdMap α where
  entries := m.entries.filter fun entry => entry.1 != id
  ascending := m.ascending.filter _

/-- The map of a list of entries; of two with one id the later counts. -/
def ofList (entries : List (Int × α)) : IdMap α :=
  entries.foldl (fun m entry => m.insert entry.1 entry.2) empty

/-- The ids, in ascending order. -/
def ids (m : IdMap α) : List Int :=
  m.entries.map Prod.fst

/-- The values, in ascending order of their ids. -/
def values (m : IdMap α) : List α :=
  m.entries.map Prod.snd

/-- The ids whose values satisfy `p`, in ascending order. -/
def idsWhere (m : IdMap α) (p : α → Bool) : List Int :=
  (m.entries.filter fun entry => p entry.2).map Prod.fst

def size (m : IdMap α) : Nat :=
  m.entries.length

def isEmpty (m : IdMap α) : Bool :=
  m.entries.isEmpty

@[ext] theorem ext {m n : IdMap α} (h : m.entries = n.entries) : m = n := by
  cases m; cases n; cases h; rfl

end IdMap

end LevelPlay
