import Mathlib.Data.List.Induction
import Mathlib.Data.List.Nodup
import Mathlib.Data.List.Pairwise
import LevelPlay.Value.Autofield

/-! Runs of calls that build an autofield. A call adds a tag or inserts a value, and a value is handed back if one of
its kind is there. What a run makes of an empty autofield is told by the calls alone: the tags are those that were
added, the value of a kind is the first that was inserted, and the values stand in the order in which their kinds came
up. -/

namespace LevelPlay.Autofield

inductive Call
  | addTag (tag : Tag)
  | insert (value : Value)

/-- The value that a call inserts, accepted or not. -/
def Call.value? : Call → Option Value
  | addTag _ => none
  | insert value => some value

/-- Inserts a value in place, or hands it back. What has been changed by then stays changed. -/
def insertInPlace (value : Value) : ExceptT Value (StateM Autofield) Unit := do
  if ((← get).get? value.kind).isSome then throw value
  modify fun a => { a with fields := a.fields ++ [value] }

/-- The autofield after a call, and what the call hands back: the value, if it is not inserted. -/
def call (a : Autofield) : Call → Autofield × Option Value
  | .addTag tag => (a.addTag tag, none)
  | .insert value =>
    match (insertInPlace value).run.run a with
    | (.ok (), after) => (after, none)
    | (.error rejected, after) => (after, some rejected)

/-- What a run of calls makes of an empty autofield. -/
def built (calls : List Call) : Autofield :=
  calls.foldl (fun a c => (a.call c).1) empty

/-- The values that are inserted in a run, accepted or not. -/
def inserted (calls : List Call) : List Value :=
  calls.filterMap Call.value?

/-- The position of the first call that inserts a value of a kind, which is the one that is accepted. -/
def firstInsert (calls : List Call) (kind : Kind) : Nat :=
  calls.findIdx fun c => c.value?.any fun v => v.kind == kind

theorem built_append_singleton (calls : List Call) (c : Call) :
    built (calls ++ [c]) = ((built calls).call c).1 := by
  rw [built, List.foldl_append]
  rfl

theorem inserted_append_insert (calls : List Call) (v : Value) :
    inserted (calls ++ [.insert v]) = inserted calls ++ [v] :=
  List.filterMap_append

theorem inserted_append_addTag (calls : List Call) (tag : Tag) :
    inserted (calls ++ [.addTag tag]) = inserted calls := by
  rw [inserted, List.filterMap_append]
  exact List.append_nil _

variable {a : Autofield} {calls : List Call} {c : Call} {kind : Kind} {v : Value}

/-! ### The value of a kind -/

theorem kind_of_get? (h : a.get? kind = some v) : v.kind = kind := by
  simpa using List.find?_some h

theorem isSome_get?_iff : (a.get? kind).isSome = true ↔ ∃ v ∈ a.fields, v.kind = kind := by
  simp [get?, List.find?_isSome]

/-- Where no two values are of one kind, the value of a kind is the one that is of it. -/
theorem get?_eq_some_iff (hkinds : (a.fields.map Value.kind).Nodup) :
    a.get? kind = some v ↔ v ∈ a.fields ∧ v.kind = kind := by
  constructor
  · intro h
    exact ⟨List.mem_of_find?_eq_some h, kind_of_get? h⟩
  · rintro ⟨hmem, rfl⟩
    obtain ⟨w, hw⟩ := Option.isSome_iff_exists.mp (isSome_get?_iff.mpr ⟨v, hmem, rfl⟩)
    rw [hw, List.inj_on_of_nodup_map hkinds (List.mem_of_find?_eq_some hw) hmem (kind_of_get? hw)]

/-- If all values of a kind are made the same way of what they hold, a getter that takes them apart gets what the value
of the kind holds, and nothing only if there is none. -/
theorem get?_eq_map {α : Type} {make : α → Value} {getter : Autofield → Option α}
    (hmake : ∀ v : Value, v.kind = kind → ∃ x, v = make x)
    (hsome : ∀ {a x}, a.get? kind = some (make x) → getter a = some x)
    (hnone : ∀ {a}, a.get? kind = none → getter a = none) (a : Autofield) :
    a.get? kind = (getter a).map make := by
  cases h : a.get? kind with
  | none =>
      rw [hnone h]
      rfl
  | some v =>
      obtain ⟨x, rfl⟩ := hmake v (kind_of_get? h)
      rw [hsome h]
      rfl

/-- Each getter gets what the value of its kind holds, and nothing only if there is none. -/
theorem get?_eq_map_getter (a : Autofield) :
    a.get? .number = a.number?.map .number ∧ a.get? .identifier = a.identifier?.map .identifier ∧
      a.get? .vector = a.vector?.map .vector ∧ a.get? .intVector = a.intVector?.map .intVector ∧
      a.get? .rotation = a.rotation?.map .rotation := by
  refine ⟨?_, ?_, ?_, ?_, ?_⟩
  all_goals
    refine get?_eq_map (fun v hkind => ?_) (fun h => ?_) (fun h => ?_) a
    · cases v <;> cases hkind
      exact ⟨_, rfl⟩
    · simp only [number?, identifier?, vector?, intVector?, rotation?, h]
    · simp only [number?, identifier?, vector?, intVector?, rotation?, h]

/-! ### One call -/

/-- To insert a value in place is to insert it, and where it is handed back nothing has changed. -/
theorem insertInPlace_run (a : Autofield) (v : Value) :
    (insertInPlace v).run.run a =
      match a.insert? v with
      | some larger => (.ok (), larger)
      | none => (.error v, a) := by
  show StateT.run (ExceptT.run (if (a.get? v.kind).isSome then _ else _)) a = _
  rw [insert?]
  by_cases h : (a.get? v.kind).isSome = true
  · rw [if_pos h, if_pos h]
    rfl
  · rw [if_neg h, if_neg h]
    rfl

theorem call_insert_of_present (h : (a.get? v.kind).isSome = true) : a.call (.insert v) = (a, some v) := by
  rw [call, insertInPlace_run, insert?_eq_none_iff.mpr h]

theorem call_insert_of_absent (h : a.get? v.kind = none) :
    a.call (.insert v) = ({ a with fields := a.fields ++ [v] }, none) := by
  rw [call, insertInPlace_run, insert?, if_neg (by simp [h])]

/-- A value is handed back, and nothing changes, exactly where there is one of its kind. -/
theorem call_insert_eq_rejected_iff :
    a.call (.insert v) = (a, some v) ↔ (a.get? v.kind).isSome = true := by
  refine ⟨fun h => ?_, call_insert_of_present⟩
  by_contra hnone
  rw [call_insert_of_absent (by simpa using hnone)] at h
  cases (Prod.mk.inj h).2

/-- A value is put behind the others, and nothing is handed back, exactly where there is none of its kind. -/
theorem call_insert_eq_accepted_iff :
    a.call (.insert v) = ({ a with fields := a.fields ++ [v] }, none) ↔ a.get? v.kind = none := by
  refine ⟨fun h => ?_, call_insert_of_absent⟩
  by_contra hsome
  rw [call_insert_of_present (Option.isSome_iff_ne_none.mpr hsome)] at h
  cases (Prod.mk.inj h).2

/-! ### Runs -/

theorem firstInsert_lt_length_iff :
    firstInsert calls kind < calls.length ↔ ∃ v ∈ inserted calls, v.kind = kind := by
  simp only [firstInsert, List.findIdx_lt_length, Option.any_eq_true, beq_iff_eq, inserted, List.mem_filterMap]
  constructor
  · rintro ⟨c, hc, v, hv, hkind⟩
    exact ⟨v, ⟨c, hc, hv⟩, hkind⟩
  · rintro ⟨v, ⟨c, hc, hv⟩, hkind⟩
    exact ⟨c, hc, v, hv, hkind⟩

/-- A further call is no first insert of a kind that has come up. -/
theorem firstInsert_append (h : ∃ v ∈ inserted calls, v.kind = kind) (c : Call) :
    firstInsert (calls ++ [c]) kind = firstInsert calls kind := by
  have hlt := firstInsert_lt_length_iff.mpr h
  rw [firstInsert] at hlt ⊢
  rw [List.findIdx_append, if_pos hlt]
  rfl

/-- The insert of a value of a kind that has not come up is the first of this kind. -/
theorem firstInsert_append_insert (h : ¬∃ w ∈ inserted calls, w.kind = v.kind) :
    firstInsert (calls ++ [.insert v]) v.kind = calls.length := by
  have hlt := mt firstInsert_lt_length_iff.mp h
  rw [firstInsert] at hlt ⊢
  rw [List.findIdx_append, if_neg hlt]
  simp [Call.value?]

/-- What the calls of a run say about the autofield that they make. -/
structure Represents (calls : List Call) (a : Autofield) : Prop where
  hasTag : ∀ tag, a.hasTag tag = true ↔ .addTag tag ∈ calls
  get? : ∀ kind, a.get? kind = (inserted calls).find? fun v => v.kind == kind
  ordered : a.fields.Pairwise fun v w => firstInsert calls v.kind < firstInsert calls w.kind

namespace Represents

theorem isSome_get?_iff (h : Represents calls a) :
    (a.get? kind).isSome = true ↔ ∃ v ∈ inserted calls, v.kind = kind := by
  simp [h.get?, List.find?_isSome]

theorem exists_inserted (h : Represents calls a) (hmem : v ∈ a.fields) : ∃ w ∈ inserted calls, w.kind = v.kind :=
  h.isSome_get?_iff.mp (Autofield.isSome_get?_iff.mpr ⟨v, hmem, rfl⟩)

/-- A further call leaves the order of the values as it is. -/
theorem ordered_append (h : Represents calls a) (c : Call) :
    a.fields.Pairwise fun v w => firstInsert (calls ++ [c]) v.kind < firstInsert (calls ++ [c]) w.kind := by
  refine h.ordered.imp_of_mem fun {v w} hv hw hlt => ?_
  rwa [firstInsert_append (h.exists_inserted hv), firstInsert_append (h.exists_inserted hw)]

theorem nodup_kinds (h : Represents calls a) : (a.fields.map Value.kind).Nodup := by
  refine List.pairwise_map.mpr (h.ordered.imp fun {v w} hlt hsame => ?_)
  rw [hsame] at hlt
  exact Nat.lt_irrefl _ hlt

theorem addTag (h : Represents calls a) (tag : Tag) : Represents (calls ++ [.addTag tag]) (a.addTag tag) where
  hasTag other := by
    rw [List.mem_append, ← h.hasTag]
    simp [Autofield.hasTag, Autofield.addTag, or_comm]
  get? kind := by
    rw [inserted_append_addTag]
    exact h.get? kind
  ordered := h.ordered_append _

theorem insert_of_present (h : Represents calls a) (hpresent : (a.get? v.kind).isSome = true) :
    Represents (calls ++ [.insert v]) a where
  hasTag tag := by
    rw [h.hasTag]
    simp
  get? kind := by
    rw [inserted_append_insert, List.find?_append, ← h.get?]
    cases hget : a.get? kind with
    | some w => rfl
    | none =>
        have hne : v.kind ≠ kind := by
          rintro rfl
          rw [hget] at hpresent
          cases hpresent
        simp [hne]
  ordered := h.ordered_append _

theorem insert_of_absent (h : Represents calls a) (habsent : a.get? v.kind = none) :
    Represents (calls ++ [.insert v]) { a with fields := a.fields ++ [v] } where
  hasTag tag := by
    show a.hasTag tag = true ↔ _
    rw [h.hasTag]
    simp
  get? kind := by
    rw [inserted_append_insert, List.find?_append, ← h.get?]
    exact List.find?_append
  ordered := by
    have hnew : ¬∃ w ∈ inserted calls, w.kind = v.kind := by
      rw [← h.isSome_get?_iff, habsent]
      exact Bool.false_ne_true
    refine List.pairwise_append.mpr ⟨h.ordered_append _, List.pairwise_singleton _ v, ?_⟩
    intro w hw _ hv
    obtain rfl := List.mem_singleton.mp hv
    have hlt := firstInsert_lt_length_iff.mpr (h.exists_inserted hw)
    rwa [firstInsert_append (h.exists_inserted hw), firstInsert_append_insert hnew]

theorem call (h : Represents calls a) (c : Call) : Represents (calls ++ [c]) (a.call c).1 := by
  cases c with
  | addTag tag => exact h.addTag tag
  | insert v =>
      by_cases hpresent : (a.get? v.kind).isSome = true
      · rw [call_insert_of_present hpresent]
        exact h.insert_of_present hpresent
      · have habsent : a.get? v.kind = none := by simpa using hpresent
        rw [call_insert_of_absent habsent]
        exact h.insert_of_absent habsent

end Represents

theorem represents_built (calls : List Call) : Represents calls (built calls) := by
  induction calls using List.reverseRecOn with
  | nil =>
      exact ⟨fun tag => by simp [built, hasTag, empty, TagSet.empty], fun kind => rfl, List.Pairwise.nil⟩
  | append_singleton calls c ih =>
      rw [built_append_singleton]
      exact ih.call c

theorem mem_tags_iff {tag : Tag} : tag ∈ a.tags.toList ↔ a.hasTag tag = true :=
  TagSet.mem_toList

theorem nodup_tags (a : Autofield) : a.tags.toList.Nodup :=
  List.Nodup.filter _ (by decide : Tag.all.Nodup)

/-- The values of an autofield are of distinct kinds and stand in the order in which the first insert of each kind was
made; the value of a kind is the one of that insert. A further value is handed back, and nothing changes, exactly if
there is one of its kind, and otherwise it is put behind the others; and this is what it is to insert in place. The tags
are those that were added, each once. What a getter gets is what the value of its kind holds, and there is such a value
whenever it gets something. -/
theorem built_represents_calls (calls : List Call) :
    ((built calls).fields.map Value.kind).Nodup ∧
      ((built calls).fields.Pairwise fun v w => firstInsert calls v.kind < firstInsert calls w.kind) ∧
      (∀ v, v ∈ (built calls).fields ↔ (built calls).get? v.kind = some v) ∧
      (∀ kind, (built calls).get? kind = (inserted calls).find? fun v => v.kind == kind) ∧
      (∀ v, ((built calls).call (.insert v) = (built calls, some v) ↔ ((built calls).get? v.kind).isSome = true) ∧
        ((built calls).call (.insert v) = ({ built calls with fields := (built calls).fields ++ [v] }, none) ↔
          (built calls).get? v.kind = none) ∧
        (insertInPlace v).run.run (built calls) =
          match (built calls).insert? v with
          | some larger => (.ok (), larger)
          | none => (.error v, built calls)) ∧
      ((∀ tag, tag ∈ (built calls).tags.toList ↔ .addTag tag ∈ calls) ∧ (built calls).tags.toList.Nodup) ∧
      (built calls).get? .number = (built calls).number?.map .number ∧
      (built calls).get? .identifier = (built calls).identifier?.map .identifier ∧
      (built calls).get? .vector = (built calls).vector?.map .vector ∧
      (built calls).get? .intVector = (built calls).intVector?.map .intVector ∧
      (built calls).get? .rotation = (built calls).rotation?.map .rotation := by
  have h := represents_built calls
  refine ⟨h.nodup_kinds, h.ordered, fun v => ?_, h.get?,
    fun v => ⟨call_insert_eq_rejected_iff, call_insert_eq_accepted_iff, insertInPlace_run _ v⟩,
    ⟨fun tag => ?_, nodup_tags _⟩,
    get?_eq_map_getter _⟩
  · rw [get?_eq_some_iff h.nodup_kinds]
    exact (and_iff_left rfl).symm
  · rw [mem_tags_iff]
    exact h.hasTag tag

end LevelPlay.Autofield
