import Mathlib.Data.List.Forall2
import Mathlib.Data.List.Nodup
import LevelPlay.Proofs.Result
import LevelPlay.Value.Reader

/-! Taking entries in. The reader refuses an entry as soon as it does not go with the ones before it. Over a
whole container this comes to conditions on all its entries: distinct names, fitting items, distinct kinds. -/

namespace LevelPlay.Value

/-! ### Fields of an object -/

theorem setOnce_eq_ok_iff {type : ObjectType} {name : Token} {v : Value} {o : Object} {seen : List Token}
    {next : Object × List Token} :
    setOnce type name v (o, seen) = .ok next ↔
      name ∉ seen ∧ ∃ changed, o.setField name v = .ok changed ∧ next = (changed, name :: seen) := by
  rw [setOnce]
  by_cases hseen : name ∈ seen
  · simp [hseen]
  · cases o.setField name v with
    | error e => simp [hseen]
    | ok changed => simp [hseen, eq_comm]

/-- The fields of an object are taken in when their names are new and distinct, and each can be set. -/
theorem foldlM_setOnce_eq_ok_iff {type : ObjectType} {fields : List (Token × Value)} {o built : Object}
    {seen : List Token} :
    (∃ last, fields.foldlM (fun state field => setOnce type field.1 field.2 state) (o, seen) =
        .ok (built, last)) ↔
      (∀ name ∈ fields.map Prod.fst, name ∉ seen) ∧ (fields.map Prod.fst).Nodup ∧
        fields.foldlM (fun o field => o.setField field.1 field.2) o = .ok built := by
  induction fields generalizing o seen with
  | nil => simp [pure, Except.pure]
  | cons field fields ih =>
      simp only [List.foldlM_cons, Result.bind_eq_ok_iff, setOnce_eq_ok_iff, List.map_cons,
        List.forall_mem_cons, List.nodup_cons]
      constructor
      · rintro ⟨last, _, ⟨hnew, changed, hset, rfl⟩, hrest⟩
        obtain ⟨hseen, hdistinct, hfold⟩ := ih.mp ⟨last, hrest⟩
        have hfirst : field.1 ∉ fields.map Prod.fst := fun hmem => hseen _ hmem List.mem_cons_self
        exact ⟨⟨hnew, fun name hmem h => hseen name hmem (List.mem_cons_of_mem _ h)⟩, ⟨hfirst, hdistinct⟩,
          changed, hset, hfold⟩
      · rintro ⟨⟨hnew, hseen⟩, ⟨hfirst, hdistinct⟩, changed, hset, hfold⟩
        have hseen' : ∀ name ∈ fields.map Prod.fst, name ∉ field.1 :: seen := by
          intro name hmem h
          rcases List.mem_cons.mp h with rfl | h
          · exact hfirst hmem
          · exact hseen name hmem h
        obtain ⟨last, hlast⟩ := ih.mpr ⟨hseen', hdistinct, hfold⟩
        exact ⟨last, _, ⟨hnew, changed, hset, rfl⟩, hlast⟩

/-! ### Items of a list -/

theorem appendItem_eq_ok_iff {element : TypeName} {v : Value} {items next : List Value} :
    appendItem element v items = .ok next ↔ ∃ item, fit? element v = some item ∧ next = items ++ [item] := by
  rw [appendItem]
  cases fit? element v with
  | none => simp
  | some item => simp [eq_comm]

/-- The items of a list are taken in when each fits the element type. -/
theorem foldlM_appendItem_eq_ok_iff {element : TypeName} {values items last : List Value} :
    values.foldlM (fun items v => appendItem element v items) items = .ok last ↔
      ∃ fitted, List.Forall₂ (fun v item => fit? element v = some item) values fitted ∧
        last = items ++ fitted := by
  induction values generalizing items with
  | nil => simp [pure, Except.pure, eq_comm]
  | cons v values ih =>
      simp only [List.foldlM_cons, Result.bind_eq_ok_iff, appendItem_eq_ok_iff, ih]
      constructor
      · rintro ⟨_, ⟨item, hitem, rfl⟩, fitted, hfitted, rfl⟩
        exact ⟨item :: fitted, .cons hitem hfitted, by rw [List.append_assoc]; rfl⟩
      · rintro ⟨_, hfitted, rfl⟩
        cases hfitted with
        | cons hitem hrest => exact ⟨_, ⟨_, hitem, rfl⟩, _, hrest, by rw [List.append_assoc]; rfl⟩

/-! ### Entries of an autofield -/

def takeMember (a : Autofield) : Tag ⊕ Value → Except ValueError Autofield
  | .inl tag => .ok (a.addTag tag)
  | .inr v => putValue v a

theorem putTag_eq_ok_iff {name : String} {a next : Autofield} :
    putTag ("#" ++ name) a = .ok next ↔ ∃ tag, Tag.ofName? name = some tag ∧ next = a.addTag tag := by
  have hname : String.ofList (("#" ++ name).toList.drop 1) = name := by simp
  rw [putTag, hname]
  cases Tag.ofName? name with
  | none => simp
  | some tag => simp [eq_comm]

theorem putValue_eq_ok_iff {v : Value} {a next : Autofield} :
    putValue v a = .ok next ↔
      v.kind ∉ a.fields.map kind ∧ next = { a with fields := a.fields ++ [v] } := by
  rw [putValue, Autofield.insert?, Autofield.get?]
  by_cases hkind : v.kind ∈ a.fields.map kind
  · have hfound : (a.fields.find? fun value => value.kind == v.kind).isSome = true := by
      simpa using hkind
    simp [hkind, hfound]
  · have hfound : (a.fields.find? fun value => value.kind == v.kind).isSome = false := by
      simpa using hkind
    simp [hkind, hfound, eq_comm]

theorem nodup_kinds_append {fields : List Value} {v : Value} :
    ((fields ++ [v]).map kind).Nodup ↔ (fields.map kind).Nodup ∧ v.kind ∉ fields.map kind := by
  rw [List.map_append, List.map_singleton, ← List.concat_eq_append, List.nodup_concat, and_comm]

/-- The entries of an autofield are taken in when the values are of distinct kinds, also from those that it
holds already. Tags may be repeated. -/
theorem foldlM_takeMember_eq_ok_iff {members : List (Tag ⊕ Value)} {a last : Autofield}
    (hkinds : (a.fields.map kind).Nodup) :
    members.foldlM takeMember a = .ok last ↔
      (∀ tag, last.tags.has tag = true ↔ a.tags.has tag = true ∨ .inl tag ∈ members) ∧
        last.fields = a.fields ++ members.filterMap Sum.getRight? ∧ (last.fields.map kind).Nodup := by
  induction members generalizing a with
  | nil =>
      simp only [List.foldlM_nil, List.not_mem_nil, or_false, List.filterMap_nil, List.append_nil]
      constructor
      · intro h
        cases h
        exact ⟨fun _ => Iff.rfl, rfl, hkinds⟩
      · rintro ⟨htags, hfields, -⟩
        have hsame : last.tags = a.tags := TagSet.ext (funext fun tag => Bool.eq_iff_iff.mpr (htags tag))
        obtain ⟨tags, fields⟩ := a
        obtain ⟨tags', fields'⟩ := last
        cases hsame
        cases hfields
        rfl
  | cons member members ih =>
      rw [List.foldlM_cons]
      cases member with
      | inl tag =>
          have htags : ∀ other, (a.addTag tag).tags.has other = true ∨ .inl other ∈ members ↔
              a.tags.has other = true ∨ (.inl other : Tag ⊕ Value) ∈ .inl tag :: members := by
            intro other
            simp only [Autofield.addTag, TagSet.has_insert, Bool.or_eq_true, beq_iff_eq, List.mem_cons,
              Sum.inl.injEq]
            tauto
          rw [takeMember, Result.ok_bind, ih (a := a.addTag tag) hkinds]
          simp only [htags]
          rfl
      | inr v =>
          have hmembers : ∀ tag, (.inl tag : Tag ⊕ Value) ∈ .inr v :: members ↔ .inl tag ∈ members := by
            intro tag
            simp
          have hvalues : a.fields ++ List.filterMap Sum.getRight? (.inr v :: members) =
              a.fields ++ [v] ++ members.filterMap Sum.getRight? := List.append_cons _ _ _
          simp only [takeMember, Result.bind_eq_ok_iff, putValue_eq_ok_iff, hmembers, hvalues]
          constructor
          · rintro ⟨_, ⟨hkind, rfl⟩, hrest⟩
            exact (ih (nodup_kinds_append.mpr ⟨hkinds, hkind⟩)).mp hrest
          · rintro ⟨htags, hfields, hdistinct⟩
            have hkinds' : ((a.fields ++ [v]).map kind).Nodup := by
              rw [hfields] at hdistinct
              exact hdistinct.sublist ((List.sublist_append_left _ _).map kind)
            exact ⟨_, ⟨(nodup_kinds_append.mp hkinds').2, rfl⟩, (ih hkinds').mpr ⟨htags, hfields, hdistinct⟩⟩

theorem foldlM_takeMember_empty_eq_ok_iff {members : List (Tag ⊕ Value)} {a : Autofield} :
    members.foldlM takeMember Autofield.empty = .ok a ↔
      (∀ tag, a.tags.has tag = true ↔ .inl tag ∈ members) ∧ a.fields = members.filterMap Sum.getRight? ∧
        (a.fields.map kind).Nodup := by
  have hnone : ∀ tag, Autofield.empty.tags.has tag = false := fun _ => rfl
  have hstart : Autofield.empty.fields = [] := rfl
  have hkinds : (Autofield.empty.fields.map kind).Nodup := List.nodup_nil
  simp only [foldlM_takeMember_eq_ok_iff hkinds, hnone, hstart, Bool.false_eq_true, false_or, List.nil_append]

end LevelPlay.Value
