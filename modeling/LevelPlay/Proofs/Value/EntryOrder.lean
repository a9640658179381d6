import Mathlib.Data.List.Perm.Basic
import LevelPlay.Proofs.Value.Fields
import LevelPlay.Proofs.Value.Insertion
import LevelPlay.Proofs.Value.Literal

/-! The order of entries. Fields of an object may be written in any order, and a comma may stand after the last: the
object is the same. So may the tags and values of an autofield: it has the same tags and the same value of each kind.
What is moved to another place is read there as it was, since a value is read from its own tokens alone. -/

namespace LevelPlay

namespace Value

/-- Two ways to divide tokens into balanced ones, the closing bracket of a pair and others are the same. -/
theorem Nested.rest_eq {inner inner' rest rest' : List Token} (h : Nested inner) (h' : Nested inner') (b : Bracket)
    (heq : inner ++ b.right :: rest = inner' ++ b.right :: rest') : rest = rest' := by
  have hfound := (h b).afterClosing_append rest
  rw [heq, (h' b).afterClosing_append rest'] at hfound
  exact (Option.some.inj hfound).symm

section Order

variable {trailing trailing' : Bool}

/-! ### Objects -/

theorem denotes_objectLiteral_perm {type : ObjectType} {written others : List (Token × List Token)}
    (hperm : written.Perm others) (hwritten : ∀ field ∈ written, ∃ v, Denotes field.2 v) (hne : written ≠ [])
    {v : Value} (h : Denotes (objectLiteral type written trailing) v) : Denotes (objectLiteral type others trailing') v := by
  have hothers : ∀ field ∈ others, ∃ v, Denotes field.2 v := fun field hfield =>
    hwritten field (hperm.mem_iff.mpr hfield)
  obtain ⟨-, fields, o, hfields, hdistinct, hset, rfl⟩ := (denotes_objectLiteral_iff hwritten).mp h
  obtain ⟨fields', hfields', hperm'⟩ := List.perm_comp_forall₂ hperm.symm hfields
  refine (denotes_objectLiteral_iff hothers).mpr ⟨?_, fields', o, hfields', ?_, ?_, rfl⟩
  · rintro rfl
    exact absurd hperm.eq_nil hne
  · exact (hperm'.map Prod.fst).nodup_iff.mpr hdistinct
  · exact Object.foldlM_setField_perm hperm'.symm hdistinct hset

/-! ### Autofields -/

/-- The autofields have the same tags and the same value of each kind. -/
structure SameMembers (a b : Autofield) : Prop where
  tags : a.tags = b.tags
  get? : ∀ kind, a.get? kind = b.get? kind

theorem denotes_autofieldLiteral_perm {written others : List (List Token)} (hperm : written.Perm others)
    (hwritten : ∀ member ∈ written, WrittenMember member) (htrailing : written = [] → trailing = trailing') {v : Value}
    (h : Denotes (autofieldLiteral written trailing) v) :
    ∃ a b, v = .autofield a ∧ Denotes (autofieldLiteral others trailing') (.autofield b) ∧ SameMembers a b := by
  have hothers : ∀ member ∈ others, WrittenMember member := fun member hmember =>
    hwritten member (hperm.mem_iff.mpr hmember)
  obtain ⟨hnil, members, a, hmembers, htags, hfields, hkinds, rfl⟩ := (denotes_autofieldLiteral_iff hwritten).mp h
  obtain ⟨members', hmembers', hperm'⟩ := List.perm_comp_forall₂ hperm.symm hmembers
  have hfields' : (members'.filterMap Sum.getRight?).Perm a.fields := hfields ▸ hperm'.filterMap _
  have hkinds' : ((members'.filterMap Sum.getRight?).map kind).Nodup := (hfields'.map kind).nodup_iff.mpr hkinds
  refine ⟨a, ⟨a.tags, members'.filterMap Sum.getRight?⟩, rfl, ?_, rfl, fun kind => ?_⟩
  · refine (denotes_autofieldLiteral_iff hothers).mpr ⟨?_, members', _, hmembers', ?_, rfl, hkinds', rfl⟩
    · rintro rfl
      have hwritten : written = [] := hperm.eq_nil
      exact (htrailing hwritten).symm.trans (hnil hwritten)
    · intro tag
      rw [htags tag, hperm'.mem_iff]
  · refine Option.ext fun v => ?_
    rw [Autofield.get?_eq_some_iff hkinds, Autofield.get?_eq_some_iff (a := ⟨a.tags, _⟩) hkinds', hfields'.mem_iff]

/-- An autofield that is read from what is written of one is read to the last token. -/
theorem readsAs_of_autofieldLiteral {written : List (List Token)} (hwritten : ∀ member ∈ written, WrittenMember member)
    {v : Value} {last : Nat} (h : parseAt (autofieldLiteral written trailing) 0 = .ok (v, last)) :
    last + 1 = (autofieldLiteral written trailing).length := by
  obtain ⟨-, hlast, hvalue⟩ := parseAt_eq_ok_iff.mp h
  rw [List.extract_eq_take_drop, List.drop_zero, Nat.sub_zero, autofieldLiteral, List.take_succ_cons] at hvalue
  obtain ⟨inner, members, a, hinner, hentries, -, -⟩ := denotes_marks_iff.mp hvalue
  -- What is read and what is written are both balanced, so the same closing mark ends them.
  have hnested : Nested (commas written trailing) := nested_commas (fun m hm => (hwritten m hm).nested) trailing
  have hnested' : Nested inner := nested_members hentries fun hvalue _ => hvalue.nested
  have hsplit := List.take_append_drop last (commas written trailing ++ [Token.closeAutofield])
  rw [hinner, List.append_assoc, List.singleton_append] at hsplit
  have hrest := hnested'.rest_eq hnested .marks hsplit
  rw [List.drop_eq_nil_iff] at hrest
  rw [autofieldLiteral, List.length_cons] at hlast ⊢
  omega

theorem parseAt_autofieldLiteral_perm {written others : List (List Token)} (hperm : written.Perm others)
    (hwritten : ∀ member ∈ written, WrittenMember member) (htrailing : written = [] → trailing = trailing') {v : Value}
    {last : Nat} (h : parseAt (autofieldLiteral written trailing) 0 = .ok (v, last)) :
    last + 1 = (autofieldLiteral written trailing).length ∧
      ∃ a b last', v = .autofield a ∧ parseAt (autofieldLiteral others trailing') 0 = .ok (.autofield b, last') ∧
        last' + 1 = (autofieldLiteral others trailing').length ∧ SameMembers a b := by
  have hlast := readsAs_of_autofieldLiteral hwritten h
  have hvalue := readsAs_iff_denotes.mp ⟨last, h, hlast⟩
  obtain ⟨a, b, rfl, hother, hsame⟩ := denotes_autofieldLiteral_perm hperm hwritten htrailing hvalue
  obtain ⟨last', hread', hlast'⟩ := readsAs_iff_denotes.mpr hother
  exact ⟨hlast, a, b, last', rfl, hread', hlast', hsame⟩

end Order

/-- The order of entries makes no difference. If an object that is written with fields, whose values are read to the
last token, is read to the last token, then it is read so with its fields in any other order, with or without a comma
after the last, and is the same object. An autofield that is written with tags and such values is read, to the last
token, exactly if it is with its entries in another order, and has the same tags and the same value of each kind. -/
theorem entry_order_irrelevant :
    (∀ (type : ObjectType) (written others : List (Token × List Token)) (trailing trailing' : Bool) (v : Value),
      written ≠ [] → written.Perm others → (∀ field ∈ written, ∃ v, ReadsAs field.2 v) →
        ReadsAs (objectLiteral type written trailing) v → ReadsAs (objectLiteral type others trailing') v) ∧
    ∀ (written others : List (List Token)) (trailing trailing' : Bool),
      written.Perm others → (∀ member ∈ written, WrittenMember member) → (written = [] → trailing = trailing') →
        Result.Agree (fun found found' => ∃ a b, found.1 = .autofield a ∧ found'.1 = .autofield b ∧
            found.2 + 1 = (autofieldLiteral written trailing).length ∧
            found'.2 + 1 = (autofieldLiteral others trailing').length ∧ SameMembers a b)
          (parseAt (autofieldLiteral written trailing) 0) (parseAt (autofieldLiteral others trailing') 0) := by
  constructor
  · intro type written others trailing trailing' v hne hperm hwritten h
    simp only [readsAs_iff_denotes] at hwritten h ⊢
    exact denotes_objectLiteral_perm hperm hwritten hne h
  · intro written others trailing trailing' hperm hwritten htrailing
    have hothers : ∀ member ∈ others, WrittenMember member := fun member hmember =>
      hwritten member (hperm.mem_iff.mpr hmember)
    have htrailing' : others = [] → trailing' = trailing := by
      rintro rfl
      exact (htrailing hperm.eq_nil).symm
    cases h : parseAt (autofieldLiteral written trailing) 0 with
    | ok found =>
        obtain ⟨hlast, a, b, last', hv, hread', hlast', hsame⟩ :=
          parseAt_autofieldLiteral_perm hperm hwritten htrailing h
        rw [hread']
        exact .ok ⟨a, b, hv, rfl, hlast, hlast', hsame⟩
    | error e =>
        cases h' : parseAt (autofieldLiteral others trailing') 0 with
        | error e' => exact .error e e'
        | ok found' =>
            obtain ⟨-, _, _, _, -, hread, -, -⟩ := parseAt_autofieldLiteral_perm hperm.symm hothers htrailing' h'
            cases h.symm.trans hread

/-! ### A sector and a triangle in two orders -/

/-- What is written of a triangle: a tag, the id of a line, and a list of one id. -/
def writtenTriangle : List (List Token) :=
  [["#NoWall"], ["@7"], ["[", "int", "]", "[", "@2", "]"]]

/-- What is written of a sector with an id and a tag. -/
def writtenSector : List (Token × List Token) :=
  [("SectorId", ["@7"]), ("Tags", [Token.openAutofield, "#NoWall", Token.closeAutofield])]

theorem denotes_seven : Denotes ["@7"] (.identifier 7) := @Denotes.identifier "7" 7 rfl

theorem denotes_twos : Denotes ["[", "int", "]", "[", "@2", "]"] (.list .int [.identifier 2]) :=
  @Denotes.list "int" .int ["@2"] _ _ rfl (.last (@Denotes.identifier "2" 2 rfl)) (.cons rfl .nil)

theorem memberOf_noWall : MemberOf Denotes ["#NoWall"] (.inl .noWall) := @MemberOf.tag _ "NoWall" .noWall rfl

theorem denotes_noWall : Denotes [Token.openAutofield, "#NoWall", Token.closeAutofield]
    (.autofield ⟨.insert .empty .noWall, []⟩) :=
  .autofield (.last memberOf_noWall) (by simp [TagSet.empty]) rfl List.nodup_nil

theorem exists_denotes_of_mem_writtenSector : ∀ field ∈ writtenSector, ∃ v, Denotes field.2 v :=
  List.forall_mem_cons.mpr ⟨⟨_, denotes_seven⟩, List.forall_mem_singleton.mpr ⟨_, denotes_noWall⟩⟩

theorem denotes_writtenSector : Denotes (objectLiteral .sector writtenSector false)
    (.object (.sector { Sector.blank with id := 7, tags := ⟨.insert .empty .noWall, []⟩ })) := by
  have hfields : List.Forall₂ Writes writtenSector
      [("SectorId", .identifier 7), ("Tags", .autofield ⟨.insert .empty .noWall, []⟩)] :=
    .cons ⟨rfl, denotes_seven⟩ (.cons ⟨rfl, denotes_noWall⟩ .nil)
  exact (denotes_objectLiteral_iff exists_denotes_of_mem_writtenSector).mpr
    ⟨nofun, _, _, hfields, by decide, rfl, rfl⟩

theorem writtenMember_of_mem_writtenTriangle : ∀ member ∈ writtenTriangle, WrittenMember member :=
  List.forall_mem_cons.mpr ⟨.tag "NoWall", List.forall_mem_cons.mpr
    ⟨.value (readsAs_iff_denotes.mpr denotes_seven), List.forall_mem_singleton.mpr
      (.value (readsAs_iff_denotes.mpr denotes_twos))⟩⟩

theorem denotes_writtenTriangle : Denotes (autofieldLiteral writtenTriangle false)
    (.autofield ⟨.insert .empty .noWall, [.identifier 7, .list .int [.identifier 2]]⟩) := by
  refine (denotes_autofieldLiteral_iff writtenMember_of_mem_writtenTriangle).mpr
    ⟨nofun, _, _, .cons memberOf_noWall (.cons (.value denotes_seven) (.cons (.value denotes_twos) .nil)), ?_, rfl,
      ?_, rfl⟩
  · simp [TagSet.empty]
  · decide

theorem entry_order_irrelevant_sector :
    ReadsAs (objectLiteral .sector writtenSector false)
        (.object (.sector { Sector.blank with id := 7, tags := ⟨.insert .empty .noWall, []⟩ })) ∧
      ReadsAs (objectLiteral .sector writtenSector.reverse true)
        (.object (.sector { Sector.blank with id := 7, tags := ⟨.insert .empty .noWall, []⟩ })) ∧
      ∃ b last, parseAt (autofieldLiteral writtenTriangle.reverse true) 0 = .ok (.autofield b, last) ∧
        b.tags = .insert .empty .noWall ∧ b.get? .identifier = some (.identifier 7) := by
  obtain ⟨hobject, hautofield⟩ := entry_order_irrelevant
  have hsector := readsAs_iff_denotes.mpr denotes_writtenSector
  obtain ⟨last, htriangle, -⟩ := readsAs_iff_denotes.mpr denotes_writtenTriangle
  refine ⟨hsector, ?_, ?_⟩
  · refine hobject .sector writtenSector _ false true _ nofun (List.reverse_perm _).symm ?_ hsector
    simpa only [readsAs_iff_denotes] using exists_denotes_of_mem_writtenSector
  · have hagree := hautofield writtenTriangle _ false true (List.reverse_perm _).symm
      writtenMember_of_mem_writtenTriangle nofun
    rw [htriangle] at hagree
    obtain ⟨⟨_, last'⟩, hread, _, b, ha, rfl, -, -, htags, hget⟩ := hagree.of_ok_left
    cases ha
    exact ⟨b, last', hread, htags.symm, (hget .identifier).symm⟩

end Value

end LevelPlay
