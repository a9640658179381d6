import LevelPlay.Level
import LevelPlay.Proofs.Level.Contents

/-! What may change around the segments of a level with no change in what is read from them. The readers of content
count lines, and the reader of scripts also knows whether a segment line follows, but both go into errors only;
and the mode only decides whether a slip is an error. So whatever is read from a body is also read from its lines
at another place, and in a mode that forgives as much; and a level is determined by the lines of its segments. -/

namespace LevelPlay

open Result (Refines)

/-- The second mode forgives whatever the first forgives. -/
def Mode.RelaxesTo (mode mode' : Mode) : Prop :=
  mode' = .strict → mode = .strict

theorem Mode.RelaxesTo.refl (mode : Mode) : mode.RelaxesTo mode := id

theorem Mode.strict_relaxesTo (mode : Mode) : strict.RelaxesTo mode := fun _ => rfl

/-! ### Lines -/

section Reading

variable {mode mode' : Mode} (hmode : mode.RelaxesTo mode') (table : MacroTable) (number number' : Nat)

theorem readValue_refines (tokens : List Token) (start : Nat) :
    Refines (readValue number tokens start) (readValue number' tokens start) :=
  .mapError (.refl _) _ _

include hmode

theorem slip_refines (error error' : LoadError) : Refines (slip mode error) (slip mode' error') := by
  rw [slip, slip]
  by_cases hstrict : mode = .strict
  · rw [if_pos hstrict]
    exact .of_error error _
  · rw [if_neg hstrict, if_neg fun h => hstrict (hmode h)]
    exact .refl _

theorem endLine_refines (tokens : List Token) (last : Nat) :
    Refines (endLine mode number tokens last) (endLine mode' number' tokens last) := by
  rw [endLine, endLine]
  split
  · exact .refl _
  · exact slip_refines hmode _ _

theorem Defines.takeLine_refines (line : Line) :
    Refines (takeLine mode table number line) (takeLine mode' table number' line) := by
  rw [takeLine, takeLine]
  split
  · cases (Token.ofLine .empty line)[1]? with
    | none => exact .of_error _ _
    | some name =>
        dsimp only
        cases table.define? name (Text.unwords ((Token.ofLine table line).drop 2)) with
        | none => exact .of_error _ _
        | some table => exact .refl _
  · exact .map (slip_refines hmode _ _) _

theorem Lines.takeLine_refines (lines : IdMap Autofield) (line : Line) :
    Refines (takeLine mode table lines number line) (takeLine mode' table lines number' line) := by
  apply Refines.bind (readValue_refines number number' _ 0)
  intro (key, keyEnd)
  dsimp only
  cases key.toId? with
  | none => exact .of_error _ _
  | some id =>
      apply Refines.bind (readValue_refines number number' _ (keyEnd + 1))
      intro (value, last)
      cases value with
      | autofield a =>
          apply Refines.bind (endLine_refines hmode number number' _ last)
          intro _
          split
          · exact .of_error _ _
          · exact .refl _
      | _ => exact .of_error _ _

theorem Sectors.takeLine_refines (sectors : List Sector) (line : Line) :
    Refines (takeLine mode table sectors number line) (takeLine mode' table sectors number' line) := by
  apply Refines.bind (readValue_refines number number' _ 0)
  intro (value, last)
  dsimp only
  split
  · rename_i sector
    apply Refines.bind (endLine_refines hmode number number' _ last)
    intro _
    cases sector.badTriangle? with
    | none => exact .refl _
    | some bad => exact .of_error _ _
  · exact .of_error _ _

theorem Scripts.readFrom_refines (delimited delimited' : Bool) (current : Option Script) (done : Scripts)
    (lines : List Line) :
    Refines (readFrom mode table delimited number current done lines)
      (readFrom mode' table delimited' number' current done lines) := by
  induction lines generalizing number number' current done with
  | nil =>
      rw [readFrom_nil, readFrom_nil]
      cases current with
      | none => exact .refl _
      | some script => exact .of_error _ _
  | cons line rest ih =>
      cases current with
      | none =>
          rw [readFrom_cons_none, readFrom_cons_none]
          cases headerId? (Token.ofLine table line) with
          | none => exact .of_error _ _
          | some id =>
              dsimp only
              split
              · exact .of_error _ _
              · exact ih (number + 1) (number' + 1) _ done
      | some script =>
          rw [readFrom_cons_some, readFrom_cons_some]
          split
          · by_cases hslip : mode = .strict ∧ 1 < (instruction table line).length
            · rw [if_pos hslip]
              exact .of_error _ _
            · rw [if_neg hslip, if_neg fun h => hslip ⟨hmode h.1, h.2⟩]
              exact ih (number + 1) (number' + 1) none _
          · exact ih (number + 1) (number' + 1) _ done

end Reading

/-! ### Bodies -/

namespace SegmentBody

/-- Whatever is read from a body by the first reader is read by the second from its lines at any place. -/
def ReadsInto {α : Type} (read read' : SegmentBody → Except LoadError α) : Prop :=
  ∀ {body body' : SegmentBody}, body.lines = body'.lines → Refines (read body) (read' body')

theorem readsInto_fold {σ : Type} {take take' : σ → Nat → Line → Except LoadError σ}
    (htake : ∀ number number' state line, Refines (take state number line) (take' state number' line))
    (state : σ) : ReadsInto (fun body => body.fold take state) fun body => body.fold take' state := by
  suffices hfrom : ∀ (lines : List Line) (number number' : Nat) (state : σ),
      Refines (foldFrom take number state lines) (foldFrom take' number' state lines) by
    intro body body' hlines
    show Refines (foldFrom take body.start state body.lines) (foldFrom take' body'.start state body'.lines)
    rw [hlines]
    exact hfrom body'.lines body.start body'.start state
  intro lines
  induction lines with
  | nil => exact fun _ _ _ => .refl _
  | cons line rest ih =>
      intro number number' state
      rw [foldFrom, foldFrom]
      rcases (htake number number' state line).error_or_ok with ⟨e, hfails⟩ | ⟨next, htaken, htaken'⟩
      · rw [hfails]
        exact .of_error e _
      · rw [htaken, htaken']
        exact ih (number + 1) (number' + 1) next

end SegmentBody

section Readers

open SegmentBody (ReadsInto readsInto_fold)

variable {mode mode' : Mode} (hmode : mode.RelaxesTo mode') (table : MacroTable)

include hmode

theorem Defines.readsInto_ofBody : ReadsInto (ofBody mode) (ofBody mode') :=
  readsInto_fold (fun number number' table line => takeLine_refines hmode table number number' line) .empty

theorem Lines.readsInto_ofBody : ReadsInto (ofBody mode table) (ofBody mode' table) :=
  readsInto_fold (takeLine_refines hmode table) .empty

theorem Sectors.readsInto_ofBody : ReadsInto (ofBody mode table) (ofBody mode' table) :=
  readsInto_fold (takeLine_refines hmode table) []

theorem Scripts.readsInto_ofBody : ReadsInto (ofBody mode table) (ofBody mode' table) := by
  intro body body' hlines
  rw [ofBody, ofBody, hlines]
  exact readFrom_refines hmode table body.start body'.start body.delimited body'.delimited none .empty _

end Readers

/-! ### Levels -/

namespace Level

/-- The lines of the segment of a name, if the level has one. -/
def content? (lines : List Line) (index : SegmentIndex) (name : String) : Option (List Line) :=
  (body? lines index name).map SegmentBody.lines

section Contents

variable {lines lines' : List Line} {index index' : SegmentIndex}

theorem readSegment_refines {α : Type} {name : String} {read read' : SegmentBody → Except LoadError α}
    (hread : SegmentBody.ReadsInto read read')
    (hsame : content? lines index name = content? lines' index' name) (absent : α) :
    Refines (readSegment lines index name absent read) (readSegment lines' index' name absent read') := by
  rw [content?, content?] at hsame
  rw [readSegment, readSegment]
  cases hbody : body? lines index name with
  | none =>
      rw [hbody, Option.map_none, eq_comm, Option.map_eq_none_iff] at hsame
      rw [hsame]
      exact .refl _
  | some body =>
      rw [hbody, Option.map_some, eq_comm, Option.map_eq_some_iff] at hsame
      obtain ⟨body', hbody', hlines⟩ := hsame
      rw [hbody']
      exact hread hlines.symm

/-- The lines of the segments determine what is loaded, in a mode that forgives as much. -/
theorem ofExpanded_refines {mode mode' : Mode} (hmode : mode.RelaxesTo mode')
    (hindex : ∀ index, SegmentIndex.ofLines mode lines = .ok index →
      ∃ index', SegmentIndex.ofLines mode' lines' = .ok index' ∧
        ∀ name, content? lines index name = content? lines' index' name) (metadata : Header.Metadata) :
    Refines (ofExpanded mode metadata lines) (ofExpanded mode' metadata lines') := by
  cases hlisted : SegmentIndex.ofLines mode lines with
  | error e =>
      rw [ofExpanded, hlisted]
      exact .of_error _ _
  | ok index =>
      obtain ⟨index', hlisted', hsame⟩ := hindex index hlisted
      have hcontains : index'.contains "Sectors" = index.contains "Sectors" := by
        have h := congrArg Option.isSome (hsame "Sectors")
        simpa [content?, body?, SegmentIndex.contains] using h.symm
      rw [ofExpanded, ofExpanded, hlisted, hlisted']
      show Refines (readSegment lines index "Defines" .empty (Defines.ofBody mode) >>= _)
        (readSegment lines' index' "Defines" .empty (Defines.ofBody mode') >>= _)
      apply Refines.bind (readSegment_refines (Defines.readsInto_ofBody hmode) (hsame _) _)
      intro table
      apply Refines.bind (readSegment_refines (Scripts.readsInto_ofBody hmode table) (hsame _) _)
      intro scripts
      apply Refines.bind (readSegment_refines (Lines.readsInto_ofBody hmode table) (hsame _) _)
      intro defs
      have hsectors := readSegment_refines (Sectors.readsInto_ofBody hmode table) (hsame "Sectors") []
      dsimp only
      rw [hcontains]
      split
      · exact .bind (slip_refines hmode _ _) fun _ => .bind hsectors fun _ => .refl _
      · exact .bind hsectors fun _ => .refl _

end Contents

end Level

end LevelPlay
