import LevelPlay.IdMap.Lemmas
import LevelPlay.Level.Lines
import LevelPlay.Level.Scripts
import LevelPlay.Level.Sectors
import LevelPlay.Proofs.Level.Linking
import LevelPlay.Proofs.Value.Parser

/-! What is read from the segments with content. Each reader goes through its lines once, and what it has read
so far always answers to the lines that it has passed. -/

namespace LevelPlay

/-! ### Bodies -/

/-- What holds at first and is kept from line to line holds of the whole body. -/
theorem SegmentBody.fold_induction {σ : Type} {take : σ → Nat → Line → Except LoadError σ}
    {P : List Line → σ → Prop} {body : SegmentBody} {state last : σ} (hstate : P [] state)
    (hfold : body.fold take state = .ok last)
    (hstep : ∀ {passed state number line next}, P passed state → take state number line = .ok next →
      P (passed ++ [line]) next) : P body.lines last := by
  suffices hfrom : ∀ (lines : List Line) (passed : List Line) (number : Nat) (state : σ), P passed state →
      foldFrom take number state lines = .ok last → P (passed ++ lines) last from
    hfrom body.lines [] body.start state hstate hfold
  intro lines
  induction lines with
  | nil =>
      intro passed number state hstate hfold
      cases hfold
      rw [List.append_nil]
      exact hstate
  | cons line rest ih =>
      intro passed number state hstate hfold
      rw [foldFrom] at hfold
      cases htake : take state number line with
      | error e =>
          rw [htake] at hfold
          cases hfold
      | ok next =>
          rw [htake] at hfold
          rw [List.append_cons]
          exact ih (passed ++ [line]) (number + 1) next (hstep hstate htake) hfold

theorem SegmentBody.foldFrom_append {σ : Type} {take : σ → Nat → Line → Except LoadError σ} (number : Nat)
    (state : σ) (before rest : List Line) :
    foldFrom take number state (before ++ rest) =
      foldFrom take number state before >>= fun next => foldFrom take (number + before.length) next rest := by
  induction before generalizing number state with
  | nil => rfl
  | cons line before ih =>
      rw [List.cons_append, foldFrom, foldFrom]
      cases take state number line with
      | error e => rfl
      | ok next =>
          dsimp only
          rw [ih, List.length_cons, Nat.add_right_comm, Nat.add_assoc]

/-- A fold fails at the first line that is not taken in. -/
theorem SegmentBody.foldFrom_eq_error_iff {σ : Type} {take : σ → Nat → Line → Except LoadError σ} {number : Nat}
    {state : σ} {lines : List Line} {error : LoadError} :
    foldFrom take number state lines = .error error ↔
      ∃ before line after next, lines = before ++ line :: after ∧ foldFrom take number state before = .ok next ∧
        take next (number + before.length) line = .error error := by
  constructor
  · intro h
    induction lines generalizing number state with
    | nil => cases h
    | cons line rest ih =>
        rw [foldFrom] at h
        cases htake : take state number line with
        | error e =>
            rw [htake] at h
            cases h
            exact ⟨[], line, rest, state, rfl, rfl, htake⟩
        | ok next =>
            rw [htake] at h
            obtain ⟨before, last, after, passed, rfl, hbefore, hlast⟩ := ih h
            refine ⟨line :: before, last, after, passed, rfl, ?_, ?_⟩
            · rw [foldFrom, htake]
              exact hbefore
            · rw [List.length_cons, Nat.add_comm before.length, ← Nat.add_assoc]
              exact hlast
  · rintro ⟨before, line, after, next, rfl, hbefore, hline⟩
    rw [foldFrom_append, hbefore, Result.ok_bind, foldFrom, hline]

/-! ### Lines -/

namespace Lines

/-- The line begins with an integer key, which ends with the token at `keyEnd`. -/
def KeyAt (table : MacroTable) (line : Line) (keyEnd : Nat) (id : Int) : Prop :=
  ∃ key, Value.DenotesAt (Token.ofLine table line) 0 keyEnd key ∧ key.toId? = some id

/-- The line gives its key an autofield. -/
def Entry (table : MacroTable) (line : Line) (id : Int) (a : Autofield) : Prop :=
  ∃ keyEnd last, KeyAt table line keyEnd id ∧
    Value.DenotesAt (Token.ofLine table line) (keyEnd + 1) last (.autofield a)

theorem KeyAt.det {table : MacroTable} {line : Line} {keyEnd keyEnd' : Nat} {id id' : Int}
    (h : KeyAt table line keyEnd id) (h' : KeyAt table line keyEnd' id') : keyEnd' = keyEnd ∧ id' = id := by
  obtain ⟨key, hkey, hid⟩ := h
  obtain ⟨key', hkey', hid'⟩ := h'
  cases (Value.parseAt_eq_ok_iff.mpr hkey).symm.trans (Value.parseAt_eq_ok_iff.mpr hkey')
  cases hid.symm.trans hid'
  exact ⟨rfl, rfl⟩

theorem Entry.det {table : MacroTable} {line : Line} {id id' : Int} {a a' : Autofield}
    (h : Entry table line id a) (h' : Entry table line id' a') : id' = id ∧ a' = a := by
  obtain ⟨keyEnd, last, hkey, ha⟩ := h
  obtain ⟨keyEnd', last', hkey', ha'⟩ := h'
  obtain ⟨rfl, rfl⟩ := hkey.det hkey'
  cases (Value.parseAt_eq_ok_iff.mpr ha).symm.trans (Value.parseAt_eq_ok_iff.mpr ha')
  exact ⟨rfl, rfl⟩

/-- A line that is taken in gives an autofield to a new key, and what follows is at most a slip. -/
theorem takeLine_eq_ok {mode : Mode} {table : MacroTable} {lines next : IdMap Autofield} {number : Nat}
    {line : Line} (h : takeLine mode table lines number line = .ok next) :
    ∃ id a keyEnd last, KeyAt table line keyEnd id ∧
      Value.DenotesAt (Token.ofLine table line) (keyEnd + 1) last (.autofield a) ∧
      endLine mode number (Token.ofLine table line) last = .ok () ∧
      lines.contains id = false ∧ next = lines.insert id a := by
  obtain ⟨⟨key, keyEnd⟩, hkey, h⟩ := Result.bind_eq_ok_iff.mp h
  dsimp only at h
  cases hid : key.toId? with
  | none =>
      rw [hid] at h
      cases h
  | some id =>
      rw [hid] at h
      obtain ⟨⟨value, last⟩, hvalue, h⟩ := Result.bind_eq_ok_iff.mp h
      cases value with
      | autofield a =>
          obtain ⟨_, hend, h⟩ := Result.bind_eq_ok_iff.mp h
          cases hcontains : lines.contains id with
          | true =>
              rw [hcontains] at h
              cases h
          | false =>
              rw [hcontains] at h
              cases h
              rw [readValue_eq_ok_iff] at hkey hvalue
              exact ⟨id, a, keyEnd, last, ⟨key, hkey, hid⟩, hvalue, hend, hcontains, rfl⟩
      | _ => cases h

/-- The autofields are those that the lines give to their keys. -/
structure ReadFrom (table : MacroTable) (passed : List Line) (lines : IdMap Autofield) : Prop where
  all : ∀ line ∈ passed, ∃ id a, Entry table line id a
  get? : ∀ id a, lines.get? id = some a ↔ ∃ line ∈ passed, Entry table line id a

theorem readFrom_nil (table : MacroTable) : ReadFrom table [] .empty where
  all := by simp
  get? := by simp

/-- One more line is read from when its key is not one of the lines before it. -/
theorem ReadFrom.insert {table : MacroTable} {passed : List Line} {lines : IdMap Autofield}
    (h : ReadFrom table passed lines) {line : Line} {id : Int} {a : Autofield} (hentry : Entry table line id a)
    (hfresh : lines.contains id = false) : ReadFrom table (passed ++ [line]) (lines.insert id a) where
  all := List.forall_mem_append.mpr ⟨h.all, List.forall_mem_singleton.mpr ⟨id, a, hentry⟩⟩
  get? := by
    intro other b
    rw [IdMap.get?_insert]
    simp only [List.mem_append, List.mem_singleton, or_and_right, exists_or, exists_eq_left, ← h.get?]
    by_cases hother : other = id
    · subst hother
      have hnone : lines.get? other = none := by simpa [IdMap.contains] using hfresh
      rw [if_pos rfl, hnone]
      constructor
      · intro hb
        cases hb
        exact .inr hentry
      · rintro (hb | hb)
        · cases hb
        · rw [(hentry.det hb).2]
    · rw [if_neg hother]
      constructor
      · exact .inl
      · rintro (hb | hb)
        · exact hb
        · exact absurd (hentry.det hb).1 hother

theorem ReadFrom.contains_iff {table : MacroTable} {passed : List Line} {lines : IdMap Autofield}
    (h : ReadFrom table passed lines) (id : Int) :
    lines.contains id = true ↔ ∃ line ∈ passed, ∃ keyEnd, KeyAt table line keyEnd id := by
  rw [IdMap.contains, Option.isSome_iff_exists]
  constructor
  · rintro ⟨a, ha⟩
    obtain ⟨line, hline, keyEnd, last, hkey, -⟩ := (h.get? id a).mp ha
    exact ⟨line, hline, keyEnd, hkey⟩
  · rintro ⟨line, hline, keyEnd, hkey⟩
    obtain ⟨id', a, hentry⟩ := h.all line hline
    obtain ⟨keyEnd', last, hkey', ha⟩ := hentry
    obtain ⟨-, rfl⟩ := hkey.det hkey'
    exact ⟨a, (h.get? _ a).mpr ⟨line, hline, keyEnd', last, hkey', ha⟩⟩

theorem readFrom_ofBody {mode : Mode} {table : MacroTable} {body : SegmentBody} {lines : IdMap Autofield}
    (h : ofBody mode table body = .ok lines) : ReadFrom table body.lines lines := by
  refine SegmentBody.fold_induction (readFrom_nil table) h ?_
  intro passed lines number line next hlines htake
  obtain ⟨id, a, keyEnd, last, hkey, ha, -, hfresh, rfl⟩ := takeLine_eq_ok htake
  exact hlines.insert ⟨keyEnd, last, hkey, ha⟩ hfresh

end Lines

/-! ### Sectors -/

namespace Sectors

/-- A line that is taken in is a sector, and what follows is at most a slip. -/
theorem takeLine_eq_ok {mode : Mode} {table : MacroTable} {sectors next : List Sector} {number : Nat}
    {line : Line} (h : takeLine mode table sectors number line = .ok next) :
    ∃ sector last, Value.DenotesAt (Token.ofLine table line) 0 last (.object (.sector sector)) ∧
      endLine mode number (Token.ofLine table line) last = .ok () ∧ sector.badTriangle? = none ∧
      next = sectors ++ [sector] := by
  obtain ⟨⟨value, last⟩, hvalue, h⟩ := Result.bind_eq_ok_iff.mp h
  dsimp only at h
  split at h
  · rename_i sector
    obtain ⟨_, hend, h⟩ := Result.bind_eq_ok_iff.mp h
    cases hbad : sector.badTriangle? with
    | some bad =>
        rw [hbad] at h
        cases h
    | none =>
        rw [hbad] at h
        cases h
        exact ⟨sector, last, readValue_eq_ok_iff.mp hvalue, hend, hbad, rfl⟩
  · cases h

/-- The triangles of the sectors that are read stay within the vertices of their sector. -/
theorem bounded_ofBody {mode : Mode} {table : MacroTable} {body : SegmentBody} {sectors : List Sector}
    (h : ofBody mode table body = .ok sectors) : ∀ sector ∈ sectors, sector.Bounded := by
  refine SegmentBody.fold_induction (P := fun _ sectors => ∀ sector ∈ sectors, sector.Bounded) ?_ h ?_
  · exact fun _ hmem => (List.not_mem_nil hmem).elim
  · intro _ sectors number line next hsectors htake
    obtain ⟨sector, _, -, -, hsector, rfl⟩ := takeLine_eq_ok htake
    exact List.forall_mem_append.mpr
      ⟨hsectors, List.forall_mem_singleton.mpr (Sector.bounded_of_badTriangle? hsector)⟩

end Sectors

/-! ### Scripts -/

namespace Scripts

section Reading

variable (mode : Mode) (table : MacroTable) (delimited : Bool) (number : Nat) (done : Scripts)

theorem readFrom_nil (current : Option Script) : readFrom mode table delimited number current done [] =
    match current with
    | none => .ok done
    | some script =>
        .error (.structural number (if delimited then .cutScript script.id else .openScript script.id)) := by
  cases current with
  | none => rw [readFrom.eq_def]
  | some script => rw [readFrom.eq_def]

/-- Outside of a block, a line begins one. -/
theorem readFrom_cons_none (line : Line) (rest : List Line) :
    readFrom mode table delimited number none done (line :: rest) =
      match headerId? (Token.ofLine table line) with
      | none => .error (.structural number (.notScript line))
      | some id =>
          if done.contains id then .error (.structural number (.repeatedScript id))
          else readFrom mode table delimited (number + 1) (some ⟨id, []⟩) done rest := by
  cases hheader : headerId? (Token.ofLine table line) with
  | none =>
      rw [readFrom.eq_def]
      simp only [hheader]
  | some id =>
      rw [readFrom.eq_def]
      simp only [hheader]

/-- Within a block, a line ends it or is an instruction of its script. -/
theorem readFrom_cons_some (script : Script) (line : Line) (rest : List Line) :
    readFrom mode table delimited number (some script) done (line :: rest) =
      if (instruction table line).head? = some endWord then
        if mode = .strict ∧ 1 < (instruction table line).length then
          .error (.structural number .tokensAfterEnd)
        else readFrom mode table delimited (number + 1) none (done.insert script.id script) rest
      else
        readFrom mode table delimited (number + 1)
          (some { script with instructions := script.instructions ++ [instruction table line] }) done rest := by
  rw [readFrom.eq_def]

end Reading

end Scripts

end LevelPlay
