import LevelPlay.Proofs.Import.Outline
import LevelPlay.Proofs.Level.Definitions
import LevelPlay.Proofs.Level.Integrity

/-! Where a failure points. A pass works from the last line to the first, so when it breaks off nothing has moved up to
the import line in question, and the number of that line is right both for the lines that the pass began with and for
those that are left. The failure is one of the level's structure at that line, whatever lies behind it: a level that is
loaded from lines fails with a line, or because triangles name lines that are not there, never because of a file. -/

namespace LevelPlay

/-! ### Errors that give a line -/

section Located

variable {ε σ α β : Type} {mode : Mode}

/-- Every error of the result gives a line. -/
def Located (x : Except LoadError α) : Prop :=
  ∀ error, x = .error error → ∃ number, error.line? = some number

theorem located_ok (a : α) : Located (.ok a : Except LoadError α) := fun _ h => nomatch h

theorem located_structural (number : Nat) (error : StructuralError) :
    Located (.error (.structural number error) : Except LoadError α) := by
  rintro _ ⟨⟩
  exact ⟨number, rfl⟩

theorem located_content (number : Nat) (error : ContentError) :
    Located (.error (.content number error) : Except LoadError α) := by
  rintro _ ⟨⟩
  exact ⟨number, rfl⟩

theorem Located.bind {x : Except LoadError α} {f : α → Except LoadError β} (hx : Located x)
    (hf : ∀ a, Located (f a)) : Located (x >>= f) := by
  intro error herror
  rcases Result.bind_eq_error_iff.mp herror with herror | ⟨a, -, herror⟩
  · exact hx error herror
  · exact hf a error herror

theorem located_mapError {f : ε → LoadError} (x : Except ε α)
    (hf : ∀ e, ∃ number, (f e).line? = some number) : Located (x.mapError f) := by
  cases x with
  | ok a => exact located_ok a
  | error e =>
      rintro _ ⟨⟩
      exact hf e

theorem located_slip {error : LoadError} (h : Located (.error error : Except LoadError Unit)) :
    Located (slip mode error) := by
  rw [slip]
  split
  · exact h
  · exact located_ok ()

theorem located_readValue (number : Nat) (tokens : List Token) (start : Nat) :
    Located (readValue number tokens start) :=
  located_mapError _ fun _ => ⟨number, rfl⟩

theorem located_endLine (number : Nat) (tokens : List Token) (last : Nat) :
    Located (endLine mode number tokens last) := by
  rw [endLine]
  split
  · exact located_ok ()
  · exact located_slip (located_content _ _)

theorem SegmentBody.located_fold {take : σ → Nat → Line → Except LoadError σ}
    (htake : ∀ state number line, Located (take state number line)) (body : SegmentBody) (state : σ) :
    Located (body.fold take state) := by
  intro error herror
  obtain ⟨before, line, after, next, -, -, hline⟩ := foldFrom_eq_error_iff.mp herror
  exact htake _ _ _ error hline

theorem Defines.located_ofBody (body : SegmentBody) : Located (ofBody mode body) := by
  intro error herror
  obtain ⟨before, line, after, fault, -, -, -, rfl⟩ := ofBody_eq_error_iff_fault.mp herror
  exact ⟨_, rfl⟩

theorem Scripts.located_ofBody (table : MacroTable) (body : SegmentBody) : Located (ofBody mode table body) := by
  intro error herror
  obtain ⟨passed, rest, blocks, offset, fault, -, -, -, rfl⟩ := ofBody_eq_error_iff.mp herror
  exact ⟨_, rfl⟩

theorem Lines.located_takeLine (table : MacroTable) (lines : IdMap Autofield) (number : Nat) (line : Line) :
    Located (takeLine mode table lines number line) := by
  refine (located_readValue number _ 0).bind fun ⟨key, keyEnd⟩ => ?_
  dsimp only
  split
  · exact located_content _ _
  · refine (located_readValue number _ (keyEnd + 1)).bind fun ⟨value, last⟩ => ?_
    dsimp only
    split
    · refine (located_endLine number _ last).bind fun _ => ?_
      split
      · exact located_structural _ _
      · exact located_ok _
    · exact located_content _ _

theorem Sectors.located_takeLine (table : MacroTable) (sectors : List Sector) (number : Nat) (line : Line) :
    Located (takeLine mode table sectors number line) := by
  refine (located_readValue number _ 0).bind fun ⟨value, last⟩ => ?_
  dsimp only
  split
  · refine (located_endLine number _ last).bind fun _ => ?_
    split
    · exact located_content _ _
    · exact located_ok _
  · exact located_content _ _

end Located

namespace Level

theorem located_readSegment {α : Type} {read : SegmentBody → Except LoadError α}
    (hread : ∀ body, Located (read body)) (lines : List Line) (index : SegmentIndex) (name : String) (absent : α) :
    Located (readSegment lines index name absent read) := by
  rw [readSegment]
  split
  · exact located_ok absent
  · exact hread _

/-- An error that gives a line, or one of linking sectors that have been read. -/
def LocatedOrLink (error : LoadError) : Prop :=
  (∃ number, error.line? = some number) ∨
    ∃ defs sectors fault, (∀ sector ∈ sectors, sector.Bounded) ∧ Planes.link defs sectors = .error fault ∧
      error = .link fault

theorem locatedOrLink_of_bind {α β : Type} {x : Except LoadError α} {f : α → Except LoadError β}
    {error : LoadError} (h : (x >>= f) = .error error) (hx : Located x)
    (hf : ∀ a, x = .ok a → f a = .error error → LocatedOrLink error) : LocatedOrLink error := by
  rcases Result.bind_eq_error_iff.mp h with h | ⟨a, ha, h⟩
  · exact .inl (hx error h)
  · exact hf a ha h

theorem locatedOrLink_of_ofExpanded {mode : Mode} {metadata : Header.Metadata} {lines : List Line} {error : LoadError}
    (h : ofExpanded mode metadata lines = .error error) : LocatedOrLink error := by
  refine locatedOrLink_of_bind h (located_mapError _ fun e => ⟨e.1, rfl⟩) fun index _ h => ?_
  refine locatedOrLink_of_bind h (located_readSegment Defines.located_ofBody _ _ _ _) fun table _ h => ?_
  refine locatedOrLink_of_bind h (located_readSegment (Scripts.located_ofBody table) _ _ _ _) fun scripts _ h => ?_
  have hlines : ∀ body, Located (Lines.ofBody mode table body) := fun body =>
    body.located_fold (Lines.located_takeLine table) .empty
  refine locatedOrLink_of_bind h (located_readSegment hlines _ _ _ _) fun defs _ h => ?_
  have hsectors : ∀ body, Located (Sectors.ofBody mode table body) := fun body =>
    body.located_fold (Sectors.located_takeLine table) []
  -- The check for a missing segment of sectors fails with a line; what follows is the same if it passes.
  have hrest : (do
      let sectors ← readSegment lines index "Sectors" [] (Sectors.ofBody mode table)
      let planes ← (Planes.link defs sectors).mapError .link
      return { theme := metadata.theme, name := metadata.name, sectors, planes, scripts }) =
        (.error error : Except LoadError Level) → LocatedOrLink error := by
    intro h
    refine locatedOrLink_of_bind h (located_readSegment hsectors _ _ _ _) fun sectors hread h => ?_
    have hbounded : ∀ sector ∈ sectors, sector.Bounded :=
      of_readSegment (P := fun _ sectors => ∀ sector ∈ sectors, sector.Bounded) hread (by simp)
        Sectors.bounded_ofBody
    cases hplanes : Planes.link defs sectors with
    | ok planes =>
        rw [hplanes] at h
        cases h
    | error fault =>
        rw [hplanes] at h
        cases h
        exact .inr ⟨defs, sectors, fault, hbounded, hplanes, rfl⟩
  dsimp only at h
  split at h
  · exact locatedOrLink_of_bind h (located_slip (located_structural _ _)) fun _ _ => hrest
  · exact hrest h

variable {settings : Settings} {files : FileReader} {folder : Path} {lines : List Line}

/-- A level that cannot be loaded from lines fails with a line or in the linking. -/
theorem locatedOrLink_of_ofLines {error : LoadError} (h : ofLines settings files folder lines = .error error) :
    LocatedOrLink error := by
  refine locatedOrLink_of_bind h (located_mapError _ fun e => ⟨0, rfl⟩) fun _ _ h => ?_
  cases hmetadata : Header.metadata? lines with
  | none =>
      rw [hmetadata] at h
      cases h
      exact .inl ⟨lines.length, rfl⟩
  | some metadata =>
      rw [hmetadata] at h
      exact locatedOrLink_of_bind h (located_mapError _ fun failure => ⟨failure.line, rfl⟩)
        fun expansion _ h => locatedOrLink_of_ofExpanded h

theorem ofLines_ne_unreadable (settings : Settings) (files : FileReader) (folder : Path) (lines : List Line)
    (path : Path) (fault : FileFault) : ofLines settings files folder lines ≠ .error (.unreadable path fault) := by
  intro h
  rcases locatedOrLink_of_ofLines h with ⟨number, hnumber⟩ | ⟨-, -, fault', -, -, hlink⟩
  · cases hnumber
  · cases hlink

theorem ofLines_of_failure {failure : ImportFailure} (hcheck : Header.check lines = .ok ())
    (hmetadata : (Header.metadata? lines).isSome = true)
    (hexpand : Import.expand settings files folder lines = .error failure) :
    ofLines settings files folder lines = .error (.structural failure.line (.importing failure.error)) := by
  obtain ⟨metadata, hmetadata⟩ := Option.isSome_iff_exists.mp hmetadata
  rw [ofLines, hcheck, hmetadata, hexpand]
  rfl

end Level

namespace Import

/-! ### The line of a failure -/

/-- The failure points at an import line, at one place in the lines that the failing pass began with and in those that
are left, and up to there the lines are the same. -/
structure PointsAt (started : List Line) (failure : ImportFailure) : Prop where
  directive : ∃ line, isImport line = true ∧ started[failure.line]? = some line ∧
    failure.lines[failure.line]? = some line
  take_eq : failure.lines.take (failure.line + 1) = started.take (failure.line + 1)

section PointsAt

variable {mode : Mode} {files : FileReader} {folder : Path} {maxDepth : Nat} {started : List Line}
  {failure : ImportFailure}

theorem pointsAt_append {before rest out : List Line} {line : Line} (himport : isImport line = true)
    (error : ImportError) :
    PointsAt (before ++ line :: rest) ⟨before.length, error, before ++ line :: out⟩ where
  directive := ⟨line, himport, by simp, by simp⟩
  take_eq := by simp [List.take_append]

theorem BreaksOff.pointsAt (h : BreaksOff mode files folder started failure) : PointsAt started failure := by
  cases h with
  | intro himport _ _ => exact pointsAt_append himport _

/-- The import lines behind the one at which a pass breaks off have been replaced. -/
theorem BreaksOff.replacesAll (h : BreaksOff mode files folder started failure) :
    ReplacesAll mode files folder (started.take (failure.line + 1)) (started.drop (failure.line + 1))
      (failure.lines.drop (failure.line + 1)) := by
  cases h with
  | @intro before rest out directive _ _ hrest _ =>
      have hlength : before.length + 1 = (before ++ [directive]).length := by simp
      dsimp only
      rwa [List.append_cons before directive rest, List.append_cons before directive out, hlength, List.take_left,
        List.drop_left, List.drop_left]

theorem BreaksOff.error_ne_tooDeep (h : BreaksOff mode files folder started failure) :
    failure.error ≠ .tooDeep maxDepth := by
  cases h with
  | intro _ _ herror => cases herror <;> simp

theorem RunsOut.pointsAt (h : RunsOut maxDepth started failure) : PointsAt started failure := by
  cases h with
  | intro _ himport => exact pointsAt_append himport _

/-- The import line at which no pass is left is the first. -/
theorem RunsOut.first (h : RunsOut maxDepth started failure) :
    failure.error = .tooDeep maxDepth ∧ failure.lines = started ∧
      ∀ line ∈ started.take failure.line, isImport line = false := by
  cases h with
  | intro hbefore _ => exact ⟨rfl, rfl, by simpa using hbefore⟩

end PointsAt

/-- A failure points at its import line. An expansion fails just if, after some number of passes that end, the next
breaks off or no other is allowed. Either way the failure gives the number of an import line, which that line has both
in the lines at the beginning of the failing pass and in those that are left, with the same lines before it. If the pass
broke off then the imports behind the line had all been replaced; otherwise the line is the first import. A level with
such a failure is not loaded because of its structure at this line, and no level is rejected for an unreadable file. -/
theorem failures_point_at_imports (settings : Settings) (files : FileReader) (folder : Path) (lines : List Line) :
    (∀ failure, expand settings files folder lines = .error failure ↔
      ∃ count started, AfterPasses settings.mode files folder count lines started ∧ PointsAt started failure ∧
        (count < settings.maxDepth ∧ BreaksOff settings.mode files folder started failure ∧
            failure.error ≠ .tooDeep settings.maxDepth ∧
            ReplacesAll settings.mode files folder (started.take (failure.line + 1))
              (started.drop (failure.line + 1)) (failure.lines.drop (failure.line + 1)) ∨
          count = settings.maxDepth ∧ RunsOut settings.maxDepth started failure ∧
            failure.error = .tooDeep settings.maxDepth ∧ failure.lines = started ∧
            ∀ line ∈ started.take failure.line, isImport line = false)) ∧
      (∀ failure, expand settings files folder lines = .error failure → Header.check lines = .ok () →
        (Header.metadata? lines).isSome = true →
          Level.ofLines settings files folder lines =
            .error (.structural failure.line (.importing failure.error))) ∧
      ∀ path fault, Level.ofLines settings files folder lines ≠ .error (.unreadable path fault) := by
  refine ⟨fun failure => ?_, fun failure hexpand hcheck hmetadata => ?_, ?_⟩
  · rw [expand, passes_eq_error_iff]
    constructor
    · rintro ⟨count, started, hafter, ⟨hcount, hbreaks⟩ | ⟨hcount, hruns⟩⟩
      · exact ⟨count, started, hafter, hbreaks.pointsAt,
          .inl ⟨hcount, hbreaks, hbreaks.error_ne_tooDeep, hbreaks.replacesAll⟩⟩
      · exact ⟨count, started, hafter, hruns.pointsAt, .inr ⟨hcount, hruns, hruns.first⟩⟩
    · rintro ⟨count, started, hafter, -, ⟨hcount, hbreaks, -⟩ | ⟨hcount, hruns, -⟩⟩
      · exact ⟨count, started, hafter, .inl ⟨hcount, hbreaks⟩⟩
      · exact ⟨count, started, hafter, .inr ⟨hcount, hruns⟩⟩
  · exact Level.ofLines_of_failure hcheck hmetadata hexpand
  · exact Level.ofLines_ne_unreadable settings files folder lines

/-- A level that imports from a file which cannot be read, and behind that a later segment of its own. -/
def lostLevel : List Line :=
  ["#Format MDMF", "#Segment [Hall]", "#import lost::Doors", "floor", "#include ::Walls", "#Segment [Walls]", "brick",
    "plaster", "#Segment End"]

def lostLeft : List Line :=
  ["#Format MDMF", "#Segment [Hall]", "#import lost::Doors", "floor", "brick", "plaster", "#Segment [Walls]", "brick",
    "plaster", "#Segment End"]

theorem lostLevel_points_at_import :
    expand {} nestedFiles "" lostLevel =
        .error ⟨2, .body "lost::Doors" (.unreadable "lost" .notFound), lostLeft⟩ ∧
      Header.check lostLevel = .ok () ∧ (Header.metadata? lostLevel).isSome = true ∧
      (∃ count started, AfterPasses .strict nestedFiles "" count lostLevel started ∧
        started.take 3 = lostLeft.take 3) ∧
      Level.ofLines {} nestedFiles "" lostLevel =
        .error (.structural 2 (.importing (.body "lost::Doors" (.unreadable "lost" .notFound)))) := by
  have hexpand : expand {} nestedFiles "" lostLevel =
      .error ⟨2, .body "lost::Doors" (.unreadable "lost" .notFound), lostLeft⟩ := by decide +kernel
  have hcheck : Header.check lostLevel = .ok () := by decide +kernel
  have hmetadata : (Header.metadata? lostLevel).isSome = true := by decide +kernel
  obtain ⟨hpoints, hlevel, -⟩ := failures_point_at_imports {} nestedFiles "" lostLevel
  obtain ⟨count, started, hafter, hat, -⟩ := (hpoints _).mp hexpand
  exact ⟨hexpand, hcheck, hmetadata, ⟨count, started, hafter, hat.take_eq.symm⟩,
    hlevel _ hexpand hcheck hmetadata⟩

end Import

end LevelPlay
