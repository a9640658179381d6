import LevelPlay.Proofs.Import.Segments

/-! The course of an expansion. A pass replaces import lines from the last to the first, each by the lines for which
it stands when those behind it have been replaced and those before it have not; it breaks off at an import line that
cannot be replaced. Passes follow each other until one breaks off, until no import line is left, or until as many have
been made as are allowed. -/

namespace LevelPlay.Import

/-! ### What an import line stands for -/

/-- The lines for which an import line stands: the body of the segment that its target names, a segment of
`level` if the target gives no path, and of the named file otherwise. -/
def StandsFor (mode : Mode) (files : FileReader) (folder : Path) (level : List Line) (line : Line)
    (body : List Line) : Prop :=
  ∃ spec named, target line = .ok (spec, named) ∧ targetBody mode files folder level named = .ok body

section Pass

variable {mode : Mode} {files : FileReader} {folder : Path} {level : List Line}

theorem StandsFor.det {line : Line} {body other : List Line} (h : StandsFor mode files folder level line body)
    (h' : StandsFor mode files folder level line other) : body = other := by
  obtain ⟨spec, named, htarget, hbody⟩ := h
  obtain ⟨spec', named', htarget', hbody'⟩ := h'
  rw [htarget] at htarget'
  cases htarget'
  rw [hbody] at hbody'
  cases hbody'
  rfl

theorem headerFree_of_segmentBody {lines body : List Line} {segment : String}
    (h : segmentBody mode lines segment = .ok body) : HeaderFree body := by
  rw [segmentBody] at h
  split at h
  · cases h
  · split at h
    · cases h
    · cases h
      exact headerFree_body _ _

theorem StandsFor.headerFree {line : Line} {body : List Line}
    (h : StandsFor mode files folder level line body) : HeaderFree body := by
  obtain ⟨spec, named, -, hbody⟩ := h
  rw [targetBody] at hbody
  split at hbody
  · exact headerFree_of_segmentBody hbody
  · dsimp only at hbody
    split at hbody
    · cases hbody
    · exact headerFree_of_segmentBody hbody

theorem replacement_eq_ok_iff {line : Line} {body : List Line} :
    replacement mode files folder level line = .ok body ↔ StandsFor mode files folder level line body := by
  rw [replacement, Result.bind_eq_ok_iff]
  constructor
  · rintro ⟨⟨spec, named⟩, htarget, hbody⟩
    refine ⟨spec, named, htarget, ?_⟩
    dsimp only at hbody
    split at hbody
    · cases hbody
    · rename_i found hfound
      cases hbody
      exact hfound
  · rintro ⟨spec, named, htarget, hbody⟩
    exact ⟨(spec, named), htarget, by simp only [hbody]; rfl⟩

/-! ### What stands in the way of a replacement -/

variable (mode files folder)

/-- The lines among which the segment of a target is looked for: those of the level if the target gives no path, and
those of the named file otherwise. -/
inductive LooksIn (level : List Line) (named : ImportTarget) : List Line → Prop where
  | level (hlocal : named.isLocal = true) : LooksIn level named level
  | file {text : String} (hfile : named.isLocal = false) (hread : files (Path.join folder named.path) = .ok text) :
      LooksIn level named (Line.ofText text)

/-- Why an import line cannot be replaced: it names no target, or what it names is not one, or the file cannot be read,
or the segments of the file or of the level cannot be listed, or the segment is not among them. -/
inductive Unresolved (level : List Line) (directive : Line) : ImportError → Prop where
  | noTarget (hspec : Text.afterFirstWord directive = "") : Unresolved level directive (.noTarget directive)
  | target {error : TargetError} (hspec : Text.afterFirstWord directive ≠ "")
      (hparse : ImportTarget.parse (Text.afterFirstWord directive) = .error error) :
      Unresolved level directive (.target error)
  | unreadable {spec : String} {named : ImportTarget} {fault : FileFault}
      (htarget : Import.target directive = .ok (spec, named)) (hfile : named.isLocal = false)
      (hread : files (Path.join folder named.path) = .error fault) :
      Unresolved level directive (.body spec (.unreadable (Path.join folder named.path) fault))
  | segments {spec : String} {named : ImportTarget} {source : List Line} {number : Nat} {error : SegmentError}
      (htarget : Import.target directive = .ok (spec, named)) (hsource : LooksIn files folder level named source)
      (hsegments : SegmentIndex.ofLines mode source = .error (number, error)) :
      Unresolved level directive (.body spec (.segments number error))
  | noSegment {spec : String} {named : ImportTarget} {source : List Line} {index : SegmentIndex}
      (htarget : Import.target directive = .ok (spec, named)) (hsource : LooksIn files folder level named source)
      (hindex : SegmentIndex.ofLines mode source = .ok index) (hsegment : index.get? named.segment = none) :
      Unresolved level directive (.body spec (.noSegment named.segment))

variable {mode files folder} {source : List Line} {directive : Line} {named : ImportTarget}

theorem target_eq_error_iff {error : ImportError} :
    target directive = .error error ↔
      (Text.afterFirstWord directive = "" ∧ error = .noTarget directive) ∨
        (Text.afterFirstWord directive ≠ "" ∧
          ∃ e, ImportTarget.parse (Text.afterFirstWord directive) = .error e ∧ error = .target e) := by
  rw [target]
  by_cases hspec : Text.afterFirstWord directive = ""
  · simp [hspec, eq_comm (a := error)]
  · cases hparse : ImportTarget.parse (Text.afterFirstWord directive) <;>
      simp [hspec, eq_comm (a := error)]

theorem segmentBody_eq_error_iff {lines : List Line} {segment : String} {error : BodyError} :
    segmentBody mode lines segment = .error error ↔
      (∃ number e, SegmentIndex.ofLines mode lines = .error (number, e) ∧ error = .segments number e) ∨
        ∃ index, SegmentIndex.ofLines mode lines = .ok index ∧ index.get? segment = none ∧
          error = .noSegment segment := by
  rw [segmentBody]
  cases SegmentIndex.ofLines mode lines with
  | error e => simp [Prod.ext_iff, eq_comm (a := error)]
  | ok index => cases hget : index.get? segment <;> simp [hget, eq_comm (a := error)]

theorem targetBody_eq_of_looksIn (h : LooksIn files folder level named source) :
    targetBody mode files folder level named = segmentBody mode source named.segment := by
  rw [targetBody]
  cases h with
  | level hlocal => rw [if_pos hlocal]
  | file hfile hread => simp [hfile, hread]

theorem targetBody_cases (files : FileReader) (folder : Path) (level : List Line) (named : ImportTarget) :
    (∃ source, LooksIn files folder level named source) ∨
      named.isLocal = false ∧ ∃ fault, files (Path.join folder named.path) = .error fault := by
  cases hlocal : named.isLocal with
  | true => exact .inl ⟨level, .level hlocal⟩
  | false =>
      cases hread : files (Path.join folder named.path) with
      | ok text => exact .inl ⟨_, .file hlocal hread⟩
      | error fault => exact .inr ⟨rfl, fault, rfl⟩

theorem targetBody_of_unreadable {fault : FileFault} (hfile : named.isLocal = false)
    (hread : files (Path.join folder named.path) = .error fault) :
    targetBody mode files folder level named = .error (.unreadable (Path.join folder named.path) fault) := by
  simp [targetBody, hfile, hread]

theorem replacement_of_target {spec : String} (htarget : target directive = .ok (spec, named)) :
    replacement mode files folder level directive =
      (targetBody mode files folder level named).mapError (ImportError.body spec) := by
  rw [replacement, htarget, Result.ok_bind]
  dsimp only
  cases targetBody mode files folder level named <;> rfl

theorem replacement_eq_error_iff {error : ImportError} :
    replacement mode files folder level directive = .error error ↔
      Unresolved mode files folder level directive error := by
  constructor
  · intro h
    cases htarget : target directive with
    | error e =>
        rw [replacement, htarget] at h
        cases h
        rcases target_eq_error_iff.mp htarget with ⟨hspec, rfl⟩ | ⟨hspec, e, hparse, rfl⟩
        · exact .noTarget hspec
        · exact .target hspec hparse
    | ok found =>
        obtain ⟨spec, named⟩ := found
        rw [replacement_of_target htarget] at h
        rcases targetBody_cases files folder level named with ⟨source, hsource⟩ | ⟨hfile, fault, hread⟩
        · rw [targetBody_eq_of_looksIn hsource] at h
          cases hbody : segmentBody mode source named.segment with
          | ok body =>
              rw [hbody] at h
              cases h
          | error e =>
              rw [hbody] at h
              cases h
              rcases segmentBody_eq_error_iff.mp hbody with
                ⟨number, e, hsegments, rfl⟩ | ⟨index, hindex, hsegment, rfl⟩
              · exact .segments htarget hsource hsegments
              · exact .noSegment htarget hsource hindex hsegment
        · rw [targetBody_of_unreadable hfile hread] at h
          cases h
          exact .unreadable htarget hfile hread
  · intro h
    cases h with
    | noTarget hspec => rw [replacement, target_eq_error_iff.mpr (.inl ⟨hspec, rfl⟩)]; rfl
    | target hspec hparse => rw [replacement, target_eq_error_iff.mpr (.inr ⟨hspec, _, hparse, rfl⟩)]; rfl
    | unreadable htarget hfile hread =>
        rw [replacement_of_target htarget, targetBody_of_unreadable hfile hread]
        rfl
    | segments htarget hsource hsegments =>
        rw [replacement_of_target htarget, targetBody_eq_of_looksIn hsource,
          segmentBody_eq_error_iff.mpr (.inl ⟨_, _, hsegments, rfl⟩)]
        rfl
    | noSegment htarget hsource hindex hsegment =>
        rw [replacement_of_target htarget, targetBody_eq_of_looksIn hsource,
          segmentBody_eq_error_iff.mpr (.inr ⟨_, hindex, hsegment, rfl⟩)]
        rfl

theorem Unresolved.not_standsFor {error : ImportError} (h : Unresolved mode files folder level directive error)
    (body : List Line) : ¬StandsFor mode files folder level directive body := fun hbody =>
  nomatch (replacement_eq_error_iff.mpr h).symm.trans (replacement_eq_ok_iff.mpr hbody)

/-! ### A pass -/

variable (mode files folder)

/-- In the lines `front ++ rest` the import lines of `rest` are replaced, the last first, each by the lines for which it
stands in the level at that point. `out` is what becomes of `rest`. -/
inductive ReplacesAll : List Line → List Line → List Line → Prop where
  | nil (front : List Line) : ReplacesAll front [] []
  | keep {front rest out : List Line} {line : Line} (hkeep : isImport line = false)
      (hrest : ReplacesAll (front ++ [line]) rest out) : ReplacesAll front (line :: rest) (line :: out)
  | splice {front rest body out : List Line} {line : Line} (himport : isImport line = true)
      (hrest : ReplacesAll (front ++ [line]) rest out)
      (hbody : StandsFor mode files folder (front ++ line :: out) line body) :
      ReplacesAll front (line :: rest) (body ++ out)

/-- A pass over the lines `started` breaks off at an import line: those behind it have been replaced, and it cannot be
replaced in the lines as they are then. -/
inductive BreaksOff : List Line → ImportFailure → Prop where
  | intro {before rest out : List Line} {directive : Line} {error : ImportError} (himport : isImport directive = true)
      (hrest : ReplacesAll mode files folder (before ++ [directive]) rest out)
      (herror : Unresolved mode files folder (before ++ directive :: out) directive error) :
      BreaksOff (before ++ directive :: rest) ⟨before.length, error, before ++ directive :: out⟩

variable {mode files folder}

/-- A pass leaves other lines where they are. -/
theorem pass_other {line : Line} {before after : List Line} (hkeep : isImport line = false) :
    pass mode files folder (line :: before) after = pass mode files folder before (line :: after) := by
  rw [pass, hkeep, if_neg Bool.false_ne_true]

theorem pass_of_standsFor {line : Line} {before after body : List Line} (himport : isImport line = true)
    (hbody : StandsFor mode files folder (before.reverse ++ line :: after) line body) :
    pass mode files folder (line :: before) after =
      (pass mode files folder before (body ++ after)).map fun done => (done.1, done.2 + 1) := by
  rw [pass, if_pos himport]
  simp only [replacement_eq_ok_iff.mpr hbody]

theorem pass_of_unresolved {line : Line} {before after : List Line} {error : ImportError}
    (himport : isImport line = true)
    (herror : Unresolved mode files folder (before.reverse ++ line :: after) line error) :
    pass mode files folder (line :: before) after =
      .error ⟨before.length, error, before.reverse ++ line :: after⟩ := by
  rw [pass, if_pos himport]
  simp only [replacement_eq_error_iff.mpr herror]

/-- A pass over lines at the end has come to those in front of them. -/
theorem ReplacesAll.pass_append {front rest out : List Line} (h : ReplacesAll mode files folder front rest out) :
    pass mode files folder (rest.reverse ++ front.reverse) [] =
      (pass mode files folder front.reverse out).map fun done => (done.1, done.2 + rest.countP isImport) := by
  induction h with
  | nil front =>
      rw [List.reverse_nil, List.nil_append]
      cases pass mode files folder front.reverse [] <;> rfl
  | @keep front rest out line hkeep _ ih =>
      rw [List.reverse_append, List.reverse_singleton, List.singleton_append, pass_other hkeep] at ih
      rw [List.reverse_cons, List.append_assoc, List.singleton_append, ih, List.countP_cons_of_neg (by simp [hkeep])]
  | @splice front rest body out line himport _ hbody ih =>
      rw [← List.reverse_reverse front] at hbody
      rw [List.reverse_append, List.reverse_singleton, List.singleton_append, pass_of_standsFor himport hbody] at ih
      rw [List.reverse_cons, List.append_assoc, List.singleton_append, ih, List.countP_cons_of_pos himport]
      cases pass mode files folder front.reverse (body ++ out) with
      | error failure => rfl
      | ok done =>
          obtain ⟨last, replaced⟩ := done
          simp [Except.map, Nat.add_comm, Nat.add_left_comm]

/-- The import lines at the end of a level are all replaced, or one of them cannot be. -/
theorem replacesAll_or_unresolved (mode : Mode) (files : FileReader) (folder : Path) (front rest : List Line) :
    (∃ out, ReplacesAll mode files folder front rest out) ∨
      ∃ before directive later out error, rest = before ++ directive :: later ∧ isImport directive = true ∧
        ReplacesAll mode files folder (front ++ before ++ [directive]) later out ∧
        Unresolved mode files folder (front ++ before ++ directive :: out) directive error := by
  induction rest generalizing front with
  | nil => exact .inl ⟨[], .nil front⟩
  | cons line rest ih =>
      rcases ih (front ++ [line]) with
        ⟨out, hrest⟩ | ⟨before, directive, later, out, error, rfl, hdirective, hlater, herror⟩
      · cases himport : isImport line with
        | false => exact .inl ⟨line :: out, .keep himport hrest⟩
        | true =>
            cases hbody : replacement mode files folder (front ++ line :: out) line with
            | ok body => exact .inl ⟨body ++ out, .splice himport hrest (replacement_eq_ok_iff.mp hbody)⟩
            | error error =>
                refine .inr ⟨[], line, rest, out, error, rfl, himport, ?_, ?_⟩
                · rwa [List.append_nil]
                · rw [List.append_nil]
                  exact replacement_eq_error_iff.mp hbody
      · rw [List.append_assoc front, List.singleton_append] at hlater herror
        exact .inr ⟨line :: before, directive, later, out, error, rfl, hdirective, hlater, herror⟩

theorem ReplacesAll.pass_eq_ok {lines out : List Line} (h : ReplacesAll mode files folder [] lines out) :
    pass mode files folder lines.reverse [] = .ok (out, lines.countP isImport) := by
  have hpass := h.pass_append
  rw [List.reverse_nil, List.append_nil, pass, Except.map, Nat.zero_add] at hpass
  exact hpass

theorem BreaksOff.pass_eq_error {lines : List Line} {failure : ImportFailure}
    (h : BreaksOff mode files folder lines failure) :
    pass mode files folder lines.reverse [] = .error failure := by
  cases h with
  | @intro before rest out directive error himport hrest herror =>
      have hpass := hrest.pass_append
      rw [← List.reverse_reverse before] at herror
      rw [List.reverse_append, List.reverse_singleton, List.singleton_append, pass_of_unresolved himport herror,
        List.reverse_reverse, List.length_reverse] at hpass
      rw [List.reverse_append, List.reverse_cons, List.append_assoc, List.singleton_append, hpass]
      rfl

/-- A pass replaces all import lines, or it breaks off. -/
theorem replacesAll_or_breaksOff (mode : Mode) (files : FileReader) (folder : Path) (lines : List Line) :
    (∃ out, ReplacesAll mode files folder [] lines out) ∨
      ∃ failure, BreaksOff mode files folder lines failure := by
  rcases replacesAll_or_unresolved mode files folder [] lines with
    hall | ⟨before, directive, later, out, error, rfl, himport, hlater, herror⟩
  · exact .inl hall
  · exact .inr ⟨_, .intro himport hlater herror⟩

theorem pass_eq_ok_iff {lines out : List Line} {replaced : Nat} :
    pass mode files folder lines.reverse [] = .ok (out, replaced) ↔
      ReplacesAll mode files folder [] lines out ∧ replaced = lines.countP isImport := by
  constructor
  · intro h
    rcases replacesAll_or_breaksOff mode files folder lines with ⟨out', hall⟩ | ⟨failure, hbreaks⟩
    · cases hall.pass_eq_ok.symm.trans h
      exact ⟨hall, rfl⟩
    · cases hbreaks.pass_eq_error.symm.trans h
  · rintro ⟨hall, rfl⟩
    exact hall.pass_eq_ok

theorem pass_eq_error_iff {lines : List Line} {failure : ImportFailure} :
    pass mode files folder lines.reverse [] = .error failure ↔ BreaksOff mode files folder lines failure := by
  constructor
  · intro h
    rcases replacesAll_or_breaksOff mode files folder lines with ⟨out, hall⟩ | ⟨failure', hbreaks⟩
    · cases hall.pass_eq_ok.symm.trans h
    · cases hbreaks.pass_eq_error.symm.trans h
      exact hbreaks
  · exact BreaksOff.pass_eq_error

end Pass

/-! ### Passes -/

section Passes

variable (mode : Mode) (files : FileReader) (folder : Path)

/-- So many passes, each over lines with an import among them, make of the first lines the second. -/
inductive AfterPasses : Nat → List Line → List Line → Prop where
  | none (lines : List Line) : AfterPasses 0 lines lines
  | next {count : Nat} {lines between out : List Line} (himport : ¬∀ line ∈ lines, isImport line = false)
      (hpass : ReplacesAll mode files folder [] lines between) (hrest : AfterPasses count between out) :
      AfterPasses (count + 1) lines out

/-- No further pass is allowed, although there is an import line; the first is where this shows. -/
inductive RunsOut (maxDepth : Nat) : List Line → ImportFailure → Prop where
  | intro {before rest : List Line} {directive : Line} (hbefore : ∀ line ∈ before, isImport line = false)
      (himport : isImport directive = true) :
      RunsOut maxDepth (before ++ directive :: rest)
        ⟨before.length, .tooDeep maxDepth, before ++ directive :: rest⟩

variable {mode files folder}

theorem not_forall_of_import {before rest : List Line} {directive : Line} (himport : isImport directive = true) :
    ¬∀ line ∈ before ++ directive :: rest, isImport line = false := fun hclear =>
  nomatch himport.symm.trans (hclear directive (List.mem_append_right before List.mem_cons_self))

theorem BreaksOff.exists_import {lines : List Line} {failure : ImportFailure}
    (h : BreaksOff mode files folder lines failure) : ¬∀ line ∈ lines, isImport line = false := by
  cases h with
  | intro himport _ _ => exact not_forall_of_import himport

theorem RunsOut.exists_import {maxDepth : Nat} {lines : List Line} {failure : ImportFailure}
    (h : RunsOut maxDepth lines failure) : ¬∀ line ∈ lines, isImport line = false := by
  cases h with
  | intro _ himport => exact not_forall_of_import himport

theorem RunsOut.findIdx?_eq {maxDepth : Nat} {lines : List Line} {failure : ImportFailure}
    (h : RunsOut maxDepth lines failure) :
    lines.findIdx? isImport = some failure.line ∧
      failure = ⟨failure.line, .tooDeep maxDepth, lines⟩ := by
  cases h with
  | @intro before rest directive hbefore himport =>
      have hnone : before.findIdx? isImport = none := List.findIdx?_eq_none_iff.mpr hbefore
      rw [List.findIdx?_append, hnone, List.findIdx?_cons, if_pos himport]
      simp

theorem exists_runsOut (maxDepth : Nat) {lines : List Line} (h : ¬∀ line ∈ lines, isImport line = false) :
    ∃ failure, RunsOut maxDepth lines failure := by
  cases hfind : lines.find? isImport with
  | none => exact absurd (by simpa using hfind) h
  | some directive =>
      obtain ⟨himport, before, rest, rfl, hbefore⟩ := List.find?_eq_some_iff_append.mp hfind
      exact ⟨_, .intro (by simpa using hbefore) himport⟩

variable {settings : Settings} {state done : Expansion} {left : Nat}

theorem RunsOut.passes_eq_error {failure : ImportFailure} (h : RunsOut settings.maxDepth state.lines failure) :
    passes settings files folder 0 state = .error failure := by
  obtain ⟨hfind, hfailure⟩ := h.findIdx?_eq
  rw [passes, hfind, hfailure]

theorem passes_of_no_import (settings : Settings) (files : FileReader) (folder : Path) (left : Nat)
    (state : Expansion) (h : ∀ line ∈ state.lines, isImport line = false) :
    passes settings files folder left state = .ok state := by
  have hnone : state.lines.findIdx? isImport = none := List.findIdx?_eq_none_iff.mpr h
  cases left <;> rw [passes, hnone]

theorem passes_succ_of_import (left : Nat) {state : Expansion}
    (h : ¬∀ line ∈ state.lines, isImport line = false) :
    passes settings files folder (left + 1) state =
      pass settings.mode files folder state.lines.reverse [] >>= fun done =>
        passes settings files folder left ⟨done.1, state.passes + 1, state.replaced + done.2⟩ := by
  rw [passes]
  cases hfind : state.lines.findIdx? isImport with
  | none => exact absurd (List.findIdx?_eq_none_iff.mp hfind) h
  | some first => rfl

theorem passes_zero_of_import (h : ¬∀ line ∈ state.lines, isImport line = false) :
    ∃ failure, passes settings files folder 0 state = .error failure ∧
      failure.error = .tooDeep settings.maxDepth := by
  obtain ⟨failure, hruns⟩ := exists_runsOut settings.maxDepth h
  exact ⟨failure, hruns.passes_eq_error, congrArg ImportFailure.error hruns.findIdx?_eq.2⟩

/-- Passes that succeed have nothing to replace, or begin with a pass that succeeds. -/
theorem passes_eq_ok (h : passes settings files folder left state = .ok done) :
    (∀ line ∈ state.lines, isImport line = false) ∧ done = state ∨
      (¬∀ line ∈ state.lines, isImport line = false) ∧ ∃ fewer out replaced, left = fewer + 1 ∧
        pass settings.mode files folder state.lines.reverse [] = .ok (out, replaced) ∧
        passes settings files folder fewer ⟨out, state.passes + 1, state.replaced + replaced⟩ = .ok done := by
  by_cases hclear : ∀ line ∈ state.lines, isImport line = false
  · rw [passes_of_no_import settings files folder left state hclear] at h
    cases h
    exact .inl ⟨hclear, rfl⟩
  · refine .inr ⟨hclear, ?_⟩
    cases left with
    | zero =>
        obtain ⟨failure, hfailure, -⟩ := passes_zero_of_import hclear
        cases hfailure.symm.trans h
    | succ left =>
        rw [passes_succ_of_import left hclear] at h
        obtain ⟨⟨out, replaced⟩, hpass, hrest⟩ := Result.bind_eq_ok_iff.mp h
        exact ⟨left, out, replaced, rfl, hpass, hrest⟩

/-- Passes that succeed make of the lines what they are in the end, and then no import line is left. -/
theorem exists_afterPasses (h : passes settings files folder left state = .ok done) :
    ∃ count, AfterPasses settings.mode files folder count state.lines done.lines ∧
      ∀ line ∈ done.lines, isImport line = false := by
  induction left generalizing state with
  | zero =>
      rcases passes_eq_ok h with ⟨hclear, rfl⟩ | ⟨-, _, _, _, hleft, -⟩
      · exact ⟨0, .none done.lines, hclear⟩
      · cases hleft
  | succ left ih =>
      rcases passes_eq_ok h with ⟨hclear, rfl⟩ | ⟨himport, _, out, replaced, ⟨⟩, hpass, hrest⟩
      · exact ⟨0, .none done.lines, hclear⟩
      · obtain ⟨count, hafter, hclear⟩ := ih hrest
        exact ⟨count + 1, .next himport (pass_eq_ok_iff.mp hpass).1 hafter, hclear⟩

/-- Passes fail where one of them breaks off, or where an import line is left when as many have been made as are
allowed. -/
theorem passes_eq_error_iff {failure : ImportFailure} :
    passes settings files folder left state = .error failure ↔
      ∃ count started, AfterPasses settings.mode files folder count state.lines started ∧
        (count < left ∧ BreaksOff settings.mode files folder started failure ∨
          count = left ∧ RunsOut settings.maxDepth started failure) := by
  constructor
  · intro h
    induction left generalizing state with
    | zero =>
        by_cases hclear : ∀ line ∈ state.lines, isImport line = false
        · cases (passes_of_no_import settings files folder 0 state hclear).symm.trans h
        · obtain ⟨failure', hruns⟩ := exists_runsOut settings.maxDepth hclear
          cases hruns.passes_eq_error.symm.trans h
          exact ⟨0, state.lines, .none state.lines, .inr ⟨rfl, hruns⟩⟩
    | succ left ih =>
        by_cases hclear : ∀ line ∈ state.lines, isImport line = false
        · cases (passes_of_no_import settings files folder (left + 1) state hclear).symm.trans h
        · rw [passes_succ_of_import left hclear, Result.bind_eq_error_iff] at h
          rcases h with hpass | ⟨⟨out, replaced⟩, hpass, hrest⟩
          · exact ⟨0, state.lines, .none state.lines, .inl ⟨Nat.succ_pos left, pass_eq_error_iff.mp hpass⟩⟩
          · obtain ⟨count, started, hafter, hends⟩ := ih hrest
            refine ⟨count + 1, started, .next hclear (pass_eq_ok_iff.mp hpass).1 hafter, ?_⟩
            simpa using hends
  · rintro ⟨count, started, hafter, hends⟩
    generalize hlines : state.lines = lines at hafter
    induction hafter generalizing state left with
    | none lines =>
        subst hlines
        rcases hends with ⟨hlt, hbreaks⟩ | ⟨rfl, hruns⟩
        · obtain ⟨left, rfl⟩ := Nat.exists_eq_succ_of_ne_zero (Nat.ne_of_gt hlt)
          rw [passes_succ_of_import left hbreaks.exists_import, hbreaks.pass_eq_error]
          rfl
        · exact hruns.passes_eq_error
    | @next count lines between out himport hpass hrest ih =>
        subst hlines
        obtain ⟨left, rfl⟩ : ∃ fewer, left = fewer + 1 := by
          refine Nat.exists_eq_succ_of_ne_zero ?_
          rcases hends with ⟨hlt, -⟩ | ⟨rfl, -⟩ <;> omega
        rw [passes_succ_of_import left himport, hpass.pass_eq_ok, Result.ok_bind]
        exact ih (by simpa using hends) rfl

end Passes

end LevelPlay.Import
