import LevelPlay.Proofs.Import.Expansion
import LevelPlay.Proofs.Import.Nesting

/-! How many passes a level needs. Imports that resolve in the level resolve in all that it is unfolded to, so
a pass over them never fails, and it takes off at least one level of nesting: at least, because a local import
may find its lines unfolded already. Where all imports name files it takes off just one, and the passes are as
many as the levels. -/

namespace LevelPlay.Import

/-- The import line names a segment of a file, not one of the level itself. -/
def NamesFile (line : Line) : Prop :=
  ∃ spec named, target line = .ok (spec, named) ∧ named.isLocal = false

section Pass

variable (mode : Mode) (files : FileReader) (folder : Path) (level : List Line)

/-- Lines that a pass may bring in for an import line: an unfolding of those for which it stands in `level`,
and just those if it names a file. -/
def Brings (line : Line) (later : List Line) : Prop :=
  ∃ body, StandsFor mode files folder level line body ∧
    Unfolds (StandsFor mode files folder level) body later ∧ (NamesFile line → later = body)

variable {mode files folder level}

/-- The lines of a file do not depend on the level that imports them. -/
theorem StandsFor.eq_of_namesFile {line : Line} {body later other : List Line} (hfile : NamesFile line)
    (h : StandsFor mode files folder level line body) (h' : StandsFor mode files folder other line later) :
    later = body := by
  obtain ⟨spec, named, htarget, hlocal⟩ := hfile
  obtain ⟨spec', named', htarget', hbody⟩ := h
  obtain ⟨spec'', named'', htarget'', hlater⟩ := h'
  cases htarget.symm.trans htarget'
  cases htarget.symm.trans htarget''
  rw [targetBody, hlocal, if_neg Bool.false_ne_true] at hbody hlater
  exact Except.ok.inj (hlater.symm.trans hbody)

/-- An import line that resolves in a level resolves in what the level is unfolded to. -/
theorem StandsFor.exists_of_unfolds (hfirst : ∀ line ∈ level.head?, isImport line = false) {unfolded : List Line}
    (h : Unfolds (StandsFor mode files folder level) level unfolded) {line : Line} {body : List Line}
    (hbody : StandsFor mode files folder level line body) :
    ∃ later, StandsFor mode files folder unfolded line later := by
  obtain ⟨spec, named, htarget, hbody⟩ := hbody
  have hagree := targetBody_agree hfirst h named
  rw [hbody] at hagree
  obtain ⟨later, hlater, -⟩ := hagree.of_ok_left
  exact ⟨later, spec, named, htarget, hlater⟩

theorem StandsFor.brings (hfirst : ∀ line ∈ level.head?, isImport line = false) {unfolded : List Line}
    (h : Unfolds (StandsFor mode files folder level) level unfolded) {line : Line} {later : List Line}
    (hlater : StandsFor mode files folder unfolded line later) : Brings mode files folder level line later := by
  obtain ⟨body, hbody, hunfolds⟩ := hlater.of_unfolds hfirst h
  exact ⟨body, hbody, hunfolds, fun hfile => hbody.eq_of_namesFile hfile hlater⟩

/-- Every import line that is replaced gives way to lines that it may bring in. -/
theorem ReplacesAll.splices (hfirst : ∀ line ∈ level.head?, isImport line = false) {front rest out : List Line}
    (h : ReplacesAll mode files folder front rest out)
    (hfront : Unfolds (StandsFor mode files folder level) level (front ++ rest)) :
    Splices (Brings mode files folder level) rest out (rest.countP isImport) := by
  induction h with
  | nil front => exact .nil
  | keep hkeep _ ih =>
      rw [List.append_cons] at hfront
      rw [List.countP_cons_of_neg (by simp [hkeep])]
      exact .keep hkeep (ih hfront)
  | @splice front rest later out line himport hrest hlater ih =>
      rw [List.append_cons] at hfront
      have hunfolded := hrest.unfolds hfirst hfront
      rw [← List.append_cons] at hunfolded
      rw [List.countP_cons_of_pos himport]
      exact .splice himport (hlater.brings hfirst hunfolded) (ih hfront)

/-- What a pass makes of lines whose imports resolve, and that it replaces all of them. -/
theorem exists_replacesAll (hfirst : ∀ line ∈ level.head?, isImport line = false) {lines : List Line}
    (h : Unfolds (StandsFor mode files folder level) level lines)
    (hresolves : ∀ line ∈ lines, isImport line = true → ∃ body, StandsFor mode files folder level line body) :
    ∃ out, ReplacesAll mode files folder [] lines out ∧
      Splices (Brings mode files folder level) lines out (lines.countP isImport) ∧
      Unfolds (StandsFor mode files folder level) level out := by
  rcases replacesAll_or_unresolved mode files folder [] lines with
    ⟨out, hall⟩ | ⟨before, directive, later, out, error, rfl, himport, hlater, herror⟩
  · exact ⟨out, hall, hall.splices hfirst h, hall.unfolds hfirst h⟩
  · -- The line at which the pass would break off resolves in the level as the pass has left it so far.
    obtain ⟨body, hbody⟩ := hresolves directive (by simp) himport
    rw [List.append_cons] at h
    have hunfolded := hlater.unfolds hfirst h
    rw [← List.append_cons] at hunfolded
    obtain ⟨found, hfound⟩ := hbody.exists_of_unfolds hfirst hunfolded
    exact absurd hfound (herror.not_standsFor found)

end Pass

/-! ### Passes -/

section Passes

variable {settings : Settings} {files : FileReader} {folder : Path} {level : List Line}

theorem le_passes {left : Nat} {state done : Expansion}
    (h : passes settings files folder left state = .ok done) : state.passes ≤ done.passes := by
  induction left generalizing state with
  | zero =>
      rcases passes_eq_ok h with ⟨-, rfl⟩ | ⟨-, _, _, _, hleft, -⟩
      · exact Nat.le_refl _
      · cases hleft
  | succ left ih =>
      rcases passes_eq_ok h with ⟨-, rfl⟩ | ⟨-, _, out, replaced, ⟨⟩, -, hrest⟩
      · exact Nat.le_refl _
      · exact Nat.le_of_succ_le (ih hrest)

/-- A level is expanded without a pass just if it imports nothing. -/
theorem passes_eq_zero_iff {lines : List Line} {done : Expansion}
    (h : expand settings files folder lines = .ok done) :
    done.passes = 0 ↔ ∀ line ∈ lines, isImport line = false := by
  rcases passes_eq_ok h with ⟨hclear, rfl⟩ | ⟨hclear, _, out, replaced, -, -, hrest⟩
  · exact ⟨fun _ => hclear, fun _ => rfl⟩
  · have hpos : 0 + 1 ≤ done.passes := le_passes hrest
    exact ⟨fun hzero => by omega, fun h => absurd h hclear⟩

/-- Lines that nest no deeper than there are passes left are expanded, in no more passes than they nest
deep. -/
theorem exists_passes_of_nests (hfirst : ∀ line ∈ level.head?, isImport line = false) {left depth count : Nat}
    (state : Expansion) (h : Unfolds (StandsFor settings.mode files folder level) level state.lines)
    (hnests : Nests (StandsFor settings.mode files folder level) state.lines depth count)
    (hle : depth ≤ left) :
    ∃ done, passes settings files folder left state = .ok done ∧ done.passes ≤ state.passes + depth := by
  induction left generalizing depth count state with
  | zero =>
      have hclear := hnests.depth_eq_zero_iff.mp (Nat.le_zero.mp hle)
      exact ⟨state, passes_of_no_import settings files folder 0 state hclear, Nat.le_add_right _ _⟩
  | succ left ih =>
      by_cases hclear : ∀ line ∈ state.lines, isImport line = false
      · exact ⟨state, passes_of_no_import settings files folder (left + 1) state hclear, Nat.le_add_right _ _⟩
      · have hdepth : depth ≠ 0 := fun hzero => hclear (hnests.depth_eq_zero_iff.mp hzero)
        obtain ⟨out, hall, hsplices, hout⟩ :=
          exists_replacesAll hfirst h fun line hline himport => hnests.exists_body hline himport
        obtain ⟨d, c, hnext, hd⟩ := hnests.of_splices hsplices StandsFor.det
          fun ⟨body, hbody, hunfolds, _⟩ => ⟨body, hbody, hunfolds⟩
        obtain ⟨done, hdone, hpasses⟩ :=
          ih ⟨out, state.passes + 1, state.replaced + state.lines.countP isImport⟩ hout hnext (by omega)
        refine ⟨done, ?_, ?_⟩
        · rw [passes_succ_of_import left hclear, hall.pass_eq_ok]
          exact hdone
        · dsimp only at hpasses
          omega

/-- Where all imports that are reached name files and resolve, the lines are expanded in as many passes as
they nest deep, each import replaced once, or else they nest deeper than there are passes left. -/
theorem passes_of_namesFile (hfirst : ∀ line ∈ level.head?, isImport line = false) (left : Nat)
    (state : Expansion) (h : Unfolds (StandsFor settings.mode files folder level) level state.lines)
    (hreaches : ∀ line, Reaches (StandsFor settings.mode files folder level) state.lines line →
      NamesFile line ∧ ∃ body, StandsFor settings.mode files folder level line body) :
    (∃ depth count out, depth ≤ left ∧
        Nests (StandsFor settings.mode files folder level) state.lines depth count ∧
        passes settings files folder left state = .ok ⟨out, state.passes + depth, state.replaced + count⟩) ∨
      ((∀ depth count, Nests (StandsFor settings.mode files folder level) state.lines depth count →
          left < depth) ∧
        ∃ failure, passes settings files folder left state = .error failure ∧
          failure.error = .tooDeep settings.maxDepth) := by
  induction left generalizing state with
  | zero =>
      by_cases hclear : ∀ line ∈ state.lines, isImport line = false
      · exact .inl ⟨0, 0, state.lines, Nat.le_refl 0, .of_no_import hclear,
          passes_of_no_import settings files folder 0 state hclear⟩
      · refine .inr ⟨fun depth count hnests => ?_, passes_zero_of_import hclear⟩
        exact Nat.pos_of_ne_zero fun hzero => hclear (hnests.depth_eq_zero_iff.mp hzero)
  | succ left ih =>
      by_cases hclear : ∀ line ∈ state.lines, isImport line = false
      · exact .inl ⟨0, 0, state.lines, Nat.zero_le _, .of_no_import hclear,
          passes_of_no_import settings files folder (left + 1) state hclear⟩
      · obtain ⟨out, hall, hbrings, hout⟩ :=
          exists_replacesAll hfirst h fun line hline himport => (hreaches line (.here hline himport)).2
        have hpass := hall.pass_eq_ok
        generalize state.lines.countP isImport = replaced at hpass hbrings
        have hsplices : Splices (StandsFor settings.mode files folder level) state.lines out replaced := by
          refine hbrings.imp ?_
          rintro line hline himport later ⟨body, hbody, -, heq⟩
          cases heq (hreaches line (.here hline himport)).1
          exact hbody
        have hreplaced : replaced ≠ 0 := fun hzero => hclear (hsplices.replaced_eq_zero_iff.mp hzero)
        rw [passes_succ_of_import left hclear, hpass, Result.ok_bind]
        rcases ih ⟨out, state.passes + 1, state.replaced + replaced⟩ hout
            fun line hline => hreaches line (hsplices.unfolds.reaches hline) with
          ⟨depth, count, last, hle, hnests, hpasses⟩ | ⟨hdeep, hfailure⟩
        · obtain ⟨d, hlines, -, hd⟩ := hnests.of_splices_out hsplices
          cases hd hreplaced
          refine .inl ⟨depth + 1, count + replaced, last, Nat.succ_le_succ hle, hlines, ?_⟩
          rw [hpasses]
          simp only [Except.ok.injEq, Expansion.mk.injEq, true_and]
          omega
        · -- What the pass leaves nests too deep for the passes then left, hence so do the lines before it.
          refine .inr ⟨fun depth count hnests => ?_, hfailure⟩
          obtain ⟨d, c, hnext, -⟩ := hnests.of_unfolds hsplices.unfolds StandsFor.det
          obtain ⟨e, hlines, -, he⟩ := hnext.of_splices_out hsplices
          have hlt : left < d := hdeep d c hnext
          obtain ⟨rfl, -⟩ := hnests.det hlines StandsFor.det
          rw [he hreplaced]
          exact Nat.succ_lt_succ hlt

end Passes

/-- A level whose imports resolve, in turn, is expanded if they nest no deeper than the settings allow, in
no more passes than they nest deep, and without a pass just if there is none. If moreover all of them name
files then it is expanded in just as many passes as they nest deep, with one replacement for each of them;
and if they nest deeper, or without end, then just this is the error. -/
theorem expand_within_depth (settings : Settings) (files : FileReader) (folder : Path) (lines : List Line)
    (hfirst : ∀ line ∈ lines.head?, isImport line = false)
    (hresolves : ∀ line, Reaches (StandsFor settings.mode files folder lines) lines line →
      ∃ body, StandsFor settings.mode files folder lines line body) :
    (∀ depth count, Nests (StandsFor settings.mode files folder lines) lines depth count →
        depth ≤ settings.maxDepth →
        ∃ done, expand settings files folder lines = .ok done ∧ done.passes ≤ depth ∧
          (done.passes = 0 ↔ ∀ line ∈ lines, isImport line = false)) ∧
      ((∀ line, Reaches (StandsFor settings.mode files folder lines) lines line → NamesFile line) →
        (∀ passes replaced, (∃ out, expand settings files folder lines = .ok ⟨out, passes, replaced⟩) ↔
            Nests (StandsFor settings.mode files folder lines) lines passes replaced ∧
              passes ≤ settings.maxDepth) ∧
          ((¬∃ depth count, Nests (StandsFor settings.mode files folder lines) lines depth count ∧
              depth ≤ settings.maxDepth) →
            ∃ failure, expand settings files folder lines = .error failure ∧
              failure.error = .tooDeep settings.maxDepth)) := by
  constructor
  · intro depth count hnests hle
    obtain ⟨done, hdone, hpasses⟩ := exists_passes_of_nests hfirst ⟨lines, 0, 0⟩ (.refl lines) hnests hle
    exact ⟨done, hdone, by simpa using hpasses, passes_eq_zero_iff hdone⟩
  · intro hfile
    have hpasses := passes_of_namesFile hfirst settings.maxDepth ⟨lines, 0, 0⟩ (.refl lines)
      fun line hline => ⟨hfile line hline, hresolves line hline⟩
    simp only [Nat.zero_add] at hpasses
    unfold expand
    rcases hpasses with ⟨depth, count, out, hle, hnests, hdone⟩ | ⟨hdeep, failure, hfailure, herror⟩
    · refine ⟨fun passes replaced => ⟨?_, ?_⟩, fun hdeep => absurd ⟨depth, count, hnests, hle⟩ hdeep⟩
      · rintro ⟨out', hout'⟩
        cases hdone.symm.trans hout'
        exact ⟨hnests, hle⟩
      · rintro ⟨hnests', -⟩
        obtain ⟨rfl, rfl⟩ := hnests'.det hnests StandsFor.det
        exact ⟨out, hdone⟩
    · refine ⟨fun passes replaced => ⟨?_, ?_⟩, fun _ => ⟨failure, hfailure, herror⟩⟩
      · rintro ⟨out, hout⟩
        cases hfailure.symm.trans hout
      · rintro ⟨hnests, hle⟩
        exact absurd (hdeep passes replaced hnests) (Nat.not_lt.mpr hle)

/-! ### A chain of files -/

/-- A level that imports from a file, which imports from a second file, and from the second file itself. -/
def chainLevel : List Line :=
  ["#Format MDMF", "#Segment [Hall]", "#import parts::Doors", "#include locks::Locks", "#Segment End"]

def chainFiles : FileReader := fun path =>
  if path = "parts" then .ok "#Format MDMF\n#Segment [Doors]\ndoor\n#import locks::Locks\n#Segment End"
  else if path = "locks" then .ok "#Format MDMF\n#Segment [Locks]\nlock\n#Segment End"
  else .error .notFound

def chainImports : List Line := ["#import parts::Doors", "#import locks::Locks", "#include locks::Locks"]

theorem standsFor_doors : StandsFor .strict chainFiles "" chainLevel "#import parts::Doors"
    ["door", "#import locks::Locks"] :=
  replacement_eq_ok_iff.mp (by decide +kernel)

theorem standsFor_locks : ∀ line ∈ ["#import locks::Locks", "#include locks::Locks"],
    StandsFor .strict chainFiles "" chainLevel line ["lock"] := by
  intro line hline
  refine replacement_eq_ok_iff.mp ?_
  revert line
  decide +kernel

theorem namesFile_of_mem_chainImports {line : Line} (hline : line ∈ chainImports) : NamesFile line := by
  simp only [chainImports, List.mem_cons, List.not_mem_nil, or_false] at hline
  rcases hline with rfl | rfl | rfl
  · exact ⟨"parts::Doors", ⟨"parts", "Doors"⟩, by decide +kernel, rfl⟩
  · exact ⟨"locks::Locks", ⟨"locks", "Locks"⟩, by decide +kernel, rfl⟩
  · exact ⟨"locks::Locks", ⟨"locks", "Locks"⟩, by decide +kernel, rfl⟩

theorem mem_chainImports_of_reaches {lines : List Line} {line : Line}
    (h : Reaches (StandsFor .strict chainFiles "" chainLevel) lines line)
    (hlines : ∀ line ∈ lines, isImport line = true → line ∈ chainImports) : line ∈ chainImports := by
  induction h with
  | here hline himport => exact hlines _ hline himport
  | through houter himport hbody _ ih =>
      rcases List.mem_cons.mp (hlines _ houter himport) with rfl | hlocks
      · cases hbody.det standsFor_doors
        exact ih (by decide)
      · cases hbody.det (standsFor_locks _ hlocks)
        exact ih (by decide)

theorem nests_chainLevel : Nests (StandsFor .strict chainFiles "" chainLevel) chainLevel 2 3 := by
  have hlocks : Nests (StandsFor .strict chainFiles "" chainLevel) ["lock"] 0 0 := .of_no_import (by decide)
  have hdoors : Nests (StandsFor .strict chainFiles "" chainLevel) ["door", "#import locks::Locks"] 1 1 :=
    .keep (by decide) (.splice (by decide) (standsFor_locks _ (by decide)) hlocks .nil)
  have hend : Nests (StandsFor .strict chainFiles "" chainLevel) ["#Segment End"] 0 0 :=
    .of_no_import (by decide)
  have himports : Nests (StandsFor .strict chainFiles "" chainLevel) (chainLevel.drop 2) 2 3 :=
    .splice (by decide) standsFor_doors hdoors
      (.splice (by decide) (standsFor_locks _ (by decide)) hlocks hend)
  exact .keep (by decide) (.keep (by decide) himports)

theorem expands_chainLevel : (∀ line ∈ chainLevel.head?, isImport line = false) ∧
    (∀ line, Reaches (StandsFor .strict chainFiles "" chainLevel) chainLevel line →
      NamesFile line ∧ ∃ body, StandsFor .strict chainFiles "" chainLevel line body) ∧
    (∃ out, expand ⟨.strict, 32⟩ chainFiles "" chainLevel = .ok ⟨out, 2, 3⟩) ∧
    ∃ failure, expand ⟨.strict, 1⟩ chainFiles "" chainLevel = .error failure ∧
      failure.error = .tooDeep 1 := by
  have hfirst : ∀ line ∈ chainLevel.head?, isImport line = false := by decide
  have hreaches : ∀ line, Reaches (StandsFor .strict chainFiles "" chainLevel) chainLevel line →
      line ∈ chainImports := fun line hline => mem_chainImports_of_reaches hline (by decide)
  have hfile : ∀ line,
      Reaches (StandsFor .strict chainFiles "" chainLevel) chainLevel line → NamesFile line :=
    fun line hline => namesFile_of_mem_chainImports (hreaches line hline)
  have hresolves : ∀ line, Reaches (StandsFor .strict chainFiles "" chainLevel) chainLevel line →
      ∃ body, StandsFor .strict chainFiles "" chainLevel line body := by
    intro line hline
    rcases List.mem_cons.mp (hreaches line hline) with rfl | hlocks
    · exact ⟨_, standsFor_doors⟩
    · exact ⟨_, standsFor_locks line hlocks⟩
  refine ⟨hfirst, fun line hline => ⟨hfile line hline, hresolves line hline⟩, ?_, ?_⟩
  · have hdeep := (expand_within_depth ⟨.strict, 32⟩ chainFiles "" chainLevel hfirst hresolves).2 hfile
    exact (hdeep.1 2 3).mpr ⟨nests_chainLevel, by decide⟩
  · refine ((expand_within_depth ⟨.strict, 1⟩ chainFiles "" chainLevel hfirst hresolves).2 hfile).2 ?_
    rintro ⟨depth, count, hnests, hle⟩
    obtain ⟨rfl, -⟩ := hnests.det nests_chainLevel StandsFor.det
    exact absurd hle (by decide)

end LevelPlay.Import
