import LevelPlay.Proofs.Import.Passes

/-! The expansion of a level's imports. Each replacement reads its lines from the level as the replacements
before it have left it, not from the level as it was. The passes keep the invariant that the level has been
unfolded: then the lines read are themselves an unfolding of those for which the import line stood at
first, so that in the end every import line has given way to its expansion, whatever the order. -/

namespace LevelPlay.Import

section StandsFor

variable {mode : Mode} {files : FileReader} {folder : Path} {level : List Line}

/-- A target names the same lines up to unfolding, whether it is looked up in a level or in an unfolding. -/
theorem targetBody_agree (hfirst : ∀ line ∈ level.head?, isImport line = false) {unfolded : List Line}
    (h : Unfolds (StandsFor mode files folder level) level unfolded) (named : ImportTarget) :
    Result.Agree (Unfolds (StandsFor mode files folder level)) (targetBody mode files folder level named)
      (targetBody mode files folder unfolded named) := by
  rw [targetBody, targetBody]
  split
  · exact segmentBody_agree mode StandsFor.headerFree hfirst h named.segment
  · dsimp only
    split
    · exact .error _ _
    · rename_i text _
      generalize segmentBody mode (Line.ofText text) named.segment = found
      cases found with
      | error e => exact .error e e
      | ok body => exact .ok (.refl body)

/-- What stands for an import line in an unfolded level is an unfolding of what stood for it at first. -/
theorem StandsFor.of_unfolds (hfirst : ∀ line ∈ level.head?, isImport line = false) {unfolded : List Line}
    (h : Unfolds (StandsFor mode files folder level) level unfolded) {line : Line} {later : List Line}
    (hlater : StandsFor mode files folder unfolded line later) :
    ∃ body, StandsFor mode files folder level line body ∧
      Unfolds (StandsFor mode files folder level) body later := by
  obtain ⟨spec, named, htarget, hlater⟩ := hlater
  have hagree := targetBody_agree hfirst h named
  rw [hlater] at hagree
  obtain ⟨body, hbody, hunfolds⟩ := hagree.of_ok_right
  exact ⟨body, ⟨spec, named, htarget, hbody⟩, hunfolds⟩

/-! ### Passes -/

/-- A pass unfolds a level further, one replacement at a time. -/
theorem ReplacesAll.unfolds (hfirst : ∀ line ∈ level.head?, isImport line = false) {front rest out : List Line}
    (h : ReplacesAll mode files folder front rest out)
    (hfront : Unfolds (StandsFor mode files folder level) level (front ++ rest)) :
    Unfolds (StandsFor mode files folder level) level (front ++ out) := by
  induction h with
  | nil front => exact hfront
  | keep _ _ ih =>
      rw [List.append_cons] at hfront ⊢
      exact ih hfront
  | @splice front rest later out line himport _ hlater ih =>
      rw [List.append_cons] at hfront
      have hrest := ih hfront
      rw [← List.append_cons] at hrest
      obtain ⟨body, hbody, hunfolds⟩ := hlater.of_unfolds hfirst hrest
      exact hrest.trans (.splice_at front out himport hbody hunfolds)

theorem AfterPasses.unfolds (hfirst : ∀ line ∈ level.head?, isImport line = false) {count : Nat}
    {lines out : List Line} (h : AfterPasses mode files folder count lines out)
    (hlines : Unfolds (StandsFor mode files folder level) level lines) :
    Unfolds (StandsFor mode files folder level) level out := by
  induction h with
  | none lines => exact hlines
  | next _ hpass _ ih => exact ih (hpass.unfolds hfirst hlines)

/-- Passes that succeed unfold a level until no import line is left. -/
theorem unfolds_of_passes {settings : Settings} (hfirst : ∀ line ∈ level.head?, isImport line = false) {left : Nat}
    {state done : Expansion} (h : Unfolds (StandsFor settings.mode files folder level) level state.lines)
    (hpasses : passes settings files folder left state = .ok done) :
    Unfolds (StandsFor settings.mode files folder level) level done.lines ∧
      ∀ line ∈ done.lines, isImport line = false := by
  obtain ⟨count, hafter, hclear⟩ := exists_afterPasses hpasses
  exact ⟨hafter.unfolds hfirst h, hclear⟩

end StandsFor

/-- Expanding the imports of a level gives its expansion in place, where each import line stands for lines of
the level as it was before any replacement; nothing is left to replace. -/
theorem expand_eq_expansion (settings : Settings) (files : FileReader) (folder : Path) (lines : List Line)
    (done : Expansion) (hfirst : ∀ line ∈ lines.head?, isImport line = false)
    (hdone : expand settings files folder lines = .ok done) :
    (∀ out, Expands (StandsFor settings.mode files folder lines) lines out ↔ out = done.lines) ∧
      (∀ line ∈ done.lines, isImport line = false) ∧
      ∀ settings files folder, expand settings files folder done.lines = .ok ⟨done.lines, 0, 0⟩ := by
  obtain ⟨hunfolds, hout⟩ := unfolds_of_passes hfirst (.refl lines) hdone
  have hexpands := hunfolds.expands hout
  refine ⟨fun out => ⟨fun h => ?_, ?_⟩, hout, fun settings files folder => ?_⟩
  · exact h.det hexpands StandsFor.det
  · rintro rfl
    exact hexpands
  · exact passes_of_no_import settings files folder settings.maxDepth ⟨done.lines, 0, 0⟩ hout

/-- A level that imports a later segment of its own, which imports from a file, which imports from the
level in turn. -/
def nestedLevel : List Line :=
  ["#Format MDMF", "#Segment [Hall]", "floor", "#import ::Walls", "#Segment [Walls]", "wall",
    "#include parts::Doors", "#Segment [Locks]", "lock", "#Segment End"]

def nestedFiles : FileReader := fun path =>
  if path = "parts" then .ok "#Format MDMF\n#Segment [Doors]\n#import ::Locks\n#Segment End"
  else .error .notFound

def nestedExpansion : List Line :=
  ["#Format MDMF", "#Segment [Hall]", "floor", "wall", "lock", "#Segment [Walls]", "wall", "lock",
    "#Segment [Locks]", "lock", "#Segment End"]

theorem expands_nestedLevel : (∀ line ∈ nestedLevel.head?, isImport line = false) ∧
    expand {} nestedFiles "" nestedLevel = .ok ⟨nestedExpansion, 2, 4⟩ ∧
    Expands (StandsFor .strict nestedFiles "" nestedLevel) nestedLevel nestedExpansion := by
  have hfirst : ∀ line ∈ nestedLevel.head?, isImport line = false := by decide
  have hdone : expand {} nestedFiles "" nestedLevel = .ok ⟨nestedExpansion, 2, 4⟩ := by decide +kernel
  exact ⟨hfirst, hdone, ((expand_eq_expansion {} nestedFiles "" nestedLevel _ hfirst hdone).1 _).mpr rfl⟩

end LevelPlay.Import
