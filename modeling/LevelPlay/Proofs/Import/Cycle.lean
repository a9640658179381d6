import Mathlib.Data.Set.Basic
import LevelPlay.Proofs.Import.Expansion
import LevelPlay.Proofs.Level.Leniency
import LevelPlay.Proofs.Text.Words

/-! Segments that import each other in a circle. An expansion is built from the inside out, so there is none
where every import line of some kind brings in another of the same kind. Whatever a level is expanded to is
its expansion in place; hence a level with such a circle is not expanded, let alone loaded, however the
circle is tangled with other imports and with names that share a body. -/

namespace LevelPlay

/-- Both modes list the same segments where they list any. -/
theorem SegmentIndex.ofLines_det {mode mode' : Mode} {lines : List Line} {index index' : SegmentIndex}
    (h : ofLines mode lines = .ok index) (h' : ofLines mode' lines = .ok index') : index = index' := by
  have hlenient : ∀ {mode index}, ofLines mode lines = .ok index → ofLines .lenient lines = .ok index := by
    intro mode index h
    cases mode with
    | strict => exact ofLines_refines lines index h
    | lenient => exact h
  exact Except.ok.inj ((hlenient h).symm.trans (hlenient h'))

/-! ### The first line of a level -/

theorem Header.firstWord_of_check {first : Line} {rest : List Line} (h : check (first :: rest) = .ok ()) :
    Text.firstWord first = formatDirective := by
  have hword := Text.head?_cut_space first
  rw [check] at h
  cases hcut : Text.cut ' ' first with
  | nil =>
      rw [hcut] at hword
      cases hword
  | cons directive words =>
      rw [hcut] at h hword
      dsimp only at h
      split at h
      · rename_i hdirective
        exact (Option.some.inj hword).symm.trans hdirective
      · cases h

/-- The line that names the format imports nothing. -/
theorem Header.isImport_of_check {lines : List Line} (h : check lines = .ok ()) :
    ∀ line ∈ lines.head?, Import.isImport line = false := by
  rintro line hline
  cases lines with
  | nil => cases hline
  | cons first rest =>
      obtain rfl : first = line := Option.some.inj hline
      rw [Import.isImport, firstWord_of_check h]
      decide

namespace Import

/-! ### Import lines without end -/

/-- Lines that have an expansion hold no import line of a kind that never comes to an end: of which each
brings in another. -/
theorem Expands.not_of_endless {stands : Line → List Line → Prop} {kind : Line → Prop} {lines out : List Line}
    (h : Expands stands lines out) (himport : ∀ line, kind line → isImport line = true)
    (hendless : ∀ line body, kind line → stands line body → ∃ next ∈ body, kind next) :
    ∀ line ∈ lines, ¬kind line := by
  induction h with
  | nil => exact fun _ hline => absurd hline List.not_mem_nil
  | keep hkeep _ ih =>
      refine List.forall_mem_cons.mpr ⟨fun hkind => ?_, ih⟩
      cases hkeep.symm.trans (himport _ hkind)
  | splice _ hbody _ _ ihinner ihrest =>
      refine List.forall_mem_cons.mpr ⟨fun hkind => ?_, ihrest⟩
      obtain ⟨next, hnext, hkind⟩ := hendless _ _ hkind hbody
      exact ihinner next hnext hkind

/-- The line imports a segment of the level itself, one of these names. -/
def ImportsOneOf (names : Set String) (line : Line) : Prop :=
  isImport line = true ∧
    ∃ spec named, target line = .ok (spec, named) ∧ named.isLocal = true ∧ named.segment ∈ names

/-- All of these names are declared, and the body of each imports one of them. -/
def Circular (lines : List Line) (index : SegmentIndex) (names : Set String) : Prop :=
  ∀ name ∈ names, ∃ header, index.get? name = some header ∧
    ∃ line ∈ Segment.body lines header, ImportsOneOf names line

section Circle

variable {lines : List Line} {index : SegmentIndex} {names : Set String}

theorem Circular.exists_mem_body (h : Circular lines index names) {listing mode : Mode} {files : FileReader}
    {folder : Path} (hindex : SegmentIndex.ofLines listing lines = .ok index) {line : Line} {body : List Line}
    (hline : ImportsOneOf names line) (hbody : StandsFor mode files folder lines line body) :
    ∃ next ∈ body, ImportsOneOf names next := by
  obtain ⟨-, spec, named, htarget, hlocal, hmem⟩ := hline
  obtain ⟨spec', named', htarget', hbody⟩ := hbody
  cases htarget.symm.trans htarget'
  obtain ⟨header, hheader, next, hnext, himports⟩ := h named.segment hmem
  rw [targetBody, hlocal, if_pos rfl, segmentBody] at hbody
  cases hlisted : SegmentIndex.ofLines mode lines with
  | error e =>
      rw [hlisted] at hbody
      cases hbody
  | ok index' =>
      obtain rfl := SegmentIndex.ofLines_det hlisted hindex
      rw [hlisted] at hbody
      simp only [hheader] at hbody
      cases hbody
      exact ⟨next, hnext, himports⟩

/-- The body of a segment is part of the level. -/
theorem mem_of_mem_body {header : Nat} {line : Line} (h : line ∈ Segment.body lines header) : line ∈ lines :=
  List.mem_of_mem_drop ((List.takeWhile_sublist _).mem h)

theorem Circular.not_expands (h : Circular lines index names) (hnames : names.Nonempty) {listing : Mode}
    (hindex : SegmentIndex.ofLines listing lines = .ok index) (mode : Mode) (files : FileReader)
    (folder : Path) (out : List Line) : ¬Expands (StandsFor mode files folder lines) lines out := by
  intro hexpands
  obtain ⟨name, hname⟩ := hnames
  obtain ⟨header, -, line, hline, himports⟩ := h name hname
  refine hexpands.not_of_endless (fun _ hline => hline.1) (fun _ _ hline hbody => ?_) line
    (mem_of_mem_body hline) himports
  exact h.exists_mem_body hindex hline hbody

theorem Circular.expand_ne_ok (h : Circular lines index names) (hnames : names.Nonempty) {listing : Mode}
    (hindex : SegmentIndex.ofLines listing lines = .ok index) (settings : Settings) (files : FileReader)
    (folder : Path) (hfirst : ∀ line ∈ lines.head?, isImport line = false) (done : Expansion) :
    expand settings files folder lines ≠ .ok done := by
  intro hdone
  obtain ⟨hunfolds, hclear⟩ := unfolds_of_passes hfirst (.refl lines) hdone
  exact h.not_expands hnames hindex settings.mode files folder done.lines (hunfolds.expands hclear)

/-- A level with segments that import each other in a circle is not expanded, with any settings and any files,
and so no such level is loaded. -/
theorem circle_never_expands (hnames : names.Nonempty) {listing : Mode}
    (hindex : SegmentIndex.ofLines listing lines = .ok index) (hcircular : Circular lines index names)
    (settings : Settings) (files : FileReader) (folder : Path) :
    ((∀ line ∈ lines.head?, isImport line = false) →
        ∃ failure, expand settings files folder lines = .error failure) ∧
      ∃ error, Level.ofLines settings files folder lines = .error error := by
  have hexpand := hcircular.expand_ne_ok hnames hindex settings files folder
  constructor
  · intro hfirst
    cases hdone : expand settings files folder lines with
    | error failure => exact ⟨failure, rfl⟩
    | ok done => exact absurd hdone (hexpand hfirst done)
  · cases hlevel : Level.ofLines settings files folder lines with
    | error error => exact ⟨error, rfl⟩
    | ok level =>
        obtain ⟨_, hcheck, -⟩ := Result.bind_eq_ok_iff.mp hlevel
        have hfirst := Header.isImport_of_check (Result.mapError_eq_ok_iff.mp hcheck)
        obtain ⟨_, _, _, _, hsource, -⟩ := Level.stages_of_ofLines hlevel
        obtain ⟨passes, replaced, hdone⟩ := hsource.expands
        exact absurd hdone (hexpand hfirst _)

end Circle

/-- A level with two segments, one of them under two names, that import each other. -/
def roundLevel : List Line :=
  ["#Format MDMF", "#Segment [Hall, Lobby]", "floor", "#import ::Walls", "#Segment [Walls]", "wall",
    "#include ::Lobby", "#Segment End"]

def roundIndex : SegmentIndex := ⟨[("Hall", 1), ("Lobby", 1), ("Walls", 4)]⟩

theorem circular_roundLevel : Circular roundLevel roundIndex {"Lobby", "Walls"} := by
  rintro name (rfl | rfl)
  · exact ⟨1, by decide, "#import ::Walls", by decide +kernel, by decide +kernel, "::Walls", ⟨"", "Walls"⟩,
      by decide +kernel, rfl, .inr rfl⟩
  · exact ⟨4, by decide, "#include ::Lobby", by decide +kernel, by decide +kernel, "::Lobby", ⟨"", "Lobby"⟩,
      by decide +kernel, rfl, .inl rfl⟩

theorem roundLevel_never_expands :
    ((∀ line ∈ roundLevel.head?, isImport line = false) ∧
        SegmentIndex.ofLines .strict roundLevel = .ok roundIndex ∧
        ({"Lobby", "Walls"} : Set String).Nonempty ∧ Circular roundLevel roundIndex {"Lobby", "Walls"}) ∧
      (∃ failure, expand {} (fun _ => .error .notFound) "" roundLevel = .error failure) ∧
      ∃ error, Level.ofLines {} (fun _ => .error .notFound) "" roundLevel = .error error := by
  have hfirst : ∀ line ∈ roundLevel.head?, isImport line = false := by decide
  have hindex : SegmentIndex.ofLines .strict roundLevel = .ok roundIndex := by decide +kernel
  have hnames : ({"Lobby", "Walls"} : Set String).Nonempty := ⟨"Lobby", .inl rfl⟩
  have hnever := circle_never_expands hnames hindex circular_roundLevel {} (fun _ => .error .notFound) ""
  exact ⟨⟨hfirst, hindex, hnames, circular_roundLevel⟩, hnever.1 hfirst, hnever.2⟩

end Import

end LevelPlay
