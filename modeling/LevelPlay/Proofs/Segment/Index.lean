import Mathlib.Order.Interval.Finset.Nat
import LevelPlay.Proofs.Import.Segments
import LevelPlay.Proofs.Segment.Declaration

/-! Which segments a level has. They are looked for from the second line on, up to the line that ends the search, and
every segment line on the way has to list names that are new. If all do then the names are those that the lines list,
in order, and the number beside a name is that of its line; if not then the first line that does not is the error. The
body of a segment stops at the next segment line, so that no line stands in two bodies unless one line declares both
names. -/

namespace LevelPlay

/-! ### Bodies -/

namespace Segment

/-- The numbers of the lines in the body of the segment whose header is the line of this number. -/
def bodyRange (lines : List Line) (header : Nat) : Finset Nat :=
  Finset.Ico (bodyStart header) (bodyEnd lines header)

variable {lines : List Line} {header other : Nat}

theorem body_eq_extract (lines : List Line) (header : Nat) :
    body lines header = lines.extract (bodyStart header) (bodyEnd lines header) := by
  have hprefix : body lines header <+: lines.drop (bodyStart header) := List.takeWhile_prefix _
  rw [List.extract_eq_take_drop, bodyEnd, Nat.add_sub_cancel_left]
  exact List.prefix_iff_eq_take.mp hprefix

theorem exists_of_mem_bodyRange {number : Nat} (h : number ∈ bodyRange lines header) :
    ∃ line, lines[number]? = some line ∧ isHeader line = false := by
  obtain ⟨hstart, hend⟩ := Finset.mem_Ico.mp h
  obtain ⟨offset, rfl⟩ := Nat.exists_eq_add_of_le hstart
  have hoffset : offset < (body lines header).length := Nat.lt_of_add_lt_add_left hend
  refine ⟨(body lines header)[offset], ?_, Import.headerFree_body lines header _ (List.getElem_mem hoffset)⟩
  obtain ⟨rest, hrest⟩ : body lines header <+: lines.drop (bodyStart header) := List.takeWhile_prefix _
  rw [← List.getElem?_drop, ← hrest, List.getElem?_append_left hoffset, List.getElem?_eq_getElem hoffset]

theorem bodyEnd_le (h : header < lines.length) : bodyEnd lines header ≤ lines.length := by
  have hlength : (body lines header).length ≤ (lines.drop (bodyStart header)).length :=
    (List.takeWhile_prefix _).length_le
  rw [List.length_drop, bodyStart] at hlength
  rw [bodyEnd, bodyStart]
  omega

/-- A body ends before the next segment line. -/
theorem bodyEnd_le_of_lt {line : Line} (hlt : header < other) (hother : lines[other]? = some line)
    (hline : isHeader line = true) : bodyEnd lines header ≤ other := by
  by_contra hlater
  obtain ⟨line', hother', hline'⟩ : ∃ line, lines[other]? = some line ∧ isHeader line = false :=
    exists_of_mem_bodyRange (Finset.mem_Ico.mpr ⟨hlt, Nat.lt_of_not_le hlater⟩)
  cases hother.symm.trans hother'
  cases hline.symm.trans hline'

theorem disjoint_bodyRange_of_lt {line : Line} (hlt : header < other) (hother : lines[other]? = some line)
    (hline : isHeader line = true) : Disjoint (bodyRange lines header) (bodyRange lines other) := by
  rw [Finset.disjoint_left]
  intro number hfirst hsecond
  have hend := bodyEnd_le_of_lt hlt hother hline
  rw [bodyRange, Finset.mem_Ico, bodyStart] at hfirst hsecond
  omega

end Segment

namespace SegmentIndex

open Segment

/-! ### Declarations -/

/-- The lines in which segments are looked for: those after the first, up to the line that ends the search. -/
def searched (lines : List Line) : List Line :=
  (lines.drop 1).takeWhile fun line => !isEnd line

/-- Some line after the first ends the search. -/
def Ended (lines : List Line) : Prop :=
  ∃ line ∈ lines.drop 1, isEnd line = true

/-- The lines, from the one of this number on, declare these names, each with the number of its line. -/
inductive Declares : Nat → List Line → List (String × Nat) → Prop where
  | nil (number : Nat) : Declares number [] []
  | skip {number : Nat} {line : Line} {rest : List Line} {entries : List (String × Nat)}
      (hline : isHeader line = false) (hrest : Declares (number + 1) rest entries) :
      Declares number (line :: rest) entries
  | declare {number : Nat} {line : Line} {rest : List Line} {listed : List String} {entries : List (String × Nat)}
      (hline : isHeader line = true) (hlisted : Lists line listed) (hrest : Declares (number + 1) rest entries) :
      Declares number (line :: rest) (listed.map (fun name => (name, number)) ++ entries)

/-- The lines declare these names, and no name twice. -/
structure DeclaresOnce (number : Nat) (lines : List Line) (entries : List (String × Nat)) : Prop where
  declares : Declares number lines entries
  nodup : (entries.map Prod.fst).Nodup

/-- What is wrong with a line where the names before it are those passed. -/
inductive Fault (passed : List String) (line : Line) : SegmentError → Prop where
  | malformed {e : SegmentError} (hline : isHeader line = true) (he : Malformed line e) : Fault passed line e
  | repeated {front back : List String} {name : String} (hline : isHeader line = true)
      (hlisted : Lists line (front ++ name :: back)) (hfront : (passed ++ front).Nodup)
      (hname : name ∈ passed ++ front) : Fault passed line (.repeatedName name)

/-- The line declares a name that it has declared before, or that an earlier line declares. -/
def Repeats (before : List Line) (line : Line) : Prop :=
  ∃ front name back, Lists line (front ++ name :: back) ∧
    (name ∈ front ∨
      ∃ earlier ∈ before, isHeader earlier = true ∧ ∃ listed, Lists earlier listed ∧ name ∈ listed)

namespace Declares

variable {number : Nat} {lines : List Line} {entries : List (String × Nat)}

theorem mem_names_iff (h : Declares number lines entries) {name : String} :
    name ∈ entries.map Prod.fst ↔
      ∃ line ∈ lines, isHeader line = true ∧ ∃ listed, Lists line listed ∧ name ∈ listed := by
  induction h with
  | nil => simp
  | skip hline _ ih => simp [ih, hline]
  | @declare number line rest listed entries hline hlisted hrest ih =>
      have hhere : (∃ others, Lists line others ∧ name ∈ others) ↔ name ∈ listed :=
        ⟨fun ⟨_, hothers, hname⟩ => hlisted.det hothers ▸ hname, fun hname => ⟨listed, hlisted, hname⟩⟩
      rw [List.map_append, List.mem_append, ih]
      simp [hline, hhere, Function.comp_def]

/-- The number beside a name is that of a segment line. -/
theorem exists_header (h : Declares number lines entries) {entry : String × Nat} (hentry : entry ∈ entries) :
    ∃ offset line, entry.2 = number + offset ∧ lines[offset]? = some line ∧ isHeader line = true := by
  induction h with
  | nil => exact (List.not_mem_nil hentry).elim
  | skip _ _ ih =>
      obtain ⟨offset, line, hnumber, hline, hheader⟩ := ih hentry
      exact ⟨offset + 1, line, by omega, hline, hheader⟩
  | @declare number line _ _ _ hheader _ _ ih =>
      rcases List.mem_append.mp hentry with hhere | hlater
      · obtain ⟨name, -, rfl⟩ := List.mem_map.mp hhere
        exact ⟨0, line, rfl, rfl, hheader⟩
      · obtain ⟨offset, line, hnumber, hline, hheader⟩ := ih hlater
        exact ⟨offset + 1, line, by omega, hline, hheader⟩

theorem pairwise_le (h : Declares number lines entries) : (entries.map Prod.snd).Pairwise (· ≤ ·) := by
  induction h with
  | nil => exact List.Pairwise.nil
  | skip _ _ ih => exact ih
  | @declare number _ _ listed entries _ _ hrest ih =>
      rw [List.map_append, List.pairwise_append, List.map_map]
      refine ⟨?_, ih, ?_⟩
      · rw [List.pairwise_map]
        exact List.pairwise_of_forall fun _ _ => Nat.le_refl number
      · intro first hfirst later hlater
        obtain ⟨name, -, rfl⟩ := List.mem_map.mp hfirst
        obtain ⟨entry, hentry, rfl⟩ := List.mem_map.mp hlater
        obtain ⟨offset, -, hnumber, -⟩ := hrest.exists_header hentry
        show number ≤ entry.2
        omega

/-- Around a segment line the names fall into those before, its own, and those after. -/
theorem of_append_cons {before after : List Line} {line : Line} (h : Declares number (before ++ line :: after) entries)
    (hline : isHeader line = true) :
    ∃ first listed last, Declares number before first ∧ Lists line listed ∧
      entries.map Prod.fst = first.map Prod.fst ++ (listed ++ last) := by
  induction before generalizing number entries with
  | nil =>
      cases h with
      | skip hother => cases hline.symm.trans hother
      | @declare _ _ _ listed entries _ hlisted _ =>
          exact ⟨[], listed, entries.map Prod.fst, .nil number, hlisted, by simp [Function.comp_def]⟩
  | cons other before ih =>
      cases h with
      | skip hother hrest =>
          obtain ⟨first, listed, last, hfirst, hlisted, hnames⟩ := ih hrest
          exact ⟨first, listed, last, .skip hother hfirst, hlisted, hnames⟩
      | declare hother hothers hrest =>
          obtain ⟨first, listed, last, hfirst, hlisted, hnames⟩ := ih hrest
          exact ⟨_, listed, last, .declare hother hothers hfirst, hlisted, by simp [hnames, List.append_assoc]⟩

end Declares

/-! ### The search -/

section Search

variable (mode : Mode) {index : SegmentIndex} {number : Nat} {line : Line} (rest : List Line)

theorem scan_of_not_header (h : isHeader line = false) :
    scan mode index number (line :: rest) = scan mode index (number + 1) rest := by
  rw [scan, h, if_neg Bool.false_ne_true]

theorem scan_of_end (h : isEnd line = true) : scan mode index number (line :: rest) = .ok index := by
  rw [scan, isHeader_of_isEnd h, if_pos rfl, h, if_pos rfl]

theorem scan_of_lists (hline : isHeader line = true) (hgoesOn : isEnd line = false) {listed : List String}
    (hlisted : Lists line listed) (hnodup : (index.names ++ listed).Nodup) :
    scan mode index number (line :: rest) =
      scan mode ⟨index.entries ++ listed.map fun name => (name, number)⟩ (number + 1) rest := by
  have hdeclare : index.declare number listed = .ok ⟨index.entries ++ listed.map fun name => (name, number)⟩ :=
    (declare_eq_ok_iff (List.nodup_append.mp hnodup).1).mpr ⟨hnodup, rfl⟩
  rw [scan, hline, if_pos rfl, hgoesOn, if_neg Bool.false_ne_true, names_eq_ok_iff.mpr hlisted, Except.bind, hdeclare]

theorem scan_of_fault (hnodup : index.names.Nodup) (hgoesOn : isEnd line = false) {e : SegmentError}
    (h : Fault index.names line e) : scan mode index number (line :: rest) = .error (number, e) := by
  cases h with
  | malformed hline he =>
      rw [scan, hline, if_pos rfl, hgoesOn, if_neg Bool.false_ne_true, names_eq_error_iff.mpr he, Except.bind]
  | @repeated front back name hline hlisted hfront hname =>
      have hdeclare : index.declare number (front ++ name :: back) = .error (.repeatedName name) :=
        (declare_eq_error_iff hnodup).mpr ⟨front, name, back, rfl, hfront, hname, rfl⟩
      rw [scan, hline, if_pos rfl, hgoesOn, if_neg Bool.false_ne_true, names_eq_ok_iff.mpr hlisted, Except.bind,
        hdeclare]

/-- Lines that declare new names are passed with these names. -/
theorem Declares.scan_append {before : List Line} {entries : List (String × Nat)} (h : Declares number before entries)
    (hgoesOn : ∀ line ∈ before, isEnd line = false) (hnodup : (index.names ++ entries.map Prod.fst).Nodup) :
    scan mode index number (before ++ rest) =
      scan mode ⟨index.entries ++ entries⟩ (number + before.length) rest := by
  induction h generalizing index with
  | nil => simp
  | skip hline _ ih =>
      rw [List.cons_append, scan_of_not_header mode _ hline, ih (List.forall_mem_cons.mp hgoesOn).2 hnodup,
        List.length_cons, Nat.add_right_comm, Nat.add_assoc]
  | @declare number line _ listed entries hline hlisted _ ih =>
      obtain ⟨hhere, hgoesOn⟩ := List.forall_mem_cons.mp hgoesOn
      rw [List.map_append, List.map_map, Function.comp_def, List.map_id', ← List.append_assoc] at hnodup
      have hnext := names_append index number listed
      rw [List.cons_append, scan_of_lists mode _ hline hhere hlisted (List.nodup_append.mp hnodup).1,
        ih hgoesOn (hnext ▸ hnodup), List.length_cons, Nat.add_right_comm, Nat.add_assoc, List.append_assoc]

/-- Lines that do not end the search declare new names, up to their end or to the first with which something is
wrong. -/
theorem declares_or_fault (hnodup : index.names.Nodup) (number : Nat) (lines : List Line) :
    (∃ entries, Declares number lines entries ∧ (index.names ++ entries.map Prod.fst).Nodup) ∨
      ∃ before line after entries e, lines = before ++ line :: after ∧ Declares number before entries ∧
        (index.names ++ entries.map Prod.fst).Nodup ∧ Fault (index.names ++ entries.map Prod.fst) line e := by
  induction lines generalizing index number with
  | nil => exact .inl ⟨[], .nil number, by simpa using hnodup⟩
  | cons line lines ih =>
      cases hline : isHeader line with
      | false =>
          rcases ih hnodup (number + 1) with
            ⟨entries, hentries, hnames⟩ | ⟨before, last, after, entries, e, rfl, hrest⟩
          · exact .inl ⟨entries, .skip hline hentries, hnames⟩
          · exact .inr ⟨line :: before, last, after, entries, e, rfl, .skip hline hrest.1, hrest.2⟩
      | true =>
          have hnone : (index.names ++ ([] : List (String × Nat)).map Prod.fst).Nodup := by simpa using hnodup
          cases hlisted : Segment.names line with
          | error e =>
              exact .inr ⟨[], line, lines, [], e, rfl, .nil number, hnone,
                .malformed hline (names_eq_error_iff.mp hlisted)⟩
          | ok listed =>
              rw [names_eq_ok_iff] at hlisted
              cases hdeclare : index.declare number listed with
              | error e =>
                  obtain ⟨front, name, back, rfl, hfront, hname, rfl⟩ := (declare_eq_error_iff hnodup).mp hdeclare
                  exact .inr ⟨[], line, lines, [], _, rfl, .nil number, hnone,
                    .repeated hline hlisted (by simpa using hfront) (by simpa using hname)⟩
              | ok next =>
                  obtain ⟨hnames, rfl⟩ := (declare_eq_ok_iff hnodup).mp hdeclare
                  have hnext := names_append index number listed
                  have hall : ∀ entries : List (String × Nat),
                      (listed.map (fun name => (name, number)) ++ entries).map Prod.fst =
                        listed ++ entries.map Prod.fst := by simp [Function.comp_def]
                  rcases ih (hnext ▸ hnames) (number + 1) with
                    ⟨entries, hentries, hlater⟩ | ⟨before, last, after, entries, e, rfl, hentries, hlater, hfault⟩
                  · rw [hnext, List.append_assoc, ← hall] at hlater
                    exact .inl ⟨_, .declare hline hlisted hentries, hlater⟩
                  · rw [hnext, List.append_assoc, ← hall] at hlater hfault
                    exact .inr ⟨line :: before, last, after, _, e, rfl, .declare hline hlisted hentries, hlater,
                      hfault⟩

end Search

/-! ### Levels -/

section Levels

variable {mode : Mode} {lines : List Line}

theorem isEnd_of_mem_searched : ∀ line ∈ searched lines, isEnd line = false := by
  intro line hline
  simpa using List.mem_takeWhile_imp hline

/-- The search goes on to the end of the lines, or to a line that ends it. -/
theorem exists_searched_append (lines : List Line) :
    (lines.drop 1 = searched lines ∧ ¬Ended lines) ∨
      ∃ last rest, lines.drop 1 = searched lines ++ last :: rest ∧ isEnd last = true ∧ Ended lines := by
  have hsplit : searched lines ++ (lines.drop 1).dropWhile (fun line => !isEnd line) = lines.drop 1 :=
    List.takeWhile_append_dropWhile
  cases hafter : (lines.drop 1).dropWhile fun line => !isEnd line with
  | nil =>
      rw [hafter, List.append_nil] at hsplit
      refine .inl ⟨hsplit.symm, ?_⟩
      rintro ⟨line, hline, hend⟩
      rw [← hsplit] at hline
      cases hend.symm.trans (isEnd_of_mem_searched line hline)
  | cons last rest =>
      have hlast : isEnd last = true := by
        have hhead := List.head?_dropWhile_not (fun line => !isEnd line) (lines.drop 1)
        rw [hafter] at hhead
        simpa using hhead
      rw [hafter] at hsplit
      exact .inr ⟨last, rest, hsplit.symm, hlast, last, by rw [← hsplit]; simp, hlast⟩

/-- After lines that declare new names it depends on whether the search has ended. -/
theorem ofLines_of_declares (mode : Mode) {entries : List (String × Nat)}
    (h : DeclaresOnce 1 (searched lines) entries) :
    (Ended lines ∧ ofLines mode lines = .ok ⟨entries⟩) ∨
      (¬Ended lines ∧
        ofLines mode lines = if mode = .strict then .error (lines.length, .noEnd) else .ok ⟨entries⟩) := by
  cases lines with
  | nil =>
      cases h.declares
      exact .inr ⟨fun ⟨_, hline, _⟩ => (List.not_mem_nil hline).elim, rfl⟩
  | cons first lines =>
      have hnodup : (names empty ++ entries.map Prod.fst).Nodup := h.nodup
      have hscan (rest : List Line) := h.declares.scan_append mode rest isEnd_of_mem_searched hnodup
      rcases exists_searched_append (first :: lines) with ⟨hall, hended⟩ | ⟨last, rest, hall, hlast, hended⟩
      · refine .inr ⟨hended, ?_⟩
        have hlines : searched (first :: lines) ++ [] = lines := by
          rw [List.append_nil, ← hall, List.drop_one, List.tail_cons]
        have hnone := hscan []
        rw [hlines, ← List.append_nil (searched (first :: lines)), hlines, scan, Nat.add_comm 1] at hnone
        exact hnone
      · refine .inl ⟨hended, ?_⟩
        have hlines : searched (first :: lines) ++ last :: rest = lines := hall.symm
        have hlater := hscan (last :: rest)
        rw [hlines, scan_of_end mode rest hlast] at hlater
        exact hlater

theorem ofLines_of_fault {before after : List Line} {line : Line} {entries : List (String × Nat)} {e : SegmentError}
    (hlines : searched lines = before ++ line :: after) (h : DeclaresOnce 1 before entries)
    (hfault : Fault (entries.map Prod.fst) line e) : ofLines mode lines = .error (1 + before.length, e) := by
  have hgoesOn : ∀ other ∈ before ++ line :: after, isEnd other = false := hlines ▸ isEnd_of_mem_searched
  obtain ⟨hbefore, hline, -⟩ : (∀ other ∈ before, isEnd other = false) ∧ isEnd line = false ∧ _ := by
    simpa only [List.forall_mem_append, List.forall_mem_cons] using hgoesOn
  have hnodup : (names empty ++ entries.map Prod.fst).Nodup := h.nodup
  obtain ⟨rest, hrest⟩ : ∃ rest, lines.drop 1 = before ++ line :: rest := by
    rcases exists_searched_append lines with ⟨hall, -⟩ | ⟨last, rest, hall, -⟩
    · exact ⟨after, by rw [hall, hlines]⟩
    · exact ⟨after ++ last :: rest, by rw [hall, hlines, List.append_assoc, List.cons_append]⟩
  cases lines with
  | nil => simp at hrest
  | cons first lines =>
      have hlines : lines = before ++ line :: rest := hrest
      rw [ofLines, hlines, h.declares.scan_append mode _ hbefore hnodup]
      exact scan_of_fault mode rest h.nodup hline hfault

theorem searched_cases (lines : List Line) :
    (∃ entries, DeclaresOnce 1 (searched lines) entries) ∨
      ∃ before line after entries e, searched lines = before ++ line :: after ∧ DeclaresOnce 1 before entries ∧
        Fault (entries.map Prod.fst) line e := by
  have hnone : (names empty).Nodup := List.nodup_nil
  rcases declares_or_fault hnone 1 (searched lines) with
    ⟨entries, hentries, hnodup⟩ | ⟨before, line, after, entries, e, hlines, hentries, hnodup, hfault⟩
  · exact .inl ⟨entries, hentries, hnodup⟩
  · exact .inr ⟨before, line, after, entries, e, hlines, ⟨hentries, hnodup⟩, hfault⟩

theorem ofLines_eq_ok_iff {index : SegmentIndex} :
    ofLines mode lines = .ok index ↔
      DeclaresOnce 1 (searched lines) index.entries ∧ (mode = .strict → Ended lines) := by
  constructor
  · intro h
    rcases searched_cases lines with ⟨entries, hentries⟩ | ⟨_, _, _, _, _, hlines, hentries, hfault⟩
    · rcases ofLines_of_declares mode hentries with ⟨hended, hok⟩ | ⟨-, hunended⟩
      · cases h.symm.trans hok
        exact ⟨hentries, fun _ => hended⟩
      · rw [hunended] at h
        split at h
        · cases h
        · rename_i hmode
          cases h
          exact ⟨hentries, fun hstrict => absurd hstrict hmode⟩
    · cases h.symm.trans (ofLines_of_fault hlines hentries hfault)
  · rintro ⟨hentries, hended⟩
    rcases ofLines_of_declares mode hentries with ⟨-, hok⟩ | ⟨hunended, hok⟩
    · exact hok
    · rw [hok, if_neg fun hmode => hunended (hended hmode)]

theorem ofLines_eq_error_iff {number : Nat} {e : SegmentError} :
    ofLines mode lines = .error (number, e) ↔
      (∃ before line after entries, searched lines = before ++ line :: after ∧ DeclaresOnce 1 before entries ∧
          Fault (entries.map Prod.fst) line e ∧ number = 1 + before.length) ∨
        mode = .strict ∧ ¬Ended lines ∧ (∃ entries, DeclaresOnce 1 (searched lines) entries) ∧
          number = lines.length ∧ e = .noEnd := by
  constructor
  · intro h
    rcases searched_cases lines with
      ⟨entries, hentries⟩ | ⟨before, line, after, entries, e', hlines, hentries, hfault⟩
    · rcases ofLines_of_declares mode hentries with ⟨-, hok⟩ | ⟨hunended, herror⟩
      · cases h.symm.trans hok
      · rw [herror] at h
        split at h
        · rename_i hmode
          cases h
          exact .inr ⟨hmode, hunended, ⟨entries, hentries⟩, rfl, rfl⟩
        · cases h
    · cases h.symm.trans (ofLines_of_fault hlines hentries hfault)
      exact .inl ⟨before, line, after, entries, hlines, hentries, hfault, rfl⟩
  · rintro (⟨before, line, after, entries, hlines, hentries, hfault, rfl⟩ |
      ⟨hmode, hunended, ⟨entries, hentries⟩, rfl, rfl⟩)
    · exact ofLines_of_fault hlines hentries hfault
    · rcases ofLines_of_declares mode hentries with ⟨hended, -⟩ | ⟨-, herror⟩
      · exact absurd hended hunended
      · rw [herror, if_pos hmode]

/-- The search fails without an end, where the mode asks for one, and otherwise because of a line that is malformed or
repeats a name. -/
theorem exists_ofLines_eq_error_iff :
    (∃ error, ofLines mode lines = .error error) ↔
      (mode = .strict ∧ ¬Ended lines) ∨
        ∃ before line after, searched lines = before ++ line :: after ∧ isHeader line = true ∧
          ((∃ e, Malformed line e) ∨ Repeats before line) := by
  constructor
  · rintro ⟨⟨number, e⟩, herror⟩
    rcases ofLines_eq_error_iff.mp herror with
      ⟨before, line, after, entries, hlines, hentries, hfault, -⟩ | ⟨hmode, hunended, -⟩
    · refine .inr ⟨before, line, after, hlines, ?_⟩
      cases hfault with
      | malformed hline he => exact ⟨hline, .inl ⟨e, he⟩⟩
      | repeated hline hlisted _ hname =>
          refine ⟨hline, .inr ⟨_, _, _, hlisted, ?_⟩⟩
          rcases List.mem_append.mp hname with hearlier | hsame
          · exact .inr (hentries.declares.mem_names_iff.mp hearlier)
          · exact .inl hsame
    · exact .inl ⟨hmode, hunended⟩
  · intro h
    cases hresult : ofLines mode lines with
    | error error => exact ⟨error, rfl⟩
    | ok index =>
        obtain ⟨hentries, hended⟩ := ofLines_eq_ok_iff.mp hresult
        exfalso
        rcases h with ⟨hmode, hunended⟩ | ⟨before, line, after, hlines, hline, hwrong⟩
        · exact hunended (hended hmode)
        · have hdeclares := hentries.declares
          rw [hlines] at hdeclares
          obtain ⟨first, listed, last, hfirst, hlisted, hnames⟩ := hdeclares.of_append_cons hline
          have hnodup := hentries.nodup
          rw [hnames, List.nodup_append] at hnodup
          rcases hwrong with ⟨e, he⟩ | ⟨front, name, back, hlisted', hname⟩
          · exact hlisted.not_malformed e he
          · obtain rfl := hlisted.det hlisted'
            rcases hname with hsame | hearlier
            · have hown := (List.nodup_append.mp (List.nodup_append.mp hnodup.2.1).1).2.2
              exact hown name hsame name List.mem_cons_self rfl
            · exact hnodup.2.2 name (hfirst.mem_names_iff.mpr hearlier) name (by simp) rfl

/-- What is found is fit for use: a name has one line, the lines come in order, the bodies lie within the level and hold
no segment line, and two of them are the same or have no line in common. -/
structure Regular (lines : List Line) (index : SegmentIndex) : Prop where
  nodup : index.names.Nodup
  ascending : (index.entries.map Prod.snd).Pairwise (· ≤ ·)
  header : ∀ entry ∈ index.entries, 1 ≤ entry.2 ∧ ∃ line, lines[entry.2]? = some line ∧ isHeader line = true
  body : ∀ entry ∈ index.entries,
    Segment.body lines entry.2 = lines.extract (bodyStart entry.2) (bodyEnd lines entry.2) ∧
      bodyEnd lines entry.2 ≤ lines.length ∧
      ∀ number ∈ bodyRange lines entry.2, ∃ line, lines[number]? = some line ∧ isHeader line = false
  apart : ∀ entry ∈ index.entries, ∀ other ∈ index.entries,
    (entry.2 = other.2 ∧ bodyRange lines entry.2 = bodyRange lines other.2) ∨
      (entry.2 ≠ other.2 ∧ Disjoint (bodyRange lines entry.2) (bodyRange lines other.2))

theorem regular_of_ofLines {index : SegmentIndex} (h : ofLines mode lines = .ok index) : Regular lines index := by
  obtain ⟨hentries, -⟩ := ofLines_eq_ok_iff.mp h
  have hheader : ∀ entry ∈ index.entries,
      1 ≤ entry.2 ∧ ∃ line, lines[entry.2]? = some line ∧ isHeader line = true := by
    intro entry hentry
    obtain ⟨offset, line, hnumber, hline, hheader⟩ := hentries.declares.exists_header hentry
    obtain ⟨rest, hrest⟩ : searched lines <+: lines.drop 1 := List.takeWhile_prefix _
    have hlater : (lines.drop 1)[offset]? = some line := by
      rw [← hrest, List.getElem?_append_left (List.getElem?_eq_some_iff.mp hline).1, hline]
    rw [List.getElem?_drop, ← hnumber] at hlater
    exact ⟨by omega, line, hlater, hheader⟩
  refine ⟨hentries.nodup, hentries.declares.pairwise_le, hheader, ?_, ?_⟩
  · intro entry hentry
    obtain ⟨-, line, hline, -⟩ := hheader entry hentry
    exact ⟨body_eq_extract lines entry.2, bodyEnd_le (List.getElem?_eq_some_iff.mp hline).1,
      fun _ => exists_of_mem_bodyRange⟩
  · intro entry hentry other hother
    obtain ⟨-, line, hline, hlineHeader⟩ := hheader entry hentry
    obtain ⟨-, line', hline', hlineHeader'⟩ := hheader other hother
    rcases Nat.lt_trichotomy entry.2 other.2 with hlt | heq | hlt
    · exact .inr ⟨Nat.ne_of_lt hlt, disjoint_bodyRange_of_lt hlt hline' hlineHeader'⟩
    · exact .inl ⟨heq, by rw [heq]⟩
    · exact .inr ⟨Nat.ne_of_gt hlt, (disjoint_bodyRange_of_lt hlt hline hlineHeader).symm⟩

end Levels

/-- Segments are found exactly as they are declared. The search succeeds with the names that the segment lines list, in
order and each with the number of its line, if all of them list names that are new and, in strict mode, some line ends
the search. It fails exactly where there is no such line in strict mode, or a segment line before it is malformed or
repeats a name; the error is the first thing that is wrong. And what is found is fit for use. -/
theorem segments_found_exactly (mode : Mode) (lines : List Line) :
    (∀ index, ofLines mode lines = .ok index ↔
        DeclaresOnce 1 (searched lines) index.entries ∧ (mode = .strict → Ended lines)) ∧
      ((∃ error, ofLines mode lines = .error error) ↔
        (mode = .strict ∧ ¬Ended lines) ∨
          ∃ before line after, searched lines = before ++ line :: after ∧ isHeader line = true ∧
            ((∃ e, Malformed line e) ∨ Repeats before line)) ∧
      (∀ number e, ofLines mode lines = .error (number, e) ↔
        (∃ before line after entries, searched lines = before ++ line :: after ∧ DeclaresOnce 1 before entries ∧
            Fault (entries.map Prod.fst) line e ∧ number = 1 + before.length) ∨
          mode = .strict ∧ ¬Ended lines ∧ (∃ entries, DeclaresOnce 1 (searched lines) entries) ∧
            number = lines.length ∧ e = .noEnd) ∧
      ∀ index, ofLines mode lines = .ok index → Regular lines index :=
  ⟨fun _ => ofLines_eq_ok_iff, exists_ofLines_eq_error_iff, fun _ _ => ofLines_eq_error_iff,
    fun _ => regular_of_ofLines⟩

/-- A level with two names on one line and text after them, and a segment line behind the one that ends the search. -/
def cellarLines : List Line :=
  ["#Format MDMF", "#Segment [Lines , Walls] below", "@1 \x7b: :\x7d", "#Segment [Doors]", "#Segment End",
    "#Segment [Attic"]

def cellarIndex : SegmentIndex :=
  ⟨[("Lines", 1), ("Walls", 1), ("Doors", 3)]⟩

theorem cellar_found : ofLines .strict cellarLines = .ok cellarIndex ∧
    DeclaresOnce 1 (searched cellarLines) cellarIndex.entries ∧ Regular cellarLines cellarIndex := by
  have hfound : ofLines .strict cellarLines = .ok cellarIndex := by decide +kernel
  obtain ⟨hdeclared, -, -, hregular⟩ := segments_found_exactly .strict cellarLines
  exact ⟨hfound, ((hdeclared cellarIndex).mp hfound).1, hregular cellarIndex hfound⟩

end SegmentIndex

end LevelPlay
