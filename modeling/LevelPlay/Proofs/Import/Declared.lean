import LevelPlay.Proofs.Import.Passes
import LevelPlay.Proofs.Segment.Index
import LevelPlay.Proofs.Text.Marks

/-! Imports of declared segments. The names that a segment line lists are trimmed and not empty, and an import needs
no more: what stands behind the first separator is the name, whatever it is made of, as long as the path before it does
not run into the separator. And a line that is put into a level, if it is no segment line, moves the segments behind
it by one and changes none of their names. -/

namespace LevelPlay

/-! ### Names and targets -/

theorem Segment.Lists.trimmed {line : Line} {names : List String} (h : Lists line names) :
    ∀ name ∈ names, Text.Trimmed name.toList ∧ name ≠ "" := by
  obtain ⟨parts, -, hparts, rfl⟩ := h
  intro name hname
  obtain ⟨part, hpart, rfl⟩ := List.mem_map.mp hname
  rw [String.toList_ofList]
  refine ⟨Text.trimmed_trimBlanks part, fun hempty => hparts part hpart ?_⟩
  rw [← String.toList_ofList (l := Text.trimBlanks part), hempty]
  rfl

namespace ImportTarget

/-- A path that does not run into the separator ends where the first one begins. -/
theorem beforeMarks_of_path {path : List Char} (hfree : ¬[':', ':'] <:+: path) (hlast : path.getLast? ≠ some ':')
    (name : List Char) : Text.BeforeMarks [[':', ':']] (path ++ [':', ':'] ++ name) path where
  reaches := .inr ⟨_, List.mem_singleton_self _, List.prefix_append _ name⟩
  earliest := by
    intro mark hmark passed hpassed
    rw [List.mem_singleton.mp hmark] at hpassed
    have hpath : path <+: path ++ [':', ':'] ++ name := by
      rw [List.append_assoc]
      exact List.prefix_append path _
    by_contra hlt
    rcases Nat.lt_or_ge (passed.length + 1) path.length with hinside | hacross
    · have hprefix : passed ++ [':', ':'] <+: path :=
        List.prefix_of_prefix_length_le hpassed hpath (by simp; omega)
      exact hfree ((List.suffix_append passed _).isInfix.trans hprefix.isInfix)
    · have hfirst : passed ++ [':'] <+: passed ++ [':', ':'] := ⟨[':'], by simp⟩
      have hprefix : passed ++ [':'] <+: path :=
        List.prefix_of_prefix_length_le (hfirst.trans hpassed) hpath (by simp; omega)
      have hwhole : passed ++ [':'] = path := hprefix.eq_of_length (by simp; omega)
      exact hlast (by simp [← hwhole])

/-- The path and the name of a target are read back. -/
theorem parse_append {path name : String} (hpath : Text.Trimmed path.toList) (hfree : ¬"::".toList <:+: path.toList)
    (hlast : path.toList.getLast? ≠ some ':') (hname : Text.Trimmed name.toList) (hne : name ≠ "") :
    parse (path ++ "::" ++ name) = .ok ⟨path, name⟩ := by
  have haround : Text.around "::".toList (path ++ "::" ++ name).toList = some (path.toList, name.toList) := by
    rw [String.toList_append, String.toList_append]
    exact Text.around_of_beforeMarks (List.cons_ne_nil _ _) name.toList (beforeMarks_of_path hfree hlast name.toList)
  rw [parse, haround]
  simp [Text.trimBlanks_of_trimmed hpath, Text.trimBlanks_of_trimmed hname, hne]

end ImportTarget

/-! ### A line more -/

namespace SegmentIndex

open Segment

/-- An entry of an index when a line has come in at this place: its number is one more from there on. -/
def moved (place : Nat) (entry : String × Nat) : String × Nat :=
  (entry.1, if entry.2 < place then entry.2 else entry.2 + 1)

theorem moved_of_lt {place : Nat} {entry : String × Nat} (h : entry.2 < place) : moved place entry = entry := by
  rw [moved, if_pos h]

theorem map_fst_moved (place : Nat) (entries : List (String × Nat)) :
    (entries.map (moved place)).map Prod.fst = entries.map Prod.fst := by
  simp [moved]

namespace Declares

variable {number place : Nat} {lines before after : List Line} {entries : List (String × Nat)} {line : Line}

theorem shift (h : Declares number lines entries) (hplace : place ≤ number) :
    Declares (number + 1) lines (entries.map (moved place)) := by
  induction h with
  | nil number => exact .nil (number + 1)
  | skip hline _ ih => exact .skip hline (ih (Nat.le_succ_of_le hplace))
  | @declare number line rest listed entries hline hlisted _ ih =>
      have hmoved : listed.map (moved place ∘ fun name => (name, number)) =
          listed.map fun name => (name, number + 1) := by
        simp [moved, Function.comp_def, Nat.not_lt.mpr hplace]
      rw [List.map_append, List.map_map, hmoved]
      exact .declare hline hlisted (ih (Nat.le_succ_of_le hplace))

/-- A line that is no segment line moves those behind it. -/
theorem insert (hline : isHeader line = false) (h : Declares number (before ++ after) entries) :
    Declares number (before ++ line :: after) (entries.map (moved (number + before.length))) := by
  induction before generalizing number entries with
  | nil => exact .skip hline (h.shift (Nat.le_refl number))
  | cons first before ih =>
      rw [List.length_cons, Nat.add_comm before.length, ← Nat.add_assoc]
      cases h with
      | skip hfirst hrest => exact .skip hfirst (ih hrest)
      | @declare _ _ _ listed entries hfirst hlisted hrest =>
          have hmoved : listed.map (moved (number + 1 + before.length) ∘ fun name => (name, number)) =
              listed.map fun name => (name, number) :=
            List.map_congr_left fun name _ => moved_of_lt (by show number < _; omega)
          rw [List.map_append, List.map_map, hmoved]
          exact .declare hfirst hlisted (ih hrest)

theorem map_moved_eq (h : Declares number lines entries) (hplace : number + lines.length ≤ place) :
    entries.map (moved place) = entries := by
  have hsame : ∀ entry ∈ entries, moved place entry = entry := by
    intro entry hentry
    obtain ⟨offset, header, hnumber, hheader, -⟩ := h.exists_header hentry
    have hoffset : offset < lines.length := (List.getElem?_eq_some_iff.mp hheader).1
    exact moved_of_lt (by omega)
  rw [List.map_congr_left hsame, List.map_id']

end Declares

/-- What is searched for segments up to a place is searched there whatever comes behind it. -/
theorem searched_insert (first : Line) (before after : List Line) {line : Line} (hline : isHeader line = false) :
    (searched (first :: (before ++ after)) = before ++ after.takeWhile (fun line => !isEnd line) ∧
        searched (first :: (before ++ line :: after)) = before ++ line :: after.takeWhile fun line => !isEnd line) ∨
      (searched (first :: (before ++ after))).length ≤ before.length ∧
        searched (first :: (before ++ line :: after)) = searched (first :: (before ++ after)) := by
  have hgoesOn : isEnd line = false := by
    by_contra hend
    cases hline.symm.trans (isHeader_of_isEnd (by simpa using hend))
  simp only [searched, List.drop_one, List.tail_cons, List.takeWhile_append]
  split
  · rw [List.takeWhile_cons_of_pos (by simp [hgoesOn])]
    exact .inl ⟨rfl, rfl⟩
  · exact .inr ⟨(List.takeWhile_prefix _).length_le, rfl⟩

/-- The segments of a level are those of the level with a line more that is no segment line, behind the first. -/
theorem ofLines_insert {mode : Mode} {before after : List Line} {line : Line} {index : SegmentIndex}
    (hline : isHeader line = false) (hbefore : before ≠ []) (h : ofLines mode (before ++ after) = .ok index) :
    ofLines mode (before ++ line :: after) = .ok ⟨index.entries.map (moved before.length)⟩ := by
  obtain ⟨⟨hdeclares, hnodup⟩, hended⟩ := ofLines_eq_ok_iff.mp h
  obtain ⟨first, before, rfl⟩ := List.exists_cons_of_ne_nil hbefore
  refine ofLines_eq_ok_iff.mpr ⟨⟨?_, ?_⟩, fun hmode => ?_⟩
  · rw [List.cons_append] at hdeclares ⊢
    rcases searched_insert first before after hline with ⟨hsearched, hlater⟩ | ⟨hlength, hsame⟩
    · rw [hsearched] at hdeclares
      rw [hlater, List.length_cons, Nat.add_comm]
      exact hdeclares.insert hline
    · rw [hsame]
      simp only
      rw [hdeclares.map_moved_eq (by rw [List.length_cons]; omega)]
      exact hdeclares
  · rw [map_fst_moved]
    exact hnodup
  · obtain ⟨last, hlast, hend⟩ := hended hmode
    refine ⟨last, ?_, hend⟩
    simp only [List.cons_append, List.drop_one, List.tail_cons, List.mem_append, List.mem_cons] at hlast ⊢
    exact hlast.imp_right .inr

theorem get?_moved {index : SegmentIndex} (hnodup : index.names.Nodup) (place : Nat) {entry : String × Nat}
    (hentry : entry ∈ index.entries) :
    get? ⟨index.entries.map (moved place)⟩ entry.1 = some (moved place entry).2 := by
  have hnames : (names ⟨index.entries.map (moved place)⟩).Nodup := by
    rw [names, map_fst_moved]
    exact hnodup
  exact (get?_eq_some_iff hnames).mpr (List.mem_map_of_mem hentry)

theorem exists_lists_of_mem {mode : Mode} {lines : List Line} {index : SegmentIndex}
    (h : ofLines mode lines = .ok index) {entry : String × Nat} (hentry : entry ∈ index.entries) :
    ∃ line listed, Lists line listed ∧ entry.1 ∈ listed := by
  obtain ⟨⟨hdeclares, -⟩, -⟩ := ofLines_eq_ok_iff.mp h
  obtain ⟨line, -, -, listed, hlisted, hname⟩ := hdeclares.mem_names_iff.mp (List.mem_map_of_mem hentry)
  exact ⟨line, listed, hlisted, hname⟩

end SegmentIndex

/-! ### Imports -/

namespace Import

open SegmentIndex (moved)

/-- The line that imports a segment of the level that it stands in. -/
def localImport (name : String) : Line :=
  "#import ::" ++ name

theorem toList_localImport (name : String) :
    (localImport name).toList = "#import".toList ++ ' ' :: ':' :: ':' :: name.toList := by
  rw [localImport, String.toList_append]
  rfl

theorem isImport_localImport (name : String) : isImport (localImport name) = true := by
  have hword : Text.firstWord (localImport name) = "#import" := by
    rw [Text.firstWord, toList_localImport, List.takeWhile_append_of_pos (List.all_eq_true.mp rfl),
      List.takeWhile_cons_of_neg (by decide)]
    rfl
  rw [isImport, hword]
  decide

theorem afterFirstWord_localImport {name : String} (h : Text.Trimmed name.toList) (hne : name ≠ "") :
    Text.afterFirstWord (localImport name) = "::" ++ name := by
  have htrimmed : Text.Trimmed (':' :: ':' :: name.toList) := by
    refine ⟨fun c hc => ?_, ?_⟩
    · cases hc
      decide
    · obtain ⟨first, rest, hlist⟩ := List.exists_cons_of_ne_nil (mt String.toList_eq_nil_iff.mp hne)
      have hlast := h.last
      rw [hlist] at hlast ⊢
      simpa only [List.getLast?_cons_cons] using hlast
  rw [Text.afterFirstWord, toList_localImport, List.dropWhile_append_of_pos (List.all_eq_true.mp rfl),
    List.dropWhile_cons_of_neg (by decide), Text.trimBlanks_cons_of_isBlank (by decide),
    Text.trimBlanks_of_trimmed htrimmed]
  apply String.toList_injective
  simp

theorem target_localImport {name : String} (h : Text.Trimmed name.toList) (hne : name ≠ "") :
    target (localImport name) = .ok ("::" ++ name, ⟨"", name⟩) := by
  have hparse : ImportTarget.parse ("::" ++ name) = .ok ⟨"", name⟩ := by
    have hempty : ImportTarget.parse ("" ++ "::" ++ name) = .ok ⟨"", name⟩ :=
      ImportTarget.parse_append ⟨nofun, nofun⟩ (by decide) nofun h hne
    rwa [String.empty_append] at hempty
  have hspec : "::" ++ name ≠ "" := by simp
  rw [target, afterFirstWord_localImport h hne]
  simp [hspec, hparse]

section Expansion

variable {mode : Mode} {files : FileReader} {folder : Path} {lines before after : List Line} {name : String}
  {header : Nat}

/-- The import of a segment that is found in a level stands for its body there. -/
theorem standsFor_localImport {index : SegmentIndex} (hfound : SegmentIndex.ofLines mode lines = .ok index)
    (hheader : index.get? name = some header) (hname : Text.Trimmed name.toList) (hne : name ≠ "") :
    StandsFor mode files folder lines (localImport name) (Segment.body lines header) := by
  refine ⟨"::" ++ name, ⟨"", name⟩, target_localImport hname hne, ?_⟩
  have hlocal : LooksIn files folder lines ⟨"", name⟩ lines := .level rfl
  rw [targetBody_eq_of_looksIn hlocal, segmentBody, hfound]
  simp only [hheader]

/-- Lines that import nothing are kept. -/
theorem ReplacesAll.keep_all {front rest out : List Line} (h : ∀ line ∈ before, isImport line = false)
    (hrest : ReplacesAll mode files folder (front ++ before) rest out) :
    ReplacesAll mode files folder front (before ++ rest) (before ++ out) := by
  induction before generalizing front with
  | nil => rwa [List.append_nil] at hrest
  | cons line before ih =>
      obtain ⟨hline, hbefore⟩ := List.forall_mem_cons.mp h
      rw [List.append_cons] at hrest
      exact .keep hline (ih hbefore hrest)

/-- If a single line imports, and what it stands for imports nothing, then one pass replaces it. -/
theorem expand_of_single {settings : Settings} {directive : Line} {body : List Line}
    (hdepth : settings.maxDepth ≠ 0) (himport : isImport directive = true)
    (hbefore : ∀ line ∈ before, isImport line = false) (hafter : ∀ line ∈ after, isImport line = false)
    (hbody : StandsFor settings.mode files folder (before ++ directive :: after) directive body)
    (hclear : ∀ line ∈ body, isImport line = false) :
    expand settings files folder (before ++ directive :: after) = .ok ⟨before ++ (body ++ after), 1, 1⟩ := by
  have hkept : ReplacesAll settings.mode files folder (before ++ [directive]) after after := by
    have hall : ReplacesAll settings.mode files folder (before ++ [directive]) (after ++ []) (after ++ []) :=
      .keep_all hafter (.nil _)
    rwa [List.append_nil] at hall
  have hpass : ReplacesAll settings.mode files folder [] (before ++ directive :: after) (before ++ (body ++ after)) :=
    .keep_all hbefore (.splice himport hkept hbody)
  have hcount : (before ++ directive :: after).countP isImport = 1 := by
    rw [List.countP_append, List.countP_cons_of_pos himport, List.countP_eq_zero.mpr (by simpa using hbefore),
      List.countP_eq_zero.mpr (by simpa using hafter)]
  obtain ⟨left, hleft⟩ := Nat.exists_eq_succ_of_ne_zero hdepth
  rw [expand, hleft, passes_succ_of_import left (not_forall_of_import himport), hpass.pass_eq_ok, Result.ok_bind,
    hcount]
  apply passes_of_no_import
  simp only [List.forall_mem_append]
  exact ⟨hbefore, hclear, hafter⟩

end Expansion

/-- Every declared segment can be imported. If the segments of a level are found then they are found, with their
numbers moved, when the import of one of them is put in anywhere behind the first line; and the import stands for the
body of its segment in the level as it is then. Where nothing else imports, and the import is not put into the body of
its own segment, the level expands to itself with this body in its place. And from a file, too, a segment of this name
can be imported: a path that is trimmed and does not run into the separator is read back, with the name. -/
theorem declared_segments_importable {settings : Settings} {lines : List Line} {index : SegmentIndex}
    (hfound : SegmentIndex.ofLines settings.mode lines = .ok index) {name : String} {header : Nat}
    (hname : (name, header) ∈ index.entries) :
    (∀ files folder before after, lines = before ++ after → before ≠ [] →
        let level := before ++ localImport name :: after
        let body := Segment.body level (moved before.length (name, header)).2
        SegmentIndex.ofLines settings.mode level = .ok ⟨index.entries.map (moved before.length)⟩ ∧
          replacement settings.mode files folder level (localImport name) = .ok body ∧
          (settings.maxDepth ≠ 0 → (∀ line ∈ lines, isImport line = false) → localImport name ∉ body →
            expand settings files folder level = .ok ⟨before ++ (body ++ after), 1, 1⟩)) ∧
      ∀ path, path ≠ "" → Text.trim path = path → ¬"::".toList <:+: path.toList → path.toList.getLast? ≠ some ':' →
        ImportTarget.parse (path ++ "::" ++ name) = .ok ⟨path, name⟩ := by
  obtain ⟨line, listed, hlisted, hmem⟩ := SegmentIndex.exists_lists_of_mem hfound hname
  obtain ⟨htrimmed, hne⟩ := hlisted.trimmed name hmem
  refine ⟨fun files folder before after hlines hbefore => ?_, fun path _ htrim hfree hlast => ?_⟩
  · subst hlines
    intro level body
    have hmoved := SegmentIndex.ofLines_insert (isHeader_of_isImport (isImport_localImport name)) hbefore hfound
    have hheader := SegmentIndex.get?_moved (SegmentIndex.ofLines_eq_ok_iff.mp hfound).1.nodup before.length hname
    have hstands : StandsFor settings.mode files folder level (localImport name) body :=
      standsFor_localImport hmoved hheader htrimmed hne
    refine ⟨hmoved, replacement_eq_ok_iff.mpr hstands, fun hdepth hplain hapart => ?_⟩
    obtain ⟨hplainBefore, hplainAfter⟩ := List.forall_mem_append.mp hplain
    apply expand_of_single hdepth (isImport_localImport name) hplainBefore hplainAfter hstands
    intro other hother
    have hlevel : other ∈ level := List.mem_of_mem_drop ((List.takeWhile_prefix _).mem hother)
    rcases List.mem_append.mp hlevel with hfront | hback
    · exact hplainBefore other hfront
    · rcases List.mem_cons.mp hback with rfl | hback
      · exact absurd hother hapart
      · exact hplainAfter other hback
  · have hpath : Text.Trimmed path.toList := by
      rw [← htrim, Text.trim, String.toList_ofList]
      exact Text.trimmed_trimBlanks path.toList
    exact ImportTarget.parse_append hpath hfree hlast htrimmed hne

/-- A level that declares a segment under a name with colons, a bracket and a separator. -/
def oddLevel : List Line :=
  ["#Format MDMF", "#Segment [Hall]", "floor", "#Segment [:North [a::b , Doors]", "door", "#Segment End"]

theorem oddLevel_importable :
    SegmentIndex.ofLines .strict oddLevel = .ok ⟨[("Hall", 1), (":North [a::b", 3), ("Doors", 3)]⟩ ∧
      expand {} (fun _ => .error .notFound) "" (oddLevel.take 3 ++ "#import :::North [a::b" :: oddLevel.drop 3) =
        .ok ⟨oddLevel.take 3 ++ (["door"] ++ oddLevel.drop 3), 1, 1⟩ ∧
      ImportTarget.parse "lib:x:::North [a::b" = .ok ⟨"lib:x", ":North [a::b"⟩ := by
  have hfound : SegmentIndex.ofLines .strict oddLevel = .ok ⟨[("Hall", 1), (":North [a::b", 3), ("Doors", 3)]⟩ := by
    decide +kernel
  have hbody : Segment.body (oddLevel.take 3 ++ localImport ":North [a::b" :: oddLevel.drop 3) 4 = ["door"] := by
    decide +kernel
  have hname : (":North [a::b", 3) ∈ [("Hall", 1), (":North [a::b", 3), ("Doors", 3)] := by decide
  obtain ⟨hlocal, hfile⟩ := @declared_segments_importable {} _ _ hfound _ _ hname
  obtain ⟨-, -, hexpand⟩ := hlocal (fun _ => .error .notFound) "" (oddLevel.take 3) (oddLevel.drop 3) rfl (by decide)
  refine ⟨hfound, ?_, hfile "lib:x" (by decide) (by decide +kernel) (by decide) (by decide)⟩
  have hmoved : (moved (oddLevel.take 3).length (":North [a::b", 3)).2 = 4 := by decide
  rw [hmoved, hbody] at hexpand
  exact hexpand (by decide) (by decide +kernel) (by decide +kernel)

end Import

end LevelPlay
