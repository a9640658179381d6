import LevelPlay.Proofs.Level.Contents

/-! The grammar of a `Scripts` segment. Its lines are blocks, each with a line that begins it, any lines that end
nothing, and a line that ends it. What a line is depends on where it stands: within a block, one that could begin a
script is an instruction. Still there is at most one way to divide lines into blocks, since each goes on to the first
line that ends it; so reading from block to block finds the blocks if there are any, and else the place where they
break off. -/

namespace LevelPlay.Scripts

/-! ### Blocks -/

/-- The line begins the script of this id: all that it comes to is the id and the word after it. -/
def Begins (table : MacroTable) (line : Line) (id : Int) : Prop :=
  ∃ key, Token.ofLine table line = [key, beginWord] ∧ Value.Denotes [key] (.identifier id)

/-- The line ends a script if it stands in one. -/
def Stops (table : MacroTable) (line : Line) : Prop :=
  (instruction table line).head? = some endWord

instance (table : MacroTable) (line : Line) : Decidable (Stops table line) :=
  inferInstanceAs (Decidable ((instruction table line).head? = some endWord))

/-- The first line begins the script of this id, and none of the lines after it ends it. -/
structure Opens (table : MacroTable) (first : Line) (inner : List Line) (id : Int) : Prop where
  begins : Begins table first id
  goesOn : ∀ line ∈ inner, ¬Stops table line

/-- The lines of a script: one that begins it, one for each instruction, and one that ends it. -/
structure ScriptBlock where
  id : Int
  first : Line
  inner : List Line
  last : Line

namespace ScriptBlock

def lines (block : ScriptBlock) : List Line :=
  block.first :: (block.inner ++ [block.last])

def script (table : MacroTable) (block : ScriptBlock) : Script :=
  ⟨block.id, block.inner.map (instruction table)⟩

/-- The lines are what they should be. In strict mode nothing else stands on the line that ends the script. -/
structure WellFormed (mode : Mode) (table : MacroTable) (block : ScriptBlock) : Prop where
  opens : Opens table block.first block.inner block.id
  stops : Stops table block.last
  clean : mode = .strict → instruction table block.last = [endWord]

end ScriptBlock

/-- The lines consist of these blocks, one after the other, and no two of them have one id. -/
structure Divided (mode : Mode) (table : MacroTable) (lines : List Line) (blocks : List ScriptBlock) : Prop where
  lines_eq : lines = blocks.flatMap ScriptBlock.lines
  wellFormed : ∀ block ∈ blocks, block.WellFormed mode table
  nodup : (blocks.map ScriptBlock.id).Nodup

/-- What breaks off the blocks at the front of these lines, and how many lines on, where `ids` are those of the blocks
before and `delimited` tells whether a segment line follows. -/
inductive Fault (mode : Mode) (table : MacroTable) (ids : List Int) (delimited : Bool) :
    List Line → Nat → StructuralError → Prop where
  | notScript {line : Line} {rest : List Line} (hline : ∀ id, ¬Begins table line id) :
      Fault mode table ids delimited (line :: rest) 0 (.notScript line)
  | repeated {line : Line} {rest : List Line} {id : Int} (hline : Begins table line id) (hid : id ∈ ids) :
      Fault mode table ids delimited (line :: rest) 0 (.repeatedScript id)
  | afterEnd {first last : Line} {inner rest : List Line} {id : Int} (hopens : Opens table first inner id)
      (hid : id ∉ ids) (hstops : Stops table last) (hmode : mode = .strict)
      (hmore : instruction table last ≠ [endWord]) :
      Fault mode table ids delimited (first :: (inner ++ last :: rest)) (inner.length + 1) .tokensAfterEnd
  | unended {first : Line} {inner : List Line} {id : Int} (hopens : Opens table first inner id) (hid : id ∉ ids) :
      Fault mode table ids delimited (first :: inner) (inner.length + 1)
        (if delimited then .cutScript id else .openScript id)

theorem headerId?_eq_some_iff {table : MacroTable} {line : Line} {id : Int} :
    headerId? (Token.ofLine table line) = some id ↔ Begins table line id := by
  rw [Begins]
  generalize Token.ofLine table line = tokens
  constructor
  · intro h
    rw [headerId?.eq_def] at h
    split at h
    · rename_i key word
      split at h
      · rename_i hword
        subst hword
        split at h
        · rename_i hparse
          cases h
          obtain ⟨-, -, hvalue⟩ := Value.parseAt_eq_ok_iff.mp hparse
          exact ⟨key, rfl, hvalue⟩
        · cases h
      · cases h
    · cases h
  · rintro ⟨key, rfl, hvalue⟩
    have hparse : Value.parseAt [key, beginWord] 0 = .ok (.identifier id, 0) :=
      Value.parseAt_eq_ok_iff.mpr ⟨Nat.le_refl 0, Nat.zero_lt_succ 1, hvalue⟩
    simp [headerId?, hparse]

theorem Begins.det {table : MacroTable} {line : Line} {id other : Int} (h : Begins table line id)
    (h' : Begins table line other) : other = id :=
  Option.some.inj ((headerId?_eq_some_iff.mpr h').symm.trans (headerId?_eq_some_iff.mpr h))

theorem headerId?_eq_none_iff {table : MacroTable} {line : Line} :
    headerId? (Token.ofLine table line) = none ↔ ∀ id, ¬Begins table line id := by
  simp only [Option.eq_none_iff_forall_ne_some, ne_eq, headerId?_eq_some_iff]

/-- Where a line ends a script, more stands on it just if it comes to more than the one word. -/
theorem Stops.length_iff {table : MacroTable} {line : Line} (h : Stops table line) :
    1 < (instruction table line).length ↔ instruction table line ≠ [endWord] := by
  rw [Stops] at h
  cases htokens : instruction table line with
  | nil => simp [htokens] at h
  | cons word rest =>
      obtain rfl : word = endWord := by simpa [htokens] using h
      cases rest <;> simp

/-! ### There is one division -/

section Division

variable {mode : Mode} {table : MacroTable}

/-- Lines that end nothing, then one that ends a script: there is one place to cut. -/
theorem append_stops_inj {inner inner' rest rest' : List Line} {last last' : Line}
    (hinner : ∀ line ∈ inner, ¬Stops table line) (hlast : Stops table last)
    (hinner' : ∀ line ∈ inner', ¬Stops table line) (hlast' : Stops table last')
    (h : inner ++ last :: rest = inner' ++ last' :: rest') : inner = inner' ∧ last = last' ∧ rest = rest' := by
  have hfront : ∀ {inner rest : List Line} {last : Line}, (∀ line ∈ inner, ¬Stops table line) →
      Stops table last → (inner ++ last :: rest).takeWhile (fun line => !decide (Stops table line)) = inner := by
    intro inner rest last hinner hlast
    rw [List.takeWhile_append_of_pos (by simpa using hinner), List.takeWhile_cons_of_neg (by simpa using hlast),
      List.append_nil]
  have hsame : inner = inner' := by rw [← hfront hinner hlast, h, hfront hinner' hlast']
  subst hsame
  obtain ⟨rfl, rfl⟩ := List.cons.inj (List.append_cancel_left h)
  exact ⟨rfl, rfl, rfl⟩

theorem ScriptBlock.WellFormed.eq_of_append {block other : ScriptBlock} (h : block.WellFormed mode table)
    (h' : other.WellFormed mode table) {rest rest' : List Line}
    (hlines : block.lines ++ rest = other.lines ++ rest') : block = other ∧ rest = rest' := by
  obtain ⟨id, first, inner, last⟩ := block
  obtain ⟨id', first', inner', last'⟩ := other
  simp only [lines, List.cons_append, List.append_assoc, List.cons.injEq] at hlines
  obtain ⟨rfl, hlines⟩ := hlines
  obtain rfl := h'.opens.begins.det h.opens.begins
  obtain ⟨rfl, rfl, rfl⟩ := append_stops_inj h.opens.goesOn h.stops h'.opens.goesOn h'.stops hlines
  exact ⟨rfl, rfl⟩

theorem Divided.det {lines : List Line} {blocks others : List ScriptBlock} (h : Divided mode table lines blocks)
    (h' : Divided mode table lines others) : others = blocks := by
  have hlines : blocks.flatMap ScriptBlock.lines = others.flatMap ScriptBlock.lines := h.lines_eq.symm.trans h'.lines_eq
  have hblocks := h.wellFormed
  have hothers := h'.wellFormed
  clear h h'
  induction blocks generalizing others with
  | nil =>
      cases others with
      | nil => rfl
      | cons other others => simp [ScriptBlock.lines] at hlines
  | cons block blocks ih =>
      cases others with
      | nil => simp [ScriptBlock.lines] at hlines
      | cons other others =>
          rw [List.forall_mem_cons] at hblocks hothers
          obtain ⟨rfl, hrest⟩ := hblocks.1.eq_of_append hothers.1 hlines
          rw [ih hrest hblocks.2 hothers.2]

/-! ### Reading block by block -/

/-- Blocks that are to come bring new ids also when the first of them has been read. -/
theorem contains_insert_of_nodup {done : Scripts} {block : ScriptBlock} {blocks : List ScriptBlock}
    (hnodup : ((block :: blocks).map ScriptBlock.id).Nodup)
    (hnew : ∀ later ∈ block :: blocks, done.contains later.id = false) (script : Script) :
    ∀ later ∈ blocks, (done.insert block.id script).contains later.id = false := by
  intro later hlater
  have hne : later.id ≠ block.id := fun h => (List.nodup_cons.mp hnodup).1 (h ▸ List.mem_map_of_mem hlater)
  rw [IdMap.contains, IdMap.get?_insert, if_neg hne]
  exact hnew later (List.mem_cons_of_mem block hlater)

/-- The scripts of blocks, put to those that are there. -/
def stored (table : MacroTable) (done : Scripts) (blocks : List ScriptBlock) : Scripts :=
  blocks.foldl (fun done block => done.insert block.id (block.script table)) done

theorem contains_stored {done : Scripts} {blocks : List ScriptBlock} {id : Int} :
    (stored table done blocks).contains id = true ↔ done.contains id = true ∨ id ∈ blocks.map ScriptBlock.id := by
  induction blocks generalizing done with
  | nil => simp [stored]
  | cons block blocks ih =>
      rw [stored, List.foldl_cons, ← stored, ih, IdMap.contains, IdMap.get?_insert, IdMap.contains]
      by_cases hid : id = block.id <;> simp [hid]

/-- The scripts of blocks with distinct ids are found under their ids, and others under theirs. -/
theorem get?_stored {done : Scripts} {blocks : List ScriptBlock} (hnodup : (blocks.map ScriptBlock.id).Nodup)
    (hnew : ∀ block ∈ blocks, done.contains block.id = false) {id : Int} {script : Script} :
    (stored table done blocks).get? id = some script ↔
      done.get? id = some script ∨ ∃ block ∈ blocks, block.id = id ∧ block.script table = script := by
  induction blocks generalizing done with
  | nil => simp [stored]
  | cons block blocks ih =>
      have hnext := contains_insert_of_nodup hnodup hnew (block.script table)
      have hnone : done.get? block.id = none := by
        simpa [IdMap.contains] using hnew block List.mem_cons_self
      rw [stored, List.foldl_cons, ← stored, ih (List.nodup_cons.mp hnodup).2 hnext, IdMap.get?_insert]
      by_cases hid : id = block.id
      · subst hid
        simp [hnone]
      · simp [hid, Ne.symm hid]

section Lines

variable (mode) (delimited : Bool) (number : Nat) (done : Scripts) {line : Line} (rest : List Line)

theorem readFrom_of_not_begins (h : ∀ id, ¬Begins table line id) :
    readFrom mode table delimited number none done (line :: rest) = .error (.structural number (.notScript line)) := by
  rw [readFrom_cons_none, headerId?_eq_none_iff.mpr h]

theorem readFrom_of_begins {id : Int} (h : Begins table line id) :
    readFrom mode table delimited number none done (line :: rest) =
      if done.contains id then .error (.structural number (.repeatedScript id))
      else readFrom mode table delimited (number + 1) (some ⟨id, []⟩) done rest := by
  rw [readFrom_cons_none, headerId?_eq_some_iff.mpr h]

theorem readFrom_of_not_stops (script : Script) (h : ¬Stops table line) :
    readFrom mode table delimited number (some script) done (line :: rest) =
      readFrom mode table delimited (number + 1)
        (some { script with instructions := script.instructions ++ [instruction table line] }) done rest := by
  rw [readFrom_cons_some]
  exact if_neg h

theorem readFrom_of_stops (script : Script) (h : Stops table line) :
    readFrom mode table delimited number (some script) done (line :: rest) =
      if mode = .strict ∧ instruction table line ≠ [endWord] then .error (.structural number .tokensAfterEnd)
      else readFrom mode table delimited (number + 1) none (done.insert script.id script) rest := by
  simp only [readFrom_cons_some, ← h.length_iff]
  exact if_pos h

/-- Lines that end nothing are instructions of the script that is open. -/
theorem readFrom_goesOn {inner : List Line} (h : ∀ line ∈ inner, ¬Stops table line) (script : Script) :
    readFrom mode table delimited number (some script) done (inner ++ rest) =
      readFrom mode table delimited (number + inner.length)
        (some { script with instructions := script.instructions ++ inner.map (instruction table) }) done rest := by
  induction inner generalizing number script with
  | nil => simp
  | cons line inner ih =>
      obtain ⟨hline, hinner⟩ := List.forall_mem_cons.mp h
      rw [List.cons_append, readFrom_of_not_stops _ _ _ _ _ _ hline, ih _ hinner]
      simp [Nat.add_assoc, Nat.add_comm 1]

theorem Opens.readFrom_eq {first : Line} {inner : List Line} {id : Int} (h : Opens table first inner id)
    {done : Scripts} (hnew : done.contains id = false) :
    readFrom mode table delimited number none done (first :: (inner ++ rest)) =
      readFrom mode table delimited (number + (inner.length + 1)) (some ⟨id, inner.map (instruction table)⟩) done
        rest := by
  rw [readFrom_of_begins _ _ _ _ _ h.begins, hnew, if_neg Bool.false_ne_true, readFrom_goesOn _ _ _ _ _ h.goesOn,
    Nat.add_assoc, Nat.add_comm 1]
  rfl

variable {mode}

theorem ScriptBlock.WellFormed.readFrom_eq {block : ScriptBlock} (h : block.WellFormed mode table) {done : Scripts}
    (hnew : done.contains block.id = false) :
    readFrom mode table delimited number none done (block.lines ++ rest) =
      readFrom mode table delimited (number + block.lines.length) none (done.insert block.id (block.script table))
        rest := by
  have hclean : ¬(mode = .strict ∧ instruction table block.last ≠ [endWord]) := fun ⟨hmode, hmore⟩ =>
    hmore (h.clean hmode)
  rw [lines, List.cons_append, List.append_assoc, h.opens.readFrom_eq _ _ _ _ hnew, List.singleton_append,
    readFrom_of_stops _ _ _ _ _ _ h.stops, if_neg hclean]
  simp [script, Nat.add_assoc]

end Lines

variable (delimited : Bool)

theorem readFrom_blocks {blocks : List ScriptBlock} (hblocks : ∀ block ∈ blocks, block.WellFormed mode table)
    (hnodup : (blocks.map ScriptBlock.id).Nodup) (number : Nat) (done : Scripts)
    (hnew : ∀ block ∈ blocks, done.contains block.id = false) (rest : List Line) :
    readFrom mode table delimited number none done (blocks.flatMap ScriptBlock.lines ++ rest) =
      readFrom mode table delimited (number + (blocks.flatMap ScriptBlock.lines).length) none (stored table done blocks)
        rest := by
  induction blocks generalizing number done with
  | nil => rfl
  | cons block blocks ih =>
      obtain ⟨hblock, hblocks⟩ := List.forall_mem_cons.mp hblocks
      have hnext := contains_insert_of_nodup hnodup hnew (block.script table)
      rw [List.flatMap_cons, List.append_assoc, hblock.readFrom_eq _ _ _ (hnew block List.mem_cons_self),
        ih hblocks (List.nodup_cons.mp hnodup).2 _ _ hnext, List.length_append, Nat.add_assoc]
      rfl

/-- Reading breaks off where the blocks do. -/
theorem Fault.readFrom_eq {ids : List Int} {rest : List Line} {offset : Nat} {fault : StructuralError}
    (h : Fault mode table ids delimited rest offset fault) (number : Nat) {done : Scripts}
    (hids : ∀ id, done.contains id = true ↔ id ∈ ids) :
    readFrom mode table delimited number none done rest = .error (.structural (number + offset) fault) := by
  have hnew : ∀ {id}, id ∉ ids → done.contains id = false := by
    intro id hid
    rw [← Bool.not_eq_true, hids]
    exact hid
  cases h with
  | notScript hline => exact readFrom_of_not_begins mode delimited number done _ hline
  | repeated hline hid =>
      rw [readFrom_of_begins mode delimited number done _ hline]
      exact if_pos ((hids _).mpr hid)
  | afterEnd hopens hid hstops hmode hmore =>
      rw [hopens.readFrom_eq _ _ _ _ (hnew hid), readFrom_of_stops _ _ _ _ _ _ hstops]
      exact if_pos ⟨hmode, hmore⟩
  | unended hopens hid =>
      have hread := hopens.readFrom_eq mode delimited number [] (hnew hid)
      rw [List.append_nil, readFrom_nil] at hread
      exact hread

/-! ### Blocks, or the place where they break off -/

theorem exists_stops (table : MacroTable) (lines : List Line) :
    (∀ line ∈ lines, ¬Stops table line) ∨
      ∃ inner last rest, lines = inner ++ last :: rest ∧ (∀ line ∈ inner, ¬Stops table line) ∧
        Stops table last := by
  induction lines with
  | nil => exact .inl fun _ hline => (List.not_mem_nil hline).elim
  | cons line lines ih =>
      by_cases hline : Stops table line
      · exact .inr ⟨[], line, lines, rfl, fun _ hmem => (List.not_mem_nil hmem).elim, hline⟩
      · rcases ih with hall | ⟨inner, last, rest, rfl, hinner, hlast⟩
        · exact .inl (List.forall_mem_cons.mpr ⟨hline, hall⟩)
        · exact .inr ⟨line :: inner, last, rest, rfl, List.forall_mem_cons.mpr ⟨hline, hinner⟩, hlast⟩

/-- Lines begin with a block of a new id, or break off. -/
theorem block_or_fault (mode : Mode) (table : MacroTable) (ids : List Int) (line : Line) (lines : List Line) :
    (∃ (block : ScriptBlock) (rest : List Line), line :: lines = block.lines ++ rest ∧
        block.WellFormed mode table ∧ block.id ∉ ids) ∨
      ∃ offset fault, Fault mode table ids delimited (line :: lines) offset fault := by
  by_cases hline : ∃ id, Begins table line id
  · obtain ⟨id, hbegins⟩ := hline
    by_cases hid : id ∈ ids
    · exact .inr ⟨_, _, .repeated hbegins hid⟩
    · rcases exists_stops table lines with hall | ⟨inner, last, rest, rfl, hinner, hlast⟩
      · exact .inr ⟨_, _, .unended ⟨hbegins, hall⟩ hid⟩
      · by_cases hclean : mode = .strict → instruction table last = [endWord]
        · exact .inl ⟨⟨id, line, inner, last⟩, rest, by simp [ScriptBlock.lines],
            ⟨⟨hbegins, hinner⟩, hlast, hclean⟩, hid⟩
        · obtain ⟨hmode, hmore⟩ := Classical.not_imp.mp hclean
          exact .inr ⟨_, _, .afterEnd ⟨hbegins, hinner⟩ hid hlast hmode hmore⟩
  · exact .inr ⟨_, _, .notScript (not_exists.mp hline)⟩

/-- Lines consist of blocks up to their end, or up to where they break off. The blocks of the ids are before them. -/
theorem blocks_then_fault (mode : Mode) (table : MacroTable) (ids : List Int) (lines : List Line) :
    ∃ (blocks : List ScriptBlock) (rest : List Line), lines = blocks.flatMap ScriptBlock.lines ++ rest ∧
      (∀ block ∈ blocks, block.WellFormed mode table) ∧ (blocks.map ScriptBlock.id).Nodup ∧
      (∀ block ∈ blocks, block.id ∉ ids) ∧
      (rest = [] ∨
        ∃ offset fault, Fault mode table (ids ++ blocks.map ScriptBlock.id) delimited rest offset fault) := by
  induction hlength : lines.length using Nat.strongRecOn generalizing lines ids with
  | _ length ih =>
      cases lines with
      | nil => exact ⟨[], [], rfl, by simp, List.nodup_nil, by simp, .inl rfl⟩
      | cons line lines =>
          rcases block_or_fault delimited mode table ids line lines with
            ⟨block, rest, hlines, hblock, hid⟩ | ⟨offset, fault, hfault⟩
          · have hshorter : rest.length < length := by
              rw [← hlength, hlines, List.length_append, ScriptBlock.lines, List.length_cons]
              omega
            obtain ⟨blocks, rest, rfl, hblocks, hnodup, hids, hrest⟩ :=
              ih _ hshorter (ids ++ [block.id]) rest rfl
            have hlater : ∀ later ∈ blocks, later.id ∉ ids ∧ later.id ≠ block.id := by
              simpa [not_or] using hids
            refine ⟨block :: blocks, rest, ?_, List.forall_mem_cons.mpr ⟨hblock, hblocks⟩, ?_,
              List.forall_mem_cons.mpr ⟨hid, fun later hmem => (hlater later hmem).1⟩, ?_⟩
            · rw [hlines, List.flatMap_cons, List.append_assoc]
            · refine List.nodup_cons.mpr ⟨?_, hnodup⟩
              rw [List.mem_map]
              rintro ⟨later, hmem, hsame⟩
              exact (hlater later hmem).2 hsame
            · rwa [List.append_assoc, List.singleton_append] at hrest
          · exact ⟨[], line :: lines, rfl, by simp, List.nodup_nil, by simp,
              .inr ⟨offset, fault, by simpa using hfault⟩⟩

/-! ### Segments -/

variable {body : SegmentBody} {delimited}

theorem ofBody_of_divided {blocks : List ScriptBlock} (h : Divided mode table body.lines blocks) :
    ofBody mode table body = .ok (stored table .empty blocks) := by
  have hread := readFrom_blocks body.delimited h.wellFormed h.nodup body.start .empty (fun _ _ => rfl) []
  rwa [List.append_nil, ← h.lines_eq, readFrom_nil] at hread

theorem ofBody_of_fault {passed rest : List Line} {blocks : List ScriptBlock} {offset : Nat} {fault : StructuralError}
    (hlines : body.lines = passed ++ rest) (h : Divided mode table passed blocks)
    (hfault : Fault mode table (blocks.map ScriptBlock.id) body.delimited rest offset fault) :
    ofBody mode table body = .error (.structural (body.start + passed.length + offset) fault) := by
  have hids : ∀ id, (stored table .empty blocks).contains id = true ↔ id ∈ blocks.map ScriptBlock.id := by
    intro id
    rw [contains_stored]
    simp [IdMap.contains]
  rw [ofBody, hlines, h.lines_eq, readFrom_blocks body.delimited h.wellFormed h.nodup body.start .empty fun _ _ => rfl]
  exact hfault.readFrom_eq body.delimited _ hids

theorem divided_or_fault (mode : Mode) (table : MacroTable) (body : SegmentBody) :
    (∃ blocks, Divided mode table body.lines blocks) ∨
      ∃ passed rest blocks offset fault, body.lines = passed ++ rest ∧ Divided mode table passed blocks ∧
        Fault mode table (blocks.map ScriptBlock.id) body.delimited rest offset fault := by
  obtain ⟨blocks, rest, hlines, hblocks, hnodup, -, hrest⟩ :=
    blocks_then_fault body.delimited mode table [] body.lines
  have hdivided : Divided mode table (blocks.flatMap ScriptBlock.lines) blocks := ⟨rfl, hblocks, hnodup⟩
  rcases hrest with rfl | ⟨offset, fault, hfault⟩
  · rw [List.append_nil] at hlines
    exact .inl ⟨blocks, hlines ▸ hdivided⟩
  · exact .inr ⟨_, rest, blocks, offset, fault, hlines, hdivided, hfault⟩

theorem Divided.get?_stored {lines : List Line} {blocks : List ScriptBlock}
    (h : Divided mode table lines blocks) (id : Int) (script : Script) :
    (stored table .empty blocks).get? id = some script ↔
      ∃ block ∈ blocks, block.id = id ∧ block.script table = script := by
  rw [Scripts.get?_stored h.nodup fun _ _ => rfl, IdMap.get?_empty]
  simp

theorem ofBody_eq_ok_iff {scripts : Scripts} :
    ofBody mode table body = .ok scripts ↔
      ∃ blocks, Divided mode table body.lines blocks ∧ ∀ id script,
        scripts.get? id = some script ↔ ∃ block ∈ blocks, block.id = id ∧ block.script table = script := by
  constructor
  · intro h
    rcases divided_or_fault mode table body with ⟨blocks, hdivided⟩ | ⟨_, _, _, _, _, hlines, hpassed, hfault⟩
    · cases h.symm.trans (ofBody_of_divided hdivided)
      exact ⟨blocks, hdivided, hdivided.get?_stored⟩
    · cases h.symm.trans (ofBody_of_fault hlines hpassed hfault)
  · rintro ⟨blocks, hdivided, hscripts⟩
    rw [ofBody_of_divided hdivided, Except.ok.injEq]
    apply IdMap.ext_get?
    intro id
    apply Option.ext
    intro script
    rw [hscripts, hdivided.get?_stored]

theorem ofBody_eq_error_iff {error : LoadError} :
    ofBody mode table body = .error error ↔
      ∃ passed rest blocks offset fault, body.lines = passed ++ rest ∧ Divided mode table passed blocks ∧
        Fault mode table (blocks.map ScriptBlock.id) body.delimited rest offset fault ∧
        error = .structural (body.start + passed.length + offset) fault := by
  constructor
  · intro h
    rcases divided_or_fault mode table body with
      ⟨blocks, hdivided⟩ | ⟨passed, rest, blocks, offset, fault, hlines, hpassed, hfault⟩
    · cases h.symm.trans (ofBody_of_divided hdivided)
    · cases h.symm.trans (ofBody_of_fault hlines hpassed hfault)
      exact ⟨passed, rest, blocks, offset, fault, hlines, hpassed, hfault, rfl⟩
  · rintro ⟨passed, rest, blocks, offset, fault, hlines, hpassed, hfault, rfl⟩
    exact ofBody_of_fault hlines hpassed hfault

/-- The script carries the id, and none of its instructions is the end of a script. -/
def Stored (id : Int) (script : Script) : Prop :=
  script.id = id ∧ ∀ instruction ∈ script.instructions, instruction.head? ≠ some endWord

/-- The scripts that are read are stored under their ids, without the lines that end them. -/
theorem stored_ofBody {scripts : Scripts} (h : ofBody mode table body = .ok scripts) :
    ∀ id script, scripts.get? id = some script → Stored id script := by
  obtain ⟨blocks, hdivided, hscripts⟩ := ofBody_eq_ok_iff.mp h
  intro id script hscript
  obtain ⟨block, hblock, rfl, rfl⟩ := (hscripts id script).mp hscript
  exact ⟨rfl, List.forall_mem_map.mpr (hdivided.wellFormed block hblock).opens.goesOn⟩

theorem Opens.exists_fault {ids : List Int} {first : Line} {inner : List Line} {id : Int}
    (h : Opens table first inner id) (mode : Mode) (delimited : Bool) :
    ∃ offset fault, Fault mode table ids delimited (first :: inner) offset fault := by
  by_cases hid : id ∈ ids
  · exact ⟨_, _, .repeated h.begins hid⟩
  · exact ⟨_, _, .unended h hid⟩

end Division

/-- Scripts are read exactly where the lines consist of blocks of distinct ids, and then each id has the lines within
its block, in order, as its instructions; nothing else is read. There is at most one way to see lines as blocks. What
cannot be read fails where the blocks break off: at a line that should begin a script and does not, or begins one
that has been read; in strict mode, at more on a line that ends a script; and behind the last line, if a script is still
open. In particular what has not ended is never read, in either mode. -/
theorem reads_exactly_blocks (mode : Mode) (table : MacroTable) (body : SegmentBody) :
    (∀ scripts, ofBody mode table body = .ok scripts ↔
        ∃ blocks, Divided mode table body.lines blocks ∧ ∀ id script,
          scripts.get? id = some script ↔ ∃ block ∈ blocks, block.id = id ∧ block.script table = script) ∧
      (∀ blocks others, Divided mode table body.lines blocks → Divided mode table body.lines others →
        others = blocks) ∧
      (∀ error, ofBody mode table body = .error error ↔
        ∃ passed rest blocks offset fault, body.lines = passed ++ rest ∧ Divided mode table passed blocks ∧
          Fault mode table (blocks.map ScriptBlock.id) body.delimited rest offset fault ∧
          error = .structural (body.start + passed.length + offset) fault) ∧
      ∀ passed blocks first inner id, body.lines = passed ++ first :: inner → Divided mode table passed blocks →
        Opens table first inner id → ∃ number fault, ofBody mode table body = .error (.structural number fault) := by
  refine ⟨fun _ => ofBody_eq_ok_iff, fun _ _ h h' => h.det h', fun _ => ofBody_eq_error_iff, ?_⟩
  intro passed blocks first inner id hlines hpassed hopens
  obtain ⟨offset, fault, hfault⟩ := hopens.exists_fault mode body.delimited
  exact ⟨_, fault, ofBody_of_fault hlines hpassed hfault⟩

/-- A macro that ends a script. -/
def stopMacro : MacroTable :=
  ⟨[("STOP", "end")], by simp⟩

/-- Two scripts. The first holds a line that could begin the second, and a macro ends it. -/
def rehearsalLines : List Line :=
  ["@1 begin", "@2 begin", "say $1", "STOP", "@2 begin", "end"]

def rehearsal : List ScriptBlock :=
  [⟨1, "@1 begin", ["@2 begin", "say $1"], "STOP"⟩, ⟨2, "@2 begin", [], "end"⟩]

theorem divided_rehearsal (mode : Mode) : Divided mode stopMacro rehearsalLines rehearsal := by
  have hone : Begins stopMacro "@1 begin" 1 := ⟨"@1", by decide +kernel, @Value.Denotes.identifier "1" 1 rfl⟩
  have htwo : Begins stopMacro "@2 begin" 2 := ⟨"@2", by decide +kernel, @Value.Denotes.identifier "2" 2 rfl⟩
  have hstop : instruction stopMacro "STOP" = [endWord] := by decide +kernel
  have hend : instruction stopMacro "end" = [endWord] := by decide +kernel
  have hinner : ∀ line ∈ ["@2 begin", "say $1"], ¬Stops stopMacro line := by decide +kernel
  refine ⟨rfl, ?_, by decide⟩
  simp only [rehearsal, List.forall_mem_cons]
  refine ⟨⟨⟨hone, hinner⟩, ?_, fun _ => hstop⟩, ⟨⟨htwo, by simp⟩, ?_, fun _ => hend⟩, by simp⟩
  · rw [Stops, hstop, List.head?_cons]
  · rw [Stops, hend, List.head?_cons]

def rehearsalScripts : Scripts :=
  (IdMap.empty.insert 1 ⟨1, [["@2", "begin"], ["say", "$1"]]⟩).insert 2 ⟨2, []⟩

theorem stored_rehearsal : stored stopMacro .empty rehearsal = rehearsalScripts := by
  have hbegin : instruction stopMacro "@2 begin" = ["@2", "begin"] := by decide +kernel
  have hsay : instruction stopMacro "say $1" = ["say", "$1"] := by decide +kernel
  simp [stored, rehearsal, rehearsalScripts, ScriptBlock.script, hbegin, hsay]

/-- Without its last line the second script is not read, and neither is the first. -/
theorem rehearsal_reads : Divided .strict stopMacro rehearsalLines rehearsal ∧
    ofBody .strict stopMacro ⟨2, rehearsalLines, true⟩ = .ok rehearsalScripts ∧
    (∀ others, Divided .strict stopMacro rehearsalLines others → others = rehearsal) ∧
    ∃ number fault, ofBody .lenient stopMacro ⟨2, rehearsalLines.dropLast, true⟩ =
      .error (.structural number fault) := by
  have hdivided : Divided .strict stopMacro rehearsalLines rehearsal := divided_rehearsal .strict
  have hfirst : Divided .lenient stopMacro (rehearsalLines.take 4) (rehearsal.take 1) :=
    ⟨rfl, fun block hblock => (divided_rehearsal .lenient).wellFormed block (List.mem_of_mem_take hblock),
      by decide⟩
  have hopens : Opens stopMacro "@2 begin" [] 2 :=
    ((divided_rehearsal .lenient).wellFormed _ (List.mem_of_mem_tail List.mem_cons_self)).opens
  obtain ⟨hreads, hunique, -, -⟩ := reads_exactly_blocks .strict stopMacro ⟨2, rehearsalLines, true⟩
  obtain ⟨-, -, -, hopen⟩ := reads_exactly_blocks .lenient stopMacro ⟨2, rehearsalLines.dropLast, true⟩
  refine ⟨hdivided, ?_, fun others => hunique rehearsal others hdivided, ?_⟩
  · exact (hreads rehearsalScripts).mpr ⟨rehearsal, hdivided, stored_rehearsal ▸ hdivided.get?_stored⟩
  · exact hopen _ _ _ _ _ rfl hfirst hopens

end LevelPlay.Scripts
