import Mathlib.Data.List.Chain
import Mathlib.Order.Bounds.Basic
import LevelPlay.Proofs.Value.Parser

/-! Closing brackets, by position. The bracket that closes a container is found by counting those of its own pair, and
not by reading: it is the first one behind which as many are closed as have been opened. Up to there more are opened
than closed, so the count of open ones, which is a natural number, never has to go below zero. The loop over the
entries is bound to stop there. It is a run of rounds, each of which moves a cursor; an entry that reaches beyond the
bracket ends the run with an error, so in a run that comes to its end no round has gone too far. -/

namespace LevelPlay.Value

/-- The tokens from one position to another, both included. -/
def stretch (tokens : List Token) (first last : Nat) : List Token :=
  tokens.extract first (last + 1)

/-- The position of the bracket that closes the one at a position. -/
def closingAt (left right : Token) (tokens : List Token) (start : Nat) : Except ValueError Nat :=
  (close left right (tokens.drop (start + 1))).map fun rest => tokens.length - rest.1.length - 1

/-- A count of open brackets that would have to go below zero, at a position. -/
structure Underflow where
  position : Nat

/-- Counts the open brackets from a position on, with `depth` open before it, to where the count comes back to zero.
The position of this bracket is found, or none if the tokens end before. -/
def countTo (left right : Token) : (depth position : Nat) → List Token → Except Underflow (Option Nat)
  | _, _, [] => .ok none
  | depth, position, token :: rest =>
    if token = left then countTo left right (depth + 1) (position + 1) rest
    else if token = right then
      match depth with
      | 0 => .error ⟨position⟩
      | depth + 1 => if depth = 0 then .ok (some position) else countTo left right depth (position + 1) rest
    else countTo left right depth (position + 1) rest

/-- However far one goes into the tokens, no more brackets are closed than have been opened, `depth` of them before. -/
def Covered (left right : Token) (depth : Nat) (tokens : List Token) : Prop :=
  ∀ front, front <+: tokens → front.count right ≤ front.count left + depth

section Brackets

variable {left right : Token} {depth next start last position : Nat} {token : Token} {tokens : List Token}
  {found : Option (List Token)}

/-! ### Counting from a bracket on -/

theorem covered_nil : Covered left right depth [] := by
  intro front hfront
  rw [List.prefix_nil.mp hfront]
  exact Nat.zero_le _

theorem Covered.cons (h : Covered left right next tokens)
    (hnext : (if token == right then 1 else 0) + next ≤ (if token == left then 1 else 0) + depth) :
    Covered left right depth (token :: tokens) := by
  intro front hfront
  rcases List.prefix_cons_iff.mp hfront with rfl | ⟨behind, rfl, hbehind⟩
  · exact Nat.zero_le _
  · have hcount := h behind hbehind
    rw [List.count_cons, List.count_cons]
    omega

/-- What can come of looking for the closing bracket of a pair, with `depth` more open than the one to be closed. -/
inductive Closing (left right : Token) (depth : Nat) (tokens : List Token) : Option (List Token) → Prop
  | closed {inner rest : List Token} (htokens : tokens = inner ++ right :: rest)
      (hcount : inner.count right = inner.count left + depth) (hcovered : Covered left right depth inner) :
      Closing left right depth tokens (some rest)
  | unclosed (hcovered : Covered left right depth tokens) : Closing left right depth tokens none

theorem Closing.cons (h : Closing left right next tokens found)
    (hnext : (if token == right then 1 else 0) + next = (if token == left then 1 else 0) + depth) :
    Closing left right depth (token :: tokens) found := by
  cases h with
  | @closed inner rest htokens hcount hcovered =>
      refine @Closing.closed _ _ _ _ (token :: inner) rest (by rw [htokens]; rfl) ?_ (hcovered.cons hnext.le)
      rw [List.count_cons, List.count_cons]
      omega
  | unclosed hcovered => exact .unclosed (hcovered.cons hnext.le)

theorem closing_afterClosing (hne : left ≠ right) (depth : Nat) (tokens : List Token) :
    Closing left right depth tokens (afterClosing left right depth tokens) := by
  fun_induction afterClosing left right depth tokens with
  | case1 => exact .unclosed covered_nil
  | case2 depth rest ih => exact ih.cons (by simp [hne]; omega)
  | case3 rest _ => exact @Closing.closed _ _ _ _ [] rest rfl rfl covered_nil
  | case4 rest depth _ ih => exact ih.cons (by simp [hne.symm]; omega)
  | case5 token rest depth hleft hright ih => exact ih.cons (by simp [hleft, hright])

/-! ### Positions -/

theorem stretch_eq_cons (hstart : tokens[start]? = some left) (hle : start ≤ last) :
    stretch tokens start last = left :: (tokens.drop (start + 1)).take (last - start) := by
  rw [stretch, List.extract_eq_take_drop, drop_of_getElem? hstart, Nat.sub_add_comm hle, List.take_succ_cons]

theorem closingAt_eq (left right : Token) (tokens : List Token) (start : Nat) :
    closingAt left right tokens start =
      match afterClosing left right 0 (tokens.drop (start + 1)) with
      | some rest => .ok (tokens.length - rest.length - 1)
      | none => .error (.unclosed left) := by
  rw [closingAt, close]
  split
  · rename_i hnone
    simp only [hnone]
    rfl
  · rename_i hsome
    simp only [hsome]
    rfl

/-- More brackets are opened than closed between the positions. -/
def Opens (left right : Token) (tokens : List Token) (start last : Nat) : Prop :=
  (stretch tokens start last).count right < (stretch tokens start last).count left

/-- As many brackets are opened as closed between a position and a later one. -/
def Evens (left right : Token) (tokens : List Token) (start last : Nat) : Prop :=
  start < last ∧ last < tokens.length ∧
    (stretch tokens start last).count left = (stretch tokens start last).count right

theorem Covered.opens (hne : left ≠ right) (hstart : tokens[start]? = some left) (hle : start ≤ last)
    (h : Covered left right 0 ((tokens.drop (start + 1)).take (last - start))) :
    Opens left right tokens start last := by
  have hcount := h _ (List.prefix_refl _)
  rw [Opens, stretch_eq_cons hstart hle, List.count_cons_of_ne hne, List.count_cons_self]
  omega

theorem Covered.take (h : Covered left right depth tokens) (count : Nat) :
    Covered left right depth (tokens.take count) :=
  fun front hfront => h front (hfront.trans (List.take_prefix count tokens))

/-- Either the first position at which as many brackets are closed as opened is found, or there is none. -/
theorem closingAt_cases (hne : left ≠ right) (hstart : tokens[start]? = some left) :
    (∃ last, closingAt left right tokens start = .ok last ∧ Evens left right tokens start last ∧
        ∀ i, start ≤ i → i < last → Opens left right tokens start i) ∨
      closingAt left right tokens start = .error (.unclosed left) ∧
        ∀ i, start ≤ i → i < tokens.length → Opens left right tokens start i := by
  have hlt := (List.getElem?_eq_some_iff.mp hstart).1
  have hclosing := closing_afterClosing hne 0 (tokens.drop (start + 1))
  rw [closingAt_eq]
  generalize afterClosing left right 0 (tokens.drop (start + 1)) = found at hclosing
  cases hclosing with
  | @closed inner rest htokens hcount hcovered =>
      have hlength := congrArg List.length htokens
      simp only [List.length_drop, List.length_append, List.length_cons] at hlength
      have hlast : tokens.length - rest.length - 1 = start + 1 + inner.length := by omega
      refine .inl ⟨_, rfl, ?_, ?_⟩
      · rw [hlast]
        refine ⟨by omega, by omega, ?_⟩
        have hinner : (tokens.drop (start + 1)).take (start + 1 + inner.length - start) = inner ++ [right] := by
          rw [htokens, List.append_cons]
          exact List.take_left' (by simp; omega)
        rw [stretch_eq_cons hstart (by omega), hinner]
        simp [List.count_cons_of_ne, hne, hne.symm, hcount]
      · intro i hle hi
        refine Covered.opens hne hstart hle ?_
        rw [htokens, List.take_append_of_le_length (by omega)]
        exact hcovered.take _
  | unclosed hcovered =>
      exact .inr ⟨rfl, fun i hle _ => Covered.opens hne hstart hle (hcovered.take _)⟩

theorem not_evens_of_opens (h : Opens left right tokens start last) : ¬Evens left right tokens start last :=
  fun heven => h.ne heven.2.2.symm

theorem closingAt_eq_ok_iff (hne : left ≠ right) (hstart : tokens[start]? = some left) :
    closingAt left right tokens start = .ok last ↔ IsLeast {i | Evens left right tokens start i} last := by
  rcases closingAt_cases hne hstart with ⟨first, hfound, heven, hopens⟩ | ⟨hnone, hopens⟩
  · have hleast : IsLeast {i | Evens left right tokens start i} first := by
      refine ⟨heven, fun i hi => ?_⟩
      by_contra hlt
      exact not_evens_of_opens (hopens i hi.1.le (Nat.lt_of_not_le hlt)) hi
    rw [hfound, Except.ok.injEq]
    constructor
    · rintro rfl
      exact hleast
    · exact fun hlast => hleast.unique hlast
  · rw [hnone]
    refine iff_of_false nofun fun hlast => ?_
    exact not_evens_of_opens (hopens last hlast.1.1.le hlast.1.2.1) hlast.1

theorem closingAt_eq_error_iff (hne : left ≠ right) (hstart : tokens[start]? = some left) {e : ValueError} :
    closingAt left right tokens start = .error e ↔
      e = .unclosed left ∧ ∀ i, ¬Evens left right tokens start i := by
  rcases closingAt_cases hne hstart with ⟨first, hfound, heven, hopens⟩ | ⟨hnone, hopens⟩
  · rw [hfound]
    exact iff_of_false nofun fun h => h.2 first heven
  · rw [hnone, Except.error.injEq, eq_comm]
    refine (and_iff_left fun i heven => ?_).symm
    exact not_evens_of_opens (hopens i heven.1.le heven.2.1) heven

/-- The count never has to go below zero, and finds the closing bracket. -/
theorem countTo_eq (hne : left ≠ right) (depth position : Nat) (tokens : List Token) :
    countTo left right (depth + 1) position tokens =
      .ok ((afterClosing left right depth tokens).map fun rest => position + tokens.length - rest.length - 1) := by
  fun_induction afterClosing left right depth tokens generalizing position with
  | case1 => rfl
  | case2 depth rest ih =>
      rw [countTo, if_pos rfl, ih, Nat.add_right_comm]
      rfl
  | case3 rest _ =>
      rw [countTo]
      simp [hne.symm]
      omega
  | case4 rest depth _ ih =>
      rw [countTo]
      simp only [hne.symm, if_false, if_true, Nat.succ_ne_zero]
      rw [ih, Nat.add_right_comm]
      rfl
  | case5 token rest depth hleft hright ih =>
      rw [countTo, if_neg hleft, if_neg hright, ih, Nat.add_right_comm]
      rfl

theorem countTo_drop (hne : left ≠ right) (hstart : tokens[start]? = some left) :
    countTo left right 0 start (tokens.drop start) = .ok (closingAt left right tokens start).toOption := by
  have hlt := (List.getElem?_eq_some_iff.mp hstart).1
  have hlength : start + 1 + (tokens.drop (start + 1)).length = tokens.length := by
    rw [List.length_drop]
    omega
  rw [drop_of_getElem? hstart, countTo, if_pos rfl, countTo_eq hne, closingAt_eq, hlength]
  cases afterClosing left right 0 (tokens.drop (start + 1)) with
  | none => rfl
  | some rest => rfl

end Brackets

/-! ### The loop over entries -/

section Entries

variable {σ : Type} {bound size closing : Nat}
  {read : σ → (tokens : List Token) → tokens.length < bound → Reading σ tokens} {state next last : σ}
  {tokens more : List Token} {cursors : List Nat}

/-- One round of the loop over the entries of a container, from the tokens at which the cursor stands to those at which
it stands afterwards: an entry is read, and the comma behind it is passed over unless the closing bracket is reached. -/
def Round (closing : Nat) (read : σ → (tokens : List Token) → tokens.length < bound → Reading σ tokens)
    (state : σ) (tokens : List Token) (next : σ) (more : List Token) : Prop :=
  closing < tokens.length ∧ ∃ h rest, Found (read state tokens h) next rest ∧
    (rest.length = closing ∧ more = rest ∨ closing < rest.length ∧ rest = "," :: more)

/-- The loop over the entries of a container: as long as the cursor stands before the closing bracket, there is another
round. The list tells where it stands before each round and in the end, as a position among `size` tokens. -/
inductive Rounds (size closing : Nat) (read : σ → (tokens : List Token) → tokens.length < bound → Reading σ tokens) :
    σ → List Token → List Nat → σ → Prop
  | stop {state : σ} {tokens : List Token} (hstop : tokens.length ≤ closing) :
      Rounds size closing read state tokens [size - tokens.length] state
  | round {state next last : σ} {tokens more : List Token} {cursors : List Nat}
      (hround : Round closing read state tokens next more)
      (hmore : Rounds size closing read next more cursors last) :
      Rounds size closing read state tokens ((size - tokens.length) :: cursors) last

/-- A round moves the cursor on. -/
theorem Round.length_lt (h : Round closing read state tokens next more) : more.length < tokens.length := by
  obtain ⟨-, _, rest, ⟨hlt, -⟩, ⟨-, rfl⟩ | ⟨-, rfl⟩⟩ := h
  · exact hlt
  · exact Nat.lt_of_succ_lt hlt

/-- A round does not move the cursor beyond the closing bracket. -/
theorem Round.closing_le (h : Round closing read state tokens next more) : closing ≤ more.length := by
  obtain ⟨-, _, rest, -, ⟨hrest, rfl⟩ | ⟨hrest, rfl⟩⟩ := h
  · exact hrest.ge
  · exact Nat.le_of_lt_succ hrest

/-- The entries of a container are read by the loop. -/
theorem exists_rounds_iff (h : tokens.length < bound) :
    (∃ cursors, Rounds size closing read state tokens cursors last) ↔
      readEntries closing read state tokens h = .ok last := by
  constructor
  · rintro ⟨cursors, hrounds⟩
    induction hrounds with
    | stop hstop => exact readEntries_of_le hstop
    | round hround _ ih =>
        have hbound := Nat.lt_trans hround.length_lt h
        obtain ⟨hclosing, _, rest, hfound, hrest⟩ := hround
        refine (readEntries_eq_ok_iff hclosing).mpr ⟨_, rest, hfound, ?_⟩
        rcases hrest with ⟨hrest, rfl⟩ | ⟨hrest, rfl⟩
        · have hnext := ih hbound
          rw [readEntries_of_le hrest.le] at hnext
          cases hnext
          exact .inl ⟨hrest, rfl⟩
        · exact .inr ⟨hrest, _, hbound, rfl, ih hbound⟩
  · intro hread
    induction hlength : tokens.length using Nat.strongRecOn generalizing tokens state with
    | ind n ih =>
        subst hlength
        by_cases hstop : tokens.length ≤ closing
        · rw [readEntries_of_le hstop] at hread
          cases hread
          exact ⟨_, .stop hstop⟩
        · have hclosing := Nat.lt_of_not_le hstop
          obtain ⟨next, rest, hfound, ⟨hrest, rfl⟩ | ⟨hrest, more, hmore, rfl, hnext⟩⟩ :=
            (readEntries_eq_ok_iff hclosing).mp hread
          · have hround : Round closing read state tokens next rest := ⟨hclosing, h, rest, hfound, .inl ⟨hrest, rfl⟩⟩
            exact ⟨_, .round hround (.stop hrest.le)⟩
          · have hround : Round closing read state tokens next more :=
              ⟨hclosing, h, _, hfound, .inr ⟨hrest, rfl⟩⟩
            obtain ⟨cursors, hrounds⟩ := ih _ hround.length_lt hmore hnext rfl
            exact ⟨_, .round hround hrounds⟩

/-- The cursor moves strictly forward, never beyond the closing bracket, and stops there. -/
theorem Rounds.cursors_spec (h : Rounds size closing read state tokens cursors last)
    (hclosing : closing ≤ tokens.length) (hsize : tokens.length ≤ size) :
    cursors.head? = some (size - tokens.length) ∧ cursors.getLast? = some (size - closing) ∧
      cursors.IsChain (· < ·) ∧ ∀ cursor ∈ cursors, cursor ≤ size - closing := by
  induction h with
  | @stop state tokens hstop =>
      have hlength : tokens.length = closing := Nat.le_antisymm hstop hclosing
      rw [hlength]
      exact ⟨rfl, rfl, List.isChain_singleton _, by simp⟩
  | @round state next last tokens more cursors hround _ ih =>
      have hlt := hround.length_lt
      obtain ⟨hhead, hlast, hchain, hle⟩ := ih hround.closing_le (by omega)
      refine ⟨rfl, ?_, ?_, ?_⟩
      · rw [List.getLast?_cons, hlast]
        rfl
      · refine List.isChain_cons.mpr ⟨fun cursor hcursor => ?_, hchain⟩
        rw [hhead] at hcursor
        cases hcursor
        omega
      · refine List.forall_mem_cons.mpr ⟨?_, hle⟩
        omega

/-- The entries of a container, opened at a position, are read in rounds: the cursor starts behind the opening bracket,
moves strictly forward, never beyond the closing bracket, and stops there. What is left begins behind that bracket. -/
def ReadInRounds (b : Bracket) (read : σ → (tokens : List Token) → tokens.length < bound → Reading σ tokens)
    (state last : σ) (tokens : List Token) (start : Nat) (rest : List Token) : Prop :=
  ∃ stop cursors, closingAt b.left b.right tokens start = .ok stop ∧ rest = tokens.drop (stop + 1) ∧
    Rounds tokens.length (tokens.length - stop) read state (tokens.drop (start + 1)) cursors last ∧
    cursors.head? = some (start + 1) ∧ cursors.getLast? = some stop ∧ cursors.IsChain (· < ·) ∧
    ∀ cursor ∈ cursors, cursor ≤ stop

theorem readInRounds {b : Bracket} {finish : σ → Value} {start : Nat} {h : (tokens.drop (start + 1)).length < bound}
    {v : Value} {rest : Rest (tokens.drop (start + 1))}
    (hread : (do
      let rest ← close b.left b.right (tokens.drop (start + 1))
      let last ← readEntries (rest.1.length + 1) read state (tokens.drop (start + 1)) h
      return (finish last, rest) : Reading Value (tokens.drop (start + 1))) = .ok (v, rest)) :
    ∃ last, v = finish last ∧ ReadInRounds b read state last tokens start rest.1 := by
  obtain ⟨⟨after, hafter⟩, hclose, hread⟩ := Result.bind_eq_ok_iff.mp hread
  obtain ⟨last, hentries, hread⟩ := Result.bind_eq_ok_iff.mp hread
  cases hread
  have hfound := close_eq_ok_iff.mp hclose
  have hstop : closingAt b.left b.right tokens start = .ok (tokens.length - after.length - 1) := by
    rw [closingAt_eq, hfound]
  have hsuffix : after <:+ tokens := by
    obtain ⟨inner, hinner⟩ := exists_of_afterClosing hfound
    have hbehind : after <:+ tokens.drop (start + 1) := ⟨inner ++ [b.right], by rw [hinner, List.append_assoc]; rfl⟩
    exact hbehind.trans (List.drop_suffix _ _)
  have hlength := hafter
  rw [List.length_drop] at hlength
  have hclosing : tokens.length - (tokens.length - after.length - 1) = after.length + 1 := by omega
  obtain ⟨cursors, hrounds⟩ : ∃ cursors, Rounds tokens.length (after.length + 1) read state (tokens.drop (start + 1))
      cursors last := (exists_rounds_iff h).mpr hentries
  obtain ⟨hhead, hlast, hchain, hle⟩ := hrounds.cursors_spec hafter (by rw [List.length_drop]; omega)
  refine ⟨last, rfl, _, cursors, hstop, ?_, ?_, ?_, hlast, hchain, hle⟩
  · rw [show tokens.length - after.length - 1 + 1 = tokens.length - after.length by omega]
    exact List.suffix_iff_eq_drop.mp hsuffix
  · rw [hclosing]
    exact hrounds
  · rw [hhead, List.length_drop]
    congr 1
    omega

end Entries

/-- The closing bracket of a container is found at the least position to which as many brackets of the pair are opened
as closed, before which there are more open; there is none exactly if there is no such position. Counting to it never
goes below zero. Whenever an object, a list or an autofield is read, whatever its entries are read with, the loop over
the entries stops at this bracket, and each round moves the cursor on and not beyond it. -/
theorem brackets_matched_exactly :
    (∀ (left right : Token) (tokens : List Token) (start : Nat), left ≠ right → tokens[start]? = some left →
      (∀ last, closingAt left right tokens start = .ok last ↔ IsLeast {i | Evens left right tokens start i} last) ∧
        (∀ last i, closingAt left right tokens start = .ok last → start ≤ i → i < last →
          Opens left right tokens start i) ∧
        (∀ e, closingAt left right tokens start = .error e ↔
          e = .unclosed left ∧ ∀ i, ¬Evens left right tokens start i) ∧
        countTo left right 0 start (tokens.drop start) = .ok (closingAt left right tokens start).toOption) ∧
    ∀ (bound : Nat) (sub : SubReader bound) (tokens : List Token) (start : Nat)
      (h : (tokens.drop (start + 1)).length < bound) (v : Value) (rest : Rest (tokens.drop (start + 1))),
      (∀ name, readObject sub name (tokens.drop (start + 1)) h = .ok (v, rest) →
        ∃ type last, name = .object type ∧ v = .object last.1 ∧
          ReadInRounds .braces (readField sub type) (Object.blank type, []) last tokens start rest.1) ∧
      (∀ element, readList sub element (tokens.drop (start + 1)) h = .ok (v, rest) →
        ∃ items, v = .list element items ∧
          ReadInRounds .squares (readItem sub element) [] items tokens start rest.1) ∧
      (readAutofield sub (tokens.drop (start + 1)) h = .ok (v, rest) →
        ∃ a, v = .autofield a ∧ ReadInRounds .marks (readMember sub) Autofield.empty a tokens start rest.1) := by
  constructor
  · intro left right tokens start hne hstart
    refine ⟨fun last => closingAt_eq_ok_iff hne hstart, fun last i hlast hle hi => ?_,
      fun e => closingAt_eq_error_iff hne hstart, countTo_drop hne hstart⟩
    rcases closingAt_cases hne hstart with ⟨first, hfirst, -, hopens⟩ | ⟨hnone, -⟩
    · cases hfirst.symm.trans hlast
      exact hopens i hle hi
    · cases hnone.symm.trans hlast
  · intro bound sub tokens start h v rest
    refine ⟨fun name hread => ?_, fun element hread => readInRounds hread, fun hread => readInRounds hread⟩
    obtain ⟨type, htype, hread⟩ := Result.bind_eq_ok_iff.mp hread
    obtain ⟨last, hv, hrounds⟩ := @readInRounds _ bound (readField sub type) (Object.blank type, []) tokens .braces
      (fun built => .object built.1) start h v rest hread
    refine ⟨type, last, ?_, hv, hrounds⟩
    cases name <;> cases htype
    rfl

/-- An autofield in which another stands, with a tag behind it, and a bracket after it. -/
def nestedMarks : List Token :=
  ["\x7b:", "\x7b:", ":\x7d", ",", "#NoWall", ",", ":\x7d", "]"]

theorem nestedMarks_matched :
    IsLeast {i | Evens "\x7b:" ":\x7d" nestedMarks 0 i} 6 ∧ Opens "\x7b:" ":\x7d" nestedMarks 0 2 ∧
      countTo "\x7b:" ":\x7d" 0 0 nestedMarks = .ok (some 6) ∧
      ∃ a rest, readAutofield (fun inner (_ : inner.length < 8) => parse inner) (nestedMarks.drop 1) (by decide) =
          .ok (.autofield a, rest) ∧
        ReadInRounds .marks (readMember fun inner (_ : inner.length < 8) => parse inner) Autofield.empty a nestedMarks 0
          rest.1 := by
  obtain ⟨hbrackets, hcontainers⟩ := brackets_matched_exactly
  have hclosing : closingAt "\x7b:" ":\x7d" nestedMarks 0 = .ok 6 := rfl
  obtain ⟨hleast, hopens, -, hcount⟩ := hbrackets "\x7b:" ":\x7d" nestedMarks 0 (by decide) rfl
  refine ⟨(hleast 6).mp hclosing, hopens 6 2 hclosing (by decide) (by decide), ?_, ?_⟩
  · rw [hclosing] at hcount
    exact hcount
  · have htag : MemberOf Denotes ["#NoWall"] (.inl .noWall) := @MemberOf.tag _ "NoWall" .noWall rfl
    have hinner : Denotes ["\x7b:", ":\x7d"] (.autofield .empty) :=
      @Denotes.autofield [] [] .empty .none (by simp [Autofield.empty, TagSet.empty]) rfl List.nodup_nil
    have hmembers : Entries (MemberOf Denotes) ["\x7b:", ":\x7d", ",", "#NoWall", ","]
        [.inr (.autofield .empty), .inl .noWall] :=
      @Entries.more _ _ ["\x7b:", ":\x7d"] _ _ _ (.value hinner) (.more htag .none)
    have hvalue : Denotes ("\x7b:" :: ["\x7b:", ":\x7d", ",", "#NoWall", ",", ":\x7d"])
        (.autofield ⟨TagSet.insert .empty .noWall, [.autofield .empty]⟩) :=
      Denotes.autofield hmembers (by simp [TagSet.empty]) rfl (by decide)
    have hsub : Faithful fun inner (_ : inner.length < 8) => parse inner := fun _ _ _ _ => found_parse
    obtain ⟨hrest, hread⟩ : Found (readAutofield (fun inner (_ : inner.length < 8) => parse inner)
        (nestedMarks.drop 1) (by decide)) (.autofield ⟨TagSet.insert .empty .noWall, [.autofield .empty]⟩) ["]"] :=
      (found_readAutofield hsub (by decide)).mpr ⟨_, rfl, hvalue⟩
    obtain ⟨-, -, hautofield⟩ := hcontainers 8 _ nestedMarks 0 (by decide) _ _
    obtain ⟨a, ha, hrounds⟩ := hautofield hread
    cases ha
    exact ⟨_, _, hread, hrounds⟩

end LevelPlay.Value
