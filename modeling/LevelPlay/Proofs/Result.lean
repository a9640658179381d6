import Mathlib.Logic.Basic

/-! Results that may be errors. A computation in steps succeeds where each step does. Two computations agree
where both succeed with related values or both fail, and one refines the other where the other gives all of
its values. -/

namespace LevelPlay.Result

universe u v

variable {ε ε' : Type u} {α β : Type v}

/-! ### Success and failure, step by step -/

theorem ok_bind (a : α) (f : α → Except ε β) : (Except.ok a >>= f) = f a := rfl

theorem bind_eq_ok_iff {x : Except ε α} {f : α → Except ε β} {b : β} :
    (x >>= f) = .ok b ↔ ∃ a, x = .ok a ∧ f a = .ok b := by
  cases x with
  | error e => exact ⟨fun h => (nomatch h), fun ⟨_, h, _⟩ => (nomatch h)⟩
  | ok a => exact ⟨fun h => ⟨a, rfl, h⟩, fun ⟨_, rfl, h⟩ => h⟩

theorem bind_eq_error_iff {x : Except ε α} {f : α → Except ε β} {e : ε} :
    (x >>= f) = .error e ↔ x = .error e ∨ ∃ a, x = .ok a ∧ f a = .error e := by
  cases x with
  | error e' => exact ⟨fun h => .inl (congrArg _ (Except.error.inj h)), fun h => h.elim
      (fun h => congrArg _ (Except.error.inj h)) fun ⟨_, h, _⟩ => (nomatch h)⟩
  | ok a => exact ⟨fun h => .inr ⟨a, rfl, h⟩, fun h => h.elim (fun h => (nomatch h)) fun ⟨_, rfl, h⟩ => h⟩

theorem map_eq_error_iff {x : Except ε α} {f : α → β} {e : ε} : x.map f = .error e ↔ x = .error e := by
  cases x with
  | error e' => exact ⟨fun h => congrArg _ (Except.error.inj h), fun h => congrArg _ (Except.error.inj h)⟩
  | ok a => exact ⟨fun h => (nomatch h), fun h => (nomatch h)⟩

theorem map_eq_ok_iff {x : Except ε α} {f : α → β} {b : β} :
    x.map f = .ok b ↔ ∃ a, x = .ok a ∧ f a = b := by
  cases x with
  | error e => exact ⟨fun h => (nomatch h), fun ⟨_, h, _⟩ => (nomatch h)⟩
  | ok a => exact ⟨fun h => ⟨a, rfl, Except.ok.inj h⟩, fun ⟨_, rfl, h⟩ => congrArg _ h⟩

/-- Results that come to the same by way of `f` are both errors, the same ones, or both have values that do. -/
theorem map_eq_map_cases {γ : Type v} {x : Except ε α} {y : Except ε β} {f : α → γ} {g : β → γ}
    (h : x.map f = y.map g) :
    (∃ e, x = .error e ∧ y = .error e) ∨ ∃ a b, x = .ok a ∧ y = .ok b ∧ f a = g b := by
  cases x with
  | error e => exact .inl ⟨e, rfl, map_eq_error_iff.mp h.symm⟩
  | ok a =>
      obtain ⟨b, hb, hab⟩ := map_eq_ok_iff.mp h.symm
      exact .inr ⟨a, b, rfl, hb, hab.symm⟩

theorem mapError_eq_ok_iff {x : Except ε α} {f : ε → ε'} {a : α} :
    x.mapError f = .ok a ↔ x = .ok a := by
  cases x with
  | error e => exact ⟨fun h => (nomatch h), fun h => (nomatch h)⟩
  | ok a => exact ⟨fun h => congrArg _ (Except.ok.inj h), fun h => congrArg _ (Except.ok.inj h)⟩

/-- What each step preserves is so at the end of a fold, and what a step needs of its element is so of all. -/
theorem foldlM_induction {σ : Type u} {f : σ → α → Except ε σ} {P : σ → Prop} {Q : α → Prop} {as : List α}
    {state last : σ} (hstate : P state) (hfold : as.foldlM f state = .ok last)
    (hstep : ∀ a ∈ as, ∀ {state next}, P state → f state a = .ok next → P next ∧ Q a) :
    P last ∧ ∀ a ∈ as, Q a := by
  induction as generalizing state with
  | nil =>
      cases hfold
      exact ⟨hstate, fun _ ha => (List.not_mem_nil ha).elim⟩
  | cons a as ih =>
      rw [List.foldlM_cons] at hfold
      obtain ⟨next, hnext, hrest⟩ := bind_eq_ok_iff.mp hfold
      obtain ⟨hP, hQ⟩ := hstep a List.mem_cons_self hstate hnext
      obtain ⟨hlast, hall⟩ := ih hP hrest fun b hb => hstep b (List.mem_cons_of_mem a hb)
      exact ⟨hlast, List.forall_mem_cons.mpr ⟨hQ, hall⟩⟩

/-- A fold fails at the first element whose step fails. -/
theorem foldlM_eq_error_iff {σ : Type v} {f : σ → α → Except ε σ} {as : List α} {state : σ} {e : ε} :
    as.foldlM f state = .error e ↔
      ∃ before a after next, as = before ++ a :: after ∧ before.foldlM f state = .ok next ∧ f next a = .error e := by
  constructor
  · intro h
    induction as generalizing state with
    | nil => cases h
    | cons a as ih =>
        rw [List.foldlM_cons] at h
        rcases bind_eq_error_iff.mp h with ha | ⟨next, hnext, hrest⟩
        · exact ⟨[], a, as, state, rfl, rfl, ha⟩
        · obtain ⟨before, b, after, last, rfl, hbefore, hb⟩ := ih hrest
          refine ⟨a :: before, b, after, last, rfl, ?_, hb⟩
          rw [List.foldlM_cons, hnext]
          exact hbefore
  · rintro ⟨before, a, after, next, rfl, hbefore, ha⟩
    rw [List.foldlM_append, hbefore, ok_bind, List.foldlM_cons, ha]
    rfl

/-- Where two steps that are related may change places, a fold over elements that are all related to each other may go
through them in any order. -/
theorem foldlM_perm {σ : Type v} {R : α → α → Prop} {f : σ → α → Except ε σ} {as bs : List α}
    (hsymm : ∀ {a b}, R a b → R b a)
    (hswap : ∀ {a b state next last}, R a b → f state a = .ok next → f next b = .ok last →
      ∃ next', f state b = .ok next' ∧ f next' a = .ok last)
    (h : as.Perm bs) (hR : as.Pairwise R) {state last : σ} (hfold : as.foldlM f state = .ok last) :
    bs.foldlM f state = .ok last := by
  induction h generalizing state with
  | nil => exact hfold
  | cons a _ ih =>
      rw [List.foldlM_cons] at hfold ⊢
      obtain ⟨next, hnext, hrest⟩ := bind_eq_ok_iff.mp hfold
      exact bind_eq_ok_iff.mpr ⟨next, hnext, ih (List.pairwise_cons.mp hR).2 hrest⟩
  | swap a b rest =>
      simp only [List.foldlM_cons] at hfold ⊢
      obtain ⟨next, hnext, hrest⟩ := bind_eq_ok_iff.mp hfold
      obtain ⟨middle, hmiddle, hrest⟩ := bind_eq_ok_iff.mp hrest
      have hab : R b a := (List.pairwise_cons.mp hR).1 a List.mem_cons_self
      obtain ⟨next', hnext', hmiddle'⟩ := hswap hab hnext hmiddle
      exact bind_eq_ok_iff.mpr ⟨next', hnext', bind_eq_ok_iff.mpr ⟨middle, hmiddle', hrest⟩⟩
  | trans hperm _ ih ih' => exact ih' (hR.perm hperm hsymm) (ih hR hfold)

/-! ### Agreement -/

/-- Both results are successes, with values related by `R`, or both are errors. -/
inductive Agree (R : α → β → Prop) : Except ε α → Except ε' β → Prop where
  | ok {a : α} {b : β} (hab : R a b) : Agree R (.ok a) (.ok b)
  | error (e : ε) (e' : ε') : Agree R (.error e) (.error e')

theorem Agree.of_ok_left {R : α → β → Prop} {a : α} {y : Except ε' β}
    (h : Agree R (.ok a : Except ε α) y) : ∃ b, y = .ok b ∧ R a b := by
  cases h with
  | ok hab => exact ⟨_, rfl, hab⟩

theorem Agree.of_ok_right {R : α → β → Prop} {x : Except ε α} {b : β}
    (h : Agree R x (.ok b : Except ε' β)) : ∃ a, x = .ok a ∧ R a b := by
  cases h with
  | ok hab => exact ⟨_, rfl, hab⟩

/-! ### Refinement -/

/-- Where `x` succeeds, `y` succeeds with the same value. -/
def Refines (x : Except ε α) (y : Except ε' α) : Prop := ∀ a, x = .ok a → y = .ok a

theorem Refines.refl (x : Except ε α) : Refines x x := fun _ h => h

theorem Refines.of_error (e : ε) (y : Except ε' α) : Refines (.error e : Except ε α) y := fun _ h => nomatch h

theorem Refines.error_or_ok {x : Except ε α} {y : Except ε' α} (h : Refines x y) :
    (∃ e, x = .error e) ∨ ∃ a, x = .ok a ∧ y = .ok a := by
  cases hx : x with
  | error e => exact .inl ⟨e, rfl⟩
  | ok a => exact .inr ⟨a, rfl, h a hx⟩

theorem Refines.bind {x : Except ε α} {y : Except ε' α} {f : α → Except ε β} {g : α → Except ε' β}
    (h : Refines x y) (hfg : ∀ a, Refines (f a) (g a)) : Refines (x >>= f) (y >>= g) := by
  intro b hb
  obtain ⟨a, ha, hb⟩ := bind_eq_ok_iff.mp hb
  exact bind_eq_ok_iff.mpr ⟨a, h a ha, hfg a b hb⟩

theorem Refines.map {x : Except ε α} {y : Except ε' α} (h : Refines x y) (f : α → β) :
    Refines (x.map f) (y.map f) := by
  intro b hb
  obtain ⟨a, ha, hb⟩ := map_eq_ok_iff.mp hb
  exact map_eq_ok_iff.mpr ⟨a, h a ha, hb⟩

theorem Refines.mapError {ε₁ ε₂ : Type u} {x : Except ε α} {y : Except ε' α} (h : Refines x y) (f : ε → ε₁)
    (g : ε' → ε₂) : Refines (x.mapError f) (y.mapError g) :=
  fun a ha => mapError_eq_ok_iff.mpr (h a (mapError_eq_ok_iff.mp ha))

end LevelPlay.Result
