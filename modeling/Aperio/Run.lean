import Mathlib.Data.List.Basic

/-!
# Runs of a guarded transition system

Everything this development says about whole runs goes through one small
notion of system: a predicate for the initial states and a labelled step
relation. A label is what the outside world decides (which request arrives,
which lock region of which handler runs next), so a theorem over every
reachable state is a theorem over every interleaving.

`Sys.restrict` keeps only the steps that meet a side condition. A result of
the form "in every run whose steps all meet `c`, the property holds" is
stated over the reachable states of the restricted system. `Sys.extend` adds
steps, and without them the runs are what they were.
-/

namespace Aperio

/-- A labelled transition system. -/
structure Sys (σ α : Type*) where
  init : σ → Prop
  step : σ → α → σ → Prop

namespace Sys

variable {σ α β : Type*} {S : Sys σ α} {s s' : σ} {a : α}

/-- The states some run from an initial state ends in. -/
inductive Reachable (S : Sys σ α) : σ → Prop
  | init {s : σ} : S.init s → Reachable S s
  | step {s s' : σ} {a : α} : Reachable S s → S.step s a s' → Reachable S s'

/-- **Invariant rule.** What holds initially and is kept by every step from
a reachable state holds in every reachable state. -/
theorem Reachable.invariant {P : σ → Prop} (hs : S.Reachable s)
    (hinit : ∀ s, S.init s → P s)
    (hstep : ∀ s a s', S.Reachable s → P s → S.step s a s' → P s') : P s := by
  induction hs with
  | init h => exact hinit _ h
  | step hr hst ih => exact hstep _ _ _ hr ih hst

/-- A guarded step that was taken met its guard. -/
theorem guarded_eq_some {p : Prop} {_ : Decidable p}
    (h : (if p then some s else none) = some s') : p ∧ s = s' := by
  split at h
  · exact ⟨‹p›, Option.some.inj h⟩
  · cases h

/-- The system whose steps also meet the side condition `c`. -/
def restrict (S : Sys σ α) (c : σ → α → σ → Prop) : Sys σ α where
  init := S.init
  step s a s' := S.step s a s' ∧ c s a s'

theorem Reachable.of_restrict {c : σ → α → σ → Prop}
    (hs : (S.restrict c).Reachable s) : S.Reachable s := by
  induction hs with
  | init h => exact .init h
  | step _ hst ih => exact .step ih hst.1

/-- The system that may also take the steps `more`. -/
def extend (S : Sys σ α) (more : σ → β → σ → Prop) : Sys σ (α ⊕ β) where
  init := S.init
  step s a s' := a.elim (S.step s · s') (more s · s')

theorem reachable_extend_iff {more : σ → β → σ → Prop} :
    ((S.extend more).restrict fun _ a _ => a.isLeft = true).Reachable s ↔ S.Reachable s := by
  constructor
  · intro hs
    induction hs with
    | init h => exact .init h
    | @step s s' a _ hst ih =>
        cases a with
        | inl a => exact .step ih hst.1
        | inr b => cases hst.2
  · intro hs
    induction hs with
    | init h => exact .init h
    | @step s s' a _ hst ih => exact .step (a := .inl a) ih ⟨hst, rfl⟩

/-- A run written out as its labels, where each label's step is computed. -/
theorem Reachable.foldlM {next : σ → α → Option σ} (hs : S.Reachable s) {acts : List α}
    (hnext : ∀ s a s', next s a = some s' → S.step s a s')
    (h : acts.foldlM next s = some s') : S.Reachable s' := by
  induction acts generalizing s with
  | nil =>
      obtain rfl := Option.some.inj h
      exact hs
  | cons a rest ih =>
      rw [List.foldlM_cons] at h
      obtain ⟨s₁, hstep, hrest⟩ := Option.bind_eq_some_iff.mp h
      exact ih (.step hs (hnext _ _ _ hstep)) hrest

end Sys

/-! ## Positions of a list

A statement about every moment of a finite run is a statement about every
way to cut its list of events at one of them. -/

/-- `P pre x` at every position: `x` is the element there and `pre` is what
stands before it. -/
def AtEach {α : Type*} (l : List α) (P : List α → α → Prop) : Prop :=
  ∀ pre x post, l = pre ++ x :: post → P pre x

theorem atEach_nil {α : Type*} {P : List α → α → Prop} : AtEach [] P := by
  intro pre x post h
  simp at h

theorem atEach_cons {α : Type*} {a : α} {l : List α} {P : List α → α → Prop} :
    AtEach (a :: l) P ↔ P [] a ∧ AtEach l fun pre x => P (a :: pre) x := by
  constructor
  · intro h
    refine ⟨h [] a l rfl, ?_⟩
    intro pre x post hl
    exact h (a :: pre) x post (by rw [hl, List.cons_append])
  · rintro ⟨ha, hl⟩ pre x post h
    cases pre with
    | nil =>
        simp only [List.nil_append, List.cons.injEq] at h
        rw [← h.1]
        exact ha
    | cons b pre =>
        simp only [List.cons_append, List.cons.injEq] at h
        rw [← h.1]
        exact hl pre x post h.2

theorem atEach_append {α : Type*} {l : List α} {a : α} {P : List α → α → Prop} :
    AtEach (l ++ [a]) P ↔ AtEach l P ∧ P l a := by
  induction l generalizing P with
  | nil =>
      simp [atEach_cons, atEach_nil]
  | cons b l ih =>
      rw [List.cons_append, atEach_cons, atEach_cons, ih, and_assoc]

end Aperio
