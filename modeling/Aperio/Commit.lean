import Mathlib.Logic.Basic

/-!
# A table in memory and on disk

A store keeps its rows in memory and writes all of them after every change. A
change that is refused, or that could not be written, is taken back, so that
the memory is what the last write that succeeded put on disk.
-/

namespace Aperio

/-- The rows a store works on, and the ones the last write that succeeded
left, or that were loaded. -/
structure Table (σ : Type) where
  memory : σ
  disk : σ
deriving Repr, DecidableEq

namespace Table

variable {σ ε R : Type}

def load (rows : σ) : Table σ :=
  ⟨rows, rows⟩

/-- Writes the whole table, in one transaction. -/
def persist (t : Table σ) (saved : Bool) : Table σ :=
  if saved then { t with disk := t.memory } else t

/-- Runs a change, saves it, and puts the rows back if either failed. A change
that is refused may have come part of the way. -/
def commit (t : Table σ) (saved : Bool) (notSaved : ε) (change : σ → Except ε R × σ) :
    Except ε R × Table σ :=
  let changed : Table σ := { t with memory := (change t.memory).2 }
  match (change t.memory).1 with
  | .ok out =>
    if saved then (.ok out, changed.persist saved)
    else (.error notSaved, { changed.persist saved with memory := t.memory })
  | .error e => (.error e, { changed with memory := t.memory })

/-- The memory is what is on disk. -/
def Settled (t : Table σ) : Prop :=
  t.memory = t.disk

variable {t : Table σ} {saved : Bool} {notSaved e : ε} {change : σ → Except ε R × σ}

theorem load_settled (rows : σ) : (load rows).Settled := rfl

/-- A commit that succeeds has saved the change; one that does not has left
the table alone. -/
theorem commit_cases (t : Table σ) (saved : Bool) (notSaved : ε)
    (change : σ → Except ε R × σ) : (∃ out, (change t.memory).1 = .ok out ∧ saved = true ∧
      t.commit saved notSaved change = (.ok out, load (change t.memory).2)) ∨
    ∃ e, t.commit saved notSaved change = (.error e, t) := by
  cases hout : (change t.memory).1 with
  | error e =>
      refine .inr ⟨e, ?_⟩
      simp only [commit, hout]
  | ok out =>
      cases saved with
      | true =>
          refine .inl ⟨out, rfl, rfl, ?_⟩
          simp only [commit, hout, persist, load, if_true]
      | false =>
          refine .inr ⟨notSaved, ?_⟩
          simp only [commit, hout, persist, Bool.false_eq_true, if_false]

/-! ## Runs -/

/-- How an operation ends: it leaves the table alone, or it has written rows
that are `P` to the ones it found, and reports no error. -/
inductive Commits (P : σ → σ → Prop) (t : Table σ) : Bool → Table σ → Prop
  | kept (failed : Bool) : Commits P t failed t
  | written (rows : σ) (h : P t.memory rows) : Commits P t false (load rows)

/-- The memory is the list of the last write that succeeded, or there was none
and the table is as it was loaded. -/
def Matches (t loaded : Table σ) : Prop :=
  t.Settled ∨ t = loaded

variable {P : σ → σ → Prop} {failed : Bool} {t' loaded : Table σ}

theorem commits_commit (h : ∀ out, (change t.memory).1 = .ok out → P t.memory (change t.memory).2) :
    Commits P t (t.commit saved notSaved change).1.toOption.isNone
      (t.commit saved notSaved change).2 := by
  rcases commit_cases t saved notSaved change with ⟨out, hout, -, hc⟩ | ⟨e', hc⟩
  · rw [hc]
    exact .written _ (h out hout)
  · rw [hc]
    exact .kept _

theorem Commits.of_failed (h : Commits P t failed t') (hf : failed = true) : t' = t := by
  cases h with
  | kept => rfl
  | written rows hrows => cases hf

theorem Commits.matches (h : Commits P t failed t') (ht : t.Matches loaded) :
    t'.Matches loaded := by
  cases h with
  | kept => exact ht
  | written rows hrows => exact .inl (load_settled rows)

/-- What holds of the rows in memory, and less of those on disk, is kept by an
operation that keeps it. -/
theorem Commits.rows {Q D : σ → Prop} (h : Commits P t failed t') (hmem : Q t.memory)
    (hdisk : D t.disk) (hkeep : ∀ before after, P before after → Q before → Q after)
    (hless : ∀ rows, Q rows → D rows) : Q t'.memory ∧ D t'.disk := by
  cases h with
  | kept => exact ⟨hmem, hdisk⟩
  | written rows hrows =>
      have hq := hkeep t.memory rows hrows hmem
      exact ⟨hq, hless rows hq⟩

end Table

end Aperio
