import Mathlib.Data.List.Basic

/-!
# Computations that may fail

What went well did so step by step: `bind_eq_ok` takes a `do` block of
`Except` apart, and the folds and maps of such steps keep what each step
keeps.
-/

namespace Aperio

variable {ε α β σ : Type}

theorem bind_eq_ok {x : Except ε α} {f : α → Except ε β} {r : β} :
    x >>= f = .ok r ↔ ∃ a, x = .ok a ∧ f a = .ok r := by
  cases x with
  | error e => simp [bind, Except.bind]
  | ok a => simp [bind, Except.bind]

/-- A check, and the error when it fails. -/
def ensure (p : Prop) [Decidable p] (e : ε) : Except ε Unit :=
  if p then .ok () else .error e

theorem ensure_ok {p : Prop} [Decidable p] {e : ε} : ensure p e = .ok () ↔ p := by
  unfold ensure
  split
  · next h => exact iff_of_true rfl h
  · next h => exact iff_of_false nofun h

/-- What every step keeps, a loop of them keeps. -/
theorem foldlM_ok {P : σ → Prop} {f : σ → α → Except ε σ} {l : List α} {a b : σ}
    (h : l.foldlM f a = .ok b) (ha : P a)
    (hstep : ∀ x ∈ l, ∀ a b, P a → f a x = .ok b → P b) : P b := by
  induction l generalizing a with
  | nil =>
      obtain rfl := Except.ok.inj h
      exact ha
  | cons x rest ih =>
      rw [List.foldlM_cons] at h
      obtain ⟨a', hx, hrest⟩ := bind_eq_ok.mp h
      exact ih hrest (hstep x List.mem_cons_self a a' ha hx) fun y hy =>
        hstep y (List.mem_cons_of_mem _ hy)

theorem forM_ok {f : α → Except ε PUnit} {l : List α} (h : l.forM f = .ok ()) :
    ∀ x ∈ l, f x = .ok () := by
  induction l with
  | nil => exact nofun
  | cons x rest ih =>
      obtain ⟨_, hx, hrest⟩ := bind_eq_ok.mp h
      exact List.forall_mem_cons.mpr ⟨hx, ih hrest⟩

/-- Everything a mapped list holds comes from the list. -/
theorem exists_of_mem_mapM {f : α → Except ε β} {l : List α} {l' : List β}
    (h : l.mapM f = .ok l') {y : β} (hy : y ∈ l') : ∃ x ∈ l, f x = .ok y := by
  induction l generalizing l' with
  | nil =>
      obtain rfl : [] = l' := by simpa [pure, Except.pure] using h
      exact absurd hy List.not_mem_nil
  | cons x rest ih =>
      rw [List.mapM_cons] at h
      obtain ⟨y', hx, h⟩ := bind_eq_ok.mp h
      obtain ⟨l'', hrest, h⟩ := bind_eq_ok.mp h
      obtain rfl := Except.ok.inj h
      rcases List.mem_cons.mp hy with rfl | hy
      · exact ⟨x, List.mem_cons_self, hx⟩
      · obtain ⟨w, hw, hok⟩ := ih hrest hy
        exact ⟨w, List.mem_cons_of_mem _ hw, hok⟩

end Aperio
