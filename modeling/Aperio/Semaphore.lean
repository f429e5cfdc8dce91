import Mathlib.Data.Nat.Basic

/-!
# A fair semaphore whose size moves

The semaphore of an asynchronous runtime. A task that finds no free permit
waits in line, and a permit that is given back goes to the head of the line
before it is free again. Besides that the number of permits can be changed:
forgetting takes away free permits only and says how many it took, and adding
must keep the number of free permits within a maximum.

`Permits` is what a limiter relies on: the operations, with a law for what each
of them does to the permits that are free and those that are held. `Semaphore`
is the one with a line, and keeps them.
-/

namespace Aperio

class Permits (σ : Type) where
  new : Nat → σ
  available : σ → Nat
  held : σ → Nat
  /-- A task takes a free permit, or joins the line. -/
  acquire : σ → σ
  /-- A holder gives its permit back. -/
  release : σ → Option σ
  /-- A task leaves the line. -/
  cancel : σ → Option σ
  /-- Takes away at most so many permits, and says how many. -/
  forgetPermits : σ → Nat → Nat × σ
  /-- Adds permits. More free permits than there may be is a panic. -/
  addPermits : Nat → σ → Nat → Option σ
  available_new : ∀ n, available (new n) = n
  held_new : ∀ n, held (new n) = 0
  acquire_keeps : ∀ s, available (acquire s) + held (acquire s) = available s + held s
  release_keeps : ∀ s s', release s = some s' → available s' + held s' = available s + held s
  cancel_keeps : ∀ s s', cancel s = some s' → available s' + held s' = available s + held s
  forget_taken : ∀ s n, (forgetPermits s n).1 = min n (available s)
  forget_available : ∀ s n, available (forgetPermits s n).2 = available s - min n (available s)
  forget_held : ∀ s n, held (forgetPermits s n).2 = held s
  add_within : ∀ maxPermits s n, available s + held s + n ≤ maxPermits →
    ∃ s', addPermits maxPermits s n = some s' ∧ available s' + held s' = available s + held s + n

namespace Permits

variable {σ : Type} [Permits σ] {s s' : σ} {n maxPermits : Nat}

/-- The permits there are. -/
def total (s : σ) : Nat := available s + held s

theorem total_new (n : Nat) : total (new n : σ) = n := by
  rw [total, available_new, held_new, Nat.add_zero]

theorem total_acquire (s : σ) : total (acquire s) = total s := acquire_keeps s

theorem total_release (h : release s = some s') : total s' = total s := release_keeps s s' h

theorem total_cancel (h : cancel s = some s') : total s' = total s := cancel_keeps s s' h

theorem forgetPermits_le (s : σ) (n : Nat) : (forgetPermits s n).1 ≤ n := by
  rw [forget_taken]
  exact Nat.min_le_left _ _

theorem total_forgetPermits (s : σ) (n : Nat) :
    total (forgetPermits s n).2 + (forgetPermits s n).1 = total s := by
  simp only [total, forget_taken, forget_available, forget_held]
  omega

/-- Where nothing is held, everything asked for is taken. -/
theorem forgetPermits_of_held (hheld : held s = 0) (hn : n ≤ total s) :
    (forgetPermits s n).1 = n := by
  rw [forget_taken]
  simp only [total] at hn
  omega

/-- Adding within the maximum does not panic. -/
theorem addPermits_eq_some (h : total s + n ≤ maxPermits) :
    ∃ s', addPermits maxPermits s n = some s' ∧ total s' = total s + n :=
  add_within maxPermits s n h

end Permits

/-! ## One with a line -/

structure Semaphore where
  available : Nat
  held : Nat := 0
  waiting : Nat := 0
deriving DecidableEq

namespace Semaphore

variable {s s' : Semaphore} {n maxPermits : Nat}

def acquire (s : Semaphore) : Semaphore :=
  if s.available = 0 then { s with waiting := s.waiting + 1 }
  else { s with available := s.available - 1, held := s.held + 1 }

/-- A permit that is given back goes to whoever is first in line. -/
def release (s : Semaphore) : Option Semaphore :=
  if s.held = 0 then none
  else if s.waiting = 0 then some { s with available := s.available + 1, held := s.held - 1 }
  else some { s with waiting := s.waiting - 1 }

def cancel (s : Semaphore) : Option Semaphore :=
  if s.waiting = 0 then none else some { s with waiting := s.waiting - 1 }

def forgetPermits (s : Semaphore) (n : Nat) : Nat × Semaphore :=
  (min n s.available, { s with available := s.available - min n s.available })

/-- The line is served first. -/
def addPermits (maxPermits : Nat) (s : Semaphore) (n : Nat) : Option Semaphore :=
  let given := min n s.waiting
  if maxPermits < s.available + (n - given) then none
  else
    some { s with
      available := s.available + (n - given)
      held := s.held + given
      waiting := s.waiting - given }

theorem acquire_keeps (s : Semaphore) :
    s.acquire.available + s.acquire.held = s.available + s.held := by
  unfold acquire
  split
  · rfl
  · dsimp only
    omega

theorem release_keeps (h : s.release = some s') :
    s'.available + s'.held = s.available + s.held := by
  unfold release at h
  split at h
  · cases h
  · split at h
    · obtain rfl := Option.some.inj h
      dsimp only
      omega
    · obtain rfl := Option.some.inj h
      rfl

theorem cancel_keeps (h : s.cancel = some s') : s'.available + s'.held = s.available + s.held := by
  unfold cancel at h
  split at h
  · cases h
  · obtain rfl := Option.some.inj h
    rfl

theorem add_within (h : s.available + s.held + n ≤ maxPermits) :
    ∃ s', s.addPermits maxPermits n = some s' ∧
      s'.available + s'.held = s.available + s.held + n := by
  refine ⟨_, if_neg (by omega), ?_⟩
  dsimp only
  omega

instance : Permits Semaphore where
  new n := { available := n }
  available := available
  held := held
  acquire := acquire
  release := release
  cancel := cancel
  forgetPermits := forgetPermits
  addPermits := addPermits
  available_new _ := rfl
  held_new _ := rfl
  acquire_keeps := acquire_keeps
  release_keeps _ _ := release_keeps
  cancel_keeps _ _ := cancel_keeps
  forget_taken _ _ := rfl
  forget_available _ _ := rfl
  forget_held _ _ := rfl
  add_within _ _ _ := add_within

end Semaphore

end Aperio
