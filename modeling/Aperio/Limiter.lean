import Mathlib.Algebra.Group.Nat.Defs
import Aperio.Declare
import Aperio.Run
import Aperio.Semaphore

/-!
# The concurrency limit of a service

A Ping announces how many requests a service takes at once
(`apply_declaration`, `tunnel/ws/declare.rs`), and the requests take their
permits from the service's `inflight_limiter` (`proxy/forward/attempt.rs`).
The first announcement makes the limiter and fixes the ceiling; a later one
moves the limit below it. A shrink takes only permits that are free, so what
is enforced lags what was announced.

A Ping touches the limiter at most once and writes the number it records
under the same lock, so it is one step. `maxPermits` is `Semaphore::MAX_PERMITS`,
which depends on the target. `first` is not in the source: it is the first
number that was announced.

The semaphore is a runtime's, and the limiter needs of it what `Permits` says.
-/

namespace Aperio

open Permits

/-! ## One announcement -/

structure ServiceLimit (σ : Type) where
  maxConcurrent : Option Nat := none
  maxConcurrentCeiling : Option Nat := none
  inflightLimiter : Option σ := none
deriving DecidableEq

variable {σ : Type} [Permits σ]

namespace ServiceLimit

/-- What a declaration does to the limit. Adding permits beyond the maximum
would panic. -/
def announce (maxPermits : Nat) (l : ServiceLimit σ) (announced : Option Nat) :
    Option (ServiceLimit σ) :=
  match announced with
  | none => some l
  | some n =>
    if n = 0 then some l
    else
      match l.inflightLimiter, l.maxConcurrentCeiling with
      | none, _ =>
        let permits := min n maxPermits
        some ⟨some permits, some permits, some (new permits)⟩
      | some limiter, some ceiling =>
        let enforced := l.maxConcurrent.getD ceiling
        let want := min n ceiling
        if want < enforced then
          let taken := (forgetPermits limiter (enforced - want)).1
          let now := enforced - taken
          some { l with
            inflightLimiter := some (forgetPermits limiter (enforced - want)).2
            maxConcurrent := if now = enforced then l.maxConcurrent else some now }
        else if enforced < want then
          match addPermits maxPermits limiter (want - enforced) with
          | none => none
          | some limiter =>
            some { l with inflightLimiter := some limiter, maxConcurrent := some want }
        else some l
      | some _, none => some l

end ServiceLimit

/-! ## Announcements and requests -/

structure LimiterState (σ : Type) where
  limit : ServiceLimit σ := {}
  first : Option Nat := none

inductive LimiterAct where
  | ping (announced : Option Nat)
  | acquire
  | release
  /-- A waiting request gives up. -/
  | cancel

namespace LimiterState

/-- A request works on the limiter there is. -/
def onLimiter (s : LimiterState σ) (f : σ → Option σ) : Option (LimiterState σ) :=
  match s.limit.inflightLimiter with
  | none => none
  | some limiter =>
    (f limiter).map fun limiter =>
      { s with limit := { s.limit with inflightLimiter := some limiter } }

def step (maxPermits : Nat) (s : LimiterState σ) : LimiterAct → Option (LimiterState σ)
  | .ping announced =>
    (s.limit.announce maxPermits announced).map fun limit =>
      { limit := limit, first := s.first.or (announced.filter (0 < ·)) }
  | .acquire => s.onLimiter fun limiter => some (acquire limiter)
  | .release => s.onLimiter release
  | .cancel => s.onLimiter cancel

end LimiterState

def limiterSys (σ : Type) [Permits σ] (maxPermits : Nat) : Sys (LimiterState σ) LimiterAct where
  init s := s = {}
  step s act s' := s.step maxPermits act = some s'

/-! ## What is enforced -/

/-- The limiter's permits add up to the number that is recorded, and that is
within the ceiling. -/
structure ServiceLimit.Enforces (l : ServiceLimit σ) (ceiling : Nat) (limiter : σ)
    (limit : Nat) : Prop where
  limiter_eq : l.inflightLimiter = some limiter
  ceiling_eq : l.maxConcurrentCeiling = some ceiling
  limit_eq : l.maxConcurrent = some limit
  accounted : total limiter = limit
  within : limit ≤ ceiling

section

variable {maxPermits ceiling limit n : Nat} {l : ServiceLimit σ} {limiter : σ}
  {s s' : LimiterState σ}

/-- A later announcement: it does not panic, it keeps the account, and where
no permit is held it takes effect at once. -/
theorem announce_enforces (h : l.Enforces ceiling limiter limit) (hmax : ceiling ≤ maxPermits)
    (hn : 0 < n) :
    ∃ l' limiter' limit', l.announce maxPermits (some n) = some l' ∧
      l'.Enforces ceiling limiter' limit' ∧ (held limiter = 0 → limit' = min n ceiling) := by
  have hwithin := h.within
  have hacc := h.accounted
  have hzero : n ≠ 0 := by omega
  simp only [ServiceLimit.announce, if_neg hzero, h.limiter_eq, h.ceiling_eq, h.limit_eq,
    Option.getD_some]
  by_cases hless : min n ceiling < limit
  · rw [if_pos hless]
    have htaken := total_forgetPermits limiter (limit - min n ceiling)
    refine ⟨_, _, limit - (forgetPermits limiter (limit - min n ceiling)).1, rfl,
      ⟨rfl, rfl, ?_, ?_, ?_⟩, fun hheld => ?_⟩
    · simp only
      split
      · rename_i hsame
        rw [hsame]
      · rfl
    · omega
    · omega
    · rw [forgetPermits_of_held hheld (by omega)]
      omega
  · rw [if_neg hless]
    by_cases hmore : limit < min n ceiling
    · rw [if_pos hmore]
      obtain ⟨limiter', hadd, htotal⟩ :=
        @addPermits_eq_some _ _ limiter (min n ceiling - limit) maxPermits (by omega)
      rw [hadd]
      refine ⟨_, limiter', min n ceiling, rfl, ⟨rfl, rfl, rfl, ?_, ?_⟩, fun _ => rfl⟩
      · omega
      · exact Nat.min_le_right _ _
    · rw [if_neg hmore]
      exact ⟨l, limiter, limit, rfl, h, fun _ => by omega⟩

/-- The limit of a run: nothing before the first announcement, and an account
under the first number from then on. -/
def LimiterState.Accounted (maxPermits : Nat) (s : LimiterState σ) : Prop :=
  match s.first with
  | none => s.limit = {}
  | some first =>
    ∃ limiter limit, s.limit.Enforces (min first maxPermits) limiter limit

/-- The first announcement is the limit and the ceiling. -/
theorem step_first_ping (hs : s.Accounted maxPermits) (hfirst : s.first = none) (hn : 0 < n) :
    s.step maxPermits (.ping (some n)) =
      some { limit := ⟨some (min n maxPermits), some (min n maxPermits),
          some (new (min n maxPermits))⟩, first := some n } := by
  rw [LimiterState.Accounted, hfirst] at hs
  have hzero : n ≠ 0 := by omega
  simp [LimiterState.step, ServiceLimit.announce, hs, hzero, hfirst, hn]

/-- A Ping that names no number, or zero, changes nothing. -/
theorem step_silent_ping {announced : Option Nat} (h : ¬∃ n, announced = some n ∧ 0 < n) :
    s.step maxPermits (.ping announced) = some s := by
  cases announced with
  | none => simp [LimiterState.step, ServiceLimit.announce]
  | some n =>
      have hzero : n = 0 := by
        by_contra hne
        exact h ⟨n, rfl, Nat.pos_of_ne_zero hne⟩
      simp [LimiterState.step, ServiceLimit.announce, hzero, Option.filter]

/-- A Ping keeps the account, and with no permit held its number is the
limit. -/
theorem accounted_ping (hs : s.Accounted maxPermits) (announced : Option Nat) :
    ∃ s', s.step maxPermits (.ping announced) = some s' ∧ s'.Accounted maxPermits ∧
      ∀ n, announced = some n → 0 < n →
        (∀ limiter, s.limit.inflightLimiter = some limiter → held limiter = 0) →
          ∃ ceiling, s'.limit.maxConcurrentCeiling = some ceiling ∧
            s'.limit.maxConcurrent = some (min n ceiling) := by
  by_cases hpos : ∃ n, announced = some n ∧ 0 < n
  · obtain ⟨n, rfl, hn⟩ := hpos
    cases hfirst : s.first with
    | none =>
        refine ⟨_, step_first_ping hs hfirst hn, ⟨_, _, rfl, rfl, rfl, total_new _, le_rfl⟩, ?_⟩
        intro m hm _ _
        obtain rfl := Option.some.inj hm
        refine ⟨_, rfl, ?_⟩
        show some (min n maxPermits) = some (min n (min n maxPermits))
        congr 1
        omega
    | some first =>
        rw [LimiterState.Accounted, hfirst] at hs
        obtain ⟨limiter, limit, henf⟩ := hs
        obtain ⟨l', limiter', limit', hmoved, henf', hidle⟩ :=
          @announce_enforces _ _ maxPermits _ _ n _ _ henf (Nat.min_le_right _ _) hn
        refine ⟨{ limit := l', first := some first }, ?_, ⟨limiter', limit', henf'⟩, ?_⟩
        · simp [LimiterState.step, hmoved, hfirst]
        · intro m hm _ hheld
          obtain rfl := Option.some.inj hm
          refine ⟨_, henf'.ceiling_eq, ?_⟩
          rw [henf'.limit_eq, hidle (hheld limiter henf.limiter_eq)]
  · exact ⟨s, step_silent_ping hpos, hs, fun n hn hlt => absurd ⟨n, hn, hlt⟩ hpos⟩

theorem accounted_onLimiter {f : σ → Option σ} (hs : s.Accounted maxPermits)
    (hf : ∀ a b, f a = some b → total b = total a) (hstep : s.onLimiter f = some s') :
    s'.Accounted maxPermits := by
  unfold LimiterState.onLimiter at hstep
  split at hstep
  · cases hstep
  · rename_i limiter hlimiter
    obtain ⟨limiter', hf', rfl⟩ := Option.map_eq_some_iff.mp hstep
    unfold LimiterState.Accounted at hs ⊢
    simp only
    split at hs
    · rw [hs] at hlimiter
      cases hlimiter
    · obtain ⟨limiter₀, limit, henf⟩ := hs
      obtain rfl := Option.some.inj (hlimiter.symm.trans henf.limiter_eq)
      exact ⟨limiter', limit, rfl, henf.ceiling_eq, henf.limit_eq,
        (hf _ _ hf').trans henf.accounted, henf.within⟩

theorem accounted_step {act : LimiterAct} (hs : s.Accounted maxPermits)
    (hstep : s.step maxPermits act = some s') : s'.Accounted maxPermits := by
  cases act with
  | ping announced =>
      obtain ⟨s₁, hs₁, hacc, -⟩ := accounted_ping hs announced
      obtain rfl := Option.some.inj (hs₁.symm.trans hstep)
      exact hacc
  | acquire =>
      refine accounted_onLimiter hs (fun a b hab => ?_) hstep
      rw [← Option.some.inj hab, total_acquire]
  | release => exact accounted_onLimiter hs (fun _ _ => total_release) hstep
  | cancel => exact accounted_onLimiter hs (fun _ _ => total_cancel) hstep

end

/-- **The limiter.** In every run, from the first announcement on, the free
permits and the held ones add up to the recorded limit, which is within the
first number announced, cut to what a semaphore may hold. A Ping never
panics, and one that announces a number while no permit is held sets the
limit to it, or to the ceiling. -/
theorem limiter_accounts (σ : Type) [Permits σ] (maxPermits : Nat) :
    ∀ s, (limiterSys σ maxPermits).Reachable s →
      (∀ first, s.first = some first →
        ∃ limiter limit, s.limit.inflightLimiter = some limiter ∧
          s.limit.maxConcurrent = some limit ∧
          s.limit.maxConcurrentCeiling = some (min first maxPermits) ∧
          available limiter + held limiter = limit ∧ limit ≤ min first maxPermits) ∧
      ∀ announced, ∃ s', (limiterSys σ maxPermits).step s (.ping announced) s' ∧
        ∀ n, announced = some n → 0 < n →
          (∀ limiter, s.limit.inflightLimiter = some limiter → held limiter = 0) →
            ∃ ceiling, s'.limit.maxConcurrentCeiling = some ceiling ∧
              s'.limit.maxConcurrent = some (min n ceiling) := by
  intro s hs
  have hacc : s.Accounted maxPermits := by
    refine hs.invariant (P := LimiterState.Accounted maxPermits) ?_ ?_
    · rintro _ rfl
      exact rfl
    · intro s act s' _ hacc hstep
      exact accounted_step hacc hstep
  refine ⟨fun first hfirst => ?_, fun announced => ?_⟩
  · rw [LimiterState.Accounted, hfirst] at hacc
    obtain ⟨limiter, limit, henf⟩ := hacc
    exact ⟨limiter, limit, henf.limiter_eq, henf.limit_eq, henf.ceiling_eq, henf.accounted,
      henf.within⟩
  · obtain ⟨s', hstep, -, hidle⟩ := accounted_ping hacc announced
    exact ⟨s', hstep, hidle⟩

/-- A limit of four, lowered to two while three requests are out. -/
def loweredUnderLoad : List LimiterAct :=
  [.ping (some 4), .acquire, .acquire, .acquire, .ping (some 2)]

theorem limiter_accounts_lowered :
    ∃ s, (limiterSys Semaphore (2 ^ 61 - 1)).Reachable s ∧ s.limit.maxConcurrent = some 3 ∧
      ∃ limiter limit, s.limit.inflightLimiter = some limiter ∧
        s.limit.maxConcurrent = some limit ∧ limiter.available + limiter.held = limit ∧
        limit ≤ 4 := by
  have hrun := @Sys.Reachable.foldlM _ _ (limiterSys Semaphore (2 ^ 61 - 1)) _ _ _ (.init rfl)
    loweredUnderLoad (fun _ _ _ hstep => hstep) rfl
  refine ⟨_, hrun, rfl, ?_⟩
  obtain ⟨limiter, limit, hlim, hnum, -, hsum, hle⟩ :=
    (limiter_accounts Semaphore (2 ^ 61 - 1) _ hrun).1 4 rfl
  exact ⟨limiter, limit, hlim, hnum, hsum, hle⟩

end Aperio
