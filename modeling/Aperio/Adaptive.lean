import Aperio.Limiter
import Aperio.Units

/-!
# A concurrency limit that follows the backend

`Adaptive` of the client (`adaptive.rs`) beside the limiter the server keeps
for the same service (`Limiter`). The client halves the number it announces
while requests queue for their permits and climbs back by one; every
heartbeat carries the number of its moment, and a new connection starts the
server from the first number it hears.

`Adaptive.Kept` is the account of the client's limiter: what it has forgotten
is what it is short of the configured number. The server's half is
`LimiterState.Accounted`, and `adaptive_band_iff` puts the two together over
every run, heartbeats in flight and reconnects included.
-/

namespace Aperio

open Permits

/-! ## The client's number -/

/-- Mean wait in microseconds from which the backend is behind. -/
def slowWait : Nat := 250000

/-- Mean wait in microseconds up to which the client climbs back. -/
def clearWait : Nat := 50000

def adaptiveFloor : Nat := 1

structure Adaptive (σ : Type) where
  configured : Nat
  current : Nat
  limiter : σ
  forgotten : Nat := 0
  waitMicros : Nat := 0
  waits : Nat := 0
deriving DecidableEq

inductive AdaptiveVerdict where
  | shrink (n : Nat)
  | grow (n : Nat)
  | hold
deriving DecidableEq

variable {σ : Type}

namespace Adaptive

def new (configured : Nat) (limiter : σ) : Adaptive σ :=
  { configured, current := configured, limiter }

def announced (a : Adaptive σ) : Nat := a.current

/-- Both counters are `u64`s that wrap. -/
def recordWait (a : Adaptive σ) (micros : Nat) : Adaptive σ :=
  { a with
    waitMicros := (a.waitMicros + micros) % u64Bound
    waits := (a.waits + 1) % u64Bound }

/-- What the window's evidence says to do; a window without requests says
nothing. -/
def verdict (a : Adaptive σ) : AdaptiveVerdict :=
  if a.waits = 0 then .hold
  else
    let mean := a.waitMicros / a.waits
    if slowWait ≤ mean ∧ adaptiveFloor < a.current then .shrink (max (a.current / 2) adaptiveFloor)
    else if mean ≤ clearWait ∧ a.current < a.configured then .grow (a.current + 1)
    else .hold

theorem verdict_shrink {a : Adaptive σ} {n : Nat} (h : a.verdict = .shrink n) : 1 ≤ n := by
  unfold verdict at h
  dsimp only at h
  split at h
  · cases h
  · split at h
    · cases h
      exact Nat.le_max_right _ _
    · split at h
      · cases h
      · cases h

theorem verdict_grow {a : Adaptive σ} {n : Nat} (h : a.verdict = .grow n) : n = a.current + 1 := by
  unfold verdict at h
  dsimp only at h
  split at h
  · cases h
  · split at h
    · cases h
    · split at h
      · cases h
        rfl
      · cases h

variable [Permits σ]

/-- Resizes the limiter by what it lets itself be resized, and announces
that. Giving permits back beyond what a semaphore may hold would panic. -/
def apply (maxPermits : Nat) (a : Adaptive σ) : AdaptiveVerdict → Option (Adaptive σ)
  | .hold => some a
  | .shrink target | .grow target =>
    let previous := a.current
    if target < previous then
      let taken := (forgetPermits a.limiter (previous - target)).1
      some { a with
        limiter := (forgetPermits a.limiter (previous - target)).2
        forgotten := a.forgotten + taken
        current := previous - taken }
    else
      let give := min (target - previous) a.forgotten
      if 0 < give then
        (addPermits maxPermits a.limiter give).map fun limiter =>
          { a with limiter, forgotten := a.forgotten - give, current := previous + give }
      else some { a with current := previous + give }

/-- One window: the evidence is read and cleared, and acted on. -/
def tick (maxPermits : Nat) (a : Adaptive σ) : Option (Adaptive σ) :=
  apply maxPermits { a with waits := 0, waitMicros := 0 } a.verdict

/-- What the limiter is short of is what it has forgotten. -/
structure Kept (a : Adaptive σ) : Prop where
  permits : total a.limiter = a.current
  floor : 1 ≤ a.current
  account : a.current + a.forgotten = a.configured

theorem kept_new {configured : Nat} (hpos : 0 < configured) :
    (Adaptive.new configured (Permits.new configured : σ)).Kept :=
  ⟨total_new configured, hpos, rfl⟩

/-- A window moves the number by what the limiter let go of, or by what had
been taken from it. -/
theorem Kept.apply {a : Adaptive σ} {maxPermits : Nat} (h : a.Kept)
    (hmax : a.configured ≤ maxPermits) {v : AdaptiveVerdict}
    (hv : v = .hold ∨ ∃ n, 1 ≤ n ∧ (v = .shrink n ∨ v = .grow n)) :
    ∃ a', a.apply maxPermits v = some a' ∧ a'.Kept ∧ a'.configured = a.configured := by
  have hpermits := h.permits
  have haccount := h.account
  have hfloor := h.floor
  have hmove : ∀ n, 1 ≤ n → ∃ a', a.apply maxPermits (.shrink n) = some a' ∧ a'.Kept ∧
      a'.configured = a.configured := by
    intro n hn
    simp only [Adaptive.apply]
    by_cases hless : n < a.current
    · rw [if_pos hless]
      have htotal := total_forgetPermits a.limiter (a.current - n)
      have htaken := forgetPermits_le a.limiter (a.current - n)
      exact ⟨_, rfl, ⟨by dsimp only; omega, by dsimp only; omega, by dsimp only; omega⟩, rfl⟩
    · rw [if_neg hless]
      by_cases hgive : 0 < min (n - a.current) a.forgotten
      · rw [if_pos hgive]
        have hfits : total a.limiter + min (n - a.current) a.forgotten ≤ maxPermits := by omega
        obtain ⟨limiter, hadd, htotal⟩ := addPermits_eq_some hfits
        rw [hadd]
        exact ⟨_, rfl, ⟨by dsimp only; omega, by dsimp only; omega, by dsimp only; omega⟩, rfl⟩
      · rw [if_neg hgive]
        exact ⟨_, rfl, ⟨by dsimp only; omega, by dsimp only; omega, by dsimp only; omega⟩, rfl⟩
  rcases hv with rfl | ⟨n, hn, rfl | rfl⟩
  · exact ⟨a, rfl, h, rfl⟩
  · exact hmove n hn
  · exact hmove n hn

theorem Kept.tick {a : Adaptive σ} {maxPermits : Nat} (h : a.Kept)
    (hmax : a.configured ≤ maxPermits) :
    ∃ a', a.tick maxPermits = some a' ∧ a'.Kept ∧ a'.configured = a.configured := by
  have hcleared : Kept { a with waits := 0, waitMicros := 0 } := ⟨h.permits, h.floor, h.account⟩
  refine hcleared.apply hmax ?_
  cases hverdict : a.verdict with
  | hold => exact Or.inl rfl
  | shrink n => exact Or.inr ⟨n, verdict_shrink hverdict, Or.inl rfl⟩
  | grow n =>
      rw [verdict_grow hverdict]
      exact Or.inr ⟨_, Nat.le_add_left 1 a.current, Or.inr rfl⟩

end Adaptive

/-! ## Both ends -/

variable [Permits σ]

/-- What a request does to the limiter it is queued on. -/
inductive PermitAct where
  | acquire
  | release
  | cancel

def PermitAct.on : PermitAct → σ → Option σ
  | .acquire, limiter => some (Permits.acquire limiter)
  | .release, limiter => Permits.release limiter
  | .cancel, limiter => Permits.cancel limiter

theorem PermitAct.total_on {act : PermitAct} {limiter limiter' : σ}
    (h : act.on limiter = some limiter') : total limiter' = total limiter := by
  cases act with
  | acquire =>
      obtain rfl := Option.some.inj h
      exact total_acquire limiter
  | release => exact total_release h
  | cancel => exact total_cancel h

structure AdaptiveState (σ : Type) where
  client : Adaptive σ
  /-- The numbers of the heartbeats on their way, the oldest first. -/
  flight : List Nat := []
  server : LimiterState σ := {}

inductive AdaptiveAct where
  | waited (micros : Nat)
  | tick
  | permit (act : PermitAct)
  | heartbeat
  /-- The server applies the oldest heartbeat. -/
  | applied
  | served (act : PermitAct)
  /-- The connection is lost with what was on its way, and a new one starts
  with a limiter of its own. -/
  | reconnect

namespace AdaptiveState

def step (clientMax serverMax : Nat) (s : AdaptiveState σ) :
    AdaptiveAct → Option (AdaptiveState σ)
  | .waited micros => some { s with client := s.client.recordWait micros }
  | .tick => (s.client.tick clientMax).map fun client => { s with client }
  | .permit act =>
    (act.on s.client.limiter).map fun limiter => { s with client := { s.client with limiter } }
  | .heartbeat => some { s with flight := s.flight ++ [s.client.announced] }
  | .applied =>
    match s.flight with
    | [] => none
    | n :: rest =>
      (s.server.step serverMax (.ping (some n))).map fun server =>
        { s with flight := rest, server }
  | .served act => (s.server.onLimiter act.on).map fun server => { s with server }
  | .reconnect => some { s with flight := [], server := {} }

end AdaptiveState

/-- A service with its configured number and a full limiter. -/
def adaptiveSys (σ : Type) [Permits σ] (configured clientMax serverMax : Nat) :
    Sys (AdaptiveState σ) AdaptiveAct where
  init s := s = { client := .new configured (Permits.new configured) }
  step s act s' := s.step clientMax serverMax act = some s'

/-- The server's limit is `n`, and its limiter has as many permits. -/
def ServiceLimit.Enforced (l : ServiceLimit σ) (n : Nat) : Prop :=
  l.maxConcurrent = some n ∧ ∃ limiter, l.inflightLimiter = some limiter ∧ total limiter = n

/-- The client's account, the band of every number on its way, and the
server's account. -/
structure AdaptiveState.Sound (configured serverMax : Nat) (s : AdaptiveState σ) : Prop where
  client : s.client.Kept
  configured_eq : s.client.configured = configured
  flight : ∀ n ∈ s.flight, 1 ≤ n
  server : s.server.Accounted serverMax

section Runs

variable {configured clientMax serverMax : Nat} {s s' : AdaptiveState σ}

theorem AdaptiveState.Sound.step (h : s.Sound configured serverMax)
    (hmax : configured ≤ clientMax) {act : AdaptiveAct}
    (hstep : s.step clientMax serverMax act = some s') : s'.Sound configured serverMax := by
  obtain ⟨hclient, hconf, hflight, hserver⟩ := h
  cases act with
  | waited micros =>
      cases hstep
      exact ⟨⟨hclient.permits, hclient.floor, hclient.account⟩, hconf, hflight, hserver⟩
  | tick =>
      obtain ⟨client, htick, hkept, hsame⟩ := hclient.tick (hconf.symm ▸ hmax)
      simp only [AdaptiveState.step, htick, Option.map_some, Option.some.injEq] at hstep
      subst hstep
      exact ⟨hkept, hsame.trans hconf, hflight, hserver⟩
  | permit act =>
      obtain ⟨limiter, hon, rfl⟩ := Option.map_eq_some_iff.mp hstep
      exact ⟨⟨(PermitAct.total_on hon).trans hclient.permits, hclient.floor, hclient.account⟩,
        hconf, hflight, hserver⟩
  | heartbeat =>
      cases hstep
      refine ⟨hclient, hconf, fun n hn => ?_, hserver⟩
      rcases List.mem_append.mp hn with hn | hn
      · exact hflight n hn
      · rw [List.mem_singleton.mp hn]
        exact hclient.floor
  | applied =>
      unfold AdaptiveState.step at hstep
      dsimp only at hstep
      split at hstep
      · cases hstep
      · next n rest hfl =>
          obtain ⟨server, hping, rfl⟩ := Option.map_eq_some_iff.mp hstep
          refine ⟨hclient, hconf, fun m hm => ?_, accounted_step hserver hping⟩
          exact hflight m (hfl ▸ List.mem_cons_of_mem n hm)
  | served act =>
      obtain ⟨server, hon, rfl⟩ := Option.map_eq_some_iff.mp hstep
      exact ⟨hclient, hconf, hflight,
        accounted_onLimiter hserver (fun _ _ => PermitAct.total_on) hon⟩
  | reconnect =>
      cases hstep
      exact ⟨hclient, hconf, nofun, rfl⟩

theorem AdaptiveState.sound_of_reachable (hpos : 0 < configured) (hmax : configured ≤ clientMax)
    (h : (adaptiveSys σ configured clientMax serverMax).Reachable s) :
    s.Sound configured serverMax := by
  refine h.invariant (P := AdaptiveState.Sound configured serverMax) ?_ ?_
  · rintro _ rfl
    exact ⟨Adaptive.kept_new hpos, rfl, nofun, rfl⟩
  · intro s act s' _ hs hstep
    exact hs.step hmax hstep

/-- A heartbeat that finds no permit held sets the limit to its number, as far
as the first of the connection lets it. -/
theorem AdaptiveState.Sound.applied {n : Nat} {rest : List Nat}
    (h : s.Sound configured serverMax) (hflight : s.flight = n :: rest)
    (hidle : ∀ limiter, s.server.limit.inflightLimiter = some limiter → held limiter = 0) :
    ∃ s' first, s.step clientMax serverMax .applied = some s' ∧ s'.server.first = some first ∧
      s'.server.limit.Enforced (min n (min first serverMax)) := by
  have hn : 1 ≤ n := h.flight n (hflight ▸ List.mem_cons_self)
  obtain ⟨server, hping, hacc, hlimit⟩ := accounted_ping h.server (some n)
  obtain ⟨ceiling, hceiling, hmaximum⟩ := hlimit n rfl hn hidle
  obtain ⟨first, hfirst⟩ : ∃ first, server.first = some first := by
    obtain ⟨limit, -, rfl⟩ := Option.map_eq_some_iff.mp hping
    cases s.server.first with
    | some first => exact ⟨first, rfl⟩
    | none => exact ⟨n, by simp [Option.filter, Nat.pos_of_ne_zero (Nat.one_le_iff_ne_zero.mp hn)]⟩
  rw [LimiterState.Accounted, hfirst] at hacc
  obtain ⟨limiter, limit, henforces⟩ := hacc
  obtain rfl := Option.some.inj (hceiling.symm.trans henforces.ceiling_eq)
  obtain rfl := Option.some.inj (hmaximum.symm.trans henforces.limit_eq)
  refine ⟨{ s with flight := rest, server }, first, ?_, hfirst, hmaximum,
    limiter, henforces.limiter_eq, henforces.accounted⟩
  simp only [AdaptiveState.step, hflight, hping, Option.map_some]

end Runs

/-- **The band on both ends.** In every run the client's permits, free and
held, are the number it announces, between one and the configured one. A
heartbeat that the server applies while none of its permits is held sets the
enforced limit to the number announced exactly when that is no more than the
first one the connection announced, and than a semaphore may hold. -/
theorem adaptive_band_iff (σ : Type) [Permits σ] {configured clientMax serverMax : Nat}
    (hpos : 0 < configured) (hmax : configured ≤ clientMax) :
    ∀ s, (adaptiveSys σ configured clientMax serverMax).Reachable s →
      (available s.client.limiter + held s.client.limiter = s.client.announced ∧
        1 ≤ s.client.announced ∧ s.client.announced ≤ configured) ∧
      ∀ n rest, s.flight = n :: rest →
        (∀ limiter, s.server.limit.inflightLimiter = some limiter → held limiter = 0) →
        ∃ s' first, (adaptiveSys σ configured clientMax serverMax).step s .applied s' ∧
          s'.server.first = some first ∧
          (s'.server.limit.Enforced n ↔ n ≤ first ∧ n ≤ serverMax) := by
  intro s hs
  have hsound := AdaptiveState.sound_of_reachable hpos hmax hs
  have haccount := hsound.client.account
  refine ⟨⟨hsound.client.permits, hsound.client.floor, ?_⟩, fun n rest hflight hidle => ?_⟩
  · rw [← hsound.configured_eq, ← haccount]
    exact Nat.le_add_right _ _
  · obtain ⟨s', first, hstep, hfirst, henforced⟩ := hsound.applied hflight hidle
    refine ⟨s', first, hstep, hfirst, ?_⟩
    constructor
    · rintro ⟨hlimit, -⟩
      have hsame := Option.some.inj (hlimit.symm.trans henforced.1)
      omega
    · rintro ⟨hle, hmaximum⟩
      rw [Nat.min_eq_left (Nat.le_min.mpr ⟨hle, hmaximum⟩)] at henforced
      exact henforced

/-- A service of two requests whose backend falls behind while it is
reconnecting, and recovers. -/
def shrunkReconnect : List AdaptiveAct :=
  [.waited 1000000, .tick, .reconnect, .heartbeat, .applied, .waited 0, .tick, .heartbeat]

theorem adaptive_band_two :
    ∃ s, (adaptiveSys Semaphore 2 4 4).Reachable s ∧
      available s.client.limiter + held s.client.limiter = s.client.announced ∧
      ∃ s' first, (adaptiveSys Semaphore 2 4 4).step s .applied s' ∧ s'.server.first = some first ∧
        (s'.server.limit.Enforced 2 ↔ 2 ≤ first ∧ 2 ≤ 4) := by
  have hrun := @Sys.Reachable.foldlM _ _ (adaptiveSys Semaphore 2 4 4) _ _ _ (.init rfl)
    [.heartbeat] (fun _ _ _ hstep => hstep) rfl
  obtain ⟨⟨hpermits, -⟩, happlied⟩ := adaptive_band_iff Semaphore (by decide) (by decide) _ hrun
  exact ⟨_, hrun, hpermits, happlied 2 [] rfl nofun⟩

/-- The server keeps to the number of the moment it was reconnected to. -/
theorem adaptive_stuck :
    ∃ s s', (adaptiveSys Semaphore 2 4 4).Reachable s ∧ s.client.announced = 2 ∧ s.flight = [2] ∧
      (∀ limiter, s.server.limit.inflightLimiter = some limiter → held limiter = 0) ∧
      (adaptiveSys Semaphore 2 4 4).step s .applied s' ∧ s'.server.limit.maxConcurrent = some 1 := by
  have hrun := @Sys.Reachable.foldlM _ _ (adaptiveSys Semaphore 2 4 4) _ _ _ (.init rfl)
    shrunkReconnect (fun _ _ _ hstep => hstep) rfl
  refine ⟨_, _, hrun, rfl, rfl, fun limiter hlimiter => ?_, rfl, rfl⟩
  obtain rfl := Option.some.inj hlimiter
  rfl

end Aperio
