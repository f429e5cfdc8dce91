import Mathlib.Data.List.TakeWhile
import Mathlib.Logic.Function.Basic
import Aperio.Run

/-!
# The circuit breaker in front of a backend

`proxy/http/resilience.rs` of the client. A request asks the breaker
(`check`), dials, and records what came of it; it may be dropped in between
and then records nothing. Each of these takes the breaker's lock once and
reads the clock under it, so they are the steps of `breakerSys`.

The window is cleared when the probe is let through, and a request that asks
before the probe has reported is let through as well. `Probing` is a run in
which none does. Times are in nanoseconds.
-/

namespace Aperio

/-! ## The breaker -/

/-- What `Instant::now() + breaker_open_for` must stay within. -/
def instantMax : Nat := 9223372036854775808 * 1000000000 - 1

def failuresMax : Nat := 4294967295

/-- The settings of the breaker. `new` asks for a window of a second at
least. -/
structure BackendResilience where
  breakerFailures : Nat
  breakerOpenFor : Nat
  fits : breakerFailures ≤ failuresMax
  waits : 0 < breakerOpenFor

def BackendResilience.new (breakerFailures : Nat) (openForSecs : Nat)
    (h : breakerFailures ≤ failuresMax) : BackendResilience where
  breakerFailures := breakerFailures
  breakerOpenFor := max openForSecs 1 * 1000000000
  fits := h
  waits := by omega

structure BreakerState where
  failures : Nat := 0
  openUntil : Option Nat := none
deriving Repr, DecidableEq

inductive BreakerVerdict where
  | proceed
  | shut (remaining : Nat)
deriving Repr, DecidableEq

namespace BackendResilience

variable (b : BackendResilience)

def check (st : BreakerState) (now : Nat) : BreakerVerdict × BreakerState :=
  if b.breakerFailures = 0 then (.proceed, st)
  else
    match st.openUntil with
    | some until_ =>
      if until_ ≤ now then (.proceed, { st with openUntil := none })
      else (.shut (until_ - now), st)
    | none => (.proceed, st)

def recordSuccess (st : BreakerState) : BreakerState :=
  if b.breakerFailures = 0 then st else { failures := 0, openUntil := none }

/-- Whether this failure opened the breaker, and `none` when the addition of
the instants panics. The poisoned lock is taken all the same by the next. -/
def recordFailure (st : BreakerState) (now : Nat) : Option Bool × BreakerState :=
  if b.breakerFailures = 0 then (some false, st)
  else
    let st := { st with failures := min (st.failures + 1) failuresMax }
    if b.breakerFailures ≤ st.failures then
      if now + b.breakerOpenFor ≤ instantMax then
        (some st.openUntil.isNone, { st with openUntil := some (now + b.breakerOpenFor) })
      else (none, st)
    else (some false, st)

end BackendResilience

/-! ## Requests -/

/-- The breaker, the clock and the requests that were told to dial and have
not recorded anything. The rest is what happened: the outcomes recorded, the
last first, whether a failure opened the breaker since the last success, and
when requests were told to dial since then, the last first. -/
structure BreakerRun where
  breaker : BreakerState := {}
  clock : Nat := 0
  dialing : Nat → Bool := fun _ => false
  outcomes : List Bool := []
  tripped : Bool := false
  proceeded : List Nat := []

inductive BreakerAct where
  | tick (elapsed : Nat)
  | check (r : Nat)
  | succeed (r : Nat)
  | fail (r : Nat)
  /-- The request goes away without recording anything. -/
  | drop (r : Nat)
deriving Repr, DecidableEq

def BreakerRun.act (b : BackendResilience) (s : BreakerRun) : BreakerAct → Option BreakerRun
  | .tick elapsed => some { s with clock := s.clock + elapsed }
  | .check r =>
    if s.dialing r then none
    else
      match b.check s.breaker s.clock with
      | (.shut _, st) => some { s with breaker := st }
      | (.proceed, st) => some { s with
          breaker := st
          dialing := Function.update s.dialing r true
          proceeded := if s.tripped then s.clock :: s.proceeded else s.proceeded }
  | .succeed r =>
    if s.dialing r then some { s with
      breaker := b.recordSuccess s.breaker
      dialing := Function.update s.dialing r false
      outcomes := true :: s.outcomes
      tripped := false
      proceeded := [] }
    else none
  | .fail r =>
    if s.dialing r then some { s with
      breaker := (b.recordFailure s.breaker s.clock).2
      dialing := Function.update s.dialing r false
      outcomes := false :: s.outcomes
      tripped := s.tripped || (b.recordFailure s.breaker s.clock).2.openUntil.isSome }
    else none
  | .drop r =>
    if s.dialing r then some { s with dialing := Function.update s.dialing r false } else none

def breakerSys (b : BackendResilience) : Sys BreakerRun BreakerAct where
  init s := ∃ clock, s = { clock := clock }
  step s a s' := s.act b a = some s'

/-! ## What it is for -/

namespace BreakerRun

/-- From the failure that opened the breaker to the next success, no window
of `breaker_open_for` has two requests that were told to dial. -/
def OneProbe (b : BackendResilience) (s : BreakerRun) : Prop :=
  ∀ start, (s.proceeded.filter fun t =>
    decide (start ≤ t) && decide (t < start + b.breakerOpenFor)).length ≤ 1

/-- The breaker is open only after `breaker_failures` failures in a row. -/
def OpenAfterFailures (b : BackendResilience) (s : BreakerRun) : Prop :=
  s.breaker.openUntil.isSome = true →
    b.breakerFailures ≤ s.outcomes.length ∧
      ∀ outcome ∈ s.outcomes.take b.breakerFailures, outcome = false

/-- What the steps of a run must meet: no request asks while a breaker that
was opened waits for its probe, that is between the check that cleared the
window and the next outcome. -/
def Probing (s : BreakerRun) (a : BreakerAct) (_ : BreakerRun) : Prop :=
  match a with
  | .check _ => s.tripped = true → s.breaker.openUntil ≠ none
  | _ => True

end BreakerRun

/-! ## The count of failures -/

namespace BackendResilience

variable {b : BackendResilience} {st : BreakerState} {now : Nat}

/-- What a check that lets the request through leaves. -/
theorem check_proceed (h : (b.check st now).1 = .proceed) :
    (b.check st now).2 = st ∧ (b.breakerFailures = 0 ∨ st.openUntil = none) ∨
      ∃ until_, st.openUntil = some until_ ∧ until_ ≤ now ∧
        (b.check st now).2 = { st with openUntil := none } := by
  unfold check at h ⊢
  split
  · rename_i hzero
    exact Or.inl ⟨rfl, Or.inl hzero⟩
  · rename_i hzero
    rw [if_neg hzero] at h
    cases hopen : st.openUntil with
    | none => exact Or.inl ⟨rfl, Or.inr rfl⟩
    | some until_ =>
        simp only [hopen] at h ⊢
        by_cases hdue : until_ ≤ now
        · rw [if_pos hdue]
          exact Or.inr ⟨until_, rfl, hdue, rfl⟩
        · rw [if_neg hdue] at h
          cases h

theorem check_shut {remaining : Nat} (h : (b.check st now).1 = .shut remaining) :
    (b.check st now).2 = st := by
  unfold check at h ⊢
  split
  · rfl
  · rename_i hzero
    rw [if_neg hzero] at h
    cases hopen : st.openUntil with
    | none => rfl
    | some until_ =>
        simp only [hopen] at h ⊢
        by_cases hdue : until_ ≤ now
        · rw [if_pos hdue] at h
          cases h
        · rw [if_neg hdue]

/-- What a failure leaves: a new window, or the window there was. -/
theorem recordFailure_cases (b : BackendResilience) (st : BreakerState) (now : Nat) :
    (b.recordFailure st now).2.failures ≤ st.failures + 1 ∧
      (b.breakerFailures ≤ st.failures → b.breakerFailures ≤ (b.recordFailure st now).2.failures) ∧
      ((b.recordFailure st now).2.openUntil = some (now + b.breakerOpenFor) ∧
          b.breakerFailures ≤ (b.recordFailure st now).2.failures ∨
        (b.recordFailure st now).2.openUntil = st.openUntil) := by
  have hfits := b.fits
  unfold recordFailure
  by_cases hzero : b.breakerFailures = 0
  · rw [if_pos hzero]
    exact ⟨Nat.le_succ _, id, Or.inr rfl⟩
  · rw [if_neg hzero]
    simp only
    have hcount : min (st.failures + 1) failuresMax ≤ st.failures + 1 := Nat.min_le_left ..
    have hkept : b.breakerFailures ≤ st.failures →
        b.breakerFailures ≤ min (st.failures + 1) failuresMax := by
      intro hmany
      exact Nat.le_min.mpr ⟨Nat.le_succ_of_le hmany, hfits⟩
    by_cases hmany : b.breakerFailures ≤ min (st.failures + 1) failuresMax
    · rw [if_pos hmany]
      by_cases hclock : now + b.breakerOpenFor ≤ instantMax
      · rw [if_pos hclock]
        exact ⟨hcount, hkept, Or.inl ⟨rfl, hmany⟩⟩
      · rw [if_neg hclock]
        exact ⟨hcount, hkept, Or.inr rfl⟩
    · rw [if_neg hmany]
      exact ⟨hcount, hkept, Or.inr rfl⟩

theorem recordSuccess_openUntil (h : st.openUntil.isSome = true → b.breakerFailures ≠ 0) :
    (b.recordSuccess st).openUntil = none := by
  unfold recordSuccess
  split
  · rename_i hzero
    cases hopen : st.openUntil with
    | none => rfl
    | some until_ =>
        rw [hopen] at h
        exact absurd hzero (h rfl)
  · rfl

end BackendResilience

/-! ## Every step -/

namespace BreakerRun

variable {b : BackendResilience} {s s' : BreakerRun} {a : BreakerAct}

/-- What every run keeps: the failures counted were recorded since the last
success, and the breaker is open only with enough of them. -/
structure Counted (b : BackendResilience) (s : BreakerRun) : Prop where
  counted : b.breakerFailures ≠ 0 →
    s.breaker.failures ≤ (s.outcomes.takeWhile (! ·)).length
  many : s.breaker.openUntil.isSome = true →
    b.breakerFailures ≠ 0 ∧ b.breakerFailures ≤ s.breaker.failures

/-- What a run of one probe at a time keeps beside that. -/
structure Spaced (b : BackendResilience) (s : BreakerRun) : Prop where
  tripped : s.breaker.openUntil.isSome = true → s.tripped = true
  enabled : s.tripped = true → b.breakerFailures ≠ 0
  past : ∀ t ∈ s.proceeded, t ≤ s.clock
  apart : s.proceeded.Pairwise fun later earlier => earlier + b.breakerOpenFor ≤ later
  next : ∀ until_, s.breaker.openUntil = some until_ →
    ∀ t ∈ s.proceeded, t + b.breakerOpenFor ≤ until_

/-- What a step can do, the breaker's own part of it spelled out. -/
theorem act_cases (h : s.act b a = some s') :
    (∃ elapsed, s' = { s with clock := s.clock + elapsed }) ∨
    (∃ r dialing, a = .check r ∧ s' = { s with
      dialing := dialing
      proceeded := if s.tripped then s.clock :: s.proceeded else s.proceeded } ∧
      (b.breakerFailures = 0 ∨ s.breaker.openUntil = none)) ∨
    (∃ until_ dialing, s.breaker.openUntil = some until_ ∧ until_ ≤ s.clock ∧ s' = { s with
      breaker := { s.breaker with openUntil := none }
      dialing := dialing
      proceeded := if s.tripped then s.clock :: s.proceeded else s.proceeded }) ∨
    (∃ dialing, s' = { s with dialing := dialing }) ∨
    (∃ dialing, s' = { s with
      breaker := b.recordSuccess s.breaker
      dialing := dialing
      outcomes := true :: s.outcomes
      tripped := false
      proceeded := [] }) ∨
    ∃ dialing, s' = { s with
      breaker := (b.recordFailure s.breaker s.clock).2
      dialing := dialing
      outcomes := false :: s.outcomes
      tripped := s.tripped || (b.recordFailure s.breaker s.clock).2.openUntil.isSome } := by
  cases a with
  | tick elapsed => exact Or.inl ⟨elapsed, (Option.some.inj h).symm⟩
  | check r =>
      simp only [act] at h
      split at h
      · cases h
      · split at h
        · rename_i remaining st hcheck
          have hsame := b.check_shut (congrArg Prod.fst hcheck)
          rw [hcheck] at hsame
          obtain rfl := Option.some.inj h
          refine Or.inr (Or.inr (Or.inr (Or.inl ⟨s.dialing, ?_⟩)))
          rw [show st = s.breaker from hsame]
        · rename_i st hcheck
          obtain rfl := Option.some.inj h
          rcases b.check_proceed (congrArg Prod.fst hcheck) with ⟨hsame, hfree⟩ | hprobe
          · rw [hcheck] at hsame
            refine Or.inr (Or.inl ⟨r, Function.update s.dialing r true, rfl, ?_, hfree⟩)
            rw [show st = s.breaker from hsame]
          · obtain ⟨until_, hopen, hdue, hst⟩ := hprobe
            rw [hcheck] at hst
            refine Or.inr (Or.inr (Or.inl
              ⟨until_, Function.update s.dialing r true, hopen, hdue, ?_⟩))
            rw [show st = _ from hst]
  | succeed r =>
      simp only [act] at h
      split at h
      · exact Or.inr (Or.inr (Or.inr (Or.inr (Or.inl ⟨_, (Option.some.inj h).symm⟩))))
      · cases h
  | fail r =>
      simp only [act] at h
      split at h
      · exact Or.inr (Or.inr (Or.inr (Or.inr (Or.inr ⟨_, (Option.some.inj h).symm⟩))))
      · cases h
  | drop r =>
      simp only [act] at h
      split at h
      · exact Or.inr (Or.inr (Or.inr (Or.inl ⟨_, (Option.some.inj h).symm⟩)))
      · cases h

theorem Counted.step (h : s.Counted b) (hstep : s.act b a = some s') : s'.Counted b := by
  rcases act_cases hstep with ⟨_, rfl⟩ | ⟨_, _, _, rfl, _⟩ | ⟨until_, _, hopen, _, rfl⟩ | ⟨_, rfl⟩ |
    ⟨_, rfl⟩ | ⟨_, rfl⟩
  · exact ⟨h.counted, h.many⟩
  · exact ⟨h.counted, h.many⟩
  · exact ⟨h.counted, fun hsome => by cases hsome⟩
  · exact ⟨h.counted, h.many⟩
  · refine ⟨fun hon => ?_, fun hsome => ?_⟩
    · simp only [BackendResilience.recordSuccess, if_neg hon]
      exact Nat.zero_le _
    · rw [b.recordSuccess_openUntil fun hopen => (h.many hopen).1] at hsome
      cases hsome
  · obtain ⟨hcount, hkept, hwindow⟩ := b.recordFailure_cases s.breaker s.clock
    refine ⟨fun hon => ?_, fun hsome => ?_⟩
    · rw [List.takeWhile_cons_of_pos rfl, List.length_cons]
      exact Nat.le_trans hcount (Nat.succ_le_succ (h.counted hon))
    · rcases hwindow with ⟨-, hmany⟩ | hsame
      · refine ⟨?_, hmany⟩
        intro hzero
        have hthere : s.breaker.openUntil.isSome = true := by
          simp only [BackendResilience.recordFailure, if_pos hzero] at hsome
          exact hsome
        exact (h.many hthere).1 hzero
      · rw [hsame] at hsome
        exact ⟨(h.many hsome).1, hkept (h.many hsome).2⟩

theorem Counted.openAfterFailures (h : s.Counted b) : s.OpenAfterFailures b := by
  intro hopen
  obtain ⟨hon, hmany⟩ := h.many hopen
  have hrun : b.breakerFailures ≤ (s.outcomes.takeWhile (! ·)).length :=
    Nat.le_trans hmany (h.counted hon)
  have hfirst : s.outcomes.takeWhile (! ·) <+: s.outcomes := List.takeWhile_prefix _
  refine ⟨Nat.le_trans hrun hfirst.length_le, ?_⟩
  intro outcome hmem
  have htake : s.outcomes.take b.breakerFailures <+: s.outcomes.takeWhile (! ·) :=
    List.prefix_of_prefix_length_le (List.take_prefix _ _) hfirst
      (Nat.le_trans (List.length_take_le _ _) hrun)
  simpa using List.mem_takeWhile_imp (htake.subset hmem)

theorem Spaced.step (h : s.Spaced b) (hstep : s.act b a = some s') (hprobing : s.Probing a s') :
    s'.Spaced b := by
  rcases act_cases hstep with ⟨elapsed, rfl⟩ | ⟨r, _, rfl, rfl, hfree⟩ |
    ⟨until_, _, hopen, hdue, rfl⟩ | ⟨_, rfl⟩ | ⟨_, rfl⟩ | ⟨_, rfl⟩
  · exact ⟨h.tripped, h.enabled, fun t ht => Nat.le_trans (h.past t ht) (Nat.le_add_right _ _), h.apart,
      h.next⟩
  · -- with the window cleared nobody asks, so the breaker was never opened
    have huntripped : s.tripped ≠ true := by
      intro htripped
      rcases hfree with hzero | hnone
      · exact h.enabled htripped hzero
      · exact hprobing htripped hnone
    simp only [if_neg huntripped]
    exact ⟨h.tripped, h.enabled, h.past, h.apart, h.next⟩
  · have htripped : s.tripped = true := h.tripped (by rw [hopen]; rfl)
    simp only [if_pos htripped]
    refine ⟨fun hsome => (by cases hsome), h.enabled, ?_, ?_, fun _ hsome => (by cases hsome)⟩
    · intro t ht
      rcases List.mem_cons.mp ht with rfl | hold
      · exact Nat.le_refl _
      · exact h.past t hold
    · refine List.pairwise_cons.mpr ⟨fun t ht => ?_, h.apart⟩
      exact Nat.le_trans (h.next until_ hopen t ht) hdue
  · exact ⟨h.tripped, h.enabled, h.past, h.apart, h.next⟩
  · refine ⟨fun hsome => ?_, fun htripped => (by cases htripped),
      fun t ht => absurd ht List.not_mem_nil, List.Pairwise.nil,
      fun _ _ t ht => absurd ht List.not_mem_nil⟩
    rw [b.recordSuccess_openUntil fun hopen => h.enabled (h.tripped hopen)] at hsome
    cases hsome
  · obtain ⟨-, -, hwindow⟩ := b.recordFailure_cases s.breaker s.clock
    refine ⟨fun hsome => ?_, fun htripped => ?_, h.past, h.apart, ?_⟩
    · simp only at hsome
      simp only [hsome, Bool.or_true]
    · rcases Bool.or_eq_true_iff.mp htripped with hbefore | hopened
      · exact h.enabled hbefore
      · intro hzero
        simp only [BackendResilience.recordFailure, if_pos hzero] at hopened
        exact h.enabled (h.tripped hopened) hzero
    · intro until_ huntil t ht
      rcases hwindow with ⟨hnew, -⟩ | hsame
      · obtain rfl := Option.some.inj (hnew.symm.trans huntil)
        exact Nat.add_le_add_right (h.past t ht) _
      · exact h.next until_ (hsame.symm.trans huntil) t ht

/-- Two that are a window apart are not in one window. -/
theorem Spaced.oneProbe (h : s.Spaced b) : s.OneProbe b := by
  intro start
  have hapart := h.apart.sublist (List.filter_sublist (p := fun t =>
    decide (start ≤ t) && decide (t < start + b.breakerOpenFor)))
  have hwithin : ∀ t ∈ s.proceeded.filter (fun t =>
      decide (start ≤ t) && decide (t < start + b.breakerOpenFor)),
      start ≤ t ∧ t < start + b.breakerOpenFor := by
    intro t ht
    simpa using (List.mem_filter.mp ht).2
  generalize s.proceeded.filter _ = window at hapart hwithin
  rcases window with _ | ⟨later, _ | ⟨earlier, rest⟩⟩
  · exact Nat.zero_le _
  · exact Nat.le_refl _
  · have hgap := (List.pairwise_cons.mp hapart).1 earlier List.mem_cons_self
    have hlater := hwithin later List.mem_cons_self
    have hearlier := hwithin earlier (List.mem_cons_of_mem _ List.mem_cons_self)
    omega

end BreakerRun

/-- **The breaker**: open only after `breaker_failures` failures in a row, and
in every run in which nobody asks while a probe is out, one probe a window. -/
theorem breaker_probes {b : BackendResilience} {s : BreakerRun} (h : (breakerSys b).Reachable s) :
    s.OpenAfterFailures b ∧
      (((breakerSys b).restrict BreakerRun.Probing).Reachable s → s.OneProbe b) := by
  constructor
  · have hcounted : s.Counted b := by
      refine h.invariant ?_ fun s a s' _ hcounted hstep => hcounted.step hstep
      rintro s ⟨clock, rfl⟩
      exact ⟨fun _ => Nat.zero_le _, fun hsome => by cases hsome⟩
    exact hcounted.openAfterFailures
  · intro hprobing
    have hspaced : s.Spaced b := by
      refine hprobing.invariant ?_ fun s a s' _ hspaced hstep => hspaced.step hstep.1 hstep.2
      rintro s ⟨clock, rfl⟩
      exact ⟨fun hsome => (by cases hsome), fun htripped => (by cases htripped),
        fun t ht => absurd ht List.not_mem_nil, List.Pairwise.nil, fun _ hsome => (by cases hsome)⟩
    exact hspaced.oneProbe

/-! ## A probe, and a crowd -/

namespace BreakerRun

/-- One failure opens it, for a second. -/
def oneSecond : BackendResilience := .new 1 1 (by decide)

/-- A request fails, a second passes, and the next one probes. -/
theorem probed_reachable {c : BreakerRun → BreakerAct → BreakerRun → Prop}
    (hc : ∀ s a s', Probing s a s' → c s a s') :
    ∃ s, ((breakerSys oneSecond).restrict c).Reachable s ∧ s.tripped = true ∧
      s.breaker.openUntil = none ∧ s.clock = 1000000000 ∧ s.proceeded = [1000000000] ∧
      s.dialing = Function.update (Function.update (Function.update (fun _ => false) 0 true) 0 false)
        1 true := by
  have h₀ : ((breakerSys oneSecond).restrict c).Reachable {} := .init ⟨0, rfl⟩
  have h₁ := h₀.step ⟨show BreakerRun.act _ _ (.check 0) = some _ from rfl, hc _ _ _ fun h => by cases h⟩
  have h₂ := h₁.step ⟨show BreakerRun.act _ _ (.fail 0) = some _ from rfl, hc _ _ _ trivial⟩
  have h₃ := h₂.step ⟨show BreakerRun.act _ _ (.tick 1000000000) = some _ from rfl,
    hc _ _ _ trivial⟩
  have h₄ := h₃.step ⟨show BreakerRun.act _ _ (.check 1) = some _ from rfl,
    hc _ _ _ fun _ h => by cases h⟩
  exact ⟨_, h₄, rfl, rfl, rfl, rfl, rfl⟩

end BreakerRun

/-- A failure, and one probe. -/
theorem breaker_probes_once : ∃ s : BreakerRun, s.tripped = true ∧ s.proceeded = [1000000000] ∧
    s.OpenAfterFailures BreakerRun.oneSecond ∧ s.OneProbe BreakerRun.oneSecond := by
  obtain ⟨s, hs, htripped, -, -, hproceeded, -⟩ :=
    BreakerRun.probed_reachable (c := BreakerRun.Probing) fun _ _ _ => id
  obtain ⟨hopen, hprobe⟩ := breaker_probes hs.of_restrict
  exact ⟨s, htripped, hproceeded, hopen, hprobe hs⟩

/-- While the probe is out, every request that asks is told to dial. -/
theorem probe_lets_others_in : ∃ s, (breakerSys BreakerRun.oneSecond).Reachable s ∧
    s.tripped = true ∧ s.proceeded = [1000000000, 1000000000] ∧
    ¬s.OneProbe BreakerRun.oneSecond := by
  obtain ⟨s, hs, htripped, hopen, hclock, hproceeded, hdialing⟩ :=
    BreakerRun.probed_reachable (c := fun _ _ _ => True) fun _ _ _ _ => trivial
  have hcheck : s.act BreakerRun.oneSecond (.check 2) = some { s with
      dialing := Function.update s.dialing 2 true
      proceeded := [1000000000, 1000000000] } := by
    have hfree : s.dialing 2 = false := by rw [hdialing]; rfl
    have hproceed : ∀ now, BreakerRun.oneSecond.check s.breaker now = (.proceed, s.breaker) := by
      intro now
      simp [BackendResilience.check, hopen]
    simp only [BreakerRun.act, hfree, hproceed, htripped, hclock, hproceeded]
    rfl
  refine ⟨_, hs.of_restrict.step hcheck, htripped, rfl, fun hone => ?_⟩
  have htwo : ¬([1000000000, 1000000000].filter fun t => decide (1000000000 ≤ t) &&
      decide (t < 1000000000 + BreakerRun.oneSecond.breakerOpenFor)).length ≤ 1 := by decide
  exact htwo (hone 1000000000)

end Aperio
