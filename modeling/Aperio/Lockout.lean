import Aperio.Run
import Mathlib.Data.List.AList
import Mathlib.Order.Basic

/-!
# The lockout of failed logins

`LockoutTracker` keeps one entry for an address: the failures counted since it
was last let off, the lockouts it has had, and until when it is locked out. An
attempt checks the entry before its credentials are looked at and records the
outcome afterwards, each under the lock and with other attempts in between.

`LockoutRun` is any run of checks, failures and successes of any number of
addresses, with what each of them answered. What an address is answered depends
on its own part of the run alone (`lockout_run`): `lockEnd`, `countedFailures`
and `lockoutsHad` read it off. Entries are dropped when the table is long, which
forgets failures and lockouts that are over, and never one that is in force.
A lockout ends at most an hour on, and the clock is taken to be that far from
its last instant.
-/

namespace Aperio

/-! ## The tracker -/

/-- A second. Instants and windows are in nanoseconds. -/
def lockoutSecond : Nat := 1000000000

/-- `LOCKOUT_MAX`. -/
def lockoutMax : Nat := 3600 * lockoutSecond

/-- How long an entry is kept that nothing happens to. -/
def lockoutKept : Nat := 24 * 3600 * lockoutSecond

/-- `Duration::MAX`. -/
def maxDuration : Nat := 18446744073709551615 * lockoutSecond + 999999999

/-- `u32::MAX`. -/
def u32Max : Nat := 4294967295

structure LoginFailures where
  consecutive : Nat
  lockouts : Nat
  lockedUntil : Option Nat
  lastSeen : Nat
deriving Repr, DecidableEq

structure LockoutTracker (Ip : Type) where
  threshold : Nat
  base : Nat
  map : AList fun _ : Ip => LoginFailures

variable {Ip : Type} [DecidableEq Ip]

namespace LockoutTracker

/-- `new`. -/
def start (threshold : UInt32) (base : Nat) : LockoutTracker Ip where
  threshold := max threshold.toNat 1
  base := max base lockoutSecond
  map := ∅

def setPolicy (t : LockoutTracker Ip) (threshold : UInt32) (base : Nat) : LockoutTracker Ip :=
  { t with threshold := max threshold.toNat 1, base := max base lockoutSecond }

/-- The check: how long an address is still locked out. -/
def locked (t : LockoutTracker Ip) (ip : Ip) (now : Nat) : LockoutTracker Ip × Option Nat :=
  match t.map.lookup ip with
  | none => (t, none)
  | some entry =>
    match entry.lockedUntil with
    | some ends =>
      if now < ends then (t, some (ends - now))
      else
        -- the lockout is served, and its address starts from zero
        ({ t with map := t.map.insert ip { entry with lockedUntil := none, consecutive := 0 } },
          none)
    | none => (t, none)

/-- An entry outlives a collection. -/
def keeps (t : LockoutTracker Ip) (now : Nat) (entry : LoginFailures) : Bool :=
  decide (t.map.entries.length ≤ 1024) || decide (now - entry.lastSeen < lockoutKept)

def gc (t : LockoutTracker Ip) (now : Nat) : LockoutTracker Ip :=
  { t with
    map := ⟨t.map.entries.filter fun e => t.keeps now e.2,
      t.map.nodupKeys.sublist List.filter_sublist⟩ }

/-- The addresses a collection drops. -/
def dropped (t : LockoutTracker Ip) (now : Nat) : List Ip :=
  (t.map.entries.filter fun e => !t.keeps now e.2).map (·.1)

def freshEntry (now : Nat) : LoginFailures :=
  { consecutive := 0, lockouts := 0, lockedUntil := none, lastSeen := now }

/-- `record_failure`, and the window of the lockout it begins. Nothing where a
count would overflow. -/
def recordFailure (t : LockoutTracker Ip) (ip : Ip) (now : Nat) :
    Option (LockoutTracker Ip × Option Nat) :=
  let t := t.gc now
  let entry := (t.map.lookup ip).getD (freshEntry now)
  if u32Max ≤ entry.consecutive then none
  else
    let entry := { entry with consecutive := entry.consecutive + 1, lastSeen := now }
    if entry.consecutive < t.threshold then
      some ({ t with map := t.map.insert ip entry }, none)
    else
      let lockouts := min (entry.lockouts + 1) u32Max
      let factor := 1 <<< min (lockouts - 1) 16
      let window := min (min (t.base * factor) maxDuration) lockoutMax
      some ({ t with
        map := t.map.insert ip
          { entry with
            consecutive := 0, lockouts := lockouts, lockedUntil := some (now + window) } },
        some window)

/-- `clear`, on a success. -/
def clear (t : LockoutTracker Ip) (ip : Ip) : LockoutTracker Ip :=
  { t with map := t.map.erase ip }

end LockoutTracker

/-! ## What a run has seen -/

/-- One thing that happened, with what was answered. An attempt that passes its
check has its credentials looked at. -/
inductive LockoutEvent (Ip : Type) where
  | refused (ip : Ip) (now remaining : Nat)
  | passed (attempt : Nat) (ip : Ip) (now : Nat)
  | swept (ips : List Ip) (now : Nat)
  | failed (attempt : Nat) (ip : Ip) (now : Nat) (window : Option Nat)
  | succeeded (attempt : Nat) (ip : Ip)
  | policy (threshold base : Nat)
deriving Repr, DecidableEq

/-- When an address' lockout ends: its latest one, unless a success, a
collection or a check that let the address through came after it. The run is
given newest first. -/
def lockEnd (ip : Ip) : List (LockoutEvent Ip) → Option Nat
  | [] => none
  | .failed _ a now (some window) :: past =>
    if a = ip then some (now + window) else lockEnd ip past
  | .passed _ a _ :: past => if a = ip then none else lockEnd ip past
  | .succeeded _ a :: past => if a = ip then none else lockEnd ip past
  | .swept ips _ :: past => if ip ∈ ips then none else lockEnd ip past
  | _ :: past => lockEnd ip past

/-- The failures of an address since its latest success, collection, lockout or
check that found a lockout served. -/
def countedFailures (ip : Ip) : List (LockoutEvent Ip) → Nat
  | [] => 0
  | .failed _ a _ none :: past =>
    if a = ip then countedFailures ip past + 1 else countedFailures ip past
  | .failed _ a _ (some _) :: past => if a = ip then 0 else countedFailures ip past
  | .passed _ a _ :: past =>
    if a = ip ∧ (lockEnd ip past).isSome then 0 else countedFailures ip past
  | .succeeded _ a :: past => if a = ip then 0 else countedFailures ip past
  | .swept ips _ :: past => if ip ∈ ips then 0 else countedFailures ip past
  | _ :: past => countedFailures ip past

/-- The lockouts of an address since its latest success or collection. -/
def lockoutsHad (ip : Ip) : List (LockoutEvent Ip) → Nat
  | [] => 0
  | .failed _ a _ (some _) :: past =>
    if a = ip then lockoutsHad ip past + 1 else lockoutsHad ip past
  | .succeeded _ a :: past => if a = ip then 0 else lockoutsHad ip past
  | .swept ips _ :: past => if ip ∈ ips then 0 else lockoutsHad ip past
  | _ :: past => lockoutsHad ip past

/-- The threshold and the base in force. -/
def policyOf (start : Nat × Nat) : List (LockoutEvent Ip) → Nat × Nat
  | [] => start
  | .policy threshold base :: _ => (threshold, base)
  | _ :: past => policyOf start past

/-- The window of an address' k-th lockout: the base, doubled with each one
before it, up to the cap. -/
def windowOf (base k : Nat) : Nat :=
  min (base * 1 <<< min (k - 1) 16) lockoutMax

/-- What an event answers is what the run before it calls for. -/
def LockoutEvent.Right (start : Nat × Nat) (past : List (LockoutEvent Ip)) :
    LockoutEvent Ip → Prop
  | .refused ip now remaining =>
    ∃ ends, lockEnd ip past = some ends ∧ now < ends ∧ remaining = ends - now
  | .passed _ ip now => ∀ ends, lockEnd ip past = some ends → ends ≤ now
  | .swept ips now => ∀ ip ∈ ips, ∀ ends, lockEnd ip past = some ends → ends ≤ now
  | .failed attempt ip now window =>
    (∃ checked ≤ now, .passed attempt ip checked ∈ past) ∧
      window = if countedFailures ip past + 1 < (policyOf start past).1 then none
        else some (windowOf (policyOf start past).2 (lockoutsHad ip past + 1))
  | .succeeded attempt ip => ∃ checked, .passed attempt ip checked ∈ past
  | .policy _ _ => True

/-- Every event of a run is right. -/
def RightRun (start : Nat × Nat) : List (LockoutEvent Ip) → Prop
  | [] => True
  | e :: past => e.Right start past ∧ RightRun start past

/-! ## Runs -/

structure LockoutRun (Ip : Type) where
  tracker : LockoutTracker Ip
  clock : Nat := 0
  pending : List (Nat × Ip) := []
  log : List (LockoutEvent Ip) := []

inductive LockoutAct (Ip : Type) where
  | check (attempt : Nat) (ip : Ip) (now : Nat)
  | fail (attempt : Nat) (ip : Ip) (now : Nat)
  | succeed (attempt : Nat) (ip : Ip)
  | setPolicy (threshold : UInt32) (base : Nat)

/-- One lock region. The clock is read under the lock, so it does not go
back. -/
def LockoutRun.act (s : LockoutRun Ip) : LockoutAct Ip → Option (LockoutRun Ip)
  | .check attempt ip now =>
    if now < s.clock then none
    else
      match s.tracker.locked ip now with
      | (t, some remaining) =>
        some { s with tracker := t, clock := now, log := .refused ip now remaining :: s.log }
      | (t, none) =>
        some { tracker := t, clock := now, pending := (attempt, ip) :: s.pending
               log := .passed attempt ip now :: s.log }
  | .fail attempt ip now =>
    if now < s.clock ∨ (attempt, ip) ∉ s.pending then none
    else
      (s.tracker.recordFailure ip now).map fun (t, window) =>
        { tracker := t, clock := now, pending := s.pending.erase (attempt, ip)
          log := .failed attempt ip now window :: .swept (s.tracker.dropped now) now :: s.log }
  | .succeed attempt ip =>
    if (attempt, ip) ∉ s.pending then none
    else
      some { s with tracker := s.tracker.clear ip, pending := s.pending.erase (attempt, ip)
                    log := .succeeded attempt ip :: s.log }
  | .setPolicy threshold base =>
    let t := s.tracker.setPolicy threshold base
    some { s with tracker := t, log := .policy t.threshold t.base :: s.log }

def lockoutSys (Ip : Type) [DecidableEq Ip] (threshold : UInt32) (base : Nat) :
    Sys (LockoutRun Ip) (LockoutAct Ip) where
  init s := s = { tracker := .start threshold base }
  step s a s' := s.act a = some s'

/-- What the lockout keeps to, in a state of a run. -/
structure LockoutRun.Right (start : Nat × Nat) (s : LockoutRun Ip) : Prop where
  log : RightRun start s.log
  /-- An address is locked out while its latest lockout lasts. -/
  answers : ∀ ip now remaining, (s.tracker.locked ip now).2 = some remaining ↔
    ∃ ends, lockEnd ip s.log = some ends ∧ now < ends ∧ remaining = ends - now
  /-- A collection changes no answer. -/
  sweeps : ∀ ip now later, now ≤ later →
    ((s.tracker.gc now).locked ip later).2 = (s.tracker.locked ip later).2
  /-- No count overflows. -/
  fits : ∀ ip now, (s.tracker.recordFailure ip now).isSome

/-! ## An entry and its address' part of the run -/

/-- What an entry holds of a run. -/
structure Recalls (entry : Option LoginFailures) (ip : Ip) (log : List (LockoutEvent Ip)) :
    Prop where
  lockEnd : lockEnd ip log = entry.bind (·.lockedUntil)
  counted : countedFailures ip log = (entry.map (·.consecutive)).getD 0
  lockouts : (entry.map (·.lockouts)).getD 0 = min (lockoutsHad ip log) u32Max

theorem u32Max_pos : 0 < u32Max := by decide

/-- What no entry gets past. -/
structure LoginFailures.Bounded (clock : Nat) (entry : LoginFailures) : Prop where
  seen : entry.lastSeen ≤ clock
  fits : entry.consecutive < u32Max
  window : ∀ ends, entry.lockedUntil = some ends → ends ≤ entry.lastSeen + lockoutMax

theorem LoginFailures.Bounded.unlocked {clock : Nat} {e : LoginFailures}
    (hseen : e.lastSeen ≤ clock) (hfits : e.consecutive < u32Max)
    (hopen : e.lockedUntil = none) : e.Bounded clock := by
  refine ⟨hseen, hfits, ?_⟩
  intro ends hends
  rw [hopen] at hends
  cases hends

structure LockoutRun.Sound (start : Nat × Nat) (s : LockoutRun Ip) : Prop where
  recalls : ∀ ip, Recalls (s.tracker.map.lookup ip) ip s.log
  bounded : ∀ ip entry, s.tracker.map.lookup ip = some entry →
    entry.Bounded s.clock
  policy : policyOf start s.log = (s.tracker.threshold, s.tracker.base)
  threshold : s.tracker.threshold ≤ u32Max
  pending : ∀ p ∈ s.pending, ∃ checked ≤ s.clock, .passed p.1 p.2 checked ∈ s.log
  log : RightRun start s.log

variable {start : Nat × Nat} {s s' : LockoutRun Ip} {t : LockoutTracker Ip} {ip other : Ip}
  {now : Nat} {log : List (LockoutEvent Ip)} {entry : Option LoginFailures} {a : LockoutAct Ip}

/-- An event of another address changes nothing for this one. -/
def LockoutEvent.Apart (ip : Ip) : LockoutEvent Ip → Prop
  | .refused _ _ _ => True
  | .passed _ a _ => a ≠ ip
  | .swept ips _ => ip ∉ ips
  | .failed _ a _ _ => a ≠ ip
  | .succeeded _ a => a ≠ ip
  | .policy _ _ => True

theorem LockoutEvent.Apart.same {e : LockoutEvent Ip} (he : e.Apart ip)
    (log : List (LockoutEvent Ip)) : lockEnd ip (e :: log) = lockEnd ip log ∧
      countedFailures ip (e :: log) = countedFailures ip log ∧
      lockoutsHad ip (e :: log) = lockoutsHad ip log := by
  cases e with
  | refused a now remaining => exact ⟨rfl, rfl, rfl⟩
  | passed attempt a now =>
      have hne : a ≠ ip := he
      simp [lockEnd, countedFailures, lockoutsHad, hne]
  | swept ips now =>
      have hne : ip ∉ ips := he
      simp [lockEnd, countedFailures, lockoutsHad, hne]
  | failed attempt a now window =>
      have hne : a ≠ ip := he
      cases window with
      | none => simp [lockEnd, countedFailures, lockoutsHad, hne]
      | some window => simp [lockEnd, countedFailures, lockoutsHad, hne]
  | succeeded attempt a =>
      have hne : a ≠ ip := he
      simp [lockEnd, countedFailures, lockoutsHad, hne]
  | policy threshold base => exact ⟨rfl, rfl, rfl⟩

theorem Recalls.apart {e : LockoutEvent Ip} (h : Recalls entry ip log) (he : e.Apart ip) :
    Recalls entry ip (e :: log) := by
  obtain ⟨hend, hcounted, hhad⟩ := he.same log
  refine ⟨hend.trans h.lockEnd, hcounted.trans h.counted, ?_⟩
  rw [hhad]
  exact h.lockouts

/-- An address that has been let off. -/
theorem Recalls.forgotten {e : LockoutEvent Ip}
    (he : (∃ attempt, e = .succeeded attempt ip) ∨ ∃ ips now, e = .swept ips now ∧ ip ∈ ips) :
    Recalls none ip (e :: log) := by
  rcases he with ⟨attempt, rfl⟩ | ⟨ips, now, rfl, hmem⟩
  · constructor <;> simp [Aperio.lockEnd, countedFailures, lockoutsHad]
  · constructor <;> simp [Aperio.lockEnd, countedFailures, lockoutsHad, hmem]

/-! ## Collections -/

theorem lookup_gc (t : LockoutTracker Ip) (ip : Ip) (now : Nat) :
    (t.gc now).map.lookup ip = (t.map.lookup ip).filter (t.keeps now) := by
  refine Option.ext fun e => ?_
  rw [Option.filter_eq_some_iff, ← Option.mem_def, ← Option.mem_def, AList.mem_lookup_iff,
    AList.mem_lookup_iff]
  exact List.mem_filter

theorem mem_dropped : ip ∈ t.dropped now ↔
    ∃ e, t.map.lookup ip = some e ∧ t.keeps now e = false := by
  simp only [LockoutTracker.dropped, List.mem_map, List.mem_filter, Bool.not_eq_true']
  constructor
  · rintro ⟨⟨own, e⟩, ⟨hmem, hdropped⟩, rfl⟩
    exact ⟨e, AList.mem_lookup_iff.mpr hmem, hdropped⟩
  · rintro ⟨e, hlookup, hdropped⟩
    exact ⟨⟨ip, e⟩, ⟨AList.mem_lookup_iff.mp hlookup, hdropped⟩, rfl⟩

/-- A collection forgets what it drops and nothing else. -/
theorem Recalls.collected (h : Recalls (t.map.lookup ip) ip log) (now : Nat) :
    Recalls ((t.gc now).map.lookup ip) ip (.swept (t.dropped now) now :: log) := by
  rw [lookup_gc]
  by_cases hmem : ip ∈ t.dropped now
  · obtain ⟨e, hlookup, hdropped⟩ := mem_dropped.mp hmem
    rw [hlookup, Option.filter_some_neg (by simp [hdropped])]
    exact .forgotten (Or.inr ⟨_, now, rfl, hmem⟩)
  · have hkept : (t.map.lookup ip).filter (t.keeps now) = t.map.lookup ip := by
      cases hlookup : t.map.lookup ip with
      | none => rfl
      | some e =>
          cases hkeeps : t.keeps now e with
          | true => rw [Option.filter_some_pos hkeeps]
          | false => exact absurd (mem_dropped.mpr ⟨e, hlookup, hkeeps⟩) hmem
    rw [hkept]
    exact h.apart hmem

omit [DecidableEq Ip] in
/-- What is dropped is locked out no longer. -/
theorem LoginFailures.Bounded.over {e : LoginFailures} {clock ends : Nat} (h : e.Bounded clock)
    (hdropped : t.keeps now e = false) (hends : e.lockedUntil = some ends) : ends ≤ now := by
  have hwindow := h.window ends hends
  simp only [LockoutTracker.keeps, Bool.or_eq_false_iff, decide_eq_false_iff_not] at hdropped
  have hage := hdropped.2
  simp only [lockoutKept, lockoutMax, lockoutSecond] at hage hwindow
  omega

/-! ## Checks -/

/-- All a check can do. -/
theorem locked_cases (t : LockoutTracker Ip) (ip : Ip) (now : Nat) :
    (t.locked ip now = (t, none) ∧ (t.map.lookup ip).bind (·.lockedUntil) = none) ∨
      (∃ ends, (t.map.lookup ip).bind (·.lockedUntil) = some ends ∧ now < ends ∧
        t.locked ip now = (t, some (ends - now))) ∨
      ∃ e ends, t.map.lookup ip = some e ∧ e.lockedUntil = some ends ∧ ends ≤ now ∧
        t.locked ip now =
          ({ t with map := t.map.insert ip { e with lockedUntil := none, consecutive := 0 } },
            none) := by
  rw [LockoutTracker.locked]
  cases hlookup : t.map.lookup ip with
  | none => exact Or.inl ⟨rfl, rfl⟩
  | some e =>
      dsimp only [Option.bind_some]
      cases hends : e.lockedUntil with
      | none => exact Or.inl ⟨rfl, rfl⟩
      | some ends =>
          dsimp only
          split
          · rename_i hlocked
            exact Or.inr (Or.inl ⟨ends, rfl, hlocked, rfl⟩)
          · rename_i hover
            exact Or.inr (Or.inr ⟨e, ends, rfl, hends, Nat.not_lt.mp hover, rfl⟩)

theorem locked_eq_some {remaining : Nat} : (t.locked ip now).2 = some remaining ↔
    ∃ ends, (t.map.lookup ip).bind (·.lockedUntil) = some ends ∧ now < ends ∧
      remaining = ends - now := by
  rcases locked_cases t ip now with ⟨hlocked, hnone⟩ | ⟨ends, hends, hlater, hlocked⟩ |
      ⟨e, ends, hlookup, hends, hover, hlocked⟩
  · rw [hlocked, hnone]
    constructor
    · intro h
      cases h
    · rintro ⟨ends, h, -⟩
      cases h
  · rw [hlocked, hends]
    constructor
    · intro h
      exact ⟨ends, rfl, hlater, (Option.some.inj h).symm⟩
    · rintro ⟨ends', h, -, rfl⟩
      rw [Option.some.inj h]
  · rw [hlocked, hlookup, Option.bind_some, hends]
    constructor
    · intro h
      cases h
    · rintro ⟨ends', h, hlater, -⟩
      rw [← Option.some.inj h] at hlater
      exact absurd hover (Nat.not_le.mpr hlater)

theorem locked_of_over (h : ∀ ends, (t.map.lookup ip).bind (·.lockedUntil) = some ends →
    ends ≤ now) : (t.locked ip now).2 = none := by
  rw [Option.eq_none_iff_forall_ne_some]
  intro remaining hlocked
  obtain ⟨ends, hends, hlater, -⟩ := locked_eq_some.mp hlocked
  exact absurd (h ends hends) (Nat.not_le.mpr hlater)

theorem over_of_passed (h : (t.locked ip now).2 = none) {ends : Nat}
    (hends : (t.map.lookup ip).bind (·.lockedUntil) = some ends) : ends ≤ now := by
  by_contra hlater
  have hlocked := locked_eq_some.mpr ⟨ends, hends, Nat.not_le.mp hlater, rfl⟩
  rw [h] at hlocked
  cases hlocked

theorem locked_refused {remaining : Nat} (h : (t.locked ip now).2 = some remaining) :
    (t.locked ip now).1 = t := by
  rcases locked_cases t ip now with ⟨hlocked, -⟩ | ⟨_, -, -, hlocked⟩ | ⟨_, _, -, -, -, hlocked⟩
  · rw [hlocked]
  · rw [hlocked]
  · rw [hlocked] at h
    cases h

/-- An entry is stored: its own address is looked at, and no other. -/
theorem recalls_insert {e : LoginFailures} {event : LockoutEvent Ip}
    (h : ∀ other, Recalls (t.map.lookup other) other log)
    (hown : Recalls (some e) ip (event :: log))
    (hapart : ∀ other, ip ≠ other → event.Apart other) (other : Ip) :
    Recalls ((t.map.insert ip e).lookup other) other (event :: log) := by
  by_cases hother : ip = other
  · subst hother
    rw [AList.lookup_insert]
    exact hown
  · rw [AList.lookup_insert_ne (Ne.symm hother)]
    exact (h other).apart (hapart other hother)

theorem bounded_insert {e : LoginFailures} {clock : Nat}
    (h : ∀ other e, t.map.lookup other = some e → e.Bounded clock) (hown : e.Bounded clock)
    (other : Ip) (e' : LoginFailures) (hlookup : (t.map.insert ip e).lookup other = some e') :
    e'.Bounded clock := by
  by_cases hother : other = ip
  · subst hother
    rw [AList.lookup_insert] at hlookup
    rwa [← Option.some.inj hlookup]
  · rw [AList.lookup_insert_ne hother] at hlookup
    exact h other e' hlookup

/-- A check leaves the policy and every bound as they are. -/
theorem locked_kept (ip : Ip) (now : Nat) {clock : Nat}
    (h : ∀ other e, t.map.lookup other = some e → e.Bounded clock) :
    (t.locked ip now).1.threshold = t.threshold ∧ (t.locked ip now).1.base = t.base ∧
      ∀ other e, (t.locked ip now).1.map.lookup other = some e → e.Bounded clock := by
  rcases locked_cases t ip now with ⟨hlocked, -⟩ | ⟨_, -, -, hlocked⟩ |
      ⟨e, ends, hlookup, -, -, hlocked⟩
  · rw [hlocked]
    exact ⟨rfl, rfl, h⟩
  · rw [hlocked]
    exact ⟨rfl, rfl, h⟩
  · rw [hlocked]
    exact ⟨rfl, rfl, bounded_insert h (.unlocked (h ip e hlookup).seen u32Max_pos rfl)⟩

/-- A check that lets its address through. -/
theorem Recalls.passed (h : ∀ other, Recalls (t.map.lookup other) other log)
    (hpass : (t.locked ip now).2 = none) (attempt : Nat) (other : Ip) :
    Recalls ((t.locked ip now).1.map.lookup other) other (.passed attempt ip now :: log) := by
  rcases locked_cases t ip now with ⟨hlocked, hnone⟩ | ⟨ends, hends, hlater, hlocked⟩ |
      ⟨e, ends, hlookup, hends, hover, hlocked⟩
  · rw [hlocked]
    by_cases hother : ip = other
    · subst hother
      obtain ⟨hend, hcounted, hlockouts⟩ := h ip
      refine ⟨?_, ?_, hlockouts⟩
      · rw [Aperio.lockEnd, if_pos rfl, hnone]
      · rw [countedFailures, if_neg, hcounted]
        rw [hend, hnone]
        exact fun hsome => Bool.false_ne_true hsome.2
    · exact (h other).apart hother
  · rw [hlocked] at hpass
    cases hpass
  · rw [hlocked]
    obtain ⟨hend, -, hlockouts⟩ := h ip
    rw [hlookup] at hend hlockouts
    have hapart : ∀ other, ip ≠ other → (LockoutEvent.passed attempt ip now).Apart other :=
      fun _ hother => hother
    refine recalls_insert h ⟨?_, ?_, hlockouts⟩ hapart other
    · rw [Aperio.lockEnd, if_pos rfl]
      rfl
    · rw [countedFailures, if_pos]
      · rfl
      · rw [hend, Option.bind_some, hends]
        exact ⟨rfl, rfl⟩

/-! ## Failures -/

theorem window_eq {base lockouts had : Nat} (h : lockouts = min had u32Max) :
    min (min (base * 1 <<< min (min (lockouts + 1) u32Max - 1) 16) maxDuration) lockoutMax =
      windowOf base (had + 1) := by
  have hshift : min (min (lockouts + 1) u32Max - 1) 16 = min (had + 1 - 1) 16 := by
    rw [h]
    have hmax : u32Max = 4294967295 := rfl
    omega
  have hcap : lockoutMax ≤ maxDuration := by decide
  rw [hshift, windowOf, Nat.min_assoc, Nat.min_eq_right hcap]

/-- **A failure** is counted, and begins a lockout when it is the last one
allowed. -/
theorem recordFailure_spec (hrecalls : ∀ ip, Recalls ((t.gc now).map.lookup ip) ip log)
    (hbounded : ∀ ip e, (t.gc now).map.lookup ip = some e → e.Bounded now)
    (hthreshold : t.threshold ≤ u32Max) (attempt : Nat) (ip : Ip) :
    ∃ t', t.recordFailure ip now = some (t',
        if countedFailures ip log + 1 < t.threshold then none
        else some (windowOf t.base (lockoutsHad ip log + 1))) ∧
      t'.threshold = t.threshold ∧ t'.base = t.base ∧
      (∀ other e, t'.map.lookup other = some e → e.Bounded now) ∧
      ∀ other, Recalls (t'.map.lookup other) other
        (.failed attempt ip now (if countedFailures ip log + 1 < t.threshold then none
          else some (windowOf t.base (lockoutsHad ip log + 1))) :: log) := by
  generalize hentry : ((t.gc now).map.lookup ip).getD (LockoutTracker.freshEntry now) = entry
  obtain ⟨hend, hcounted, hlockouts⟩ : lockEnd ip log = entry.lockedUntil ∧
      countedFailures ip log = entry.consecutive ∧
      entry.lockouts = min (lockoutsHad ip log) u32Max := by
    obtain ⟨hend, hcounted, hlockouts⟩ := hrecalls ip
    rw [← hentry]
    cases hlookup : (t.gc now).map.lookup ip with
    | none =>
        rw [hlookup] at hend hcounted hlockouts
        exact ⟨hend, hcounted, hlockouts⟩
    | some e =>
        rw [hlookup] at hend hcounted hlockouts
        exact ⟨hend, hcounted, hlockouts⟩
  have hbound : entry.Bounded now := by
    rw [← hentry]
    cases hlookup : (t.gc now).map.lookup ip with
    | none => exact .unlocked (Nat.le_refl now) u32Max_pos rfl
    | some e => exact hbounded ip e hlookup
  have hfits : ¬u32Max ≤ entry.consecutive := Nat.not_le.mpr hbound.fits
  simp only [LockoutTracker.recordFailure, hentry, if_neg hfits]
  rw [hcounted]
  change ∃ t', (if entry.consecutive + 1 < t.threshold then _ else _) = _ ∧ _
  by_cases hmore : entry.consecutive + 1 < t.threshold
  · simp only [if_pos hmore]
    refine ⟨_, rfl, rfl, rfl, bounded_insert hbounded ?_,
      recalls_insert hrecalls ⟨hend, ?_, hlockouts⟩ (fun _ hother => hother)⟩
    · refine ⟨Nat.le_refl now, Nat.lt_of_lt_of_le hmore hthreshold, fun ends hends => ?_⟩
      exact (hbound.window ends hends).trans (Nat.add_le_add_right hbound.seen _)
    · rw [countedFailures, if_pos rfl, hcounted]
      rfl
  · simp only [if_neg hmore]
    rw [window_eq hlockouts]
    refine ⟨_, rfl, rfl, rfl, bounded_insert hbounded ?_,
      recalls_insert hrecalls ⟨?_, ?_, ?_⟩ (fun _ hother => hother)⟩
    · refine ⟨Nat.le_refl now, u32Max_pos, fun ends hends => ?_⟩
      rw [← Option.some.inj hends]
      exact Nat.add_le_add_left (Nat.min_le_right _ _) now
    · rw [Aperio.lockEnd, if_pos rfl]
      rfl
    · rw [countedFailures, if_pos rfl]
      rfl
    · rw [lockoutsHad, if_pos rfl]
      change min (entry.lockouts + 1) u32Max = _
      rw [hlockouts]
      omega

/-! ## Whole runs -/

theorem LoginFailures.Bounded.later {e : LoginFailures} {clock : Nat} (h : e.Bounded clock)
    (hle : clock ≤ now) : e.Bounded now :=
  ⟨h.seen.trans hle, h.fits, h.window⟩

theorem LockoutRun.Sound.later_pending (h : s.Sound start) {e : LockoutEvent Ip}
    (hle : s.clock ≤ now) {p : Nat × Ip} (hp : p ∈ s.pending) :
    ∃ checked ≤ now, .passed p.1 p.2 checked ∈ e :: s.log := by
  obtain ⟨checked, hchecked, hmem⟩ := h.pending p hp
  exact ⟨checked, hchecked.trans hle, List.mem_cons_of_mem _ hmem⟩

theorem LockoutRun.Sound.check (h : s.Sound start) {attempt : Nat}
    (hact : s.act (.check attempt ip now) = some s') : s'.Sound start := by
  rw [LockoutRun.act] at hact
  split at hact
  · cases hact
  rename_i hclock
  have hle : s.clock ≤ now := Nat.not_lt.mp hclock
  split at hact
  · rename_i t remaining hlocked
    rw [← Option.some.inj hact]
    have hanswer : (s.tracker.locked ip now).2 = some remaining := by rw [hlocked]
    obtain ⟨ends, hends, hlater, hremaining⟩ := locked_eq_some.mp hanswer
    obtain rfl : t = s.tracker := by
      rw [← locked_refused hanswer, hlocked]
    exact
      { recalls := fun other => (h.recalls other).apart trivial
        bounded := fun other e hlookup => (h.bounded other e hlookup).later hle
        policy := h.policy
        threshold := h.threshold
        pending := fun p hp => h.later_pending hle hp
        log := ⟨⟨ends, (h.recalls ip).lockEnd.trans hends, hlater, hremaining⟩, h.log⟩ }
  · rename_i t hlocked
    rw [← Option.some.inj hact]
    have hpass : (s.tracker.locked ip now).2 = none := by rw [hlocked]
    have hrecalls := Recalls.passed h.recalls hpass attempt
    obtain ⟨hthreshold, hbase, hbounded⟩ := locked_kept ip now h.bounded
    rw [hlocked] at hrecalls hthreshold hbase hbounded
    refine ⟨hrecalls, fun other e hlookup => (hbounded other e hlookup).later hle, ?_, ?_, ?_,
      fun ends hends => over_of_passed hpass ((h.recalls ip).lockEnd.symm.trans hends), h.log⟩
    · change policyOf start s.log = (t.threshold, t.base)
      rw [h.policy, hthreshold, hbase]
    · rw [hthreshold]
      exact h.threshold
    · intro p hp
      rcases List.mem_cons.mp hp with rfl | hp
      · exact ⟨now, Nat.le_refl now, List.mem_cons_self⟩
      · exact h.later_pending hle hp

theorem LockoutRun.Sound.fail (h : s.Sound start) {attempt : Nat}
    (hact : s.act (.fail attempt ip now) = some s') : s'.Sound start := by
  rw [LockoutRun.act] at hact
  split at hact
  · cases hact
  rename_i hgo
  rw [not_or, Nat.not_lt, not_not] at hgo
  obtain ⟨hle, hpending⟩ := hgo
  have hrecalls (other : Ip) := (h.recalls other).collected now
  have hbounded : ∀ other e, (s.tracker.gc now).map.lookup other = some e → e.Bounded now := by
    intro other e hlookup
    rw [lookup_gc, Option.filter_eq_some_iff] at hlookup
    exact (h.bounded other e hlookup.1).later hle
  obtain ⟨t', hrecord, hthreshold, hbase, hbounded', hrecalls'⟩ :=
    recordFailure_spec hrecalls hbounded h.threshold attempt ip
  rw [hrecord] at hact
  rw [← Option.some.inj hact]
  have hswept : LockoutEvent.Right start s.log (.swept (s.tracker.dropped now) now) := by
    intro other hother ends hends
    obtain ⟨e, hlookup, hdropped⟩ := mem_dropped.mp hother
    rw [(h.recalls other).lockEnd, hlookup] at hends
    exact (h.bounded other e hlookup).over hdropped hends
  obtain ⟨checked, hchecked, hpassed⟩ := h.pending _ hpending
  have hfailed : LockoutEvent.Right start (.swept (s.tracker.dropped now) now :: s.log)
      (.failed attempt ip now (if countedFailures ip
          (.swept (s.tracker.dropped now) now :: s.log) + 1 < s.tracker.threshold then none
        else some (windowOf s.tracker.base (lockoutsHad ip
          (.swept (s.tracker.dropped now) now :: s.log) + 1)))) := by
    refine ⟨⟨checked, hchecked.trans hle, List.mem_cons_of_mem _ hpassed⟩, ?_⟩
    simp only [policyOf, h.policy]
  refine ⟨hrecalls', hbounded', ?_, ?_, ?_, hfailed, hswept, h.log⟩
  · change policyOf start s.log = (t'.threshold, t'.base)
    rw [h.policy, hthreshold, hbase]
  · exact hthreshold ▸ h.threshold
  · intro p hp
    obtain ⟨checked, hchecked, hmem⟩ := h.pending p (List.mem_of_mem_erase hp)
    exact ⟨checked, hchecked.trans hle, List.mem_cons_of_mem _ (List.mem_cons_of_mem _ hmem)⟩

theorem LockoutRun.Sound.succeed (h : s.Sound start) {attempt : Nat}
    (hact : s.act (.succeed attempt ip) = some s') : s'.Sound start := by
  rw [LockoutRun.act] at hact
  split at hact
  · cases hact
  rename_i hpending
  rw [not_not] at hpending
  rw [← Option.some.inj hact]
  obtain ⟨checked, -, hpassed⟩ := h.pending _ hpending
  refine ⟨fun other => ?_, fun other e hlookup => ?_, h.policy, h.threshold, fun p hp => ?_,
    ⟨checked, hpassed⟩, h.log⟩
  · change Recalls ((s.tracker.map.erase ip).lookup other) other _
    by_cases hother : ip = other
    · subst hother
      rw [AList.lookup_erase]
      exact .forgotten (Or.inl ⟨attempt, rfl⟩)
    · rw [AList.lookup_erase_ne (Ne.symm hother)]
      exact (h.recalls other).apart hother
  · change (s.tracker.map.erase ip).lookup other = some e at hlookup
    by_cases hother : other = ip
    · subst hother
      rw [AList.lookup_erase] at hlookup
      cases hlookup
    · rw [AList.lookup_erase_ne hother] at hlookup
      exact h.bounded other e hlookup
  · exact h.later_pending (Nat.le_refl s.clock) (List.mem_of_mem_erase hp)

theorem toNat_le_u32Max (n : UInt32) : max n.toNat 1 ≤ u32Max := by
  have hlt := n.toNat_lt
  simp only [u32Max]
  omega

theorem LockoutRun.Sound.act (h : s.Sound start) (hact : s.act a = some s') : s'.Sound start := by
  cases a with
  | check attempt ip now => exact h.check hact
  | fail attempt ip now => exact h.fail hact
  | succeed attempt ip => exact h.succeed hact
  | setPolicy threshold base =>
      rw [← Option.some.inj hact]
      exact
        { recalls := fun other => (h.recalls other).apart trivial
          bounded := h.bounded
          policy := rfl
          threshold := toNat_le_u32Max threshold
          pending := fun p hp => h.later_pending (Nat.le_refl s.clock) hp
          log := ⟨trivial, h.log⟩ }

/-- The policy a server starts with. -/
def startPolicy (threshold : UInt32) (base : Nat) : Nat × Nat :=
  (max threshold.toNat 1, max base lockoutSecond)

theorem lockout_sound {threshold : UInt32} {base : Nat}
    (hs : (lockoutSys Ip threshold base).Reachable s) : s.Sound (startPolicy threshold base) := by
  refine hs.invariant ?_ (fun _ _ _ _ h hact => h.act hact)
  rintro _ rfl
  exact
    { recalls := fun _ => ⟨rfl, rfl, rfl⟩
      bounded := by
        intro ip entry hlookup
        cases hlookup
      policy := rfl
      threshold := toNat_le_u32Max threshold
      pending := fun _ hp => absurd hp List.not_mem_nil
      log := trivial }

theorem LockoutRun.Sound.right (h : s.Sound start) : s.Right start where
  log := h.log
  answers ip now remaining := by
    rw [locked_eq_some, (h.recalls ip).lockEnd]
  sweeps ip now later hle := by
    cases hlookup : s.tracker.map.lookup ip with
    | none =>
        rw [locked_of_over, locked_of_over]
        · simp [hlookup]
        · simp [lookup_gc, hlookup]
    | some e =>
        cases hkeeps : s.tracker.keeps now e with
        | true =>
            refine Option.ext fun remaining => ?_
            rw [locked_eq_some, locked_eq_some, lookup_gc, hlookup, Option.filter_some_pos hkeeps]
        | false =>
            have hover : ∀ ends, e.lockedUntil = some ends → ends ≤ later := fun ends hends =>
              ((h.bounded ip e hlookup).over hkeeps hends).trans hle
            rw [locked_of_over, locked_of_over]
            · rw [hlookup]
              exact hover
            · rw [lookup_gc, hlookup, Option.filter_some_neg (by simp [hkeeps])]
              intro ends hends
              cases hends
  fits ip now := by
    rw [LockoutTracker.recordFailure]
    have hfits : ¬u32Max ≤ (((s.tracker.gc now).map.lookup ip).getD
        (LockoutTracker.freshEntry now)).consecutive := by
      cases hlookup : (s.tracker.gc now).map.lookup ip with
      | none => exact Nat.not_le.mpr u32Max_pos
      | some e =>
          rw [lookup_gc, Option.filter_eq_some_iff] at hlookup
          exact Nat.not_le.mpr (h.bounded ip e hlookup.1).fits
    rw [if_neg hfits]
    dsimp only
    split <;> rfl

/-- **The lockout, in every run.** An address is locked out while its latest
lockout lasts; a lockout begins with the last failure allowed since it was let
off, for a window that doubles up to the cap; only an attempt whose own check
found no lockout is evaluated; a collection changes no answer, and no count
overflows. -/
theorem lockout_run {threshold : UInt32} {base : Nat}
    (hs : (lockoutSys Ip threshold base).Reachable s) : s.Right (startPolicy threshold base) :=
  (lockout_sound hs).right

/-! ## Two runs -/

/-- The failures of an address since its latest success, all of them. -/
def failuresSinceSuccess (ip : Ip) : List (LockoutEvent Ip) → Nat
  | [] => 0
  | .failed _ a _ _ :: past =>
    if a = ip then failuresSinceSuccess ip past + 1 else failuresSinceSuccess ip past
  | .succeeded _ a :: past => if a = ip then 0 else failuresSinceSuccess ip past
  | _ :: past => failuresSinceSuccess ip past

/-- Two attempts of one address are checked before either is recorded. -/
def racing : List (LockoutAct Nat) :=
  [.check 1 7 0, .check 2 7 0, .fail 1 7 1, .fail 2 7 2]

/-- An address is locked out for a second, waits, and fails once more. -/
def servedOnce : List (LockoutAct Nat) :=
  [.check 1 7 0, .fail 1 7 0, .check 2 7 0, .fail 2 7 0, .check 3 7 2000000000,
    .fail 3 7 2000000000]

theorem lockout_reaches {threshold : UInt32} {acts : List (LockoutAct Nat)} {α : Type}
    {view : LockoutRun Nat → α} {seen : α}
    (h : (acts.foldlM LockoutRun.act
      { tracker := .start threshold lockoutSecond }).map view = some seen) :
    ∃ s, (lockoutSys Nat threshold lockoutSecond).Reachable s ∧ view s = seen := by
  obtain ⟨s, hrun, hview⟩ := Option.map_eq_some_iff.mp h
  exact ⟨s, Sys.Reachable.foldlM (.init rfl) (fun _ _ _ hstep => hstep) hrun, hview⟩

theorem lockout_run_racing : ∃ s : LockoutRun Nat, s.Right (startPolicy 1 lockoutSecond) ∧
    s.log.length = 6 ∧ lockEnd 7 s.log = some 2000000002 := by
  obtain ⟨s, hs, hview⟩ := @lockout_reaches 1 racing _
    (fun s => (s.log.length, lockEnd 7 s.log)) (6, some 2000000002) (by decide +kernel)
  exact ⟨s, lockout_run hs, congrArg Prod.fst hview, congrArg Prod.snd hview⟩

/-- With one failure allowed, two are evaluated in one window. With two, an
address that has failed three times since its last success, the last time just
now, is not locked out. -/
theorem lockout_exceeded :
    (∃ s, (lockoutSys Nat 1 lockoutSecond).Reachable s ∧ failuresSinceSuccess 7 s.log = 2 ∧
      ∃ past, s.log = .failed 2 7 2 (some 2000000000) :: .swept [] 2 ::
        .failed 1 7 1 (some 1000000000) :: past) ∧
    ∃ s, (lockoutSys Nat 2 lockoutSecond).Reachable s ∧ failuresSinceSuccess 7 s.log = 3 ∧
      s.clock = 2000000000 ∧ (s.tracker.locked 7 2000000000).2 = none := by
  constructor
  · obtain ⟨s, hs, hview⟩ := @lockout_reaches 1 racing _
      (fun s => (failuresSinceSuccess 7 s.log, s.log.take 3))
      (2, [.failed 2 7 2 (some 2000000000), .swept [] 2, .failed 1 7 1 (some 1000000000)])
      (by decide +kernel)
    refine ⟨s, hs, congrArg Prod.fst hview, s.log.drop 3, ?_⟩
    have htake := congrArg Prod.snd hview
    conv_lhs => rw [← List.take_append_drop 3 s.log]
    exact congrArg (· ++ s.log.drop 3) htake
  · obtain ⟨s, hs, hview⟩ := @lockout_reaches 2 servedOnce _
      (fun s => (failuresSinceSuccess 7 s.log, s.clock, (s.tracker.locked 7 2000000000).2))
      (3, 2000000000, none) (by decide +kernel)
    exact ⟨s, hs, congrArg Prod.fst hview, congrArg (·.2.1) hview, congrArg (·.2.2) hview⟩

end Aperio
