import Mathlib.Logic.Function.Basic
import Aperio.Run
import Aperio.SlidingWindow

/-!
# Certificates obtained once

`Issuer::ensure` of `tls/acme.rs`. Handshakes, the configured names and the
renewal pass ask for a certificate of a hostname at any time. A call looks at
what is held, then at the back-off of the hostname, then waits for the lock of
the hostname; under it, it looks again at what is held, an on-demand one takes
a slot of the hourly allowance, and the order is placed.

A step is what a call does between two places where others can run, and the
label of an order's end is what the authority answered, so a run is any
interleaving of any number of calls. `events` is what happened, the last first.
-/

namespace Aperio

/-! ## The issuer -/

/-- Why a certificate is being asked for, which decides the limits it meets. -/
inductive Why where
  | configured
  | onDemand
  | renewal
deriving Repr, DecidableEq

/-- A second. Instants are in nanoseconds. -/
def issuerSecond : Nat := 1000000000

/-- `FAILURE_BACKOFF`. -/
def failureBackoff : Nat := 3600 * issuerSecond

/-- `ON_DEMAND_PER_HOUR`. -/
def onDemandPerHour : Nat := 20

/-- What `take_on_demand_slot` looks back over. -/
def onDemandWindow : Nat := 3600 * issuerSecond

/-- `RENEW_WITHIN`, in seconds. -/
def renewWithin : Int := 30 * 86400

inductive EnsurePhase where
  /-- No certificate was held, or it is a renewal. -/
  | asked
  /-- For the lock of the hostname. -/
  | waiting
  | holding
  /-- An on-demand order that has not taken its slot. -/
  | counting
  | ordering
  /-- The certificate is stored, the failure not yet forgotten. -/
  | stored
  | done (answer : Except String Unit)
deriving Repr

/-- The lock of the hostname is held from `lock.lock()` to the return. -/
def EnsurePhase.locks : EnsurePhase → Bool
  | .holding | .counting | .ordering | .stored => true
  | _ => false

structure EnsureCall where
  host : String
  why : Why
  phase : EnsurePhase
deriving Repr

inductive IssuerEvent where
  /-- A call passed the back-off check. -/
  | allowed (at_ call : Nat) (host : String)
  /-- `held` is when the certificate held ends, and `wall` the time of day. -/
  | placed (at_ call : Nat) (host : String) (why : Why) (held : Option Int) (wall : Int)
  | issued (at_ : Nat) (host : String) (why : Why) (notAfter : Int)
  | failed (at_ : Nat) (host : String)
  /-- The failure of the hostname is forgotten. -/
  | cleared (at_ : Nat) (host : String)
deriving Repr, DecidableEq

/-- `certs` is when each certificate the store holds ends. -/
structure Issuer where
  clock : Nat
  certs : String → Option Int
  failed : String → Option Nat := fun _ => none
  recent : List Nat := []
  calls : List EnsureCall := []
  events : List IssuerEvent := []

inductive IssuerAct where
  | wait (elapsed : Nat)
  | ask (host : String) (why : Why)
  /-- The back-off check. -/
  | allow (i : Nat)
  | acquire (i : Nat)
  | look (i : Nat) (wall : Int)
  /-- The instant of the slot is read `late` after the one of the window. -/
  | count (i late : Nat) (wall : Int)
  | answer (i : Nat) (result : Except String Int)
  | clear (i : Nat)
deriving Repr

def backingOff (host : String) (left : Nat) : String :=
  s!"the last attempt for {host} failed; the next is in {left / issuerSecond / 60 + 1} minute(s)"

def allowanceSpent : String :=
  s!"{onDemandPerHour} certificates were obtained on demand in the last hour; the next waits"

namespace Issuer

variable (s : Issuer)

/-- Call `i` is in another phase. -/
def put (i : Nat) (c : EnsureCall) (phase : EnsurePhase) : Issuer :=
  { s with calls := s.calls.set i { c with phase := phase } }

/-- The lock of `host` is free. -/
def unlocked (host : String) : Bool :=
  s.calls.all fun c => !(c.phase.locks && c.host == host)

/-- `ensure` up to the back-off check. -/
def ask (host : String) (why : Why) : Issuer :=
  let phase := if why ≠ .renewal ∧ (s.certs host).isSome then .done (.ok ()) else .asked
  { s with calls := s.calls ++ [{ host := host, why := why, phase := phase }] }

def place (i : Nat) (c : EnsureCall) (wall : Int) : Issuer :=
  { s.put i c .ordering with
    events := .placed s.clock i c.host c.why (s.certs c.host) wall :: s.events }

/-- What is done with what is held once the lock is. -/
def look (i : Nat) (c : EnsureCall) (wall : Int) : Issuer :=
  let heldNow := s.certs c.host
  match c.why with
  | .renewal =>
    if heldNow.any fun notAfter => decide (renewWithin ≤ notAfter - wall) then
      s.put i c (.done (.ok ()))
    else s.place i c wall
  | .onDemand => if heldNow.isSome then s.put i c (.done (.ok ())) else s.put i c .counting
  | .configured => if heldNow.isSome then s.put i c (.done (.ok ())) else s.place i c wall

/-- `take_on_demand_slot`. -/
def takeOnDemandSlot (late : Nat) : Option Issuer :=
  let recent := evict onDemandWindow s.clock s.recent
  if onDemandPerHour ≤ recent.length then none
  else some { s with recent := recent ++ [s.clock + late], clock := s.clock + late }

def count (i : Nat) (c : EnsureCall) (late : Nat) (wall : Int) : Issuer :=
  match s.takeOnDemandSlot late with
  | none =>
    { s.put i c (.done (.error allowanceSpent)) with
      recent := evict onDemandWindow s.clock s.recent }
  | some taken => taken.place i c wall

def answer (i : Nat) (c : EnsureCall) : Except String Int → Issuer
  | .ok notAfter =>
    { s.put i c .stored with
      certs := Function.update s.certs c.host (some notAfter)
      events := .issued s.clock c.host c.why notAfter :: s.events }
  | .error e =>
    { s.put i c (.done (.error e)) with
      failed := Function.update s.failed c.host (some (s.clock + failureBackoff))
      events := .failed s.clock c.host :: s.events }

def allow (i : Nat) (c : EnsureCall) : Issuer :=
  match s.failed c.host with
  | some until_ =>
    if s.clock < until_ then s.put i c (.done (.error (backingOff c.host (until_ - s.clock))))
    else { s.put i c .waiting with events := .allowed s.clock i c.host :: s.events }
  | none => { s.put i c .waiting with events := .allowed s.clock i c.host :: s.events }

def clear (i : Nat) (c : EnsureCall) : Issuer :=
  { s.put i c (.done (.ok ())) with
    failed := Function.update s.failed c.host none
    events := .cleared s.clock c.host :: s.events }

/-- Call `i`, when it is in the phase that goes on so. -/
def at_ (i : Nat) (phase : EnsurePhase → Bool) : Option EnsureCall :=
  s.calls[i]?.filter fun c => phase c.phase

def act : IssuerAct → Option Issuer
  | .wait elapsed => some { s with clock := s.clock + elapsed }
  | .ask host why => some (s.ask host why)
  | .allow i => (s.at_ i fun | .asked => true | _ => false).map (s.allow i)
  | .acquire i => do
    let c ← s.at_ i fun | .waiting => true | _ => false
    if s.unlocked c.host then some (s.put i c .holding) else none
  | .look i wall => (s.at_ i fun | .holding => true | _ => false).map (s.look i · wall)
  | .count i late wall => (s.at_ i fun | .counting => true | _ => false).map (s.count i · late wall)
  | .answer i result => (s.at_ i fun | .ordering => true | _ => false).map (s.answer i · result)
  | .clear i => (s.at_ i fun | .stored => true | _ => false).map (s.clear i)

end Issuer

/-- Any certificates may be held from before. -/
def issuerSys (held : String → Option Int) : Sys Issuer IssuerAct where
  init s := ∃ clock, s = { clock := clock, certs := held }
  step s a s' := s.act a = some s'

/-! ## What the log says -/

/-- The failure of `host` that is not forgotten. -/
def lastFailure (host : String) : List IssuerEvent → Option Nat
  | [] => none
  | .failed at_ h :: earlier => if h = host then some at_ else lastFailure host earlier
  | .cleared _ h :: earlier => if h = host then none else lastFailure host earlier
  | _ :: earlier => lastFailure host earlier

/-- When the certificate of `host` ends. -/
def heldAfter (held : String → Option Int) (host : String) : List IssuerEvent → Option Int
  | [] => held host
  | .issued _ h _ notAfter :: earlier =>
    if h = host then some notAfter else heldAfter held host earlier
  | _ :: earlier => heldAfter held host earlier

/-- When the on-demand orders were placed, the last first. -/
def onDemandAt (events : List IssuerEvent) : List Nat :=
  events.filterMap fun
    | .placed at_ _ _ .onDemand _ _ => some at_
    | _ => none

/-- The call was let pass by `now`, an hour after the failure of the hostname it
could know of. -/
def LetPass (now : Nat) (call : Nat) (host : String) (events : List IssuerEvent) : Prop :=
  ∃ later at_ earlier, events = later ++ .allowed at_ call host :: earlier ∧ at_ ≤ now ∧
    ∀ failure, lastFailure host earlier = some failure → failure + failureBackoff ≤ at_

/-- An order is of a call that was let pass; a certificate that is held is only
ever replaced by a renewal, and only near its end. -/
def Justified (held : String → Option Int) : List IssuerEvent → Prop
  | [] => True
  | .allowed at_ _ host :: earlier =>
    (∀ failure, lastFailure host earlier = some failure → failure + failureBackoff ≤ at_) ∧
      Justified held earlier
  | .placed at_ call host why holding wall :: earlier =>
    LetPass at_ call host earlier ∧
      holding = heldAfter held host earlier ∧
      (why ≠ .renewal → holding = none) ∧
      (∀ notAfter, holding = some notAfter → notAfter - wall < renewWithin) ∧
      Justified held earlier
  | .issued _ host why _ :: earlier =>
    (why ≠ .renewal → heldAfter held host earlier = none) ∧ Justified held earlier
  | _ :: earlier => Justified held earlier

namespace Issuer

/-- No two calls are under the lock of one hostname. -/
def OneOrder (s : Issuer) : Prop :=
  ∀ (i j : Nat) (a b : EnsureCall), s.calls[i]? = some a → s.calls[j]? = some b →
    a.phase.locks = true → b.phase.locks = true → a.host = b.host → i = j

end Issuer

/-! ## The calls -/

/-- The certificate was looked for under the lock and is not held. -/
def EnsurePhase.fresh : EnsurePhase → Bool
  | .counting | .ordering => true
  | _ => false

theorem EnsurePhase.locks_of_fresh {phase : EnsurePhase} (h : phase.fresh = true) :
    phase.locks = true := by
  cases phase <;> first | rfl | cases h

/-- An on-demand order is about to take its slot. -/
def EnsurePhase.counts : EnsurePhase → Bool
  | .counting => true
  | _ => false

theorem EnsurePhase.locks_of_counts {phase : EnsurePhase} (h : phase.counts = true) :
    phase.locks = true := by
  cases phase <;> first | rfl | cases h

/-- Past the back-off check, and no order placed yet. -/
def EnsurePhase.letPass : EnsurePhase → Bool
  | .waiting | .holding | .counting => true
  | _ => false

/-- What every run keeps of the calls. -/
structure OrderedCalls (certs : String → Option Int) (calls : List EnsureCall) : Prop where
  apart : ∀ (i j : Nat) (a b : EnsureCall), calls[i]? = some a → calls[j]? = some b →
    a.phase.locks = true → b.phase.locks = true → a.host = b.host → i = j
  fresh : ∀ (i : Nat) (a : EnsureCall), calls[i]? = some a → a.phase.fresh = true → a.why ≠ .renewal →
    certs a.host = none
  counted : ∀ (i : Nat) (a : EnsureCall), calls[i]? = some a → a.phase.counts = true → a.why = .onDemand

namespace OrderedCalls

variable {certs : String → Option Int} {calls : List EnsureCall} {i : Nat} {c : EnsureCall}
  {phase : EnsurePhase}

/-- A call goes on, under a lock it has or that nobody has. -/
theorem set (h : OrderedCalls certs calls) (hc : calls[i]? = some c)
    (hlock : phase.locks = true → c.phase.locks = true ∨
      ∀ c' ∈ calls, c'.phase.locks = true → c'.host ≠ c.host)
    (hfresh : phase.fresh = true → c.why ≠ .renewal → certs c.host = none)
    (hcounted : phase.counts = true → c.why = .onDemand) :
    OrderedCalls certs (calls.set i { c with phase := phase }) := by
  have hlt := (List.getElem?_eq_some_iff.mp hc).1
  have hother : ∀ (j : Nat) (a : EnsureCall), i ≠ j → calls[j]? = some a → phase.locks = true → a.phase.locks = true →
      a.host ≠ c.host := by
    intro j a hne ha hlocks halocks heq
    rcases hlock hlocks with hlocked | hfree
    · exact hne (h.apart i j c a hc ha hlocked halocks heq.symm)
    · exact hfree a (List.mem_of_getElem? ha) halocks heq
  refine ⟨?_, ?_, ?_⟩
  · intro j k a b ha hb halocks hblocks heq
    rw [List.getElem?_set] at ha hb
    by_cases hij : i = j <;> by_cases hik : i = k
    · exact hij.symm.trans hik
    · rw [if_pos hij, if_pos hlt, Option.some_inj] at ha
      rw [if_neg hik] at hb
      subst ha
      exact absurd heq.symm (hother k b hik hb halocks hblocks)
    · rw [if_neg hij] at ha
      rw [if_pos hik, if_pos hlt, Option.some_inj] at hb
      subst hb
      exact absurd heq (hother j a hij ha hblocks halocks)
    · rw [if_neg hij] at ha
      rw [if_neg hik] at hb
      exact h.apart j k a b ha hb halocks hblocks heq
  · intro j a ha hafresh hwhy
    rw [List.getElem?_set] at ha
    split at ha
    · rw [Option.some_inj] at ha
      subst ha
      exact hfresh hafresh hwhy
    · exact h.fresh j a ha hafresh hwhy
  · intro j a ha hcount
    rw [List.getElem?_set] at ha
    split at ha
    · rw [Option.some_inj] at ha
      subst ha
      exact hcounted hcount
    · exact h.counted j a ha hcount

theorem append (h : OrderedCalls certs calls) (hfree : c.phase.locks = false) :
    OrderedCalls certs (calls ++ [c]) := by
  have hold : ∀ (j : Nat) (a : EnsureCall), (calls ++ [c])[j]? = some a → a.phase.locks = true →
      calls[j]? = some a := by
    intro j a ha hlocks
    rw [List.getElem?_append] at ha
    split at ha
    · exact ha
    · rw [List.mem_singleton.mp (List.mem_of_getElem? ha), hfree] at hlocks
      cases hlocks
  refine ⟨?_, ?_, ?_⟩
  · intro i j a b ha hb halocks hblocks
    exact h.apart i j a b (hold i a ha halocks) (hold j b hb hblocks) halocks hblocks
  · intro i a ha hfresh
    exact h.fresh i a (hold i a ha (EnsurePhase.locks_of_fresh hfresh)) hfresh
  · intro i a ha hcount
    exact h.counted i a (hold i a ha (EnsurePhase.locks_of_counts hcount)) hcount

/-- The certificate of one hostname comes to be held while its lock is. -/
theorem issue (h : OrderedCalls certs calls) (hc : calls[i]? = some c)
    (hlocked : c.phase.locks = true) (notAfter : Int) :
    OrderedCalls (Function.update certs c.host (some notAfter))
      (calls.set i { c with phase := .stored }) := by
  have hset : OrderedCalls certs (calls.set i { c with phase := .stored }) :=
    h.set hc (fun _ => .inl hlocked) nofun nofun
  refine ⟨hset.apart, ?_, hset.counted⟩
  intro j a ha hfresh hwhy
  by_cases hhost : a.host = c.host
  · have hself : (calls.set i { c with phase := .stored })[i]? =
        some { c with phase := .stored } :=
      List.getElem?_set_self (List.getElem?_eq_some_iff.mp hc).1
    obtain rfl := hset.apart j i _ _ ha hself (EnsurePhase.locks_of_fresh hfresh) rfl hhost
    rw [hself, Option.some_inj] at ha
    subst ha
    cases hfresh
  · rw [Function.update_of_ne hhost]
    exact hset.fresh j a ha hfresh hwhy

end OrderedCalls

/-! ## Calls that were let pass -/

theorem LetPass.later {now now' call : Nat} {host : String} {events : List IssuerEvent}
    (h : LetPass now call host events) (hnow : now ≤ now') (new : List IssuerEvent) :
    LetPass now' call host (new ++ events) := by
  obtain ⟨later, at_, earlier, rfl, hat, hfailure⟩ := h
  exact ⟨new ++ later, at_, earlier, (List.append_assoc ..).symm, hat.trans hnow, hfailure⟩

/-- Every call past the check was let pass. -/
def PassedCalls (now : Nat) (events : List IssuerEvent) (calls : List EnsureCall) : Prop :=
  ∀ (i : Nat) (c : EnsureCall), calls[i]? = some c → c.phase.letPass = true →
    LetPass now i c.host events

namespace PassedCalls

variable {now now' : Nat} {events : List IssuerEvent} {calls : List EnsureCall} {i : Nat}
  {c : EnsureCall} {phase : EnsurePhase}

theorem later (h : PassedCalls now events calls) (hnow : now ≤ now') (new : List IssuerEvent) :
    PassedCalls now' (new ++ events) calls :=
  fun i c hc hphase => (h i c hc hphase).later hnow new

theorem set (h : PassedCalls now events calls)
    (hphase : phase.letPass = true → LetPass now i c.host events) :
    PassedCalls now events (calls.set i { c with phase := phase }) := by
  intro j a ha hpassed
  rw [List.getElem?_set] at ha
  split at ha
  · rename_i hij
    subst hij
    split at ha
    · rw [Option.some_inj] at ha
      subst ha
      exact hphase hpassed
    · cases ha
  · exact h j a ha hpassed

theorem append (h : PassedCalls now events calls) (hnot : c.phase.letPass = false) :
    PassedCalls now events (calls ++ [c]) := by
  intro j a ha hpassed
  rw [List.getElem?_append] at ha
  split at ha
  · exact h j a ha hpassed
  · rw [List.mem_singleton.mp (List.mem_of_getElem? ha), hnot] at hpassed
    cases hpassed

end PassedCalls

/-! ## The log -/

/-- What every run keeps of the rest. -/
structure LoggedIssuer (held : String → Option Int) (s : Issuer) : Prop where
  certs : ∀ host, s.certs host = heldAfter held host s.events
  failed : ∀ host, s.failed host = (lastFailure host s.events).map (· + failureBackoff)
  window : KeepsWindow onDemandPerHour onDemandWindow s.clock s.recent (onDemandAt s.events).reverse
  justified : Justified held s.events

namespace LoggedIssuer

variable {held : String → Option Int} {s : Issuer} {i : Nat} {c : EnsureCall}

theorem put (h : LoggedIssuer held s) (i : Nat) (c : EnsureCall) (phase : EnsurePhase) :
    LoggedIssuer held (s.put i c phase) :=
  ⟨h.certs, h.failed, h.window, h.justified⟩

/-- An order for which no slot is taken. -/
theorem place (h : LoggedIssuer held s) (hpass : LetPass s.clock i c.host s.events)
    (hdemand : c.why ≠ .onDemand)
    (hfree : c.why ≠ .renewal → s.certs c.host = none) {wall : Int}
    (hdue : ∀ notAfter, s.certs c.host = some notAfter → notAfter - wall < renewWithin) :
    LoggedIssuer held (s.place i c wall) := by
  refine ⟨h.certs, h.failed, ?_, hpass, h.certs c.host, hfree, hdue, h.justified⟩
  have hsame : onDemandAt (s.place i c wall).events = onDemandAt s.events := by
    cases hwhy : c.why with
    | onDemand => exact absurd hwhy hdemand
    | configured => simp [onDemandAt, Issuer.place, hwhy]
    | renewal => simp [onDemandAt, Issuer.place, hwhy]
  rw [hsame]
  exact h.window

theorem count (h : LoggedIssuer held s) (hpass : LetPass s.clock i c.host s.events)
    (hdemand : c.why = .onDemand)
    (hfree : s.certs c.host = none) (late : Nat) (wall : Int) :
    LoggedIssuer held (s.count i c late wall) := by
  have hevicted := h.window.evict
  rw [Issuer.count, Issuer.takeOnDemandSlot]
  dsimp only
  split
  · rename_i hspent
    split at hspent
    · exact ⟨h.certs, h.failed, hevicted, h.justified⟩
    · cases hspent
  · rename_i taken htaken
    split at htaken
    · cases htaken
    · rename_i hroom
      obtain rfl := Option.some.inj htaken
      refine ⟨h.certs, h.failed, ?_, hpass.later (Nat.le_add_right _ _) [], h.certs c.host,
        fun _ => hfree, ?_, h.justified⟩
      · have hlog : onDemandAt (IssuerEvent.placed (s.clock + late) i c.host c.why
            (s.certs c.host) wall :: s.events) = (s.clock + late) :: onDemandAt s.events := by
          simp [onDemandAt, hdemand]
        have hpush := (hevicted.later (Nat.le_add_right s.clock late)).push (by omega)
        rw [← List.reverse_cons, ← hlog] at hpush
        exact hpush
      · intro notAfter hheld
        rw [show s.certs c.host = some notAfter from hheld] at hfree
        cases hfree

theorem answer (h : LoggedIssuer held s) (hfree : c.why ≠ .renewal → s.certs c.host = none)
    (result : Except String Int) : LoggedIssuer held (s.answer i c result) := by
  cases result with
  | ok notAfter =>
      refine ⟨fun host => ?_, h.failed, h.window, ?_, h.justified⟩
      · simp only [Issuer.answer, heldAfter, Function.update_apply, eq_comm (a := host)]
        split
        · rfl
        · exact h.certs host
      · rw [← h.certs]
        exact hfree
  | error e =>
      refine ⟨h.certs, fun host => ?_, h.window, h.justified⟩
      simp only [Issuer.answer, lastFailure, Function.update_apply, eq_comm (a := host)]
      split
      · rfl
      · exact h.failed host

/-- The check ends a call, or lets it pass. -/
theorem allow_cases (h : LoggedIssuer held s) (i : Nat) (c : EnsureCall) :
    (∃ answer, s.allow i c = s.put i c (.done answer)) ∨
      s.allow i c =
          { s.put i c .waiting with events := .allowed s.clock i c.host :: s.events } ∧
        ∀ failure, lastFailure c.host s.events = some failure →
          failure + failureBackoff ≤ s.clock := by
  rw [Issuer.allow]
  split
  · rename_i until_ huntil
    split
    · exact Or.inl ⟨_, rfl⟩
    · rename_i hover
      refine Or.inr ⟨rfl, fun failure hfailure => ?_⟩
      rw [h.failed, hfailure] at huntil
      obtain rfl := Option.some.inj huntil
      exact Nat.le_of_not_lt hover
  · rename_i hnone
    refine Or.inr ⟨rfl, fun failure hfailure => ?_⟩
    rw [h.failed, hfailure] at hnone
    cases hnone

theorem clear (h : LoggedIssuer held s) (i : Nat) (c : EnsureCall) :
    LoggedIssuer held (s.clear i c) := by
  refine ⟨h.certs, fun host => ?_, h.window, h.justified⟩
  simp only [Issuer.clear, lastFailure, Function.update_apply, eq_comm (a := host)]
  split
  · rfl
  · exact h.failed host

end LoggedIssuer

/-! ## Every run -/

namespace Issuer

variable {held : String → Option Int} {s s' : Issuer} {i : Nat} {c : EnsureCall}

/-- What every run keeps. -/
structure Sound (held : String → Option Int) (s : Issuer) : Prop where
  calls : OrderedCalls s.certs s.calls
  passed : PassedCalls s.clock s.events s.calls
  log : LoggedIssuer held s

theorem of_at {phase : EnsurePhase → Bool} (h : s.at_ i phase = some c) :
    s.calls[i]? = some c ∧ phase c.phase = true :=
  Option.filter_eq_some_iff.mp h

/-- A call is over. -/
theorem Sound.done (h : s.Sound held) (hc : s.calls[i]? = some c) (answer : Except String Unit) :
    (s.put i c (.done answer)).Sound held :=
  ⟨h.calls.set hc nofun nofun nofun, h.passed.set nofun, h.log.put i c _⟩

theorem Sound.ask (h : s.Sound held) (host : String) (why : Why) :
    (s.ask host why).Sound held := by
  refine ⟨h.calls.append ?_, h.passed.append ?_, h.log.certs, h.log.failed, h.log.window,
    h.log.justified⟩
  · split <;> rfl
  · split <;> rfl

theorem Sound.allow (h : s.Sound held) (hc : s.calls[i]? = some c) :
    (s.allow i c).Sound held := by
  rcases h.log.allow_cases i c with ⟨answer, hdone⟩ | ⟨hwaits, hpast⟩
  · rw [hdone]
    exact h.done hc answer
  · rw [hwaits]
    exact ⟨h.calls.set hc nofun nofun nofun,
      (h.passed.later (Nat.le_refl _) [_]).set fun _ => ⟨[], _, _, rfl, Nat.le_refl _, hpast⟩,
      h.log.certs, h.log.failed, h.log.window, hpast, h.log.justified⟩

theorem Sound.acquire (h : s.Sound held) (hc : s.calls[i]? = some c)
    (hpass : c.phase.letPass = true) (hfree : s.unlocked c.host = true) :
    (s.put i c .holding).Sound held := by
  refine ⟨h.calls.set hc (fun _ => .inr fun c' hc' hlocks heq => ?_) nofun nofun,
    h.passed.set fun _ => h.passed i c hc hpass, h.log.put i c _⟩
  have := List.all_eq_true.mp hfree c' hc'
  rw [hlocks, heq, beq_self_eq_true] at this
  cases this

/-- An order without a slot is placed. -/
theorem Sound.place (h : s.Sound held) (hc : s.calls[i]? = some c) (hlocks : c.phase.locks = true)
    (hpass : c.phase.letPass = true) (hdemand : c.why ≠ .onDemand)
    (hfree : c.why ≠ .renewal → s.certs c.host = none) {wall : Int}
    (hdue : ∀ notAfter, s.certs c.host = some notAfter → notAfter - wall < renewWithin) :
    (s.place i c wall).Sound held :=
  ⟨h.calls.set hc (fun _ => .inl hlocks) (fun _ => hfree) nofun,
    (h.passed.later (Nat.le_refl _) [_]).set nofun,
    h.log.place (h.passed i c hc hpass) hdemand hfree hdue⟩

theorem Sound.look (h : s.Sound held) (hc : s.calls[i]? = some c)
    (hlocks : c.phase.locks = true) (hpass : c.phase.letPass = true) (wall : Int) :
    (s.look i c wall).Sound held := by
  unfold Issuer.look
  cases hwhy : c.why with
  | renewal =>
      dsimp only
      split
      · exact h.done hc _
      · rename_i hdue
        refine h.place hc hlocks hpass (by rw [hwhy]; nofun) (fun hne => absurd hwhy hne) ?_
        intro notAfter hheld
        rw [hheld, Option.any_some, decide_eq_true_eq] at hdue
        exact Int.not_le.mp hdue
  | onDemand =>
      dsimp only
      split
      · exact h.done hc _
      · rename_i hnone
        rw [Bool.not_eq_true, Option.isSome_eq_false_iff, Option.isNone_iff_eq_none] at hnone
        exact ⟨h.calls.set hc (fun _ => .inl hlocks) (fun _ _ => hnone) fun _ => hwhy,
          h.passed.set fun _ => h.passed i c hc hpass, h.log.put i c _⟩
  | configured =>
      dsimp only
      split
      · exact h.done hc _
      · rename_i hnone
        rw [Bool.not_eq_true, Option.isSome_eq_false_iff, Option.isNone_iff_eq_none] at hnone
        refine h.place hc hlocks hpass (by rw [hwhy]; nofun) (fun _ => hnone) ?_
        intro notAfter hheld
        rw [hnone] at hheld
        cases hheld

theorem Sound.count (h : s.Sound held) (hc : s.calls[i]? = some c)
    (hcounts : c.phase.counts = true) (late : Nat) (wall : Int) :
    (s.count i c late wall).Sound held := by
  have hphase : c.phase = .counting := by
    cases hphase : c.phase <;> rw [hphase] at hcounts <;> first | rfl | cases hcounts
  have hdemand := h.calls.counted i c hc hcounts
  have hlocks := EnsurePhase.locks_of_counts hcounts
  have hnone : s.certs c.host = none :=
    h.calls.fresh i c hc (by rw [hphase]; rfl) (by rw [hdemand]; nofun)
  have hpass := h.passed i c hc (by rw [hphase]; rfl)
  have hlog := h.log.count hpass hdemand hnone late wall
  rw [Issuer.count, Issuer.takeOnDemandSlot] at hlog ⊢
  dsimp only at hlog ⊢
  split at hlog
  · rename_i hspent
    split at hspent
    · exact ⟨h.calls.set hc nofun nofun nofun, h.passed.set nofun, hlog⟩
    · cases hspent
  · rename_i taken htaken
    split at htaken
    · cases htaken
    · obtain rfl := Option.some.inj htaken
      exact ⟨h.calls.set hc (fun _ => .inl hlocks) (fun _ _ => hnone) nofun,
        (h.passed.later (Nat.le_add_right _ _) [_]).set nofun, hlog⟩

theorem Sound.answer (h : s.Sound held) (hc : s.calls[i]? = some c)
    (hfresh : c.phase.fresh = true) (result : Except String Int) :
    (s.answer i c result).Sound held := by
  have hlog := h.log.answer (h.calls.fresh i c hc hfresh) result (i := i)
  cases result with
  | ok notAfter =>
      exact ⟨h.calls.issue hc (EnsurePhase.locks_of_fresh hfresh) notAfter,
        (h.passed.later (Nat.le_refl _) [_]).set nofun, hlog⟩
  | error e =>
      exact ⟨h.calls.set hc nofun nofun nofun,
        (h.passed.later (Nat.le_refl _) [_]).set nofun, hlog⟩

theorem Sound.step {a : IssuerAct} (h : s.Sound held) (hact : s.act a = some s') :
    s'.Sound held := by
  cases a with
  | wait elapsed =>
      obtain rfl := Option.some.inj hact
      exact ⟨h.calls, h.passed.later (Nat.le_add_right _ _) [], h.log.certs, h.log.failed,
        h.log.window.later (Nat.le_add_right _ _), h.log.justified⟩
  | ask host why =>
      obtain rfl := Option.some.inj hact
      exact h.ask host why
  | allow i =>
      obtain ⟨c, hc, rfl⟩ := Option.map_eq_some_iff.mp hact
      exact h.allow (of_at hc).1
  | acquire i =>
      obtain ⟨c, hc, hact⟩ := Option.bind_eq_some_iff.mp hact
      obtain ⟨hc, hphase⟩ := of_at hc
      split at hact
      · rename_i hfree
        obtain rfl := Option.some.inj hact
        refine h.acquire hc ?_ hfree
        cases hp : c.phase <;> rw [hp] at hphase <;> first | rfl | cases hphase
      · cases hact
  | look i wall =>
      obtain ⟨c, hc, rfl⟩ := Option.map_eq_some_iff.mp hact
      obtain ⟨hc, hphase⟩ := of_at hc
      have hholding : c.phase = .holding := by
        cases hp : c.phase <;> rw [hp] at hphase <;> first | rfl | cases hphase
      exact h.look hc (by rw [hholding]; rfl) (by rw [hholding]; rfl) wall
  | count i late wall =>
      obtain ⟨c, hc, rfl⟩ := Option.map_eq_some_iff.mp hact
      obtain ⟨hc, hphase⟩ := of_at hc
      exact h.count hc hphase late wall
  | answer i result =>
      obtain ⟨c, hc, rfl⟩ := Option.map_eq_some_iff.mp hact
      obtain ⟨hc, hphase⟩ := of_at hc
      refine h.answer hc ?_ result
      cases hp : c.phase <;> rw [hp] at hphase <;> first | rfl | cases hphase
  | clear i =>
      obtain ⟨c, hc, rfl⟩ := Option.map_eq_some_iff.mp hact
      exact ⟨h.calls.set (of_at hc).1 nofun nofun nofun,
        (h.passed.later (Nat.le_refl _) [_]).set nofun, h.log.clear i c⟩

theorem Sound.start (held : String → Option Int) (clock : Nat) :
    ({ clock := clock, certs := held } : Issuer).Sound held where
  calls := ⟨nofun, nofun, nofun⟩
  passed := nofun
  log := ⟨fun _ => rfl, fun _ => rfl, .start _ _ _, trivial⟩

end Issuer

/-- **A certificate is obtained once**: in every run one hostname has one order
at a time, a certificate that is held is ordered again only by a renewal near
its end, an order is placed only by a call that was let pass an hour after any
failure it could know of, and in no hour are more than twenty orders placed on
demand. -/
theorem one_order_at_a_time {held : String → Option Int} {s : Issuer}
    (h : (issuerSys held).Reachable s) :
    s.OneOrder ∧ Justified held s.events ∧
      ∀ start, ((onDemandAt s.events).filter fun t =>
        decide (start ≤ t ∧ t ≤ start + onDemandWindow)).length ≤ onDemandPerHour := by
  have hsound : s.Sound held := by
    refine h.invariant ?_ fun s a s' _ hsound hstep => hsound.step hstep
    rintro s ⟨clock, rfl⟩
    exact .start held clock
  refine ⟨hsound.calls.apart, hsound.log.justified, fun start => ?_⟩
  have hlength := hsound.log.window.length_le start
  rwa [List.filter_reverse, List.length_reverse] at hlength

/-- Two handshakes for one hostname, the second of which finds it held. -/
def sharedOrder : List IssuerAct :=
  [.ask "app.example.com" .onDemand, .allow 0, .ask "app.example.com" .onDemand, .allow 1,
    .acquire 1, .look 1 0, .count 1 0 0, .answer 1 (.ok 7776000), .clear 1, .acquire 0, .look 0 0]

theorem one_order_shared : ∃ s, (issuerSys fun _ => none).Reachable s ∧
    onDemandAt s.events = [0] ∧ s.OneOrder ∧ Justified (fun _ => none) s.events ∧
      ∀ start, ((onDemandAt s.events).filter fun t =>
        decide (start ≤ t ∧ t ≤ start + onDemandWindow)).length ≤ onDemandPerHour := by
  have hrun := @Sys.Reachable.foldlM _ _ (issuerSys fun _ => none) _ _ _ (.init ⟨0, rfl⟩)
    sharedOrder (fun _ _ _ hstep => hstep) rfl
  exact ⟨_, hrun, rfl, one_order_at_a_time hrun⟩

/-! ## Who came before the failure -/

namespace Issuer

/-- A call of an operator's hostname. -/
def configuredCall (host : String) (phase : EnsurePhase) : EnsureCall :=
  { host := host, why := .configured, phase := phase }

/-- The order of call `i` was placed at instant 0, and failed with `e`. -/
def TriedAt (host e : String) (i : Nat) (s : Issuer) : Prop :=
  s.calls[i]? = some (configuredCall host (.done (.error e))) ∧
    .placed 0 i host .configured none 0 ∈ s.events

/-- Of `k` calls so many have tried, and those after them are waiting. -/
structure Retrying (host e : String) (k failures : Nat) (s : Issuer) : Prop where
  clock : s.clock = 0
  certs : s.certs host = none
  length : s.calls.length = k
  unlocked : ∀ c ∈ s.calls, c.phase.locks = false
  tried : ∀ i < failures, TriedAt host e i s
  waiting : ∀ i, failures ≤ i → i < k → s.calls[i]? = some (configuredCall host .waiting)
  failures : s.events.count (.failed 0 host) = failures

variable {held : String → Option Int} {host e : String} {s : Issuer} {k m : Nat}

theorem at_of {i : Nat} {c : EnsureCall} {phase : EnsurePhase → Bool} (hc : s.calls[i]? = some c)
    (hphase : phase c.phase = true) : s.at_ i phase = some c :=
  Option.filter_eq_some_iff.mpr ⟨hc, hphase⟩

/-- One more call comes while nothing has failed. -/
theorem Retrying.come (h : s.Retrying host e k 0) (hs : (issuerSys held).Reachable s)
    (hnone : s.failed host = none) :
    ∃ s', (issuerSys held).Reachable s' ∧ s'.Retrying host e (k + 1) 0 ∧ s'.failed host = none := by
  have hlen := h.length
  have hask : (s.ask host .configured).calls = s.calls ++ [configuredCall host .asked] := by
    rw [ask, h.certs]
    rfl
  have hcall : (s.ask host .configured).calls[k]? = some (configuredCall host .asked) := by
    rw [hask, List.getElem?_append_right (Nat.le_of_eq hlen), hlen, Nat.sub_self]
    rfl
  have hallow : (s.ask host .configured).act (.allow k) = some
      { s with
        calls := (s.calls ++ [configuredCall host .asked]).set k (configuredCall host .waiting)
        events := .allowed s.clock k host :: s.events } := by
    rw [← hask, act, at_of hcall rfl, Option.map_some, allow]
    rw [show (s.ask host .configured).failed (configuredCall host .asked).host = none from hnone]
    rfl
  have hasked : s.act (.ask host .configured) = some (s.ask host .configured) := rfl
  refine ⟨_, (hs.step hasked).step hallow, ⟨h.clock, h.certs, ?_, ?_, nofun, ?_, ?_⟩, hnone⟩
  · rw [List.length_set, List.length_append, hlen, List.length_singleton]
  · intro c hc
    rcases List.mem_or_eq_of_mem_set hc with hc | rfl
    · rcases List.mem_append.mp hc with hc | hc
      · exact h.unlocked c hc
      · rw [List.mem_singleton.mp hc]
        rfl
    · rfl
  · intro i hi hik
    rcases Nat.lt_succ_iff_lt_or_eq.mp hik with hlt | rfl
    · rw [List.getElem?_set_ne (Nat.ne_of_gt hlt), List.getElem?_append_left (hlen ▸ hlt)]
      exact h.waiting i hi hlt
    · exact List.getElem?_set_self (by rw [List.length_append, hlen]; exact Nat.lt_succ_self _)
  · have hother : IssuerEvent.allowed s.clock k host ≠ .failed 0 host := nofun
    exact (List.count_cons_of_ne hother).trans h.failures

/-- The next call that is waiting fails too. -/
theorem Retrying.fail (h : s.Retrying host e k m) (hs : (issuerSys held).Reachable s)
    (hm : m < k) : ∃ s', (issuerSys held).Reachable s' ∧ s'.Retrying host e k (m + 1) := by
  have hwaits := h.waiting m (Nat.le_refl m) hm
  have hlt := (List.getElem?_eq_some_iff.mp hwaits).1
  have hfree : s.unlocked host = true := by
    refine List.all_eq_true.mpr fun c hc => ?_
    rw [h.unlocked c hc]
    rfl
  have hacquire : s.act (.acquire m) =
      some { s with calls := s.calls.set m (configuredCall host .holding) } := by
    rw [act, at_of hwaits rfl]
    exact if_pos hfree
  have hlook : { s with calls := s.calls.set m (configuredCall host .holding) : Issuer }.act
      (.look m 0) = some { s with
        calls := (s.calls.set m (configuredCall host .holding)).set m
          (configuredCall host .ordering)
        events := .placed s.clock m host .configured none 0 :: s.events } := by
    rw [act, at_of (List.getElem?_set_self hlt) rfl, Option.map_some, look]
    simp only [configuredCall, h.certs, place, put, Option.isSome_none, Bool.false_eq_true,
      if_false]
  have hanswer : { s with
        calls := (s.calls.set m (configuredCall host .holding)).set m
          (configuredCall host .ordering)
        events := .placed s.clock m host .configured none 0 :: s.events : Issuer }.act
      (.answer m (.error e)) = some { s with
        failed := Function.update s.failed host (some (s.clock + failureBackoff))
        calls := ((s.calls.set m (configuredCall host .holding)).set m
          (configuredCall host .ordering)).set m (configuredCall host (.done (.error e)))
        events := .failed s.clock host :: .placed s.clock m host .configured none 0 ::
          s.events } := by
    rw [act, at_of (List.getElem?_set_self (by rwa [List.length_set])) rfl]
    rfl
  refine ⟨_, ((hs.step hacquire).step hlook).step hanswer, h.clock, h.certs, ?_, ?_, ?_, ?_, ?_⟩
  · rw [List.length_set, List.length_set, List.length_set, h.length]
  · intro c hc
    rw [List.set_set, List.set_set] at hc
    rcases List.mem_or_eq_of_mem_set hc with hc | rfl
    · exact h.unlocked c hc
    · rfl
  · intro i hi
    rw [TriedAt, List.set_set, List.set_set, h.clock]
    rcases Nat.lt_succ_iff_lt_or_eq.mp hi with hlt' | rfl
    · obtain ⟨hcall, hplaced⟩ := h.tried i hlt'
      refine ⟨?_, List.mem_cons_of_mem _ (List.mem_cons_of_mem _ hplaced)⟩
      rw [List.getElem?_set_ne (Nat.ne_of_gt hlt')]
      exact hcall
    · exact ⟨List.getElem?_set_self hlt, List.mem_cons_of_mem _ List.mem_cons_self⟩
  · intro i hi hik
    have hne : m ≠ i := Nat.ne_of_lt hi
    rw [List.getElem?_set_ne hne, List.getElem?_set_ne hne, List.getElem?_set_ne hne]
    exact h.waiting i (Nat.le_of_succ_le hi) hik
  · have hother : IssuerEvent.placed 0 m host .configured none 0 ≠ .failed 0 host := nofun
    rw [h.clock, List.count_cons_self, List.count_cons_of_ne hother, h.failures]

end Issuer

/-- **A failure holds back only who comes after it**: of any number of calls
that were waiting for the lock each places an order, at the instant of the
failure before, and fails. -/
theorem waiters_try_again (held : String → Option Int) (host e : String) (k : Nat)
    (hnone : held host = none) :
    ∃ s, (issuerSys held).Reachable s ∧ s.clock = 0 ∧ s.calls.length = k ∧
      (∀ i < k, Issuer.TriedAt host e i s) ∧ s.events.count (.failed 0 host) = k := by
  have hwaiting : ∀ n, ∃ s, (issuerSys held).Reachable s ∧ s.Retrying host e n 0 ∧
      s.failed host = none := by
    intro n
    induction n with
    | zero => exact ⟨_, .init ⟨0, rfl⟩, ⟨rfl, hnone, rfl, nofun, nofun, nofun, rfl⟩, rfl⟩
    | succ n ih =>
        obtain ⟨s, hs, h, hfailed⟩ := ih
        exact h.come hs hfailed
  have hfailing : ∀ m ≤ k, ∃ s, (issuerSys held).Reachable s ∧ s.Retrying host e k m := by
    intro m hm
    induction m with
    | zero =>
        obtain ⟨s, hs, h, -⟩ := hwaiting k
        exact ⟨s, hs, h⟩
    | succ m ih =>
        obtain ⟨s, hs, h⟩ := ih (Nat.le_of_succ_le hm)
        exact h.fail hs hm
  obtain ⟨s, hs, h⟩ := hfailing k (Nat.le_refl k)
  exact ⟨s, hs, h.clock, h.length, h.tried, h.failures⟩

theorem waiters_try_again_five : ∃ s, (issuerSys fun _ => none).Reachable s ∧ s.clock = 0 ∧
    s.calls.length = 5 ∧
      (∀ i < 5, Issuer.TriedAt "down.example.com" "the order was refused" i s) ∧
      s.events.count (.failed 0 "down.example.com") = 5 :=
  waiters_try_again (fun _ => none) "down.example.com" "the order was refused" 5 rfl

end Aperio
