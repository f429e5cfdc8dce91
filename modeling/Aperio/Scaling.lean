import Mathlib.Algebra.Group.Nat.Defs
import Mathlib.Data.List.AList
import Mathlib.Logic.Function.Basic
import Aperio.Run

/-!
# Asking for capacity once

`scaling.rs`. A record says which endpoint to call when a bind needs
capacity. `ScalingRuntime::begin` is the gate: it answers `Fire` to one caller
and sets `waking`, and that caller makes the call and clears the flag in
`finish`. Between the two lock regions lies an outbound request, inside a
future that is dropped when the visitor who caused it hangs up.

`request_capacity` is one task here for each call of it, with a step for each
lock region and one for each await in between, where it may also be dropped.
Which call it is and what the endpoint answers is the outside world's, and so
is every reading of the clock. `log` is not in the source: it is the answers
of the gate and the outcomes recorded, in the order they came.

The samples the background loop keeps beside these fields, and what a call
carries besides the numbers, are left out.
-/

namespace Aperio

/-! ## The runtime -/

/-- The part of a record that `request_capacity` reads. -/
structure ScalingRecord where
  id : String
  hostname : String := ""
  min : Nat := 0
  cooldownSecs : Nat := 60
deriving DecidableEq

inductive Reason where
  | coldStart
  | scaleOut
  | scaleIn
deriving DecidableEq

/-- The state of one bind. Instants are seconds of the monotonic clock. -/
structure BindState where
  /-- Set while a call is in flight. -/
  waking : Bool := false
  cooldownUntil : Option Nat := none
  failures : Nat := 0
  disarmed : Bool := false
deriving DecidableEq

def breakerThreshold : Nat := 5

def maxBackoffSecs : Nat := 15 * 60

def maxConcurrentCalls : Nat := 8

structure ScalingRuntime where
  binds : AList fun _ : String => BindState := ∅

/-- What `begin` decided. -/
inductive Begin where
  | fire
  | alreadyWaking
  | skip
deriving DecidableEq

namespace ScalingRuntime

/-- The bind's state, or the default one. -/
def entry (runtime : ScalingRuntime) (id : String) : BindState :=
  (runtime.binds.lookup id).getD {}

def put (runtime : ScalingRuntime) (id : String) (state : BindState) : ScalingRuntime :=
  { binds := runtime.binds.insert id state }

/-- The single-flight gate. A bind seen for the first time gets its default
state, whatever the answer. -/
def begin (runtime : ScalingRuntime) (record : ScalingRecord) (now : Nat) :
    Begin × ScalingRuntime :=
  let state := runtime.entry record.id
  if state.disarmed then (.skip, runtime.put record.id state)
  else if state.waking then (.alreadyWaking, runtime.put record.id state)
  else if state.cooldownUntil.any (now < ·) then (.skip, runtime.put record.id state)
  else (.fire, runtime.put record.id { state with waking := true })

/-- How long a bind is left alone after its `failures`-th failure. -/
def backoff (cooldown failures : Nat) : Nat :=
  max (min (min (cooldown * 2 ^ min failures 6) (2 ^ 64 - 1)) maxBackoffSecs) 1

/-- Records the outcome of a call and reopens the gate. -/
def finish (runtime : ScalingRuntime) (id : String) (success : Bool) (cooldown now : Nat) :
    ScalingRuntime :=
  let state := { runtime.entry id with waking := false }
  if success then
    runtime.put id { state with failures := 0, cooldownUntil := some (now + cooldown) }
  else
    let failures := min (state.failures + 1) (2 ^ 32 - 1)
    runtime.put id { state with
      failures := failures
      cooldownUntil := some (now + backoff cooldown failures)
      disarmed := state.disarmed || decide (breakerThreshold ≤ failures) }

def isDisarmed (runtime : ScalingRuntime) (id : String) : Bool :=
  (runtime.binds.lookup id).any (·.disarmed)

def isBackingOff (runtime : ScalingRuntime) (id : String) : Bool :=
  (runtime.binds.lookup id).any fun state => decide (0 < state.failures)

/-- Re-arms a record after a change to it. -/
def rearm (runtime : ScalingRuntime) (id : String) : ScalingRuntime :=
  runtime.put id { runtime.entry id with
    disarmed := false
    failures := 0
    cooldownUntil := none }

/-- The record was deleted. -/
def forget (runtime : ScalingRuntime) (id : String) : ScalingRuntime :=
  { binds := runtime.binds.erase id }

/-- Whether the gate of a bind is closed by a call in flight. -/
def waking (runtime : ScalingRuntime) (id : String) : Bool :=
  (runtime.entry id).waking

end ScalingRuntime

/-! ## One caller -/

/-- Whether a visitor is worth holding. -/
inductive CapacityAsk where
  | hold
  | doNotHold
deriving DecidableEq

/-- The capacity a call asks for. -/
def desiredCapacity (record : ScalingRecord) (reason : Reason) (current : Nat) : Nat :=
  match reason with
  | .coldStart => 1
  | .scaleOut => min (current + 1) (2 ^ 32 - 1)
  | .scaleIn => max (max (current - 1) record.min) 1

/-- What a caller carries from the gate to the end of its call; `now` is the
instant it arrived at. -/
structure ScalingCall where
  record : ScalingRecord
  reason : Reason
  current : Nat
  now : Nat
deriving DecidableEq

/-- Where one `request_capacity` stands. -/
inductive CallerAt where
  | idle
  /-- Answered `Skip`, and about to look at the record once more. -/
  | skipped (record : ScalingRecord)
  /-- Answered `Fire`. -/
  | fired (call : ScalingCall)
  /-- No call may start now: waiting for the lock to say so. -/
  | crowded (call : ScalingCall)
  /-- Asked the endpoint for `desired` instances. -/
  | calling (call : ScalingCall) (desired : Nat)
  /-- The endpoint answered, or could not be reached: waiting for the lock. -/
  | answered (call : ScalingCall) (success : Bool)
  | done (ask : CapacityAsk)
  /-- The future was dropped. -/
  | cancelled
deriving DecidableEq

/-- The record a caller was answered `Fire` for and has not finished. -/
def CallerAt.owes : CallerAt → Option String
  | .fired call => some call.record.id
  | .crowded call => some call.record.id
  | .calling call _ => some call.record.id
  | .answered call _ => some call.record.id
  | _ => none

/-- What the gate answered and what was recorded. -/
inductive ScalingEvent where
  | fire (id : String) (caller : Nat)
  | finish (id : String) (caller : Nat)
deriving DecidableEq

structure ScalingState where
  runtime : ScalingRuntime := {}
  /-- Permits left of `scaling_calls`. -/
  freeCalls : Nat := maxConcurrentCalls
  callers : Nat → CallerAt := fun _ => .idle
  log : List ScalingEvent := []

inductive ScalingAct where
  | begin (caller : Nat) (record : ScalingRecord) (reason : Reason) (current now : Nat)
  | look (caller : Nat)
  | permit (caller : Nat)
  | answer (caller : Nat) (success : Bool)
  | finish (caller : Nat)
  | cancel (caller : Nat)
  | rearm (id : String)
  | forget (id : String)

namespace ScalingState

def setCaller (s : ScalingState) (caller : Nat) (at' : CallerAt) : ScalingState :=
  { s with callers := Function.update s.callers caller at' }

/-- Records an outcome: the second lock region of a caller. -/
def finishCall (s : ScalingState) (caller : Nat) (call : ScalingCall) (success : Bool) :
    ScalingState :=
  { s.setCaller caller (.done (if success then .hold else .doNotHold)) with
    runtime := s.runtime.finish call.record.id success call.record.cooldownSecs call.now
    log := s.log ++ [.finish call.record.id caller] }

def step (s : ScalingState) : ScalingAct → Option ScalingState
  | .begin caller record reason current now =>
    if s.callers caller = .idle then
      match s.runtime.begin record now with
      | (.fire, runtime) => some { s.setCaller caller (.fired ⟨record, reason, current, now⟩) with
          runtime := runtime
          log := s.log ++ [.fire record.id caller] }
      -- somebody else is calling: wait on their result
      | (.alreadyWaking, runtime) => some { s.setCaller caller (.done .hold) with
          runtime := runtime }
      | (.skip, runtime) => some { s.setCaller caller (.skipped record) with runtime := runtime }
    else none
  | .look caller =>
    match s.callers caller with
    | .skipped record => some (s.setCaller caller (.done
        (if s.runtime.isDisarmed record.id || s.runtime.isBackingOff record.id then .doNotHold
         else .hold)))
    | _ => none
  | .permit caller =>
    match s.callers caller with
    | .fired call =>
      if 0 < s.freeCalls then
        some { s.setCaller caller (.calling call
            (desiredCapacity call.record call.reason call.current)) with
          freeCalls := s.freeCalls - 1 }
      else some (s.setCaller caller (.crowded call))
    | _ => none
  | .answer caller success =>
    match s.callers caller with
    | .calling call _ => some { s.setCaller caller (.answered call success) with
        freeCalls := s.freeCalls + 1 }
    | _ => none
  | .finish caller =>
    match s.callers caller with
    | .crowded call => some (s.finishCall caller call false)
    | .answered call success => some (s.finishCall caller call success)
    | _ => none
  | .cancel caller =>
    -- at an await: the permit of a call under way comes back, the flag does not
    match s.callers caller with
    | .calling _ _ => some { s.setCaller caller .cancelled with freeCalls := s.freeCalls + 1 }
    | .skipped _ => some (s.setCaller caller .cancelled)
    | .crowded _ => some (s.setCaller caller .cancelled)
    | .answered _ _ => some (s.setCaller caller .cancelled)
    | _ => none
  | .rearm id => some { s with runtime := s.runtime.rearm id }
  | .forget id => some { s with runtime := s.runtime.forget id }

end ScalingState

/-- Every interleaving of callers, re-arms and deletions. -/
def scalingSys : Sys ScalingState ScalingAct where
  init s := s = {}
  step s a s' := s.step a = some s'

/-! ## The gate and the flag -/

section Runtime

variable {runtime : ScalingRuntime} {id : String}

@[simp] theorem waking_put (runtime : ScalingRuntime) (id other : String) (state : BindState) :
    (runtime.put id state).waking other =
      if other = id then state.waking else runtime.waking other := by
  unfold ScalingRuntime.waking ScalingRuntime.entry ScalingRuntime.put
  by_cases h : other = id
  · rw [if_pos h, h, AList.lookup_insert, Option.getD_some]
  · rw [if_neg h, AList.lookup_insert_ne h]

/-- Writing a bind's state back with its flag as it was changes no flag. -/
theorem waking_put_same {state : BindState} (h : state.waking = runtime.waking id)
    (other : String) : (runtime.put id state).waking other = runtime.waking other := by
  rw [waking_put]
  split
  · rename_i hid
    rw [h, hid]
  · rfl

theorem waking_finish (success : Bool) (cooldown now : Nat) (other : String) :
    (runtime.finish id success cooldown now).waking other =
      if other = id then false else runtime.waking other := by
  simp only [ScalingRuntime.finish]
  split <;> rw [waking_put]

theorem waking_rearm (other : String) :
    (runtime.rearm id).waking other = runtime.waking other := by
  refine waking_put_same ?_ other
  rfl

theorem waking_forget (h : runtime.waking id = false) (other : String) :
    (runtime.forget id).waking other = runtime.waking other := by
  by_cases hid : other = id
  · subst hid
    rw [h]
    simp [ScalingRuntime.waking, ScalingRuntime.entry, ScalingRuntime.forget]
  · unfold ScalingRuntime.waking ScalingRuntime.entry ScalingRuntime.forget
    rw [AList.lookup_erase_ne hid]

/-- **The gate.** It fires only where the flag was clear, and sets it there;
every other answer leaves all flags alone. -/
theorem begin_cases {record : ScalingRecord} {now : Nat} {answer : Begin}
    {runtime' : ScalingRuntime} (h : runtime.begin record now = (answer, runtime')) :
    (answer = .fire ∧ runtime.waking record.id = false ∧
      ∀ other, runtime'.waking other =
        if other = record.id then true else runtime.waking other) ∨
    (answer ≠ .fire ∧ ∀ other, runtime'.waking other = runtime.waking other) := by
  unfold ScalingRuntime.begin at h
  extract_lets state at h
  have hput : ∀ other, (runtime.put record.id state).waking other = runtime.waking other :=
    waking_put_same rfl
  split at h
  · obtain ⟨rfl, rfl⟩ := Prod.mk.inj h
    exact Or.inr ⟨by decide, hput⟩
  · split at h
    · obtain ⟨rfl, rfl⟩ := Prod.mk.inj h
      exact Or.inr ⟨by decide, hput⟩
    · rename_i hclear
      split at h
      · obtain ⟨rfl, rfl⟩ := Prod.mk.inj h
        exact Or.inr ⟨by decide, hput⟩
      · obtain ⟨rfl, rfl⟩ := Prod.mk.inj h
        exact Or.inl ⟨rfl, (Bool.not_eq_true _).mp hclear, fun other => waking_put _ _ _ _⟩

end Runtime

/-! ## What the log says -/

/-- A caller was answered `Fire` for a record and recorded no outcome
since. -/
def Unfinished (log : List ScalingEvent) (id : String) (caller : Nat) : Prop :=
  ∃ pre post, log = pre ++ .fire id caller :: post ∧ .finish id caller ∉ post

theorem not_unfinished_nil {id : String} {caller : Nat} : ¬Unfinished [] id caller := by
  rintro ⟨pre, post, h, -⟩
  simp at h

/-- One more event: it is the answer itself, or it is not the outcome. -/
theorem unfinished_append {log : List ScalingEvent} {event : ScalingEvent} {id : String}
    {caller : Nat} (h : Unfinished (log ++ [event]) id caller) :
    event = .fire id caller ∨ (Unfinished log id caller ∧ event ≠ .finish id caller) := by
  obtain ⟨pre, post, hlog, hpost⟩ := h
  rcases List.eq_nil_or_concat post with rfl | ⟨post, last, rfl⟩
  · obtain ⟨-, hlast⟩ := List.append_inj' hlog rfl
    exact Or.inl (List.cons.inj hlast).1
  · rw [List.concat_eq_append] at hlog hpost
    have hcut : log ++ [event] = (pre ++ .fire id caller :: post) ++ [last] := by
      rw [hlog, List.append_assoc, List.cons_append]
    obtain ⟨hrest, hlast⟩ := List.append_inj' hcut rfl
    obtain rfl := (List.cons.inj hlast).1
    simp only [List.mem_append, List.mem_singleton, not_or] at hpost
    exact Or.inr ⟨⟨pre, post, hrest, hpost.1⟩, fun he => hpost.2 he.symm⟩

/-- Between two answers `Fire` for one record lies the outcome of the
first. -/
def SingleFlight (log : List ScalingEvent) : Prop :=
  AtEach log fun before event => ∀ id later, event = .fire id later →
    ∀ caller, ¬Unfinished before id caller

/-! ## Undisturbed runs -/

/-- No caller is dropped between `Fire` and the outcome, and no record is
forgotten while its call is in flight. -/
def Undisturbed (s : ScalingState) (a : ScalingAct) : Prop :=
  match a with
  | .cancel caller => (s.callers caller).owes = none
  | .forget id => s.runtime.waking id = false
  | _ => True

instance (s : ScalingState) (a : ScalingAct) : Decidable (Undisturbed s a) := by
  unfold Undisturbed
  split <;> infer_instance

/-- What holds of the flags, the callers and the log. -/
structure ScalingState.Flying (s : ScalingState) : Prop where
  waking : ∀ id, s.runtime.waking id = true ↔ ∃ caller, (s.callers caller).owes = some id
  once : ∀ id caller other, (s.callers caller).owes = some id →
    (s.callers other).owes = some id → caller = other
  unfinished : ∀ id caller, Unfinished s.log id caller → (s.callers caller).owes = some id
  single : SingleFlight s.log

theorem flying_init : ({} : ScalingState).Flying where
  waking id := by
    simp [ScalingRuntime.waking, ScalingRuntime.entry, CallerAt.owes]
  once id caller other h := by cases h
  unfinished id caller h := absurd h not_unfinished_nil
  single := atEach_nil

/-- A step that moves no flag, settles no call and logs nothing. -/
theorem ScalingState.Flying.quiet {s s' : ScalingState} (h : s.Flying)
    (hwaking : ∀ id, s'.runtime.waking id = s.runtime.waking id)
    (howes : ∀ caller, (s'.callers caller).owes = (s.callers caller).owes)
    (hlog : s'.log = s.log) : s'.Flying where
  waking id := by
    simp only [hwaking, howes]
    exact h.waking id
  once id caller other hc ho := by
    rw [howes] at hc ho
    exact h.once id caller other hc ho
  unfinished id caller hu := by
    rw [hlog] at hu
    rw [howes]
    exact h.unfinished id caller hu
  single := by
    rw [hlog]
    exact h.single

/-- Moving one caller between two places that answer for the same record. -/
theorem owes_setCaller {s : ScalingState} {caller : Nat} {place : CallerAt}
    (h : place.owes = (s.callers caller).owes) (other : Nat) :
    ((s.setCaller caller place).callers other).owes = (s.callers other).owes := by
  by_cases hc : other = caller
  · subst hc
    simpa [ScalingState.setCaller] using h
  · simp [ScalingState.setCaller, Function.update_of_ne hc]

theorem owes_setCaller_iff {s : ScalingState} {caller other : Nat} {place : CallerAt}
    {id : String} : ((s.setCaller caller place).callers other).owes = some id ↔
      (other = caller ∧ place.owes = some id) ∨
        (other ≠ caller ∧ (s.callers other).owes = some id) := by
  by_cases hc : other = caller
  · subst hc
    simp [ScalingState.setCaller]
  · simp [ScalingState.setCaller, hc]

/-- A caller moves between two places that answer for the same record. -/
theorem ScalingState.Flying.moved {s : ScalingState} {caller : Nat} {place : CallerAt}
    (h : s.Flying) (freeCalls : Nat) (howes : place.owes = (s.callers caller).owes) :
    ({ s.setCaller caller place with freeCalls := freeCalls } : ScalingState).Flying :=
  h.quiet (fun _ => rfl) (owes_setCaller howes) rfl

/-- While the flag is clear nobody is in flight. -/
theorem ScalingState.Flying.free {s : ScalingState} {id : String} (h : s.Flying)
    (hclear : s.runtime.waking id = false) (caller : Nat) : (s.callers caller).owes ≠ some id := by
  intro ho
  have hset := (h.waking id).mpr ⟨caller, ho⟩
  rw [hclear] at hset
  cases hset

/-- The gate fires: the flag was clear, so nobody was in flight. -/
theorem ScalingState.Flying.fired {s : ScalingState} {caller : Nat} {call : ScalingCall}
    {runtime : ScalingRuntime} (h : s.Flying) (hidle : s.callers caller = .idle)
    (hclear : s.runtime.waking call.record.id = false)
    (hset : ∀ other, runtime.waking other =
      if other = call.record.id then true else s.runtime.waking other) :
    ({ s.setCaller caller (.fired call) with
      runtime := runtime
      log := s.log ++ [.fire call.record.id caller] } : ScalingState).Flying := by
  have hnone := h.free hclear
  -- a caller owes the record now if it is this one, and else what it owed
  have howes : ∀ other id, (((s.setCaller caller (.fired call)).callers other).owes = some id ↔
      (other = caller ∧ id = call.record.id) ∨
        (other ≠ caller ∧ (s.callers other).owes = some id)) := by
    intro other id
    rw [owes_setCaller_iff]
    simp [CallerAt.owes, eq_comm]
  have hother : ∀ other id, (s.callers other).owes = some id → other ≠ caller := by
    rintro other id ho rfl
    rw [hidle] at ho
    cases ho
  refine ⟨?_, ?_, ?_, ?_⟩
  · intro id
    simp only [hset, howes]
    split
    · rename_i hid
      simp only [true_iff]
      exact ⟨caller, Or.inl ⟨rfl, hid⟩⟩
    · rename_i hid
      rw [h.waking id]
      constructor
      · rintro ⟨other, ho⟩
        exact ⟨other, Or.inr ⟨hother other id ho, ho⟩⟩
      · rintro ⟨other, ⟨-, rfl⟩ | ⟨-, ho⟩⟩
        · exact absurd rfl hid
        · exact ⟨other, ho⟩
  · intro id a b ha hb
    rw [howes] at ha hb
    rcases ha with ⟨rfl, rfl⟩ | ⟨-, ha⟩
    · rcases hb with ⟨rfl, -⟩ | ⟨-, hb⟩
      · rfl
      · exact absurd hb (hnone b)
    · rcases hb with ⟨-, rfl⟩ | ⟨-, hb⟩
      · exact absurd ha (hnone a)
      · exact h.once id a b ha hb
  · intro id other hu
    rw [howes]
    rcases unfinished_append hu with he | ⟨hu, -⟩
    · obtain ⟨rfl, rfl⟩ := ScalingEvent.fire.inj he
      exact Or.inl ⟨rfl, rfl⟩
    · have ho := h.unfinished id other hu
      exact Or.inr ⟨hother other id ho, ho⟩
  · refine atEach_append.mpr ⟨h.single, ?_⟩
    intro id later he other hu
    obtain ⟨rfl, rfl⟩ := ScalingEvent.fire.inj he
    exact hnone other (h.unfinished _ other hu)

/-- The caller in flight records its outcome: it was the only one. -/
theorem ScalingState.Flying.finished {s : ScalingState} {caller : Nat} {call : ScalingCall}
    (h : s.Flying) (success : Bool) (howed : (s.callers caller).owes = some call.record.id) :
    (s.finishCall caller call success).Flying := by
  have howes : ∀ other id, (((s.finishCall caller call success).callers other).owes = some id ↔
      (id ≠ call.record.id ∧ (s.callers other).owes = some id)) := by
    intro other id
    refine owes_setCaller_iff.trans ?_
    constructor
    · rintro (⟨-, ho⟩ | ⟨hc, ho⟩)
      · cases ho
      · refine ⟨?_, ho⟩
        rintro rfl
        exact hc (h.once _ other caller ho howed)
    · rintro ⟨hne, ho⟩
      refine Or.inr ⟨?_, ho⟩
      rintro rfl
      exact hne (Option.some.inj (ho.symm.trans howed))
  refine ⟨?_, ?_, ?_, ?_⟩
  · intro id
    simp only [howes]
    show (s.runtime.finish _ _ _ _).waking id = true ↔ _
    rw [waking_finish]
    split
    · rename_i hid
      simp [hid]
    · rename_i hid
      rw [h.waking id]
      simp [hid]
  · intro id a b ha hb
    rw [howes] at ha hb
    exact h.once id a b ha.2 hb.2
  · intro id other hu
    rw [howes]
    rcases unfinished_append hu with he | ⟨hu, hne⟩
    · cases he
    · have ho := h.unfinished id other hu
      refine ⟨?_, ho⟩
      rintro rfl
      obtain rfl := h.once _ other caller ho howed
      exact hne rfl
  · refine atEach_append.mpr ⟨h.single, ?_⟩
    intro id later he
    cases he

/-- **Step lemma.** An undisturbed step keeps every flag with its caller. -/
theorem scalingStep_flying {s s' : ScalingState} {a : ScalingAct} (h : s.Flying)
    (hstep : s.step a = some s') (hund : Undisturbed s a) : s'.Flying := by
  cases a with
  | begin caller record reason current now =>
      simp only [ScalingState.step] at hstep
      split at hstep
      · rename_i hidle
        split at hstep
        · rename_i runtime hbegin
          obtain rfl := Option.some.inj hstep
          obtain ⟨-, hclear, hset⟩ | ⟨hne, -⟩ := begin_cases hbegin
          · exact @ScalingState.Flying.fired s caller ⟨record, reason, current, now⟩ runtime h hidle
              hclear hset
          · exact absurd rfl hne
        · rename_i runtime hbegin
          obtain rfl := Option.some.inj hstep
          obtain ⟨he, -⟩ | ⟨-, hsame⟩ := begin_cases hbegin
          · cases he
          · exact h.quiet hsame (owes_setCaller (by rw [hidle]; rfl)) rfl
        · rename_i runtime hbegin
          obtain rfl := Option.some.inj hstep
          obtain ⟨he, -⟩ | ⟨-, hsame⟩ := begin_cases hbegin
          · cases he
          · exact h.quiet hsame (owes_setCaller (by rw [hidle]; rfl)) rfl
      · cases hstep
  | look caller =>
      simp only [ScalingState.step] at hstep
      split at hstep
      · rename_i record hat
        obtain rfl := Option.some.inj hstep
        exact h.moved _ (by rw [hat]; rfl)
      · cases hstep
  | permit caller =>
      simp only [ScalingState.step] at hstep
      split at hstep
      · rename_i call hat
        split at hstep
        · obtain rfl := Option.some.inj hstep
          exact h.moved _ (by rw [hat]; rfl)
        · obtain rfl := Option.some.inj hstep
          exact h.moved _ (by rw [hat]; rfl)
      · cases hstep
  | answer caller success =>
      simp only [ScalingState.step] at hstep
      split at hstep
      · rename_i call desired hat
        obtain rfl := Option.some.inj hstep
        exact h.moved _ (by rw [hat]; rfl)
      · cases hstep
  | finish caller =>
      simp only [ScalingState.step] at hstep
      split at hstep
      · rename_i call hat
        obtain rfl := Option.some.inj hstep
        exact h.finished false (by rw [hat]; rfl)
      · rename_i call success hat
        obtain rfl := Option.some.inj hstep
        exact h.finished success (by rw [hat]; rfl)
      · cases hstep
  | cancel caller =>
      have hnone : CallerAt.cancelled.owes = (s.callers caller).owes := hund.symm
      simp only [ScalingState.step] at hstep
      split at hstep
      · obtain rfl := Option.some.inj hstep
        exact h.moved _ hnone
      · obtain rfl := Option.some.inj hstep
        exact h.moved _ hnone
      · obtain rfl := Option.some.inj hstep
        exact h.moved _ hnone
      · obtain rfl := Option.some.inj hstep
        exact h.moved _ hnone
      · cases hstep
  | rearm id =>
      obtain rfl := Option.some.inj hstep
      exact h.quiet waking_rearm (fun _ => rfl) rfl
  | forget id =>
      obtain rfl := Option.some.inj hstep
      exact h.quiet (waking_forget hund) (fun _ => rfl) rfl

/-! ## Every run -/

/-- The runs in which every call that was begun is carried through. -/
def undisturbedSys : Sys ScalingState ScalingAct :=
  scalingSys.restrict fun s a _ => Undisturbed s a

theorem scaling_flying {s : ScalingState} (h : undisturbedSys.Reachable s) : s.Flying := by
  refine h.invariant ?_ ?_
  · rintro s rfl
    exact flying_init
  · intro s a s' _ hs hstep
    exact scalingStep_flying hs hstep.1 hstep.2

/-- What the gate is for. -/
structure ScalingState.OneCall (s : ScalingState) : Prop where
  /-- Between two answers `Fire` for a record lies the outcome of the first. -/
  between : ∀ before mid after id first second,
    s.log = before ++ .fire id first :: mid ++ .fire id second :: after →
      .finish id first ∈ mid
  /-- At most one call per record is in flight. -/
  inFlight : ∀ id first second, (s.callers first).owes = some id →
    (s.callers second).owes = some id → first = second
  /-- A set flag has a caller who will clear it. -/
  owned : ∀ id, s.runtime.waking id = true → ∃ caller, (s.callers caller).owes = some id

/-- **Single flight.** In every state of every interleaving that drops no
caller between `Fire` and its outcome and forgets no record whose call is in
flight: two answers `Fire` for a record have the first one's outcome between
them, no two callers are in flight for a record, and a record is `waking`
only while one is. -/
theorem single_flight {s : ScalingState} (h : undisturbedSys.Reachable s) : s.OneCall := by
  have hs := scaling_flying h
  refine ⟨?_, hs.once, fun id => (hs.waking id).mp⟩
  intro before mid after id first second hlog
  by_contra hmid
  exact hs.single (before ++ .fire id first :: mid) (.fire id second) after hlog id second rfl first
    ⟨before, mid, rfl, hmid⟩

/-! ## One sleeping service -/

def sleepingRecord : ScalingRecord where
  id := "|shop.test|"
  hostname := "shop.test"

/-- Two visitors ask at once; the first one's call goes through. -/
def twoVisitors : List ScalingAct :=
  [.begin 0 sleepingRecord .coldStart 0 10, .begin 1 sleepingRecord .coldStart 0 10, .permit 0,
    .answer 0 true, .finish 0]

/-- One step of an undisturbed run. -/
def ScalingState.undisturbedStep (s : ScalingState) (a : ScalingAct) : Option ScalingState :=
  if Undisturbed s a then s.step a else none

theorem undisturbedStep_eq_some {s s' : ScalingState} {a : ScalingAct}
    (h : s.undisturbedStep a = some s') : undisturbedSys.step s a s' := by
  unfold ScalingState.undisturbedStep at h
  split at h
  · rename_i hund
    exact ⟨h, hund⟩
  · cases h

theorem single_flight_visitors : ∃ s, twoVisitors.foldlM ScalingState.undisturbedStep {} = some s ∧
    s.callers 1 = .done .hold ∧ s.OneCall := by
  refine ⟨_, rfl, rfl, ?_⟩
  exact single_flight (@Sys.Reachable.foldlM _ _ undisturbedSys _ _ _ (.init rfl) twoVisitors
    (fun _ _ _ => undisturbedStep_eq_some) rfl)

/-- The visitor hangs up while the endpoint is being called. -/
def hangUp : List ScalingAct :=
  [.begin 0 sleepingRecord .coldStart 0 10, .permit 0, .cancel 0]

/-- The record is deleted while the endpoint is being called, and the next
visitor asks. -/
def deletedMeanwhile : List ScalingAct :=
  [.begin 0 sleepingRecord .coldStart 0 10, .permit 0, .forget "|shop.test|",
    .begin 1 sleepingRecord .coldStart 0 11]

theorem scaling_run {s : ScalingState} {acts : List ScalingAct}
    (h : acts.foldlM ScalingState.step {} = some s) : scalingSys.Reachable s :=
  @Sys.Reachable.foldlM _ _ scalingSys _ _ _ (.init rfl) acts (fun _ _ _ hstep => hstep) h

/-- A visitor who hangs up leaves the flag set with nobody to clear it, and a
deleted record is called a second time while the first call is in flight. -/
theorem disturbed_calls :
    (∃ s, hangUp.foldlM ScalingState.step {} = some s ∧ scalingSys.Reachable s ∧ ¬s.OneCall) ∧
    ∃ s, deletedMeanwhile.foldlM ScalingState.step {} = some s ∧ scalingSys.Reachable s ∧
      ¬s.OneCall := by
  refine ⟨⟨_, rfl, @scaling_run _ hangUp rfl, ?_⟩,
    ⟨_, rfl, @scaling_run _ deletedMeanwhile rfl, ?_⟩⟩
  · intro h
    obtain ⟨caller, hcaller⟩ := h.owned "|shop.test|" rfl
    simp only [ScalingState.setCaller, Function.update_idem] at hcaller
    by_cases hc : caller = 0
    · subst hc
      simp [CallerAt.owes] at hcaller
    · simp [hc, CallerAt.owes] at hcaller
  · intro h
    exact absurd (h.inFlight "|shop.test|" 0 1 rfl rfl) (by decide)

end Aperio
