import Mathlib.Data.Fintype.EquivFin
import Aperio.Attempt

/-!
# How often a request is dispatched

What holds of the dispatch loop in every state it can reach, whatever the
outcomes of its dispatches and whoever is picked: it is left after at most
`1 + max_jumps` of them, a request that must not be repeated is dispatched
once, a timeout is the end, and no id of it stays in `pending_requests`.

A visitor who hangs up drops the loop where it stands. Then the guard's task
may still have to take the last entry out.
-/

namespace Aperio

/-! ## The statement -/

namespace Attempt

/-- The loop can go on, when time has passed if it has to. -/
def CanMove (A : Attempt) (s : AttemptState) : Prop :=
  ∃ clock a s', s.clock ≤ clock ∧ A.Step { s with clock := clock } a s' ∧
    s'.moves + s'.idle = s.moves + s.idle + 1

structure RedispatchSafe (A : Attempt) (s : AttemptState) : Prop where
  few : s.dispatches.length ≤ 1 + A.failover.maxJumps
  bounded : s.moves ≤ 4 * (A.failover.maxJumps + 1) ∧
    pollInterval * s.idle ≤ A.failover.window + pollInterval
  ends : (∃ reply, s.phase = .left reply) ∨ s.phase = .abandoned ∨ A.CanMove s
  once : A.streamRequest = true ∨ A.forwarded = true ∨
    methodRetryable A.method A.failover.allMethods = false → s.dispatches.length ≤ 1
  timedOut : ∀ d ∈ s.dispatches.tail, d.outcome ≠ some .timedOut
  fresh : (s.dispatches.map (·.id)).Nodup
  gone : (∃ reply, s.phase = .left reply) → ∀ d ∈ s.dispatches, d.id ∉ s.pending
  swept : s.phase = .abandoned → ∀ d ∈ s.dispatches, d.id ∈ s.pending → d.id ∈ s.doomed

end Attempt

/-! ## The others -/

/-- A step of the handler itself. -/
def AttemptAct.handles : AttemptAct → Bool
  | .hit | .enter | .dispatch _ | .lose | .wait | .poll | .redispatch _ | .leave _ | .hangUp =>
    true
  | _ => false

/-- What the others cannot touch. -/
structure AttemptState.Frame (s s' : AttemptState) : Prop where
  dispatches : s'.dispatches = s.dispatches
  jumpsUsed : s'.jumpsUsed = s.jumpsUsed
  selected : s'.selected = s.selected
  deadline : s'.deadline = s.deadline
  resumeAt : s'.resumeAt = s.resumeAt
  moves : s'.moves = s.moves
  idle : s'.idle = s.idle
  clock : s.clock ≤ s'.clock
  phase : ∃ id channel, s'.phase = s.phase.hear id channel

section Steps

variable {A : Attempt} {s s' : AttemptState} {a : AttemptAct}

theorem Attempt.Step.frame (h : A.Step s a s') (ha : a.handles = false) : s.Frame s' := by
  have hsame : ∃ id channel, s.phase = s.phase.hear id channel :=
    ⟨"", .quiet, (AttemptPhase.hear_quiet _).symm⟩
  cases h with
  | others hlater => exact ⟨rfl, rfl, rfl, rfl, rfl, rfl, rfl, hlater, hsame⟩
  | registered => exact ⟨rfl, rfl, rfl, rfl, rfl, rfl, rfl, le_refl _, hsame⟩
  | taken => exact ⟨rfl, rfl, rfl, rfl, rfl, rfl, rfl, le_refl _, _, _, rfl⟩
  | fetched => exact ⟨rfl, rfl, rfl, rfl, rfl, rfl, rfl, le_refl _, _, _, rfl⟩
  | swept => exact ⟨rfl, rfl, rfl, rfl, rfl, rfl, rfl, le_refl _, _, _, rfl⟩
  | @pumped p sent =>
      rcases s.pumpItem_cases A.body.limit p sent with ⟨q, -, -, hq⟩ | hq
      · rw [hq]
        exact ⟨rfl, rfl, rfl, rfl, rfl, rfl, rfl, le_refl _, hsame⟩
      · rw [hq]
        exact ⟨rfl, rfl, rfl, rfl, rfl, rfl, rfl, le_refl _, _, _, rfl⟩
  | refreshed => exact ⟨rfl, rfl, rfl, rfl, rfl, rfl, rfl, le_refl _, hsame⟩
  | hit => cases ha
  | buffered => cases ha
  | streamed => cases ha
  | handed => cases ha
  | unsent => cases ha
  | unserialized => cases ha
  | lose => cases ha
  | wait => cases ha
  | poll => cases ha
  | redispatch => cases ha
  | leave => cases ha
  | hangUp => cases ha

/-! ## Counting -/

/-- Dispatches that no jump has been charged for yet. -/
def AttemptPhase.uncharged : AttemptPhase → Nat
  | .picked | .ready | .waiting _ => 0
  | _ => 1

/-- Moves since the last jump was charged. -/
def AttemptPhase.progress : AttemptPhase → Nat
  | .picked | .waiting _ => 0
  | .ready => 1
  | .awaiting _ _ => 2
  | .lost => 3
  | .left _ | .abandoned => 4

theorem AttemptPhase.uncharged_hear (phase : AttemptPhase) (id : String) (channel : Channel) :
    (phase.hear id channel).uncharged = phase.uncharged := by
  rw [hear]
  split
  · rename_i h
    rw [h]
    rfl
  · rfl

theorem AttemptPhase.progress_hear (phase : AttemptPhase) (id : String) (channel : Channel) :
    (phase.hear id channel).progress = phase.progress := by
  rw [hear]
  split
  · rename_i h
    rw [h]
    rfl
  · rfl

structure AttemptState.Counted (A : Attempt) (s : AttemptState) : Prop where
  jumps : s.jumpsUsed ≤ A.failover.maxJumps
  once : A.repeatable = false → s.jumpsUsed = 0
  dispatched : s.dispatches.length ≤ s.jumpsUsed + s.phase.uncharged
  moves : s.moves ≤ 4 * s.jumpsUsed + s.phase.progress

theorem Attempt.retries_jump {jumpsUsed : Nat} {res : TunnelResponse}
    (h : A.retries jumpsUsed res = true) :
    A.repeatable = true ∧ jumpsUsed < A.failover.maxJumps := by
  simp only [retries, Bool.and_eq_true, decide_eq_true_eq] at h
  exact ⟨h.1.1.2, h.2⟩

theorem Attempt.canFailover_jump {jumpsUsed : Nat} (h : A.canFailover jumpsUsed = true) :
    A.repeatable = true ∧ jumpsUsed < A.failover.maxJumps := by
  simp only [canFailover, Bool.and_eq_true, decide_eq_true_eq] at h
  exact ⟨h.1.1, h.2⟩

/-- What a step of the handler may charge, dispatch and count. -/
theorem AttemptState.Counted.of (h : s.Counted A) (charge new moved : Nat)
    (hcharge : charge = 0 ∨ charge = 1 ∧ A.repeatable = true ∧
      s.jumpsUsed < A.failover.maxJumps)
    (hjumps : s'.jumpsUsed = s.jumpsUsed + charge)
    (hnew : s'.dispatches.length = s.dispatches.length + new)
    (hmoved : s'.moves = s.moves + moved)
    (huncharged : s.phase.uncharged + new ≤ charge + s'.phase.uncharged)
    (hprogress : s.phase.progress + moved ≤ 4 * charge + s'.phase.progress) : s'.Counted A := by
  have hdispatched := h.dispatched
  have hmoves := h.moves
  rcases hcharge with rfl | ⟨rfl, hrepeat, hroom⟩
  · exact ⟨hjumps ▸ h.jumps, hjumps ▸ h.once, by omega, by omega⟩
  · refine ⟨by omega, fun hno => ?_, by omega, by omega⟩
    rw [hrepeat] at hno
    cases hno

theorem Attempt.Redispatches.charged {next : Assignment} {jumps : Nat}
    {outcome : Option DispatchOutcome} (h : A.Redispatches s next jumps outcome) :
    (jumps = 0 ∨ jumps = 1 ∧ A.repeatable = true ∧ s.jumpsUsed < A.failover.maxJumps) ∧
      s.phase.uncharged ≤ jumps ∧ s.phase.progress ≤ 4 * jumps ∧
        outcome ≠ some .timedOut := by
  cases h with
  | retry hphase hretry =>
      rw [hphase]
      exact ⟨.inr ⟨rfl, Attempt.retries_jump hretry⟩, le_refl _, Nat.le_of_ble_eq_true rfl,
        by simp⟩
  | failover hphase hcan =>
      rw [hphase]
      exact ⟨.inr ⟨rfl, Attempt.canFailover_jump hcan⟩, le_refl _, Nat.le_of_ble_eq_true rfl,
        by simp⟩
  | found hphase =>
      rw [hphase]
      exact ⟨.inl rfl, le_refl _, le_refl _, by simp⟩

/-- Every way out is taken from where the loop still runs. -/
theorem Attempt.Leaves.running {reply : AttemptReply} {outcome : Option DispatchOutcome}
    (h : A.Leaves s reply outcome) : s.phase.uncharged ≤ 1 ∧ s.phase.progress ≤ 3 := by
  cases h with
  | turnedAway hphase => simp [hphase, AttemptPhase.uncharged, AttemptPhase.progress]
  | noSlot hphase => simp [hphase, AttemptPhase.uncharged, AttemptPhase.progress]
  | timeout hphase => simp [hphase, AttemptPhase.uncharged, AttemptPhase.progress]
  | relay hphase => simp [hphase, AttemptPhase.uncharged, AttemptPhase.progress]
  | noFailover hphase => simp [hphase, AttemptPhase.uncharged, AttemptPhase.progress]
  | nobody hphase => simp [hphase, AttemptPhase.uncharged, AttemptPhase.progress]
  | expired hphase => simp [hphase, AttemptPhase.uncharged, AttemptPhase.progress]

theorem AttemptPhase.running_of_ne {phase : AttemptPhase} (hleft : ∀ reply, phase ≠ .left reply)
    (hhere : phase ≠ .abandoned) : phase.uncharged ≤ 1 ∧ phase.progress ≤ 3 := by
  cases phase with
  | left reply => exact absurd rfl (hleft reply)
  | abandoned => exact absurd rfl hhere
  | _ => simp [uncharged, progress]

theorem Attempt.Step.counted (hstep : A.Step s a s') (h : s.Counted A) : s'.Counted A := by
  by_cases ha : a.handles = false
  · have hf := hstep.frame ha
    obtain ⟨id, channel, hphase⟩ := hf.phase
    refine h.of 0 0 0 (.inl rfl) hf.jumpsUsed (by rw [hf.dispatches]; rfl) hf.moves ?_ ?_
    · rw [hphase, AttemptPhase.uncharged_hear]
      omega
    · rw [hphase, AttemptPhase.progress_hear]
      omega
  · cases hstep with
    | hit hphase =>
        refine h.of 0 0 1 (.inl rfl) rfl (noteOutcome_length _ _) rfl ?_ ?_
        · rw [hphase]
          exact Nat.zero_le _
        · rw [hphase]
          exact Nat.le_add_left _ _
    | buffered hphase =>
        refine h.of 0 0 1 (.inl rfl) rfl rfl rfl ?_ ?_
        · rw [hphase]
          rfl
        · rw [hphase]
          rfl
    | streamed hphase =>
        refine h.of 0 0 1 (.inl rfl) rfl rfl rfl ?_ ?_
        · rw [hphase]
          rfl
        · rw [hphase]
          rfl
    | handed hphase =>
        refine h.of 0 1 1 (.inl rfl) rfl rfl rfl ?_ ?_
        · rw [hphase]
          rfl
        · rw [hphase]
          rfl
    | unsent hphase =>
        refine h.of 0 1 1 (.inl rfl) rfl rfl rfl ?_ ?_
        · rw [hphase]
          rfl
        · rw [hphase]
          exact Nat.le_add_left _ _
    | unserialized hphase =>
        refine h.of 0 1 1 (.inl rfl) rfl rfl rfl ?_ ?_
        · rw [hphase]
          rfl
        · rw [hphase]
          exact Nat.le_add_left _ _
    | lose hphase =>
        refine h.of 0 0 1 (.inl rfl) rfl (noteOutcome_length _ _) rfl ?_ ?_
        · rw [hphase]
          rfl
        · rw [hphase]
          rfl
    | wait hphase hcan =>
        refine h.of 1 0 1 (.inr ⟨rfl, Attempt.canFailover_jump hcan⟩) rfl rfl rfl ?_ ?_
        · rw [hphase]
          rfl
        · rw [hphase]
          rfl
    | poll hphase =>
        refine h.of 0 0 0 (.inl rfl) rfl rfl rfl ?_ ?_
        · rw [hphase]
          rfl
        · rw [hphase]
          rfl
    | @redispatch next jumps outcome contended hway =>
        obtain ⟨hcharge, huncharged, hprogress, -⟩ := hway.charged
        exact h.of jumps 0 1 hcharge rfl (noteOutcome_length _ _) rfl huncharged
          (Nat.add_le_add_right hprogress 1)
    | leave hway =>
        obtain ⟨huncharged, hprogress⟩ := hway.running
        exact h.of 0 0 1 (.inl rfl) rfl (noteOutcome_length _ _) rfl huncharged
          (Nat.add_le_add_right hprogress 1)
    | hangUp hleft hhere =>
        obtain ⟨huncharged, hprogress⟩ := AttemptPhase.running_of_ne hleft hhere
        exact h.of 0 0 1 (.inl rfl) rfl rfl rfl huncharged (Nat.add_le_add_right hprogress 1)
    | others => exact absurd rfl ha
    | registered => exact absurd rfl ha
    | taken => exact absurd rfl ha
    | fetched => exact absurd rfl ha
    | swept => exact absurd rfl ha
    | pumped => exact absurd rfl ha
    | refreshed => exact absurd rfl ha

/-! ## The window of a failover -/

/-- Every poll that found nobody came before the deadline, and they are a
quarter of a second apart. -/
structure AttemptState.Patient (A : Attempt) (s : AttemptState) : Prop where
  awake : s.resumeAt ≤ s.clock ∨ (∃ requirement, s.phase = .waiting requirement) ∨
    s.phase = .abandoned
  fresh : s.deadline = none → s.idle = 0
  spent : ∀ deadline, s.deadline = some deadline →
    pollInterval * s.idle + deadline ≤ s.resumeAt + A.failover.window
  idle : pollInterval * s.idle ≤ A.failover.window + pollInterval

theorem AttemptState.Patient.awake_of (h : s.Patient A)
    (hwaiting : ∀ requirement, s.phase ≠ .waiting requirement) (hhere : s.phase ≠ .abandoned) :
    s.resumeAt ≤ s.clock := by
  rcases h.awake with hawake | ⟨requirement, hphase⟩ | hphase
  · exact hawake
  · exact absurd hphase (hwaiting requirement)
  · exact absurd hphase hhere

/-- A step that leaves the window alone. -/
theorem AttemptState.Patient.of (h : s.Patient A) (hdeadline : s'.deadline = s.deadline)
    (hidle : s'.idle = s.idle) (hresume : s'.resumeAt = s.resumeAt)
    (hawake : s'.resumeAt ≤ s'.clock ∨ (∃ requirement, s'.phase = .waiting requirement) ∨
      s'.phase = .abandoned) : s'.Patient A where
  awake := hawake
  fresh := by
    rw [hdeadline, hidle]
    exact h.fresh
  spent := by
    rw [hdeadline, hidle, hresume]
    exact h.spent
  idle := by
    rw [hidle]
    exact h.idle

theorem Attempt.Redispatches.awake {next : Assignment} {jumps : Nat}
    {outcome : Option DispatchOutcome} (h : A.Redispatches s next jumps outcome)
    (hs : s.Patient A) : s.resumeAt ≤ s.clock := by
  cases h with
  | retry hphase => exact hs.awake_of (by simp [hphase]) (by simp [hphase])
  | failover hphase => exact hs.awake_of (by simp [hphase]) (by simp [hphase])
  | found hphase hawake => exact hawake

theorem Attempt.Leaves.awake {reply : AttemptReply} {outcome : Option DispatchOutcome}
    (h : A.Leaves s reply outcome) (hs : s.Patient A) : s.resumeAt ≤ s.clock := by
  cases h with
  | turnedAway hphase => exact hs.awake_of (by simp [hphase]) (by simp [hphase])
  | noSlot hphase => exact hs.awake_of (by simp [hphase]) (by simp [hphase])
  | timeout hphase => exact hs.awake_of (by simp [hphase]) (by simp [hphase])
  | relay hphase => exact hs.awake_of (by simp [hphase]) (by simp [hphase])
  | noFailover hphase => exact hs.awake_of (by simp [hphase]) (by simp [hphase])
  | nobody hphase => exact hs.awake_of (by simp [hphase]) (by simp [hphase])
  | expired hphase hawake => exact hawake

theorem Attempt.Step.patient (hstep : A.Step s a s') (h : s.Patient A) : s'.Patient A := by
  by_cases ha : a.handles = false
  · have hf := hstep.frame ha
    obtain ⟨id, channel, hphase⟩ := hf.phase
    refine h.of hf.deadline hf.idle hf.resumeAt ?_
    rcases h.awake with hawake | ⟨requirement, hwaiting⟩ | hhere
    · exact .inl (hf.resumeAt ▸ hawake.trans hf.clock)
    · refine .inr (.inl ⟨requirement, ?_⟩)
      rw [hphase, hwaiting]
      exact AttemptPhase.hear_of_ne (by simp)
    · refine .inr (.inr ?_)
      rw [hphase, hhere]
      exact AttemptPhase.hear_of_ne (by simp)
  · cases hstep with
    | hit hphase =>
        exact h.of rfl rfl rfl (.inl (h.awake_of (by simp [hphase]) (by simp [hphase])))
    | buffered hphase =>
        exact h.of rfl rfl rfl (.inl (h.awake_of (by simp [hphase]) (by simp [hphase])))
    | streamed hphase =>
        exact h.of rfl rfl rfl (.inl (h.awake_of (by simp [hphase]) (by simp [hphase])))
    | handed hphase =>
        exact h.of rfl rfl rfl (.inl (h.awake_of (by simp [hphase]) (by simp [hphase])))
    | unsent hphase =>
        exact h.of rfl rfl rfl (.inl (h.awake_of (by simp [hphase]) (by simp [hphase])))
    | unserialized hphase =>
        exact h.of rfl rfl rfl (.inl (h.awake_of (by simp [hphase]) (by simp [hphase])))
    | lose hphase =>
        exact h.of rfl rfl rfl (.inl (h.awake_of (by simp [hphase]) (by simp [hphase])))
    | wait hphase =>
        have hawake := h.awake_of (by simp [hphase]) (by simp [hphase])
        refine ⟨.inl (le_refl _), fun hnone => ?_, fun deadline hdeadline => ?_, h.idle⟩
        · cases hold : s.deadline with
          | none => exact h.fresh hold
          | some old => simp [hold] at hnone
        · show pollInterval * s.idle + deadline ≤ s.clock + A.failover.window
          cases hold : s.deadline with
          | none =>
              have hidle := h.fresh hold
              simp only [hold, Option.none_or, Option.some.injEq] at hdeadline
              rw [hidle]
              omega
          | some old =>
              have hspent := h.spent old hold
              simp only [hold, Option.some_or, Option.some.injEq] at hdeadline
              omega
    | @poll requirement _ _ deadline hphase hawake hdeadline hopen =>
        have hspent := h.spent deadline hdeadline
        refine ⟨.inr (.inl ⟨requirement, hphase⟩), fun hnone => ?_, fun d hd => ?_, ?_⟩
        · rw [hdeadline] at hnone
          cases hnone
        · show pollInterval * (s.idle + 1) + d ≤ s.clock + pollInterval + A.failover.window
          obtain rfl := Option.some.inj (hdeadline.symm.trans hd)
          rw [Nat.mul_succ]
          omega
        · show pollInterval * (s.idle + 1) ≤ A.failover.window + pollInterval
          rw [Nat.mul_succ]
          omega
    | redispatch hway => exact h.of rfl rfl rfl (.inl (hway.awake h))
    | leave hway => exact h.of rfl rfl rfl (.inl (hway.awake h))
    | hangUp => exact h.of rfl rfl rfl (.inr (.inr rfl))
    | others => exact absurd rfl ha
    | registered => exact absurd rfl ha
    | taken => exact absurd rfl ha
    | fetched => exact absurd rfl ha
    | swept => exact absurd rfl ha
    | pumped => exact absurd rfl ha
    | refreshed => exact absurd rfl ha

/-! ## What became of the dispatches -/

/-- A dispatch that timed out is the newest, and the loop has been left. -/
structure AttemptState.TimeoutLast (s : AttemptState) : Prop where
  ended : ∀ d ∈ s.dispatches, d.outcome = some .timedOut → s.phase = .left .timedOut
  tail : ∀ d ∈ s.dispatches.tail, d.outcome ≠ some .timedOut

theorem AttemptState.TimeoutLast.none_of (h : s.TimeoutLast) (hphase : s.phase ≠ .left .timedOut) :
    ∀ d ∈ s.dispatches, d.outcome ≠ some .timedOut :=
  fun d hd hout => hphase (h.ended d hd hout)

/-- The newest dispatch comes to something that is no timeout. -/
theorem AttemptState.TimeoutLast.note (h : s.TimeoutLast) {outcome : Option DispatchOutcome}
    (hphase : s.phase ≠ .left .timedOut) (hout : outcome ≠ some .timedOut)
    (hs' : s'.dispatches = noteOutcome outcome s.dispatches) : s'.TimeoutLast := by
  have hnone : ∀ d ∈ s'.dispatches, d.outcome ≠ some .timedOut := by
    intro d hd
    rw [hs'] at hd
    obtain ⟨d', hd', -, -, -, hsame | hnew⟩ := mem_noteOutcome hd
    · rw [hsame]
      exact h.none_of hphase d' hd'
    · rw [hnew]
      exact hout
  exact ⟨fun d hd hd' => absurd hd' (hnone d hd), fun d hd => hnone d (List.mem_of_mem_tail hd)⟩

/-- A new dispatch, after others that did not time out. -/
theorem AttemptState.TimeoutLast.cons (h : s.TimeoutLast) {d : Handed}
    (hphase : s.phase ≠ .left .timedOut) (hd : d.outcome ≠ some .timedOut)
    (hs' : s'.dispatches = d :: s.dispatches) : s'.TimeoutLast := by
  have hnone := h.none_of hphase
  refine ⟨fun x hx hout => ?_, fun x hx => ?_⟩
  · rw [hs'] at hx
    rcases List.mem_cons.mp hx with rfl | hx
    · exact absurd hout hd
    · exact absurd hout (hnone x hx)
  · rw [hs'] at hx
    exact hnone x hx

theorem AttemptState.TimeoutLast.same (h : s.TimeoutLast) (hphase : s.phase ≠ .left .timedOut)
    (hs' : s'.dispatches = s.dispatches) : s'.TimeoutLast := by
  have hnone := h.none_of hphase
  exact ⟨fun d hd hout => absurd hout (hnone d (hs' ▸ hd)),
    fun d hd => hnone d (hs' ▸ List.mem_of_mem_tail hd)⟩

theorem Attempt.Leaves.timeout_iff {reply : AttemptReply} {outcome : Option DispatchOutcome}
    (h : A.Leaves s reply outcome) :
    s.phase ≠ .left .timedOut ∧ (outcome = some .timedOut → reply = .timedOut) := by
  cases h with
  | turnedAway hphase => simp [hphase]
  | noSlot hphase => simp [hphase]
  | timeout hphase => simp [hphase]
  | relay hphase => simp [hphase]
  | noFailover hphase => simp [hphase]
  | nobody hphase => simp [hphase]
  | expired hphase => simp [hphase]

theorem Attempt.Redispatches.phase_ne {next : Assignment} {jumps : Nat}
    {outcome : Option DispatchOutcome} (h : A.Redispatches s next jumps outcome) :
    s.phase ≠ .left .timedOut := by
  cases h with
  | retry hphase => simp [hphase]
  | failover hphase => simp [hphase]
  | found hphase => simp [hphase]

theorem Attempt.Step.timeoutLast (hstep : A.Step s a s') (h : s.TimeoutLast) : s'.TimeoutLast := by
  by_cases ha : a.handles = false
  · have hf := hstep.frame ha
    obtain ⟨id, channel, hphase⟩ := hf.phase
    refine ⟨fun d hd hout => ?_, by rw [hf.dispatches]; exact h.tail⟩
    rw [hf.dispatches] at hd
    have hleft := h.ended d hd hout
    rw [hphase, hleft]
    exact AttemptPhase.hear_of_ne (by simp)
  · cases hstep with
    | hit hphase => exact h.note (by simp [hphase]) (by simp) rfl
    | buffered hphase => exact h.same (by simp [hphase]) rfl
    | streamed hphase => exact h.same (by simp [hphase]) rfl
    | handed hphase => exact h.cons (by simp [hphase]) (by simp) rfl
    | unsent hphase => exact h.cons (by simp [hphase]) (by simp) rfl
    | unserialized hphase => exact h.cons (by simp [hphase]) (by simp) rfl
    | lose hphase => exact h.note (by simp [hphase]) (by simp) rfl
    | wait hphase => exact h.same (by simp [hphase]) rfl
    | poll hphase => exact h.same (by simp [hphase]) rfl
    | redispatch hway => exact h.note hway.phase_ne hway.charged.2.2.2 rfl
    | @leave reply outcome contended hway =>
        obtain ⟨hphase, hreply⟩ := hway.timeout_iff
        by_cases hout : outcome = some .timedOut
        · refine ⟨fun d hd hd' => by rw [hreply hout]; rfl, ?_⟩
          show ∀ d ∈ (noteOutcome outcome s.dispatches).tail, _
          rw [noteOutcome_tail]
          exact h.tail
        · exact h.note hphase hout rfl
    | hangUp hleft => exact h.same (hleft _) rfl
    | others => exact absurd rfl ha
    | registered => exact absurd rfl ha
    | taken => exact absurd rfl ha
    | fetched => exact absurd rfl ha
    | swept => exact absurd rfl ha
    | pumped => exact absurd rfl ha
    | refreshed => exact absurd rfl ha

/-! ## The entries -/

/-- Who may still be in the map: the dispatch under way, and the last one of a
visitor who is gone, which a task is to take out. -/
structure AttemptState.Registered (s : AttemptState) : Prop where
  known : ∀ id ∈ s.pending, id ∈ s.minted
  own : ∀ d ∈ s.dispatches, d.id ∈ s.minted
  fresh : (s.dispatches.map (·.id)).Nodup
  newest : ∀ id channel, s.phase = .awaiting id channel →
    ∃ d rest, s.dispatches = d :: rest ∧ d.id = id
  direct : ∀ id channel, s.phase = .awaiting id channel →
    s.selected.service.serverSideTarget.isSome = true → id ∉ s.pending
  entry : ∀ d ∈ s.dispatches, d.id ∈ s.pending →
    s.phase = .awaiting d.id .quiet ∨ s.phase = .abandoned ∧ d.id ∈ s.doomed

/-- Where the loop neither waits for an answer nor is abandoned, no entry is
left. -/
theorem AttemptState.Registered.gone (h : s.Registered)
    (hquiet : ∀ id, s.phase ≠ .awaiting id .quiet) (hhere : s.phase ≠ .abandoned) :
    ∀ d ∈ s.dispatches, d.id ∉ s.pending := by
  intro d hd hmem
  rcases h.entry d hd hmem with hawaiting | ⟨habandoned, -⟩
  · exact hquiet d.id hawaiting
  · exact hhere habandoned

theorem AttemptPhase.awaiting_of_hear {phase : AttemptPhase} {id own : String}
    {channel heard : Channel} (h : phase.hear id channel = .awaiting own heard) :
    ∃ before, phase = .awaiting own before := by
  rw [hear] at h
  split at h
  · rename_i hphase
    cases h
    exact ⟨.quiet, hphase⟩
  · exact ⟨heard, h⟩

/-- A step that only drops entries and leaves none of the request's own. -/
theorem AttemptState.Registered.of_gone (h : s.Registered)
    (hgone : ∀ d ∈ s.dispatches, d.id ∉ s'.pending) (hminted : s'.minted = s.minted)
    (hids : s'.dispatches.map (·.id) = s.dispatches.map (·.id))
    (hpending : ∀ id ∈ s'.pending, id ∈ s.pending)
    (hphase : ∀ id channel, s'.phase ≠ .awaiting id channel) : s'.Registered := by
  have hmem : ∀ d ∈ s'.dispatches, ∃ d' ∈ s.dispatches, d'.id = d.id := by
    intro d hd
    have hid : d.id ∈ s.dispatches.map (·.id) := hids ▸ List.mem_map_of_mem hd
    exact List.mem_map.mp hid
  refine ⟨fun id hid => hminted ▸ h.known id (hpending id hid), fun d hd => ?_, hids ▸ h.fresh,
    fun id channel hp => absurd hp (hphase id channel),
    fun id channel hp => absurd hp (hphase id channel), fun d hd hp => ?_⟩
  · obtain ⟨d', hd', hid⟩ := hmem d hd
    rw [hminted, ← hid]
    exact h.own d' hd'
  · obtain ⟨d', hd', hid⟩ := hmem d hd
    exact absurd (hid ▸ hp) (hgone d' hd')

/-- Somebody else's entry, or the newest dispatch's own, is taken out. -/
theorem AttemptState.Registered.erase (h : s.Registered) (id : String) (channel : Channel)
    (hminted : s'.minted = s.minted) (hdispatches : s'.dispatches = s.dispatches)
    (hselected : s'.selected = s.selected) (hpending : s'.pending = s.pending.erase id)
    (hphase : s'.phase = s.phase.hear id channel)
    (hdoomed : ∀ own ≠ id, own ∈ s.doomed → own ∈ s'.doomed) : s'.Registered where
  known := by
    intro own hown
    rw [hpending] at hown
    rw [hminted]
    exact h.known own (AList.mem_erase.mp hown).2
  own := by
    rw [hdispatches, hminted]
    exact h.own
  fresh := by
    rw [hdispatches]
    exact h.fresh
  newest := by
    intro own heard hp
    rw [hphase] at hp
    obtain ⟨before, hbefore⟩ := AttemptPhase.awaiting_of_hear hp
    rw [hdispatches]
    exact h.newest own before hbefore
  direct := by
    intro own heard hp hserver hmem
    rw [hphase] at hp
    obtain ⟨before, hbefore⟩ := AttemptPhase.awaiting_of_hear hp
    rw [hselected] at hserver
    rw [hpending] at hmem
    exact h.direct own before hbefore hserver (AList.mem_erase.mp hmem).2
  entry := by
    intro d hd hmem
    rw [hdispatches] at hd
    rw [hpending] at hmem
    obtain ⟨hne, hmem⟩ := AList.mem_erase.mp hmem
    rcases h.entry d hd hmem with hawaiting | ⟨habandoned, hdoom⟩
    · left
      rw [hphase, hawaiting]
      refine AttemptPhase.hear_of_ne fun heq => hne ?_
      cases heq
      rfl
    · right
      rw [hphase, habandoned]
      exact ⟨AttemptPhase.hear_of_ne (by simp), hdoomed d.id hne hdoom⟩

/-- Nothing of the request's own moves. -/
theorem AttemptState.Registered.same (h : s.Registered) (hminted : ∀ id ∈ s.minted, id ∈ s'.minted)
    (hdispatches : s'.dispatches = s.dispatches) (hselected : s'.selected = s.selected)
    (hpending : ∀ id ∈ s'.pending, id ∈ s.pending ∨ id ∉ s.minted ∧ id ∈ s'.minted)
    (hphase : s'.phase = s.phase) (hdoomed : s'.doomed = s.doomed) : s'.Registered where
  known := by
    intro id hid
    rcases hpending id hid with hold | ⟨-, hnew⟩
    · exact hminted id (h.known id hold)
    · exact hnew
  own := by
    intro d hd
    rw [hdispatches] at hd
    exact hminted d.id (h.own d hd)
  fresh := by
    rw [hdispatches]
    exact h.fresh
  newest := by
    rw [hphase, hdispatches]
    exact h.newest
  direct := by
    intro id channel hp hserver hmem
    rw [hphase] at hp
    rw [hselected] at hserver
    obtain ⟨d, rest, hd, rfl⟩ := h.newest id channel hp
    rcases hpending d.id hmem with hold | ⟨hnew, -⟩
    · exact h.direct d.id channel hp hserver hold
    · exact hnew (h.own d (by rw [hd]; exact List.mem_cons_self))
  entry := by
    intro d hd hmem
    rw [hdispatches] at hd
    rw [hphase, hdoomed]
    rcases hpending d.id hmem with hold | ⟨hnew, -⟩
    · exact h.entry d hd hold
    · exact absurd (h.own d hd) hnew

theorem AttemptState.mem_register {id own : String} (h : own ∈ (s.register id).pending) :
    own = id ∨ own ∈ s.pending := by
  simp only [register] at h
  split at h
  · exact .inr h
  · exact (AList.mem_insert _).mp h

/-- A dispatch under a new id, of a loop that had nothing in the map. -/
theorem AttemptState.Registered.register (h : s.Registered) {id : String}
    (hgone : ∀ d ∈ s.dispatches, d.id ∉ s.pending) (hfresh : id ∉ s.minted)
    (hminted : s'.minted = id :: s.minted)
    (hids : s'.dispatches.map (·.id) = id :: s.dispatches.map (·.id))
    (hpending : ∀ own ∈ s'.pending, own ∈ (s.register id).pending)
    (hselected : s'.selected = s.selected)
    (hout : s'.phase = .awaiting id .quiet ∨
      id ∉ s'.pending ∧ ∀ own channel, s'.phase ≠ .awaiting own channel) : s'.Registered where
  known := by
    intro own hown
    rw [hminted]
    rcases mem_register (hpending own hown) with rfl | hold
    · exact List.mem_cons_self
    · exact List.mem_cons_of_mem _ (h.known own hold)
  own := by
    intro d hd
    have hid : d.id ∈ id :: s.dispatches.map (·.id) := hids ▸ List.mem_map_of_mem hd
    rw [hminted]
    rcases List.mem_cons.mp hid with heq | hold
    · exact heq ▸ List.mem_cons_self
    · obtain ⟨d', hd', heq⟩ := List.mem_map.mp hold
      exact List.mem_cons_of_mem _ (heq ▸ h.own d' hd')
  fresh := by
    rw [hids, List.nodup_cons]
    refine ⟨fun hmem => hfresh ?_, h.fresh⟩
    obtain ⟨d, hd, rfl⟩ := List.mem_map.mp hmem
    exact h.own d hd
  newest := by
    intro own channel hp
    rcases hout with hawaiting | ⟨-, hno⟩
    · rw [hawaiting] at hp
      cases hp
      cases hd : s'.dispatches with
      | nil =>
          rw [hd] at hids
          cases hids
      | cons d rest =>
          rw [hd] at hids
          exact ⟨d, rest, rfl, (List.cons.inj hids).1⟩
    · exact absurd hp (hno own channel)
  direct := by
    intro own channel hp hserver hmem
    rcases hout with hawaiting | ⟨-, hno⟩
    · rw [hawaiting] at hp
      cases hp
      have hreg := hpending id hmem
      rw [hselected] at hserver
      simp only [AttemptState.register, hserver, if_true] at hreg
      exact hfresh (h.known id hreg)
    · exact absurd hp (hno own channel)
  entry := by
    intro d hd hmem
    have hid : d.id ∈ id :: s.dispatches.map (·.id) := hids ▸ List.mem_map_of_mem hd
    rcases List.mem_cons.mp hid with heq | hold
    · rcases hout with hawaiting | ⟨hgone', -⟩
      · exact .inl (heq ▸ hawaiting)
      · exact absurd (heq ▸ hmem) hgone'
    · obtain ⟨d', hd', heq⟩ := List.mem_map.mp hold
      rcases mem_register (hpending d.id hmem) with hnew | hpend
      · exact absurd (heq.trans hnew ▸ h.own d' hd') hfresh
      · exact absurd (heq ▸ hpend) (hgone d' hd')

theorem Attempt.Redispatches.settled {next : Assignment} {jumps : Nat}
    {outcome : Option DispatchOutcome} (h : A.Redispatches s next jumps outcome) :
    (∀ id, s.phase ≠ .awaiting id .quiet) ∧ s.phase ≠ .abandoned := by
  cases h with
  | retry hphase => simp [hphase]
  | failover hphase => simp [hphase]
  | found hphase => simp [hphase]

theorem Attempt.Leaves.settled {reply : AttemptReply} {outcome : Option DispatchOutcome}
    (h : A.Leaves s reply outcome) : s.phase ≠ .abandoned ∧
      (reply = .timedOut ∨ ∀ id, s.phase ≠ .awaiting id .quiet) := by
  cases h with
  | turnedAway hphase => simp [hphase]
  | noSlot hphase => simp [hphase]
  | timeout hphase => simp [hphase]
  | relay hphase => simp [hphase]
  | noFailover hphase => simp [hphase]
  | nobody hphase => simp [hphase]
  | expired hphase => simp [hphase]

theorem AttemptState.mem_of_mem_failHandOver {id own : String} {outcome : DispatchOutcome}
    {phase : AttemptPhase} (h : own ∈ (s.failHandOver id outcome phase).pending) :
    own ∈ (s.register id).pending :=
  mem_of_mem_withoutOwn (s := (s.register id).note (some outcome)) h

theorem AttemptState.own_notMem_failHandOver {id : String} {outcome : DispatchOutcome}
    {phase : AttemptPhase} : id ∉ (s.failHandOver id outcome phase).pending :=
  own_notMem_withoutOwn (s := (s.register id).note (some outcome))
    (d := ⟨id, s.selected, s.bytes.length, some outcome⟩) rfl

/-- The dispatch under way is the newest one. -/
theorem AttemptState.Registered.newest_of_entry (h : s.Registered) (hhere : s.phase ≠ .abandoned)
    {d : Handed} (hd : d ∈ s.dispatches) (hmem : d.id ∈ s.pending) :
    ∃ d' rest, s.dispatches = d' :: rest ∧ d'.id = d.id := by
  rcases h.entry d hd hmem with hawaiting | ⟨habandoned, -⟩
  · exact h.newest d.id .quiet hawaiting
  · exact absurd habandoned hhere

/-- A way out leaves no entry. -/
theorem Attempt.Leaves.gone {reply : AttemptReply} {outcome : Option DispatchOutcome}
    (hway : A.Leaves s reply outcome) (h : s.Registered) (contended : Bool) :
    ∀ d ∈ s.dispatches, d.id ∉ (s.leave reply outcome contended).pending := by
  intro d hd hmem
  obtain ⟨hhere, hreply | hquiet⟩ := hway.settled
  · obtain ⟨d', rest, hnewest, hid⟩ :=
      h.newest_of_entry hhere hd (AttemptState.mem_of_mem_leave hmem)
    have hnoted := AttemptState.mem_of_mem_dropGuard hmem
    simp only [hreply, if_true] at hnoted
    have hown : (s.note outcome).dispatches =
        { d' with outcome := outcome.or d'.outcome } :: rest := by
      simp only [AttemptState.note, hnewest, noteOutcome]
    exact AttemptState.own_notMem_withoutOwn hown (hid ▸ hnoted)
  · exact h.gone hquiet hhere d hd (AttemptState.mem_of_mem_leave hmem)

theorem Attempt.Step.registered_kept (hstep : A.Step s a s') (h : s.Registered) :
    s'.Registered := by
  cases hstep with
  | others => exact h.same (fun _ hid => hid) rfl rfl (fun _ hid => .inl hid) rfl rfl
  | registered hfresh =>
      refine h.same (fun _ hid => List.mem_cons_of_mem _ hid) rfl rfl (fun own hown => ?_) rfl rfl
      rcases (AList.mem_insert _).mp hown with rfl | hold
      · exact .inr ⟨hfresh, List.mem_cons_self⟩
      · exact .inl hold
  | taken => exact h.erase _ _ rfl rfl rfl rfl rfl fun _ _ hd => hd
  | @fetched id answer hphase hserver =>
      have hdirect := h.direct id .quiet hphase hserver
      refine ⟨h.known, h.own, h.fresh, fun own heard hp => ?_, fun own heard hp _ => ?_,
        fun d hd hmem => ?_⟩
      · obtain ⟨before, hbefore⟩ := AttemptPhase.awaiting_of_hear hp
        exact h.newest own before hbefore
      · obtain ⟨before, hbefore⟩ := AttemptPhase.awaiting_of_hear hp
        rw [hphase] at hbefore
        cases hbefore
        exact hdirect
      · rcases h.entry d hd hmem with hawaiting | ⟨habandoned, -⟩
        · rw [hphase] at hawaiting
          cases hawaiting
          exact absurd hmem hdirect
        · rw [hphase] at habandoned
          cases habandoned
  | swept =>
      exact h.erase _ .closed rfl rfl rfl rfl rfl fun _ hne hd => (List.mem_erase_of_ne hne).mpr hd
  | @pumped p sent =>
      rcases s.pumpItem_cases A.body.limit p sent with ⟨q, -, -, hq⟩ | hq
      · rw [hq]
        exact h.same (fun _ hid => hid) rfl rfl (fun _ hid => .inl hid) rfl rfl
      · rw [hq]
        exact h.erase p.id .closed rfl rfl rfl rfl rfl fun _ _ hd => hd
  | refreshed => exact h.same (fun _ hid => hid) rfl rfl (fun _ hid => .inl hid) rfl rfl
  | hit hphase =>
      have hgone := h.gone (by simp [hphase]) (by simp [hphase])
      exact h.of_gone (fun d hd hmem => hgone d hd (AttemptState.mem_of_mem_leave hmem)) rfl
        (noteOutcome_ids _ _) (fun _ hid => AttemptState.mem_of_mem_leave hid)
        (by simp [AttemptState.leave])
  | buffered hphase =>
      exact h.of_gone (h.gone (by simp [hphase]) (by simp [hphase])) rfl rfl (fun _ hid => hid)
        (by simp)
  | streamed hphase =>
      exact h.of_gone (h.gone (by simp [hphase]) (by simp [hphase])) rfl rfl (fun _ hid => hid)
        (by simp)
  | handed hphase hfresh =>
      exact h.register (h.gone (by simp [hphase]) (by simp [hphase])) hfresh rfl rfl
        (fun _ hid => hid) rfl (.inl rfl)
  | unsent hphase hfresh =>
      exact h.register (h.gone (by simp [hphase]) (by simp [hphase])) hfresh rfl rfl
        (fun _ hid => AttemptState.mem_of_mem_failHandOver hid) rfl
        (.inr ⟨AttemptState.own_notMem_failHandOver, by simp [AttemptState.failHandOver]⟩)
  | unserialized hphase hfresh =>
      exact h.register (h.gone (by simp [hphase]) (by simp [hphase])) hfresh rfl rfl
        (fun _ hid => AttemptState.mem_of_mem_failHandOver hid) rfl
        (.inr ⟨AttemptState.own_notMem_failHandOver, by simp [AttemptState.failHandOver]⟩)
  | lose hphase =>
      exact h.of_gone (h.gone (by simp [hphase]) (by simp [hphase])) rfl (noteOutcome_ids _ _)
        (fun _ hid => hid) (by simp)
  | wait hphase =>
      exact h.of_gone (h.gone (by simp [hphase]) (by simp [hphase])) rfl rfl (fun _ hid => hid)
        (by simp)
  | poll hphase =>
      exact h.of_gone (h.gone (by simp [hphase]) (by simp [hphase])) rfl rfl (fun _ hid => hid)
        (by simp [hphase])
  | @redispatch next jumps outcome contended hway =>
      have hkept : ∀ id ∈ (s.redispatch next outcome contended).pending, id ∈ s.pending :=
        fun _ hid => AttemptState.mem_of_mem_dropGuard (s := s.note outcome) hid
      have hgone := h.gone hway.settled.1 hway.settled.2
      exact h.of_gone (fun d hd hmem => hgone d hd (hkept d.id hmem)) rfl (noteOutcome_ids _ _)
        hkept (by simp [AttemptState.redispatch])
  | @leave reply outcome contended hway =>
      exact h.of_gone (hway.gone h contended) rfl (noteOutcome_ids _ _)
        (fun _ hid => AttemptState.mem_of_mem_leave hid) (by simp [AttemptState.leave])
  | @hangUp contended hleft hhere =>
      refine ⟨fun id hid => h.known id (AttemptState.mem_of_mem_dropGuard hid), h.own, h.fresh,
        nofun, nofun, fun d hd hmem => ?_⟩
      obtain ⟨d', rest, hnewest, hid⟩ :=
        h.newest_of_entry hhere hd (AttemptState.mem_of_mem_dropGuard hmem)
      refine .inr ⟨rfl, ?_⟩
      cases contended with
      | false =>
          exact absurd (hid ▸ hmem) (AttemptState.own_notMem_withoutOwn hnewest)
      | true =>
          simp [AttemptState.dropGuard, hnewest, hid]

/-! ## Going on -/

/-- Who is picked is served by a service of theirs. -/
theorem Attempt.finds_of_pick {m : Moment} {args : PickArgs} {client : SelectedClient}
    (h : A.pick m args = .selected client) : ∃ next, A.Finds m args next := by
  obtain ⟨pool, key, allowed, chosen, handle, svc, -, -, -, hlook, hget, rfl⟩ :=
    pickProxyClient_selected h
  refine ⟨⟨_, svc⟩, h, handle, hlook, ?_, rfl⟩
  rw [ServiceRef.get, hlook, Option.bind_some] at hget
  exact List.mem_of_getElem? hget

theorem exists_unminted (ids : List String) : ∃ id, id ∉ ids := by
  have hinj : Function.Injective fun n => String.ofList (List.replicate n 'a') := by
    intro m n h
    simpa using congrArg String.toList h
  have : Infinite String := .of_injective _ hinj
  obtain ⟨id, hid⟩ := Infinite.exists_notMem_finset ids.toFinset
  exact ⟨id, by simpa using hid⟩

theorem Attempt.canMove (hleft : ∀ reply, s.phase ≠ .left reply) (hhere : s.phase ≠ .abandoned) :
    A.CanMove s := by
  have hout : ∀ {reply outcome}, A.Leaves s reply outcome → A.CanMove s := fun hway =>
    ⟨s.clock, _, _, le_refl _, @Step.leave A _ _ _ false hway, Nat.add_right_comm _ _ _⟩
  cases hphase : s.phase with
  | left reply => exact absurd hphase (hleft reply)
  | abandoned => exact absurd hphase hhere
  | picked => exact hout (.turnedAway hphase)
  | awaiting id channel => exact hout (.timeout hphase)
  | ready =>
      obtain ⟨id, hid⟩ := exists_unminted s.minted
      exact ⟨s.clock, _, _, le_refl _, .handed hphase hid, Nat.add_right_comm _ _ _⟩
  | lost =>
      by_cases hcan : A.canFailover s.jumpsUsed = true
      · by_cases hmode : A.failover.mode = .retry
        · cases hpick : A.pick s.moment (A.repick none A.canary .roundRobin 0) with
          | selected client =>
              obtain ⟨next, hfound⟩ := A.finds_of_pick hpick
              exact ⟨s.clock, _, _, le_refl _,
                @Step.redispatch A _ _ _ _ false (.failover hphase hcan hmode hfound),
                Nat.add_right_comm _ _ _⟩
          | noRoute =>
              have hnone : ∀ client, A.pick s.moment (A.repick none A.canary .roundRobin 0) ≠
                  .selected client := by simp [hpick]
              exact hout (.nobody hphase hmode hnone)
          | denied redirect =>
              have hnone : ∀ client, A.pick s.moment (A.repick none A.canary .roundRobin 0) ≠
                  .selected client := by simp [hpick]
              exact hout (.nobody hphase hmode hnone)
        · have hwaits : A.failover.mode = .wait ∨ A.failover.mode = .retryWait := by
            cases hm : A.failover.mode with
            | fail => simp [Attempt.canFailover, hm] at hcan
            | retry => exact absurd hm hmode
            | wait => exact .inl rfl
            | retryWait => exact .inr rfl
          exact ⟨s.clock, _, _, le_refl _, .wait hphase hcan hwaits, Nat.add_right_comm _ _ _⟩
      · exact hout (.noFailover hphase (by simpa using hcan))
  | waiting requirement =>
      have hlater : s.clock ≤ max s.clock s.resumeAt := le_max_left _ _
      have hawake : s.resumeAt ≤ max s.clock s.resumeAt := le_max_right _ _
      cases hpick : A.pick s.moment (A.repick requirement none .roundRobin 0) with
      | selected client =>
          obtain ⟨next, hfound⟩ := A.finds_of_pick hpick
          exact ⟨_, _, _, hlater, @Step.redispatch A _ _ _ _ false (.found hphase hawake hfound),
            Nat.add_right_comm _ _ _⟩
      | denied redirect =>
          exact ⟨_, _, _, hlater,
            @Step.leave A _ _ _ false (.expired hphase hawake (.inl ⟨redirect, hpick⟩)),
            Nat.add_right_comm _ _ _⟩
      | noRoute =>
          by_cases hopen : ∃ deadline, s.deadline = some deadline ∧
              max s.clock s.resumeAt < deadline
          · obtain ⟨deadline, hdeadline, hbefore⟩ := hopen
            exact ⟨_, _, _, hlater, .poll hphase hawake hdeadline hbefore hpick, rfl⟩
          · refine ⟨_, _, _, hlater, @Step.leave A _ _ _ false
              (.expired hphase hawake (.inr ⟨hpick, fun deadline hdeadline => ?_⟩)),
              Nat.add_right_comm _ _ _⟩
            exact Nat.le_of_not_lt fun hbefore => hopen ⟨deadline, hdeadline, hbefore⟩

end Steps

/-! ## Every run -/

/-- **Nothing is dispatched more often than it may be**, whatever becomes of
the dispatches. -/
theorem redispatch_safe {A : Attempt} {s : AttemptState} (hs : A.sys.Reachable s) :
    A.RedispatchSafe s := by
  obtain ⟨hcounted, hpatient, htimeout, hregistered⟩ :
      s.Counted A ∧ s.Patient A ∧ s.TimeoutLast ∧ s.Registered := by
    refine hs.invariant (P := fun s => s.Counted A ∧ s.Patient A ∧ s.TimeoutLast ∧ s.Registered)
      ?_ ?_
    · rintro s ⟨hs, hknown⟩
      have hphase : s.phase = .picked := by rw [hs]
      have hdispatches : s.dispatches = [] := by rw [hs]
      have hjumps : s.jumpsUsed = 0 := by rw [hs]
      have hmoves : s.moves = 0 := by rw [hs]
      have hidle : s.idle = 0 := by rw [hs]
      have hresume : s.resumeAt = 0 := by rw [hs]
      have hdeadline : s.deadline = none := by rw [hs]
      refine ⟨⟨?_, ?_, ?_, ?_⟩, ⟨?_, ?_, ?_, ?_⟩, ⟨?_, ?_⟩, ⟨hknown, ?_, ?_, ?_, ?_, ?_⟩⟩ <;>
        simp [hphase, hdispatches, hjumps, hmoves, hidle, hresume, hdeadline]
    · rintro s a s' - ⟨hcounted, hpatient, htimeout, hregistered⟩ hstep
      exact ⟨hstep.counted hcounted, hstep.patient hpatient, hstep.timeoutLast htimeout,
        hstep.registered_kept hregistered⟩
  have huncharged : s.phase.uncharged ≤ 1 := by
    cases s.phase <;> simp [AttemptPhase.uncharged]
  have hprogress : s.phase.progress ≤ 4 := by
    cases s.phase <;> simp [AttemptPhase.progress]
  have hjumps := hcounted.jumps
  have hdispatched := hcounted.dispatched
  have hmoves := hcounted.moves
  refine ⟨by omega, ⟨by omega, hpatient.idle⟩, ?_, fun hno => ?_, htimeout.tail,
    hregistered.fresh, ?_, ?_⟩
  · by_cases hleft : ∃ reply, s.phase = .left reply
    · exact .inl hleft
    · by_cases hhere : s.phase = .abandoned
      · exact .inr (.inl hhere)
      · exact .inr (.inr (A.canMove (fun reply hreply => hleft ⟨reply, hreply⟩) hhere))
  · have hrepeat : A.repeatable = false := by
      rcases hno with h | h | h <;> simp [Attempt.repeatable, h]
    have hzero := hcounted.once hrepeat
    omega
  · rintro ⟨reply, hreply⟩
    exact hregistered.gone (by simp [hreply]) (by simp [hreply])
  · intro habandoned d hd hmem
    rcases hregistered.entry d hd hmem with hawaiting | ⟨-, hdoomed⟩
    · rw [habandoned] at hawaiting
      cases hawaiting
    · exact hdoomed

/-! ## A request that is dispatched twice -/

def firstService : ServiceState := { catchAll := true, serviceName := some "v2", cache := true }

def carriesService (svc : ServiceState) : ClientHandle :=
  { carries "v2" with services := [svc] }

/-- A page with a body, cached and retried. -/
def asksTwice : Attempt where
  gate :=
    { downThreshold := 5
      cfg :=
        { sites :=
            [{ hostname := "*", path := none, access := some .isPublic
               path_normal := Site.noPath_normal }] } }
  visitor := {}
  host := some "app.example.com"
  path := "/up"
  identity := none
  method := "GET"
  headers := []
  traceHeaders := []
  cfg := { visitorAuth := ⟨[]⟩, cacheEnabled := true }
  client := { id := "a", cache := true }
  requestId := "r-1"
  admitted := by rfl
  bearer_eq := by rfl
  body := fiveBytes
  first := ⟨⟨"a", some "v2", none⟩, firstService⟩
  callerIp := .v4 0x7f000001#32
  failover := { mode := .retry, maxJumps := 2, window := 1000 }
  answers := keepsMissing
  decode _ := none
  key := "app.example.com|/up"
  client_cache := rfl
  body_declared := rfl

/-- The other connection is there when the first one is lost. -/
def afterLoss (next : ServiceState) : Moment where
  clients := (∅ : Clients).insert "b" (carriesService next)
  now := 0

def secondPick (next : ServiceState) : Assignment :=
  ⟨⟨"b", next.serviceName, none⟩, next⟩

section Twice

variable (next : ServiceState)

def buffersPage : AttemptState where
  moment := afterLoss next
  selected := asksTwice.first
  phase := .ready
  bytes := [1, 2, 3, 4, 5]
  moves := 1

/-- The first dispatch has lost its channel. -/
def losesFirst : AttemptState :=
  ((buffersPage next).handOver asksTwice "r-1").take "r-1" none

def givesUpOnFirst : AttemptState :=
  { (losesFirst next).note (some .lost) with phase := .lost, moves := 3 }

def goesElsewhere : AttemptState :=
  { (givesUpOnFirst next).redispatch (secondPick next) none false with
    jumpsUsed := (givesUpOnFirst next).jumpsUsed + 1 }

def getsPage : AttemptState :=
  ((goesElsewhere next).handOver asksTwice "r-2").take "r-2" (some freshPage)

def relaysPage : AttemptState :=
  { (getsPage next).leave (.relayed freshPage) (some (.answered freshPage)) false with
    writes := (getsPage next).stores asksTwice (.relayed freshPage) ++ (getsPage next).writes }

end Twice

/-- It is lost once, and the second service answers. -/
theorem reachable_relaysPage {next : ServiceState}
    {cond : AttemptState → AttemptAct → AttemptState → Prop}
    (hfound : asksTwice.Finds (afterLoss next) (asksTwice.repick none none .roundRobin 0)
      (secondPick next))
    (hserver : next.serverSideTarget = none)
    (hcond : ∀ s a s', (∀ given, a = .redispatch given →
      given = secondPick next ∧ s.bytes = [1, 2, 3, 4, 5]) → cond s a s') :
    (asksTwice.sys.restrict cond).Reachable (relaysPage next) := by
  have hquiet : ∀ s a s', (∀ given, a ≠ .redispatch given) → cond s a s' :=
    fun s a s' ha => hcond s a s' fun given h => absurd h (ha given)
  have hcan : asksTwice.canFailover 0 = true := by decide
  have hfresh : "r-2" ∉ ["r-1"] := by decide
  have hbytes : RequestBody.whole asksTwice.body.limit asksTwice.body.items =
      some [1, 2, 3, 4, 5] := by decide
  have hstart : (asksTwice.sys.restrict cond).Reachable
      { moment := afterLoss next, selected := asksTwice.first } :=
    .init ⟨rfl, by simp⟩
  have hbuffer : asksTwice.Step { moment := afterLoss next, selected := asksTwice.first } .enter
      (buffersPage next) := .buffered rfl (by decide) (by decide) hbytes
  have hfirst : asksTwice.Step (buffersPage next) (.dispatch "r-1")
      ((buffersPage next).handOver asksTwice "r-1") := .handed rfl (by simp [buffersPage])
  have hdrop : asksTwice.Step ((buffersPage next).handOver asksTwice "r-1") (.taken "r-1" none)
      (losesFirst next) := .taken ((AList.mem_insert _).mpr (.inl rfl))
  have hlose : asksTwice.Step (losesFirst next) .lose (givesUpOnFirst next) := .lose rfl
  have hway : asksTwice.Redispatches (givesUpOnFirst next) (secondPick next) 1 none :=
    .failover rfl hcan rfl hfound
  have hagain : asksTwice.Step (givesUpOnFirst next) (.redispatch (secondPick next))
      (goesElsewhere next) :=
    @Attempt.Step.redispatch asksTwice _ _ 1 none false hway
  have hsecond : asksTwice.Step (goesElsewhere next) (.dispatch "r-2")
      ((goesElsewhere next).handOver asksTwice "r-2") := .handed rfl hfresh
  have hentry : "r-2" ∈ ((goesElsewhere next).handOver asksTwice "r-2").pending := by
    simp [AttemptState.handOver, AttemptState.register, goesElsewhere, AttemptState.redispatch,
      secondPick, hserver]
  have hanswer : asksTwice.Step ((goesElsewhere next).handOver asksTwice "r-2")
      (.taken "r-2" (some freshPage)) (getsPage next) :=
    @Attempt.Step.taken asksTwice _ "r-2" (some freshPage) hentry
  have hrelay : asksTwice.Step (getsPage next) (.leave (.relayed freshPage)) (relaysPage next) :=
    @Attempt.Step.leave asksTwice _ _ _ false
      (@Attempt.Leaves.relay asksTwice _ "r-2" freshPage .roundRobin 0 rfl (.inl rfl))
  have hentered := hstart.step ⟨hbuffer, hquiet _ _ _ (by simp)⟩
  have hlost := ((hentered.step ⟨hfirst, hquiet _ _ _ (by simp)⟩).step
    ⟨hdrop, hquiet _ _ _ (by simp)⟩).step ⟨hlose, hquiet _ _ _ (by simp)⟩
  have hdispatched := (hlost.step
    ⟨hagain, hcond _ _ _ fun given h => ⟨(AttemptAct.redispatch.inj h).symm, rfl⟩⟩).step
    ⟨hsecond, hquiet _ _ _ (by simp)⟩
  exact (hdispatched.step ⟨hanswer, hquiet _ _ _ (by simp)⟩).step
    ⟨hrelay, hquiet _ _ _ (by simp)⟩

def secondService : ServiceState := { catchAll := true, serviceName := some "v1", cache := true }

/-- Two dispatches, and the answer of the second. -/
theorem redispatch_safe_page : ∃ s, asksTwice.RedispatchSafe s ∧
    s.phase = .left (.relayed freshPage) ∧ s.dispatches.length = 2 ∧ s.pending.keys = [] := by
  have hpick : asksTwice.pick (afterLoss secondService)
      (asksTwice.repick none none .roundRobin 0) = .selected ⟨"b", some "v1", none⟩ := by decide
  have hs : (asksTwice.sys.restrict fun _ _ _ => True).Reachable (relaysPage secondService) :=
    reachable_relaysPage
      ⟨hpick, carriesService secondService, rfl, List.mem_singleton_self _, rfl⟩ rfl
      fun _ _ _ _ => trivial
  exact ⟨_, redispatch_safe hs.of_restrict, rfl, rfl, by decide⟩

end Aperio
