import Mathlib.Algebra.Group.Nat.Defs
import Mathlib.Algebra.Group.Int.Defs
import Aperio.StreamFlow

/-!
# The backlog counter between two tasks

`PumpedSender::push` and the pump loop of `spawn_consumer_pump`
(`state/stream.rs`), one step for each thing the other side can see. The
producer checks the cap, sends the item and only then counts it; the pump
takes an item, hands it over and only then subtracts it. The queue and the
counter are all they share.

The counter is an `AtomicUsize` and wraps. `moved` is one atomic addition or
subtraction at that width; the comparison that follows it is the one of
`StreamFlow.onEnqueued` and `StreamFlow.onForwarded` on the value the atomic
gave back. `exact` is not in the source: it is what the counter would read if
it had no width, so that a counter below zero shows.

An item is visible to the pump before it is counted. A pump that gets through
with it first subtracts what nobody added; `CountedFirst` is the order of
steps in which that does not happen.
-/

namespace Aperio

/-! ## The counter at its width -/

/-- One atomic addition to the counter. -/
def StreamFlow.moved (flow : StreamFlow) (change : Int) : StreamFlow :=
  { flow with backlog := (flow.backlog + change) % 2 ^ 64 }

@[simp] theorem moved_backlog (flow : StreamFlow) (change : Int) :
    (flow.moved change).backlog = (flow.backlog + change) % 2 ^ 64 := rfl

/-! ## The two tasks -/

/-- Where the read loop stands in a push. -/
inductive ProducerAt (T : Type) where
  | idle
  /-- Past the cap check. -/
  | checked (item : T)
  /-- The item is in the queue and not yet counted. -/
  | enqueued (item : T)

/-- Where the pump stands. -/
inductive PumpAt (T : Type) where
  | waiting
  | inHand (item : T)
  /-- The consumer has the item, and it is not yet subtracted. -/
  | handed (item : T)
  /-- The loop is over and its queue is gone. -/
  | ended

structure SharedStream (T : Type) where
  flow : StreamFlow
  feed : List T := []
  producer : ProducerAt T := .idle
  pump : PumpAt T := .waiting
  sent : List StreamControl := []
  exact : Int := 0

/-- What happens next: three steps of a push, three of the pump, and the two
ways it ends. -/
inductive SharedAct (T : Type) where
  | check (item : T)
  | enqueue
  | count (room : Bool)
  | recv
  | handOver
  | account (room : Bool)
  | giveUp
  | stop

namespace SharedStream

variable {T : Type} [PumpCost T]

def spawn (streamId : String) (limits : StreamLimits) : SharedStream T where
  flow := { streamId := streamId, limits := limits }

/-- The items the pump has taken and not yet accounted for. -/
def taken (s : SharedStream T) : List T :=
  match s.pump with
  | .inHand item => [item]
  | .handed item => [item]
  | _ => []

/-- The items sent and not yet accounted for, oldest first. -/
def inFlight (s : SharedStream T) : List T :=
  s.taken ++ s.feed

/-- What the producer has sent and not counted. -/
def uncounted (s : SharedStream T) : Nat :=
  match s.producer with
  | .enqueued item => PumpCost.cost item
  | _ => 0

def step (s : SharedStream T) : SharedAct T → Option (SharedStream T)
  | .check item =>
    -- an item exists only where it fits beside what the stream holds already
    match s.producer with
    | .idle =>
      if bytesOf s.inFlight + PumpCost.cost item < 2 ^ 64 then
        if (s.flow.moved (PumpCost.cost item)).overLimit 0 then some s
        else some { s with producer := .checked item }
      else none
    | _ => none
  | .enqueue =>
    match s.producer, s.pump with
    | .checked _, .ended => some { s with producer := .idle }
    | .checked item, _ => some { s with producer := .enqueued item, feed := s.feed ++ [item] }
    | _, _ => none
  | .count room =>
    match s.producer with
    | .enqueued item =>
      let (flow, out) := (s.flow.moved (PumpCost.cost item)).onEnqueued 0 room
      some { s with
        flow := flow
        producer := .idle
        sent := s.sent ++ out
        exact := s.exact + PumpCost.cost item }
    | _ => none
  | .recv =>
    match s.pump, s.feed with
    | .waiting, item :: rest => some { s with pump := .inHand item, feed := rest }
    | _, _ => none
  | .handOver =>
    match s.pump with
    | .inHand item => some { s with pump := .handed item }
    | _ => none
  | .account room =>
    match s.pump with
    | .handed item =>
      let (flow, out) := (s.flow.moved (-(PumpCost.cost item : Nat))).onForwarded 0 room
      some { s with
        flow := flow
        pump := .waiting
        sent := s.sent ++ out
        exact := s.exact - PumpCost.cost item }
    | _ => none
  | .giveUp =>
    match s.pump with
    | .inHand _ => some { s with pump := .ended, feed := [] }
    | _ => none
  | .stop =>
    match s.pump with
    | .waiting => some { s with pump := .ended, feed := [] }
    | _ => none

end SharedStream

/-- Every interleaving of one producer and its pump. -/
def sharedSys (T : Type) [PumpCost T] (streamId : String) (limits : StreamLimits) :
    Sys (SharedStream T) (SharedAct T) where
  init s := s = .spawn streamId limits
  step s a s' := s.step a = some s'

/-! ## The order that keeps the counter -/

variable {T : Type} [PumpCost T] {streamId : String} {limits : StreamLimits}

/-- The pump does not subtract the item the producer is about to count. The
queue is in order and that item is its newest, so it is the one in the pump's
hand exactly when the queue behind it is empty. An item of no bytes does no
harm. -/
def CountedFirst (s : SharedStream T) (a : SharedAct T) : Prop :=
  match a, s.producer with
  | .account _, .enqueued item => s.feed ≠ [] ∨ PumpCost.cost item = 0
  | _, _ => True

/-- The item of a push between its check and its send. -/
def SharedStream.coming (s : SharedStream T) : Nat :=
  match s.producer with
  | .checked item => PumpCost.cost item
  | _ => 0

/-- What holds while the pump runs: the counter is the bytes in flight
without the ones not counted yet, and these are the newest. -/
structure SharedStream.Live (s : SharedStream T) : Prop where
  total : s.exact = bytesOf s.inFlight - (s.uncounted : Int)
  fits : bytesOf s.inFlight + s.coming < 2 ^ 64
  newest : ∀ item, s.producer = .enqueued item →
    PumpCost.cost item = 0 ∨ ∃ older, s.inFlight = older ++ [item]

/-- What holds of the two tasks. Once the pump has ended only the item the
producer was about to count is still added. -/
structure SharedStream.Kept (s : SharedStream T) : Prop where
  counter : s.flow.backlog = s.exact
  live : s.pump ≠ .ended → s.Live
  ended : s.pump = .ended → 0 ≤ s.exact ∧ s.exact + s.uncounted < 2 ^ 64

theorem uncounted_le {s : SharedStream T} (h : s.Live) : s.uncounted ≤ bytesOf s.inFlight := by
  unfold SharedStream.uncounted
  split
  · rename_i item hitem
    obtain hzero | ⟨older, holder⟩ := h.newest item hitem
    · omega
    · rw [holder, bytesOf_concat]
      omega
  · exact Nat.zero_le _

/-- The counter of a kept stream is within its width. -/
theorem SharedStream.Kept.bounds {s : SharedStream T} (h : s.Kept) :
    0 ≤ s.exact ∧ s.exact + s.uncounted < 2 ^ 64 := by
  by_cases hended : s.pump = .ended
  · exact h.ended hended
  · have hlive := h.live hended
    have hle := uncounted_le hlive
    have htotal := hlive.total
    have hfits := hlive.fits
    omega

theorem spawn_shared : (SharedStream.spawn streamId limits : SharedStream T).Kept where
  counter := rfl
  live _ := ⟨rfl, by simp [SharedStream.inFlight, SharedStream.taken, SharedStream.coming,
    SharedStream.spawn, bytesOf], by simp [SharedStream.spawn]⟩
  ended h := by simp [SharedStream.spawn] at h

/-- A push past its check. -/
theorem checked_kept {s : SharedStream T} {item : T} (hs : s.Kept) (hidle : s.producer = .idle)
    (hfits : bytesOf s.inFlight + PumpCost.cost item < 2 ^ 64) :
    ({ s with producer := .checked item } : SharedStream T).Kept where
  counter := hs.counter
  live hrun := by
    have hlive := hs.live hrun
    have htotal := hlive.total
    simp only [SharedStream.uncounted, hidle] at htotal
    exact ⟨htotal, hfits, by simp⟩
  ended hend := by
    have hended := hs.ended hend
    simp only [SharedStream.uncounted, hidle] at hended
    exact hended

/-- The send fails once the pump has ended. -/
theorem refused_kept {s : SharedStream T} {item : T} (hs : s.Kept)
    (hat : s.producer = .checked item) (hend : s.pump = .ended) :
    ({ s with producer := .idle } : SharedStream T).Kept where
  counter := hs.counter
  live hrun := absurd hend hrun
  ended _ := by
    have hended := hs.ended hend
    simp only [SharedStream.uncounted, hat] at hended
    exact hended

/-- The item is in the queue: in flight, and not counted. -/
theorem enqueued_kept {s : SharedStream T} {item : T} (hs : s.Kept)
    (hat : s.producer = .checked item) (hrun : s.pump ≠ .ended) :
    ({ s with producer := .enqueued item, feed := s.feed ++ [item] } : SharedStream T).Kept where
  counter := hs.counter
  live _ := by
    have hlive := hs.live hrun
    have htotal := hlive.total
    have hfits := hlive.fits
    simp only [SharedStream.uncounted, SharedStream.coming, hat] at htotal hfits
    -- one more item at the end of what is in flight
    have hflight : ({ s with producer := .enqueued item, feed := s.feed ++ [item] } :
        SharedStream T).inFlight = s.inFlight ++ [item] := by
      simp only [SharedStream.inFlight, SharedStream.taken, List.append_assoc]
    refine ⟨?_, ?_, ?_⟩
    · rw [hflight, bytesOf_concat]
      simp only [SharedStream.uncounted, htotal]
      omega
    · rw [hflight, bytesOf_concat]
      simpa only [SharedStream.coming, Nat.add_zero] using hfits
    · rintro other hother
      obtain rfl := ProducerAt.enqueued.inj hother
      exact Or.inr ⟨s.inFlight, hflight⟩
  ended hend := absurd hend hrun

theorem counted_kept {s : SharedStream T} {item : T} (room : Bool) (hs : s.Kept)
    (hat : s.producer = .enqueued item) :
    ({ s with
      flow := ((s.flow.moved (PumpCost.cost item)).onEnqueued 0 room).1
      producer := .idle
      sent := s.sent ++ ((s.flow.moved (PumpCost.cost item)).onEnqueued 0 room).2
      exact := s.exact + PumpCost.cost item } : SharedStream T).Kept where
  counter := by
    have hbounds := hs.bounds
    simp only [SharedStream.uncounted, hat] at hbounds
    simp only [onEnqueued_backlog, moved_backlog, hs.counter, Int.natCast_zero, Int.add_zero]
    exact Int.emod_eq_of_lt (by omega) hbounds.2
  live hrun := by
    have hlive := hs.live hrun
    have htotal := hlive.total
    have hfits := hlive.fits
    simp only [SharedStream.uncounted, SharedStream.coming, hat] at htotal hfits
    refine ⟨?_, hfits, by simp⟩
    simp only [SharedStream.uncounted, SharedStream.inFlight, SharedStream.taken] at htotal ⊢
    omega
  ended hend := by
    have hended := hs.ended hend
    simp only [SharedStream.uncounted, hat] at hended ⊢
    omega

/-- Taking an item and handing it over leave what is in flight as it is. -/
theorem pumping_kept {s : SharedStream T} {pump : PumpAt T} {feed : List T} (hs : s.Kept)
    (hrun : s.pump ≠ .ended) (hpump : pump ≠ .ended)
    (hflight : ({ s with pump := pump, feed := feed } : SharedStream T).inFlight = s.inFlight) :
    ({ s with pump := pump, feed := feed } : SharedStream T).Kept where
  counter := hs.counter
  live _ := by
    have hlive := hs.live hrun
    refine ⟨?_, ?_, ?_⟩
    · rw [hflight]
      exact hlive.total
    · rw [hflight]
      exact hlive.fits
    · rw [hflight]
      exact hlive.newest
  ended hend := absurd hend hpump

/-- An item subtracted after it was counted. -/
theorem accounted_kept {s : SharedStream T} {item : T} (room : Bool) (hs : s.Kept)
    (hat : s.pump = .handed item) (hfirst : CountedFirst s (.account room)) :
    ({ s with
      flow := ((s.flow.moved (-(PumpCost.cost item : Nat))).onForwarded 0 room).1
      pump := .waiting
      sent := s.sent ++ ((s.flow.moved (-(PumpCost.cost item : Nat))).onForwarded 0 room).2
      exact := s.exact - PumpCost.cost item } : SharedStream T).Kept := by
  have hlive := hs.live (by simp [hat])
  have hflight : s.inFlight = item :: s.feed := by
    simp [SharedStream.inFlight, SharedStream.taken, hat]
  have hbytes : bytesOf s.inFlight = PumpCost.cost item + bytesOf s.feed := by
    rw [hflight]
    rfl
  -- the newest item is still behind this one, or it weighs nothing
  have hnewest : ∀ other, s.producer = .enqueued other →
      PumpCost.cost other = 0 ∨ ∃ older, s.feed = older ++ [other] := by
    intro other hother
    obtain hzero | ⟨older, holder⟩ := hlive.newest other hother
    · exact Or.inl hzero
    · simp only [CountedFirst, hother] at hfirst
      obtain hne | hzero := hfirst
      · cases older with
        | nil =>
            rw [hflight, List.nil_append, List.cons.injEq] at holder
            exact absurd holder.2 hne
        | cons first older =>
            rw [hflight, List.cons_append, List.cons.injEq] at holder
            exact Or.inr ⟨older, holder.2⟩
      · exact Or.inl hzero
  have hlive' : ({ s with
      flow := ((s.flow.moved (-(PumpCost.cost item : Nat))).onForwarded 0 room).1
      pump := .waiting
      sent := s.sent ++ ((s.flow.moved (-(PumpCost.cost item : Nat))).onForwarded 0 room).2
      exact := s.exact - PumpCost.cost item } : SharedStream T).Live := by
    have htotal := hlive.total
    have hfits := hlive.fits
    refine ⟨?_, ?_, hnewest⟩
    · show s.exact - _ = (bytesOf s.feed : Int) - (s.uncounted : Int)
      rw [htotal, hbytes]
      omega
    · show bytesOf s.feed + s.coming < _
      omega
  refine ⟨?_, fun _ => hlive', by simp⟩
  have hle := uncounted_le hlive'
  have htotal := hlive'.total
  have hfits := hlive'.fits
  simp only [onForwarded_backlog, moved_backlog, hs.counter, Int.natCast_zero, Int.sub_zero]
  dsimp only at htotal
  rw [← Int.sub_eq_add_neg]
  exact Int.emod_eq_of_lt (by omega) (by omega)

/-- The pump ends and takes the queue with it. -/
theorem ended_kept {s : SharedStream T} (hs : s.Kept) :
    ({ s with pump := .ended, feed := [] } : SharedStream T).Kept where
  counter := hs.counter
  live hrun := absurd rfl hrun
  ended _ := hs.bounds

/-- **Step lemma.** Every step in the right order keeps the counter. -/
theorem sharedStep_kept {s s' : SharedStream T} {a : SharedAct T} (hs : s.Kept)
    (h : s.step a = some s') (hfirst : CountedFirst s a) : s'.Kept := by
  cases a with
  | check item =>
      simp only [SharedStream.step] at h
      split at h
      · rename_i hidle
        split at h
        · rename_i hfits
          split at h
          · obtain rfl := Option.some.inj h
            exact hs
          · obtain rfl := Option.some.inj h
            exact checked_kept hs hidle hfits
        · cases h
      · cases h
  | enqueue =>
      simp only [SharedStream.step] at h
      split at h
      · rename_i item hat hend
        obtain rfl := Option.some.inj h
        exact refused_kept hs hat hend
      · rename_i item hat hrun
        obtain rfl := Option.some.inj h
        exact enqueued_kept hs hat hrun
      · cases h
  | count room =>
      simp only [SharedStream.step] at h
      split at h
      · rename_i item hat
        obtain rfl := Option.some.inj h
        exact counted_kept room hs hat
      · cases h
  | recv =>
      simp only [SharedStream.step] at h
      split at h
      · rename_i item rest hwait hfeed
        obtain rfl := Option.some.inj h
        exact pumping_kept hs (by simp [hwait]) (by simp)
          (by simp [SharedStream.inFlight, SharedStream.taken, hwait, hfeed])
      · cases h
  | handOver =>
      simp only [SharedStream.step] at h
      split at h
      · rename_i item hat
        obtain rfl := Option.some.inj h
        exact pumping_kept hs (by simp [hat]) (by simp)
          (by simp [SharedStream.inFlight, SharedStream.taken, hat])
      · cases h
  | account room =>
      simp only [SharedStream.step] at h
      split at h
      · rename_i item hat
        obtain rfl := Option.some.inj h
        exact accounted_kept room hs hat hfirst
      · cases h
  | giveUp =>
      simp only [SharedStream.step] at h
      split at h
      · obtain rfl := Option.some.inj h
        exact ended_kept hs
      · cases h
  | stop =>
      simp only [SharedStream.step] at h
      split at h
      · obtain rfl := Option.some.inj h
        exact ended_kept hs
      · cases h

/-- The runs in which no item is subtracted before it is counted. -/
def countedFirstSys (T : Type) [PumpCost T] (streamId : String) (limits : StreamLimits) :
    Sys (SharedStream T) (SharedAct T) :=
  (sharedSys T streamId limits).restrict fun s a _ => CountedFirst s a

theorem shared_kept {s : SharedStream T} (h : (countedFirstSys T streamId limits).Reachable s) :
    s.Kept := by
  refine h.invariant ?_ ?_
  · rintro s rfl
    exact spawn_shared
  · intro s a s' _ hs hstep
    exact sharedStep_kept hs hstep.1 hstep.2

/-- What the counter is for: it never goes below zero, so that it does not
wrap, and while no operation of either side is under way it is the cost of
what is queued. -/
structure SharedStream.Accounted (s : SharedStream T) : Prop where
  nonneg : 0 ≤ s.exact
  unwrapped : s.flow.backlog = s.exact
  between : s.producer = .idle → s.pump = .waiting → s.flow.backlog = bytesOf s.feed

/-- A kept stream is accounted for. -/
theorem SharedStream.Kept.accounted {s : SharedStream T} (h : s.Kept) : s.Accounted where
  nonneg := h.bounds.1
  unwrapped := h.counter
  between hidle hwait := by
    have htotal := (h.live (by simp [hwait])).total
    simpa [h.counter, SharedStream.uncounted, SharedStream.inFlight, SharedStream.taken, hidle, hwait]
      using htotal

/-- **The order is the whole matter.** The subtraction that comes first takes
the counter below zero. -/
theorem account_below_zero {s s' : SharedStream T} {room : Bool} (hs : s.Kept)
    (h : s.step (.account room) = some s') (hfirst : ¬CountedFirst s (.account room)) :
    s'.exact < 0 := by
  simp only [CountedFirst] at hfirst
  split at hfirst
  · rename_i item hroom hat
    simp only [not_or, not_not] at hfirst
    simp only [SharedStream.step] at h
    split at h
    · rename_i taken hpump
      obtain rfl := Option.some.inj h
      have htotal := (hs.live (by simp [hpump])).total
      -- nothing is counted that is still in flight
      have hflight : bytesOf s.inFlight = PumpCost.cost taken := by
        simp [SharedStream.inFlight, SharedStream.taken, hpump, hfirst.1, bytesOf]
      simp only [SharedStream.uncounted, hat, hflight] at htotal
      have hpos := hfirst.2
      dsimp only
      omega
    · cases h
  · simp at hfirst

/-- **Backlog accounting.** In every state of every interleaving that
subtracts no item before it is counted, the counter is not below zero and has
not wrapped, and between operations it is the cost of the queued items; and
from every such state the subtraction of an item keeps the counter from zero
up exactly when it comes in that order. -/
theorem backlog_accounting {s : SharedStream T}
    (h : (countedFirstSys T streamId limits).Reachable s) :
    s.Accounted ∧ ∀ room s', s.step (.account room) = some s' →
      (0 ≤ s'.exact ↔ CountedFirst s (.account room)) := by
  have hs := shared_kept h
  refine ⟨hs.accounted, ?_⟩
  intro room s' hstep
  constructor
  · intro hnonneg
    by_contra hfirst
    have := account_below_zero hs hstep hfirst
    omega
  · intro hfirst
    exact (sharedStep_kept hs hstep hfirst).accounted.nonneg

/-! ## One chunk, both orders -/

instance (s : SharedStream T) (a : SharedAct T) : Decidable (CountedFirst s a) := by
  unfold CountedFirst
  split <;> infer_instance

/-- One step of the right order. -/
def SharedStream.orderedStep (s : SharedStream T) (a : SharedAct T) : Option (SharedStream T) :=
  if CountedFirst s a then s.step a else none

theorem orderedStep_eq_some {s s' : SharedStream T} {a : SharedAct T}
    (h : s.orderedStep a = some s') : (countedFirstSys T streamId limits).step s a s' := by
  unfold SharedStream.orderedStep at h
  split at h
  · rename_i hfirst
    exact ⟨h, hfirst⟩
  · cases h

/-- The producer counts its chunk as soon as it is in the queue. -/
def countedChunk : List (SharedAct TcpConsumerMsg) :=
  [.check (.data [1, 2, 3]), .enqueue, .count true, .recv, .handOver, .account true]

/-- The pump is through with the chunk before the producer goes on. -/
def overtakenChunk : List (SharedAct TcpConsumerMsg) :=
  [.check (.data [1, 2, 3]), .enqueue, .recv, .handOver, .account true]

theorem backlog_accounting_counted : ∃ s : SharedStream TcpConsumerMsg,
    countedChunk.foldlM SharedStream.orderedStep (.spawn "s1" narrowLimits) = some s ∧
    s.Accounted ∧ s.flow.backlog = 0 := by
  refine ⟨_, rfl, ?_, rfl⟩
  have hrun := @Sys.Reachable.foldlM _ _ (countedFirstSys TcpConsumerMsg "s1" narrowLimits) _ _
    SharedStream.orderedStep (.init rfl) countedChunk (fun _ _ _ => orderedStep_eq_some) rfl
  exact (backlog_accounting hrun).1

/-- The chunk is subtracted before it is counted: the counter wraps. -/
theorem overtaken_wraps : ¬∀ s : SharedStream TcpConsumerMsg,
    (sharedSys TcpConsumerMsg "s1" narrowLimits).Reachable s → s.Accounted := by
  intro hall
  have hrun := @Sys.Reachable.foldlM _ _ (sharedSys TcpConsumerMsg "s1" narrowLimits) _ _
    SharedStream.step (.init rfl) overtakenChunk (fun _ _ _ hstep => hstep) rfl
  exact absurd (hall _ hrun).nonneg (by decide)

end Aperio
