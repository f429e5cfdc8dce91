import Aperio.Run
import Aperio.Text

/-!
# Flow control of one pumped stream

`state/stream.rs`. The tunnel's read loop pushes a stream's items into a
queue and never waits; a pump takes them out one at a time and hands them to
the consumer. `StreamFlow` counts the bytes in between and asks the producing
client to pause and to resume around two watermarks. Neither side waits for
the client's writer, so a message may not go out: a failed pause is tried
again on the next chunk, a failed resume on the next one forwarded.

A push and the accounting of a forwarded item are one step each. The pump may
take, hand over or give up at any moment (a stalled consumer, a consumer
below the throughput floor), and what the writer has room for is the
outside world's. Byte counts are integers: they are sums of the lengths of
buffers held at once, and a subtraction that went below zero would show.
-/

namespace Aperio

/-! ## What an item costs -/

/-- What one queued item costs against a pumped stream's byte backlog. -/
class PumpCost (T : Type) where
  cost : T → Nat

inductive BodyFrame where
  | data (bytes : Bytes)
  | trailers (list : List (String × String))

/-- `Result<BodyFrame, io::Error>`, with the error's text. -/
instance : PumpCost (Except String BodyFrame) where
  cost
    | .ok (.data bytes) => bytes.length
    | _ => 0

inductive TcpConsumerMsg where
  | data (bytes : Bytes)
  | close

instance : PumpCost TcpConsumerMsg where
  cost
    | .data bytes => bytes.length
    | .close => 0

/-- `axum::extract::ws::Message`. -/
inductive WsMessage where
  | text (t : String)
  | binary (b : Bytes)
  | ping (b : Bytes)
  | pong (b : Bytes)
  | close

inductive WsStreamMessage where
  | data (m : WsMessage)
  | close

instance : PumpCost WsStreamMessage where
  cost
    | .data (.text t) => t.utf8ByteSize
    | .data (.binary b) => b.length
    | _ => 0

/-! ## The two watermarks -/

/-- The watermarks one stream runs with. -/
structure StreamLimits where
  pauseBytes : Nat
  resumeBytes : Nat
  backlogLimit : Nat

/-- The control messages of a stream: `TunnelMessage::StreamPause` and
`StreamResume`. -/
inductive StreamControl where
  | streamPause (id : String)
  | streamResume (id : String)
deriving DecidableEq

structure StreamFlow where
  streamId : String
  limits : StreamLimits
  /-- Bytes enqueued but not yet forwarded to the consumer. -/
  backlog : Int := 0
  /-- True while a `StreamPause` is outstanding. -/
  paused : Bool := false

namespace StreamFlow

/-- Accounts newly enqueued bytes and pauses the producer past the high
watermark: the flow afterwards and what went out. `room` says whether the
client's writer takes a message now. -/
def onEnqueued (flow : StreamFlow) (cost : Nat) (room : Bool) : StreamFlow × List StreamControl :=
  let backlog := flow.backlog + cost
  if flow.limits.pauseBytes ≤ backlog && !flow.paused then
    -- the flag is put back when the pause did not go out
    ({ flow with backlog := backlog, paused := room },
      if room then [.streamPause flow.streamId] else [])
  else ({ flow with backlog := backlog }, [])

/-- Accounts bytes handed to the consumer and resumes a paused producer once
the backlog is down at the low watermark. -/
def onForwarded (flow : StreamFlow) (cost : Nat) (room : Bool) : StreamFlow × List StreamControl :=
  let backlog := flow.backlog - cost
  if backlog ≤ flow.limits.resumeBytes && flow.paused && room then
    ({ flow with backlog := backlog, paused := false }, [.streamResume flow.streamId])
  else ({ flow with backlog := backlog }, [])

def overLimit (flow : StreamFlow) (cost : Nat) : Bool :=
  flow.limits.backlogLimit < flow.backlog + cost

/-- `Drop`: a stream torn down while its producer is paused resumes it. -/
def onDrop (flow : StreamFlow) (room : Bool) : List StreamControl :=
  if flow.paused && room then [.streamResume flow.streamId] else []

end StreamFlow

/-! ## The stream and its pump -/

inductive PumpPushError where
  | consumerGone
  | backlogFull

/-- One stream: its flow until the last handle on it goes, the queue, the
item the pump is handing over, and whether the pump still runs. `sent`,
`pushed` and `forwarded` record what has happened. -/
structure PumpedStream (T : Type) where
  flow : Option StreamFlow
  feed : List T := []
  inHand : Option T := none
  running : Bool := true
  sent : List StreamControl := []
  pushed : List T := []
  forwarded : List T := []

/-- What happens on a stream: the read loop pushes, the pump takes the next
item, has it accepted by the consumer, or ends, and the flow is dropped. -/
inductive StreamAct (T : Type) where
  | push (item : T) (room : Bool)
  | recv
  | forward (room : Bool)
  | stop
  | drop (room : Bool)

namespace PumpedStream

variable {T : Type} [PumpCost T]

/-- `spawn_consumer_pump`. -/
def spawn (streamId : String) (limits : StreamLimits) : PumpedStream T where
  flow := some { streamId := streamId, limits := limits }

/-- `PumpedSender::push`: the queue is closed once the pump has ended. -/
def push (s : PumpedStream T) (flow : StreamFlow) (item : T) (room : Bool) :
    Except PumpPushError (PumpedStream T) :=
  if flow.overLimit (PumpCost.cost item) then .error .backlogFull
  else if !s.running then .error .consumerGone
  else
    let (flow', out) := flow.onEnqueued (PumpCost.cost item) room
    .ok { s with
      flow := some flow'
      feed := s.feed ++ [item]
      sent := s.sent ++ out
      pushed := s.pushed ++ [item] }

def step (s : PumpedStream T) : StreamAct T → Option (PumpedStream T)
  | .push item room =>
    s.flow.map fun flow =>
      match s.push flow item room with
      | .ok s' => s'
      | .error _ => s
  | .recv =>
    match s.running, s.inHand, s.feed with
    | true, none, item :: rest => some { s with inHand := some item, feed := rest }
    | _, _, _ => none
  | .forward room =>
    match s.running, s.flow, s.inHand with
    | true, some flow, some item =>
      let (flow', out) := flow.onForwarded (PumpCost.cost item) room
      some { s with
        flow := some flow'
        inHand := none
        sent := s.sent ++ out
        forwarded := s.forwarded ++ [item] }
    | _, _, _ => none
  | .stop =>
    -- whatever is queued or in hand goes with the receiver
    if s.running then some { s with running := false, feed := [], inHand := none } else none
  | .drop room =>
    -- the pump holds a handle on the flow, so it has ended
    match s.running, s.flow with
    | false, some flow => some { s with flow := none, sent := s.sent ++ flow.onDrop room }
    | _, _ => none

end PumpedStream

/-- Every run of one stream, from `spawn_consumer_pump` on. -/
def streamSys (T : Type) [PumpCost T] (streamId : String) (limits : StreamLimits) :
    Sys (PumpedStream T) (StreamAct T) where
  init s := s = .spawn streamId limits
  step s a s' := s.step a = some s'

/-! ## Messages that take turns -/

section Alternates

variable {α : Type} {a b : α} {l : List α}

/-- `a, b, a, b, …`, as far as the list goes. -/
def Alternates (a b : α) (l : List α) : Prop :=
  ∀ i x, l[i]? = some x → x = if i % 2 = 0 then a else b

theorem alternates_nil : Alternates a b [] := by
  intro i x h
  simp at h

theorem Alternates.concat (h : Alternates a b l) :
    Alternates a b (l ++ [if l.length % 2 = 0 then a else b]) := by
  intro i x hx
  by_cases hi : i < l.length
  · rw [List.getElem?_append_left hi] at hx
    exact h i x hx
  · rw [List.getElem?_append_right (by omega)] at hx
    obtain ⟨hlt, hx⟩ := List.getElem?_eq_some_iff.mp hx
    have hlen : i = l.length := by
      simp only [List.length_singleton] at hlt
      omega
    subst hlen
    simpa using hx.symm

theorem Alternates.getLast?_iff (hne : a ≠ b) (h : Alternates a b l) :
    l.getLast? = some a ↔ l.length % 2 = 1 := by
  rw [List.getLast?_eq_getElem?]
  constructor
  · intro hlast
    have hpos : 0 < l.length := by
      have := (List.getElem?_eq_some_iff.mp hlast).1
      omega
    have ha := h _ a hlast
    split at ha
    · omega
    · exact absurd ha hne
  · intro hodd
    obtain ⟨x, hx⟩ : ∃ x, l[l.length - 1]? = some x := ⟨_, List.getElem?_eq_getElem (by omega)⟩
    rw [hx, h _ x hx, if_pos (by omega)]

end Alternates

/-! ## The flow and what it has sent -/

/-- What has gone out takes turns, starting with a pause, and the flag says
whose turn it is. -/
structure Announced (streamId : String) (flow : StreamFlow) (sent : List StreamControl) : Prop where
  id : flow.streamId = streamId
  turns : Alternates (.streamPause streamId) (.streamResume streamId) sent
  flag : flow.paused = true ↔ sent.length % 2 = 1

/-- **Step lemma.** Accounting an enqueued item keeps the turns, in whatever
order the two parties come. -/
theorem onEnqueued_announced {id : String} {flow : StreamFlow} {sent : List StreamControl}
    (h : Announced id flow sent) (cost : Nat) (room : Bool) :
    Announced id (flow.onEnqueued cost room).1 (sent ++ (flow.onEnqueued cost room).2) := by
  unfold StreamFlow.onEnqueued
  extract_lets backlog
  split
  · rename_i hpause
    simp only [Bool.and_eq_true, Bool.not_eq_true'] at hpause
    have heven : sent.length % 2 = 0 := by
      have hflag := h.flag
      rw [hpause.2] at hflag
      simp only [Bool.false_eq_true, false_iff] at hflag
      omega
    cases room with
    | false => exact ⟨h.id, by simpa using h.turns, by simp [heven]⟩
    | true =>
        have hturn := h.turns.concat
        rw [if_pos heven] at hturn
        refine ⟨h.id, by simpa [h.id] using hturn, ?_⟩
        simp only [if_true, List.length_append, List.length_singleton, true_iff]
        omega
  · exact ⟨h.id, by simpa using h.turns, by simpa using h.flag⟩

theorem onForwarded_announced {id : String} {flow : StreamFlow} {sent : List StreamControl}
    (h : Announced id flow sent) (cost : Nat) (room : Bool) :
    Announced id (flow.onForwarded cost room).1 (sent ++ (flow.onForwarded cost room).2) := by
  unfold StreamFlow.onForwarded
  extract_lets backlog
  split
  · rename_i hresume
    simp only [Bool.and_eq_true] at hresume
    have hodd := h.flag.mp hresume.1.2
    have hturn := h.turns.concat
    rw [if_neg (by omega)] at hturn
    refine ⟨h.id, by simpa [h.id] using hturn, ?_⟩
    simp only [Bool.false_eq_true, false_iff, List.length_append, List.length_singleton]
    omega
  · exact ⟨h.id, by simpa using h.turns, by simpa using h.flag⟩

theorem onDrop_turns {id : String} {flow : StreamFlow} {sent : List StreamControl}
    (h : Announced id flow sent) (room : Bool) :
    Alternates (.streamPause id) (.streamResume id) (sent ++ flow.onDrop room) := by
  unfold StreamFlow.onDrop
  split
  · rename_i hpaused
    rw [Bool.and_eq_true] at hpaused
    have hodd := h.flag.mp hpaused.1
    have hturn := h.turns.concat
    rw [if_neg (by omega)] at hturn
    rw [h.id]
    exact hturn
  · simpa using h.turns

@[simp] theorem onEnqueued_backlog (flow : StreamFlow) (cost : Nat) (room : Bool) :
    (flow.onEnqueued cost room).1.backlog = flow.backlog + cost := by
  unfold StreamFlow.onEnqueued
  extract_lets backlog
  split <;> rfl

@[simp] theorem onForwarded_backlog (flow : StreamFlow) (cost : Nat) (room : Bool) :
    (flow.onForwarded cost room).1.backlog = flow.backlog - cost := by
  unfold StreamFlow.onForwarded
  extract_lets backlog
  split <;> rfl

@[simp] theorem onEnqueued_limits (flow : StreamFlow) (cost : Nat) (room : Bool) :
    (flow.onEnqueued cost room).1.limits = flow.limits := by
  unfold StreamFlow.onEnqueued
  extract_lets backlog
  split <;> rfl

@[simp] theorem onForwarded_limits (flow : StreamFlow) (cost : Nat) (room : Bool) :
    (flow.onForwarded cost room).1.limits = flow.limits := by
  unfold StreamFlow.onForwarded
  extract_lets backlog
  split <;> rfl

/-! ## Every run -/

variable {T : Type} [PumpCost T] {streamId : String} {limits : StreamLimits}

/-- The bytes of a list of items. -/
def bytesOf (items : List T) : Nat :=
  items.foldr (fun item bytes => PumpCost.cost item + bytes) 0

/-- What holds of a live flow: it agrees with what went out, its backlog is
the bytes that wait, and these are within the cap. -/
structure FlowKept (streamId : String) (limits : StreamLimits) (sent : List StreamControl)
    (waiting : List T) (flow : StreamFlow) : Prop where
  announced : Announced streamId flow sent
  marks : flow.limits = limits
  backlog : flow.backlog = bytesOf waiting
  capped : bytesOf waiting ≤ limits.backlogLimit

/-- What holds of a stream: items leave in the order they came, and what
waits is what the pump has in hand and in its queue, until it ends. -/
structure StreamKept (streamId : String) (limits : StreamLimits) (s : PumpedStream T) : Prop where
  turns : Alternates (.streamPause streamId) (.streamResume streamId) s.sent
  waiting : ∃ waiting, s.pushed = s.forwarded ++ waiting ∧
    (s.running = true → waiting = s.inHand.toList ++ s.feed) ∧
    ∀ flow ∈ s.flow, FlowKept streamId limits s.sent waiting flow

theorem spawn_kept : StreamKept streamId limits (.spawn streamId limits : PumpedStream T) where
  turns := alternates_nil
  waiting := by
    refine ⟨[], rfl, fun _ => rfl, ?_⟩
    rintro flow hflow
    obtain rfl := Option.some.inj hflow
    exact ⟨⟨rfl, alternates_nil, by simp [PumpedStream.spawn]⟩, rfl, rfl, Nat.zero_le _⟩

theorem bytesOf_concat (xs : List T) (item : T) :
    bytesOf (xs ++ [item]) = bytesOf xs + PumpCost.cost item := by
  induction xs with
  | nil => exact Nat.add_comm _ _
  | cons x xs ih =>
      show PumpCost.cost x + bytesOf (xs ++ [item]) = PumpCost.cost x + bytesOf xs + _
      rw [ih, Nat.add_assoc]

theorem push_kept {s s' : PumpedStream T} {flow : StreamFlow} {item : T} {room : Bool}
    (hs : StreamKept streamId limits s) (hflow : s.flow = some flow)
    (h : s.push flow item room = .ok s') : StreamKept streamId limits s' := by
  obtain ⟨waiting, hpushed, hqueue, hkept⟩ := hs.waiting
  have hk := hkept flow hflow
  unfold PumpedStream.push at h
  split at h
  · cases h
  · rename_i hroom
    split at h
    · cases h
    · rename_i hrunning
      simp only [Bool.not_eq_true', Bool.not_eq_false] at hrunning
      have hann := onEnqueued_announced hk.announced (PumpCost.cost item) room
      have hs' : { s with
          flow := some (flow.onEnqueued (PumpCost.cost item) room).1
          feed := s.feed ++ [item]
          sent := s.sent ++ (flow.onEnqueued (PumpCost.cost item) room).2
          pushed := s.pushed ++ [item] } = s' := Except.ok.inj h
      rw [← hs']
      refine ⟨hann.turns, waiting ++ [item], ?_, ?_, ?_⟩
      · simp only [hpushed, List.append_assoc]
      · intro _
        simp only [hqueue hrunning, List.append_assoc]
      · intro f hf
        obtain rfl := Option.some.inj hf
        -- the check before the send is what keeps the sum inside the cap
        have hcap : flow.backlog + PumpCost.cost item ≤ flow.limits.backlogLimit := by
          simpa [StreamFlow.overLimit] using hroom
        have hsum := bytesOf_concat waiting item
        rw [hk.backlog, hk.marks] at hcap
        refine ⟨hann, ?_, ?_, ?_⟩
        · rw [onEnqueued_limits, hk.marks]
        · rw [onEnqueued_backlog, hk.backlog, hsum, Int.natCast_add]
        · rw [hsum]
          omega

theorem recv_kept {s : PumpedStream T} {item : T} {rest : List T}
    (hs : StreamKept streamId limits s) (hhand : s.inHand = none) (hfeed : s.feed = item :: rest) :
    StreamKept streamId limits { s with inHand := some item, feed := rest } := by
  obtain ⟨waiting, hpushed, hqueue, hkept⟩ := hs.waiting
  refine ⟨hs.turns, waiting, hpushed, ?_, hkept⟩
  intro hrunning
  rw [hqueue hrunning, hhand, hfeed]
  rfl

theorem forward_kept {s : PumpedStream T} {flow : StreamFlow} {item : T} (room : Bool)
    (hs : StreamKept streamId limits s) (hrunning : s.running = true) (hflow : s.flow = some flow)
    (hhand : s.inHand = some item) :
    StreamKept streamId limits { s with
      flow := some (flow.onForwarded (PumpCost.cost item) room).1
      inHand := none
      sent := s.sent ++ (flow.onForwarded (PumpCost.cost item) room).2
      forwarded := s.forwarded ++ [item] } := by
  obtain ⟨waiting, hpushed, hqueue, hkept⟩ := hs.waiting
  have hk := hkept flow hflow
  have hann := onForwarded_announced hk.announced (PumpCost.cost item) room
  -- the item in hand is the oldest of those that wait
  have hwaiting : waiting = item :: s.feed := by
    rw [hqueue hrunning, hhand]
    rfl
  have hsum : bytesOf waiting = PumpCost.cost item + bytesOf s.feed := by
    rw [hwaiting]
    rfl
  refine ⟨hann.turns, s.feed, ?_, fun _ => rfl, ?_⟩
  · rw [hpushed, hwaiting]
    simp
  · intro f hf
    obtain rfl := Option.some.inj hf
    have hcap := hk.capped
    refine ⟨hann, ?_, ?_, ?_⟩
    · rw [onForwarded_limits, hk.marks]
    · rw [onForwarded_backlog, hk.backlog, hsum]
      omega
    · omega

theorem stop_kept {s : PumpedStream T} (hs : StreamKept streamId limits s) :
    StreamKept streamId limits { s with running := false, feed := [], inHand := none } := by
  obtain ⟨waiting, hpushed, -, hkept⟩ := hs.waiting
  exact ⟨hs.turns, waiting, hpushed, fun h => absurd h (by simp), hkept⟩

theorem drop_kept {s : PumpedStream T} {flow : StreamFlow} (room : Bool)
    (hs : StreamKept streamId limits s) (hflow : s.flow = some flow) :
    StreamKept streamId limits { s with flow := none, sent := s.sent ++ flow.onDrop room } := by
  obtain ⟨waiting, hpushed, hqueue, hkept⟩ := hs.waiting
  refine ⟨onDrop_turns (hkept flow hflow).announced room, waiting, hpushed, hqueue, ?_⟩
  intro f hf
  cases hf

/-- **Step lemma.** Whatever happens next on a stream, it stays kept. -/
theorem streamStep_kept {s s' : PumpedStream T} {a : StreamAct T} (hs : StreamKept streamId limits s)
    (h : s.step a = some s') : StreamKept streamId limits s' := by
  cases a with
  | push item room =>
      obtain ⟨flow, hflow, rfl⟩ := Option.map_eq_some_iff.mp h
      cases hpush : s.push flow item room with
      | ok s₁ => exact push_kept hs hflow hpush
      | error e => exact hs
  | recv =>
      simp only [PumpedStream.step] at h
      split at h
      · rename_i item rest hrunning hhand hfeed
        obtain rfl := Option.some.inj h
        exact recv_kept hs hhand hfeed
      · cases h
  | forward room =>
      simp only [PumpedStream.step] at h
      split at h
      · rename_i flow item hrunning hflow hhand
        obtain rfl := Option.some.inj h
        exact forward_kept room hs hrunning hflow hhand
      · cases h
  | stop =>
      simp only [PumpedStream.step] at h
      split at h
      · obtain rfl := Option.some.inj h
        exact stop_kept hs
      · cases h
  | drop room =>
      simp only [PumpedStream.step] at h
      split at h
      · rename_i flow hrunning hflow
        obtain rfl := Option.some.inj h
        exact drop_kept room hs hflow
      · cases h

theorem stream_kept {s : PumpedStream T} (h : (streamSys T streamId limits).Reachable s) :
    StreamKept streamId limits s := by
  refine h.invariant ?_ ?_
  · rintro s rfl
    exact spawn_kept
  · intro s a s' _ hs hstep
    exact streamStep_kept hs hstep

/-- **The flow-control protocol of a stream.** In every state of every run,
through the drop of the flow: the control messages that went out are a pause,
a resume, a pause and so on; and while the flow lives, its flag is set
exactly when the last of them is a pause, and its backlog is the bytes pushed
and not yet forwarded, within the cap. -/
theorem stream_flow_control {s : PumpedStream T} (h : (streamSys T streamId limits).Reachable s) :
    Alternates (.streamPause streamId) (.streamResume streamId) s.sent ∧
    ∀ flow, s.flow = some flow →
      (flow.paused = true ↔ s.sent.getLast? = some (.streamPause streamId)) ∧
      ∃ waiting, s.pushed = s.forwarded ++ waiting ∧ flow.backlog = bytesOf waiting ∧
        flow.backlog ≤ limits.backlogLimit := by
  have hs := stream_kept h
  refine ⟨hs.turns, ?_⟩
  intro flow hflow
  obtain ⟨waiting, hpushed, -, hkept⟩ := hs.waiting
  have hk := hkept flow hflow
  constructor
  · rw [hk.announced.flag, hs.turns.getLast?_iff (by simp)]
  · refine ⟨waiting, hpushed, hk.backlog, ?_⟩
    rw [hk.backlog]
    exact_mod_cast hk.capped

/-- A chunk past the high mark whose pause finds the writer full, one that
gets it out, and a forwarded chunk that leaves the backlog above the low
mark. -/
def slowConsumer : List (StreamAct TcpConsumerMsg) :=
  [.push (.data [1, 2, 3]) false, .push (.data [4, 5]) true, .recv, .forward true]

def narrowLimits : StreamLimits := ⟨3, 1, 8⟩

def PumpedStream.run (s : PumpedStream T) (acts : List (StreamAct T)) :
    Option (PumpedStream T) :=
  acts.foldlM step s

theorem reachable_of_run {s s' : PumpedStream T} {acts : List (StreamAct T)}
    (hs : (streamSys T streamId limits).Reachable s) (h : s.run acts = some s') :
    (streamSys T streamId limits).Reachable s' :=
  hs.foldlM (fun _ _ _ hstep => hstep) h

theorem stream_flow_control_slow : ∃ s flow,
    (PumpedStream.spawn "s1" narrowLimits).run slowConsumer = some s ∧ s.flow = some flow ∧
    s.sent = [.streamPause "s1"] ∧ flow.paused = true ∧
    ∃ waiting, s.pushed = s.forwarded ++ waiting ∧ flow.backlog = bytesOf waiting ∧
      flow.backlog ≤ narrowLimits.backlogLimit := by
  refine ⟨_, _, rfl, rfl, rfl, ?_⟩
  have hrun := @reachable_of_run TcpConsumerMsg _ "s1" narrowLimits _ _ slowConsumer (.init rfl) rfl
  obtain ⟨-, hlive⟩ := stream_flow_control hrun
  obtain ⟨hflag, hwaiting⟩ := hlive _ rfl
  exact ⟨hflag.mpr rfl, hwaiting⟩

end Aperio
