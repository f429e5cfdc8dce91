import Mathlib.Data.List.Basic
import Aperio.Run
import Aperio.Text

/-!
# A streamed upload

One request body on its way from a visitor to a backend: the pump of
`proxy/forward/attempt.rs` turns the visitor's stream into chunk frames and a
`RequestEnd`, the tunnel carries them in order, and on the client
`feed_request_chunk` hands each chunk to a channel of 32 that the backend
request reads its body from. The body ends when every sender of that channel
is gone, so whatever drops the feeder says "that was all of it".

The read loop takes one frame at a time and waits for room in the channel
while it has a chunk in hand. When the wait runs out it puts an error into
the channel if there is room for it, and drops the feeder.
-/

namespace Aperio

/-! ## The parties -/

/-- What the visitor's stream yields. -/
inductive BodyItem where
  | chunk (bytes : Bytes)
  | error
deriving Repr, DecidableEq

def BodyItem.bytes : BodyItem → Bytes
  | .chunk bytes => bytes
  | .error => []

inductive UploadFrame where
  | requestChunk (bytes : Bytes)
  | requestEnd
deriving Repr, DecidableEq

inductive Pump where
  | running
  | complete
  | aborted
deriving Repr, DecidableEq

/-- What the client's read loop is doing for this upload: nothing, waiting
for room, or failing it. -/
inductive Feed where
  | idle
  | sending (bytes : Bytes)
  | givingUp
deriving Repr, DecidableEq

/-- How the body the backend request was fed ended. -/
inductive BodyEnd where
  | clean
  | failed
deriving Repr, DecidableEq

/-- `buffer` is the channel, an error item being `none`; `registered` says
that the map still holds its feeder and `reading` that its receiver is still
there. -/
structure UploadState where
  rest : List BodyItem
  total : Nat := 0
  pump : Pump := .running
  connected : Bool := true
  wire : List UploadFrame := []
  registered : Bool := true
  feed : Feed := .idle
  buffer : List (Option Bytes) := []
  reading : Bool := true
  received : Bytes := []
  ended : Option BodyEnd := none
deriving Repr, DecidableEq

def channelCapacity : Nat := 32

namespace UploadState

variable (s : UploadState)

def room : Bool :=
  decide (s.buffer.length < channelCapacity)

/-- `Sender::try_send`, when there is room and somebody to read it. -/
def trySend (item : Option Bytes) : UploadState :=
  if s.reading && s.room then { s with buffer := s.buffer ++ [item] } else s

/-- The pump's next item. -/
def pumped (maxBody : Nat) : UploadState :=
  match s.rest with
  | .chunk bytes :: rest =>
    let s := { s with rest := rest, total := s.total + bytes.length }
    if maxBody < s.total then { s with pump := .aborted }
    else if s.connected then { s with wire := s.wire ++ [.requestChunk bytes] }
    else { s with pump := .aborted }
  | .error :: rest => { s with rest := rest, pump := .aborted }
  | [] =>
    { s with
      pump := .complete
      wire := if s.connected then s.wire ++ [.requestEnd] else s.wire }

/-- One frame, as the client's read loop takes it. -/
def handled (frame : UploadFrame) : UploadState :=
  match frame with
  | .requestEnd => { s with registered := false }
  | .requestChunk bytes =>
    if !s.registered then s
    else if !s.reading then { s with registered := false }
    else if s.room then { s with buffer := s.buffer ++ [some bytes] }
    else { s with feed := .sending bytes }

/-- The wait has run out: the error goes into the channel if it fits, and
the feeder goes. -/
def gaveUp : UploadState :=
  { s.trySend none with registered := false, feed := .idle }

/-- The backend request reads one item. An error ends it. -/
def taken (item : Option Bytes) (buffer : List (Option Bytes)) : UploadState :=
  match item with
  | some bytes => { s with buffer := buffer, received := s.received ++ bytes }
  | none => { s with buffer := [], reading := false, ended := some .failed }

end UploadState

/-! ## The run -/

inductive UploadAct where
  | pump
  | receive
  | sent
  | sendClosed
  | stall
  | giveUp
  | take
  | finish
  | hangUp
  | taskDone
  | disconnect
deriving Repr, DecidableEq

/-- `stall` is the budget running out on a chunk in hand, `hangUp` the
backend request letting go of its body, `taskDone` the request's task
removing the feeder once it has been answered. -/
inductive UploadStep (maxBody : Nat) : UploadState → UploadAct → UploadState → Prop
  | pump {s : UploadState} (hrun : s.pump = .running) :
      UploadStep maxBody s .pump (s.pumped maxBody)
  | receive {s : UploadState} {frame : UploadFrame} {wire : List UploadFrame}
      (hwire : s.wire = frame :: wire) (hidle : s.feed = .idle) :
      UploadStep maxBody s .receive ({ s with wire := wire }.handled frame)
  | sent {s : UploadState} {bytes : Bytes} (hfeed : s.feed = .sending bytes)
      (hreading : s.reading = true) (hroom : s.room = true) :
      UploadStep maxBody s .sent { s with buffer := s.buffer ++ [some bytes], feed := .idle }
  | sendClosed {s : UploadState} {bytes : Bytes} (hfeed : s.feed = .sending bytes)
      (hclosed : s.reading = false) :
      UploadStep maxBody s .sendClosed { s with feed := .idle }
  | stall {s : UploadState} {bytes : Bytes} (hfeed : s.feed = .sending bytes) :
      UploadStep maxBody s .stall { s with feed := .givingUp }
  | giveUp {s : UploadState} (hfeed : s.feed = .givingUp) :
      UploadStep maxBody s .giveUp s.gaveUp
  | take {s : UploadState} {item : Option Bytes} {buffer : List (Option Bytes)}
      (hreading : s.reading = true) (hbuffer : s.buffer = item :: buffer) :
      UploadStep maxBody s .take (s.taken item buffer)
  | finish {s : UploadState} (hreading : s.reading = true) (hbuffer : s.buffer = [])
      (hgone : s.registered = false) (hidle : s.feed = .idle) :
      UploadStep maxBody s .finish { s with reading := false, ended := some .clean }
  | hangUp {s : UploadState} (hreading : s.reading = true) :
      UploadStep maxBody s .hangUp { s with reading := false, buffer := [] }
  | taskDone {s : UploadState} : UploadStep maxBody s .taskDone { s with registered := false }
  | disconnect {s : UploadState} :
      UploadStep maxBody s .disconnect { s with connected := false, wire := [] }

/-- An upload of `visitor`, with a body limit. -/
def uploadSys (visitor : List BodyItem) (maxBody : Nat) : Sys UploadState UploadAct where
  init s := s = { rest := visitor }
  step := UploadStep maxBody

/-! ## A clean end is a whole body -/

/-- A body that ends without an error is the visitor's, all of it, and the
visitor's stream ended without one too. -/
def neverTruncated (visitor : List BodyItem) (s : UploadState) : Prop :=
  s.ended = some .clean → .error ∉ visitor ∧ s.received = visitor.flatMap BodyItem.bytes

/-- While the backend request reads its body, the feeder is dropped in two
ways only: with the error in the channel, or once `RequestEnd` has dropped
it. -/
def feederKept (s : UploadState) (a : UploadAct) (_ : UploadState) : Prop :=
  s.reading = true →
    (a = .giveUp → s.room = true) ∧ (a = .taskDone → s.registered = false)

def Feed.bytes : Feed → Bytes
  | .sending bytes => bytes
  | _ => []

def UploadFrame.bytes : UploadFrame → Bytes
  | .requestChunk bytes => bytes
  | .requestEnd => []

/-- What the buffered items hold. -/
def bufferedBytes (buffer : List (Option Bytes)) : Bytes :=
  buffer.flatMap (·.getD [])

namespace UploadState

/-- Everything between the pump and the backend, from its front to its
back. -/
def inFlight (s : UploadState) : Bytes :=
  s.received ++ bufferedBytes s.buffer ++ s.feed.bytes ++ s.wire.flatMap UploadFrame.bytes

/-- What has left the visitor is on its way, in order. -/
def Balanced (visitor : List BodyItem) (s : UploadState) : Prop :=
  ∃ out : List Bytes, visitor = out.map .chunk ++ s.rest ∧ s.inFlight = out.flatten ∧
    (s.pump = .complete → s.rest = [])

/-- The feeder is there, and as long as nothing has gone wrong nothing is
missing. -/
structure Flowing (visitor : List BodyItem) (s : UploadState) : Prop where
  registered : s.registered = true
  unbroken : none ∉ s.buffer
  lost : s.connected = false → s.wire = []
  framed : s.connected = true → ∃ out : List Bytes, s.wire =
    out.map .requestChunk ++ if s.pump = .complete then [.requestEnd] else []
  balanced : s.connected = true → s.pump ≠ .aborted → s.feed ≠ .givingUp → s.Balanced visitor

/-- `RequestEnd` has been read: the rest of the body is in the channel. -/
structure Whole (visitor : List BodyItem) (s : UploadState) : Prop where
  gone : s.registered = false
  idle : s.feed = .idle
  unbroken : none ∉ s.buffer
  noError : .error ∉ visitor
  all : s.received ++ bufferedBytes s.buffer = visitor.flatMap BodyItem.bytes

/-- A body still being read has an error ahead of it, or nothing is missing
from it. -/
structure Sound (visitor : List BodyItem) (s : UploadState) : Prop where
  unended : s.reading = true → s.ended = none
  ahead : s.reading = true → none ∈ s.buffer ∨ s.Flowing visitor ∨ s.Whole visitor
  whole : neverTruncated visitor s

end UploadState

variable {visitor : List BodyItem} {maxBody : Nat} {s s' : UploadState} {a : UploadAct}

@[simp] theorem bufferedBytes_append (b c : List (Option Bytes)) :
    bufferedBytes (b ++ c) = bufferedBytes b ++ bufferedBytes c := by
  simp [bufferedBytes]

@[simp] theorem bufferedBytes_cons (item : Option Bytes) (b : List (Option Bytes)) :
    bufferedBytes (item :: b) = item.getD [] ++ bufferedBytes b := by
  simp [bufferedBytes]

@[simp] theorem bufferedBytes_nil : bufferedBytes [] = [] := rfl

theorem bytes_of_chunks (out : List Bytes) :
    (out.map BodyItem.chunk).flatMap BodyItem.bytes = out.flatten := by
  rw [List.flatMap_map]
  simp [List.flatMap_def, BodyItem.bytes]

/-- `RequestEnd` stands last, and only a complete pump sends it. -/
theorem framed_cons {frame : UploadFrame} {wire : List UploadFrame} {out : List Bytes}
    {done : Prop} [Decidable done]
    (h : frame :: wire = out.map .requestChunk ++ if done then [.requestEnd] else []) :
    frame = .requestEnd ∧ done ∧ wire = [] ∨
      ∃ (bytes : Bytes) (later : List Bytes), frame = .requestChunk bytes ∧
        wire = later.map .requestChunk ++ if done then [.requestEnd] else [] := by
  cases out with
  | nil =>
      by_cases hdone : done
      · rw [if_pos hdone] at h
        obtain ⟨rfl, rfl⟩ := List.cons.inj h
        exact Or.inl ⟨rfl, hdone, rfl⟩
      · rw [if_neg hdone] at h
        cases h
  | cons bytes later =>
      obtain ⟨rfl, rfl⟩ := List.cons.inj h
      exact Or.inr ⟨bytes, later, rfl, rfl⟩

/-- Bytes that move from one place to the next stay on their way. -/
theorem UploadState.Balanced.of_inFlight (h : s.Balanced visitor) (hrest : s'.rest = s.rest)
    (hpump : s'.pump = s.pump) (hflight : s'.inFlight = s.inFlight) : s'.Balanced visitor := by
  obtain ⟨out, hv, hout, hdone⟩ := h
  refine ⟨out, ?_, hflight.trans hout, ?_⟩
  · rw [hrest]
    exact hv
  · rw [hpump, hrest]
    exact hdone

namespace UploadState.Flowing

/-- A pump that stops early leaves the feeder where it is. -/
theorem aborted {rest : List BodyItem} {total : Nat} (h : s.Flowing visitor)
    (hrun : s.pump = .running) :
    ({ s with rest := rest, total := total, pump := .aborted } : UploadState).Flowing
      visitor := by
  refine ⟨h.registered, h.unbroken, h.lost, ?_, fun _ habort => absurd rfl habort⟩
  intro hconn
  obtain ⟨out, hout⟩ := h.framed hconn
  exact ⟨out, by simpa [hrun] using hout⟩

theorem pumped (h : s.Flowing visitor) (hrun : s.pump = .running) :
    (s.pumped maxBody).Flowing visitor := by
  cases hrest : s.rest with
  | nil =>
      simp only [UploadState.pumped, hrest]
      refine ⟨h.registered, h.unbroken, ?_, ?_, ?_⟩
      · intro (hlost : s.connected = false)
        simp [hlost, h.lost hlost]
      · intro (hconn : s.connected = true)
        obtain ⟨out, hout⟩ := h.framed hconn
        exact ⟨out, by simp [hconn, hout, hrun]⟩
      · intro (hconn : s.connected = true) _ hfeed
        obtain ⟨out, hv, hflight, -⟩ := h.balanced hconn (by simp [hrun]) hfeed
        rw [hrest] at hv
        refine ⟨out, hv, ?_, fun _ => rfl⟩
        rw [← hflight]
        simp [UploadState.inFlight, hconn, UploadFrame.bytes]
  | cons item rest =>
      cases item with
      | error =>
          simp only [UploadState.pumped, hrest]
          exact h.aborted hrun
      | chunk bytes =>
          simp only [UploadState.pumped, hrest]
          split
          · exact h.aborted hrun
          · split
            · rename_i hconn
              refine ⟨h.registered, h.unbroken, ?_, ?_, ?_⟩
              · intro hlost
                rw [show s.connected = false from hlost] at hconn
                cases hconn
              · intro _
                obtain ⟨out, hout⟩ := h.framed hconn
                exact ⟨out ++ [bytes], by simpa [hrun] using hout⟩
              · intro _ _ hfeed
                obtain ⟨out, hv, hflight, -⟩ := h.balanced hconn (by simp [hrun]) hfeed
                refine ⟨out ++ [bytes], by simpa [hrest] using hv, ?_, ?_⟩
                · rw [List.flatten_append, ← hflight]
                  simp [UploadState.inFlight, UploadFrame.bytes]
                · intro hcomplete
                  rw [show s.pump = .complete from hcomplete] at hrun
                  cases hrun
            · exact h.aborted hrun

/-- A frame read while the feeder is there. -/
theorem handled {frame : UploadFrame} {wire : List UploadFrame} (h : s.Flowing visitor)
    (hreading : s.reading = true) (hwire : s.wire = frame :: wire) (hidle : s.feed = .idle) :
    ({ s with wire := wire }.handled frame).Flowing visitor ∨
      ({ s with wire := wire }.handled frame).Whole visitor := by
  have hconn : s.connected = true := by
    by_contra hlost
    have hnil := h.lost (by simpa using hlost)
    rw [hwire] at hnil
    cases hnil
  obtain ⟨frames, hframes⟩ := h.framed hconn
  rw [hwire] at hframes
  rcases framed_cons hframes with ⟨rfl, hpump, rfl⟩ | ⟨bytes, later, rfl, hlater⟩
  · right
    obtain ⟨out, hv, hflight, hrest⟩ := h.balanced hconn (by simp [hpump]) (by simp [hidle])
    rw [hrest hpump, List.append_nil] at hv
    refine ⟨rfl, hidle, h.unbroken, ?_, ?_⟩
    · rw [hv]
      simp
    · rw [hv, bytes_of_chunks, ← hflight]
      simp [UploadState.handled, UploadState.inFlight, hidle, hwire, Feed.bytes,
        UploadFrame.bytes]
  · left
    have hnotlost : s.connected = false → wire = [] := by
      intro hlost
      rw [hlost] at hconn
      cases hconn
    simp only [UploadState.handled, h.registered, hreading, Bool.not_true, Bool.false_eq_true,
      if_false]
    split
    · refine ⟨rfl, by simpa using h.unbroken, hnotlost, fun _ => ⟨later, hlater⟩, ?_⟩
      intro _ habort hfeed
      refine (h.balanced hconn habort hfeed).of_inFlight rfl rfl ?_
      simp [UploadState.inFlight, hidle, hwire, Feed.bytes, UploadFrame.bytes]
    · refine ⟨rfl, h.unbroken, hnotlost, fun _ => ⟨later, hlater⟩, ?_⟩
      intro _ habort hfeed
      refine (h.balanced hconn habort (by simp [hidle])).of_inFlight rfl rfl ?_
      simp [UploadState.inFlight, hidle, hwire, Feed.bytes, UploadFrame.bytes]

theorem sent {bytes : Bytes} (h : s.Flowing visitor) (hfeed : s.feed = .sending bytes) :
    ({ s with buffer := s.buffer ++ [some bytes], feed := .idle } : UploadState).Flowing
      visitor := by
  refine ⟨h.registered, by simpa using h.unbroken, h.lost, h.framed, ?_⟩
  intro hconn habort _
  refine (h.balanced hconn habort (by simp [hfeed])).of_inFlight rfl rfl ?_
  simp [UploadState.inFlight, hfeed, Feed.bytes]

theorem taken {bytes : Bytes} {buffer : List (Option Bytes)} (h : s.Flowing visitor)
    (hbuffer : s.buffer = some bytes :: buffer) :
    (s.taken (some bytes) buffer).Flowing visitor := by
  have hunbroken := h.unbroken
  rw [hbuffer, List.mem_cons, not_or] at hunbroken
  refine ⟨h.registered, hunbroken.2, h.lost, h.framed, ?_⟩
  intro hconn habort hfeed
  refine (h.balanced hconn habort hfeed).of_inFlight rfl rfl ?_
  simp [UploadState.inFlight, UploadState.taken, hbuffer]

end UploadState.Flowing

theorem UploadState.Whole.taken {bytes : Bytes} {buffer : List (Option Bytes)}
    (h : s.Whole visitor) (hbuffer : s.buffer = some bytes :: buffer) :
    (s.taken (some bytes) buffer).Whole visitor := by
  have hunbroken := h.unbroken
  rw [hbuffer, List.mem_cons, not_or] at hunbroken
  refine ⟨h.gone, h.idle, hunbroken.2, h.noError, ?_⟩
  rw [← h.all, hbuffer]
  simp [UploadState.taken]

namespace UploadState

theorem pumped_reading (s : UploadState) : (s.pumped maxBody).reading = s.reading ∧
    (s.pumped maxBody).ended = s.ended ∧ (s.pumped maxBody).received = s.received ∧
    (s.pumped maxBody).buffer = s.buffer ∧ (s.pumped maxBody).registered = s.registered ∧
    (s.pumped maxBody).feed = s.feed := by
  unfold pumped
  split
  · simp only
    split
    · simp
    · split <;> simp
  · simp
  · simp

theorem handled_reading (s : UploadState) (frame : UploadFrame) :
    (s.handled frame).reading = s.reading ∧ (s.handled frame).ended = s.ended ∧
      (s.handled frame).received = s.received ∧
      (none ∈ s.buffer → none ∈ (s.handled frame).buffer) ∧
      (s.registered = false → (s.handled frame).registered = false ∧
        (s.handled frame).feed = s.feed ∧ (s.handled frame).buffer = s.buffer) := by
  cases frame with
  | requestEnd =>
      simp [handled]
  | requestChunk bytes =>
      unfold handled
      cases hreg : s.registered with
      | false =>
          simp [hreg]
      | true =>
          simp only [Bool.not_true, Bool.false_eq_true, if_false]
          split
          · simp
          · split <;> simp_all

theorem gaveUp_reading (s : UploadState) : s.gaveUp.reading = s.reading ∧
    s.gaveUp.ended = s.ended ∧ s.gaveUp.received = s.received := by
  unfold gaveUp trySend
  split <;> simp

end UploadState

/-- A state that moved only what a `Whole` body does not depend on. -/
theorem UploadState.Whole.of_eq (h : s.Whole visitor) (hreg : s'.registered = false)
    (hfeed : s'.feed = s.feed) (hbuffer : s'.buffer = s.buffer)
    (hreceived : s'.received = s.received) : s'.Whole visitor := by
  refine ⟨hreg, by rw [hfeed, h.idle], by rw [hbuffer]; exact h.unbroken, h.noError, ?_⟩
  rw [hreceived, hbuffer]
  exact h.all

/-- **Frame rule.** A step that neither reads nor ends the body owes only
how it stands while it is being read. -/
theorem UploadState.Sound.keep (h : s.Sound visitor) (hreading : s'.reading = s.reading)
    (hended : s'.ended = s.ended) (hreceived : s'.received = s.received)
    (hahead : s.reading = true → none ∈ s.buffer ∨ s.Flowing visitor ∨ s.Whole visitor →
      none ∈ s'.buffer ∨ s'.Flowing visitor ∨ s'.Whole visitor) : s'.Sound visitor := by
  refine ⟨?_, ?_, ?_⟩
  · rw [hreading, hended]
    exact h.unended
  · intro hr
    rw [hreading] at hr
    exact hahead hr (h.ahead hr)
  · rw [neverTruncated, hended, hreceived]
    exact h.whole

/-- What the backend request reads is next in line. -/
theorem UploadState.Sound.taken {item : Option Bytes} {buffer : List (Option Bytes)}
    (h : s.Sound visitor) (hreading : s.reading = true) (hbuffer : s.buffer = item :: buffer) :
    (s.taken item buffer).Sound visitor := by
  cases item with
  | none =>
      refine ⟨fun hr => (by cases hr), fun hr => (by cases hr), fun hended => (by cases hended)⟩
  | some bytes =>
      refine ⟨h.unended, ?_, ?_⟩
      · intro _
        rcases h.ahead hreading with hbroken | hflow | hwhole
        · rw [hbuffer, List.mem_cons] at hbroken
          exact Or.inl (hbroken.resolve_left (by simp))
        · exact Or.inr (Or.inl (hflow.taken hbuffer))
        · exact Or.inr (Or.inr (hwhole.taken hbuffer))
      · intro (hended : s.ended = some .clean)
        rw [h.unended hreading] at hended
        cases hended

/-- **Step lemma.** -/
theorem step_sound (hstep : UploadStep maxBody s a s') (hcond : feederKept s a s')
    (h : s.Sound visitor) : s'.Sound visitor := by
  cases hstep with
  | pump hrun =>
      obtain ⟨hr, he, hrec, hbuf, hreg, hfeed⟩ := @UploadState.pumped_reading maxBody s
      refine h.keep hr he hrec ?_
      rintro - (herr | hflow | hwhole)
      · exact Or.inl (by rw [hbuf]; exact herr)
      · exact Or.inr (Or.inl (hflow.pumped hrun))
      · exact Or.inr (Or.inr (hwhole.of_eq (by rw [hreg]; exact hwhole.gone) hfeed hbuf hrec))
  | @receive frame wire hwire hidle =>
      obtain ⟨hr, he, hrec, herr, hgone⟩ :=
        UploadState.handled_reading { s with wire := wire } frame
      refine h.keep hr he hrec ?_
      rintro hreading (hbroken | hflow | hwhole)
      · exact Or.inl (herr hbroken)
      · exact Or.inr (hflow.handled hreading hwire hidle)
      · obtain ⟨hreg, hfeed, hbuf⟩ := hgone hwhole.gone
        exact Or.inr (Or.inr (hwhole.of_eq hreg hfeed hbuf hrec))
  | sent hfeed hreading hroom =>
      refine h.keep rfl rfl rfl ?_
      rintro - (hbroken | hflow | hwhole)
      · exact Or.inl (List.mem_append_left _ hbroken)
      · exact Or.inr (Or.inl (hflow.sent hfeed))
      · rw [hwhole.idle] at hfeed
        cases hfeed
  | sendClosed hfeed hclosed =>
      refine h.keep rfl rfl rfl ?_
      intro hreading
      rw [hclosed] at hreading
      cases hreading
  | stall hfeed =>
      refine h.keep rfl rfl rfl ?_
      rintro - (hbroken | hflow | hwhole)
      · exact Or.inl hbroken
      · exact Or.inr (Or.inl ⟨hflow.registered, hflow.unbroken, hflow.lost, hflow.framed,
          fun _ _ hne => absurd rfl hne⟩)
      · rw [hwhole.idle] at hfeed
        cases hfeed
  | giveUp hfeed =>
      obtain ⟨hr, he, hrec⟩ := s.gaveUp_reading
      refine h.keep hr he hrec ?_
      intro hreading _
      have hroom := (hcond hreading).1 rfl
      left
      simp [UploadState.gaveUp, UploadState.trySend, hreading, hroom]
  | take hreading hbuffer =>
      exact h.taken hreading hbuffer
  | finish hreading hbuffer hgone hidle =>
      refine ⟨fun hr => (by cases hr), fun hr => (by cases hr), ?_⟩
      intro _
      rcases h.ahead hreading with hbroken | hflow | hwhole
      · rw [hbuffer] at hbroken
        cases hbroken
      · rw [hflow.registered] at hgone
        cases hgone
      · have hall := hwhole.all
        rw [hbuffer, bufferedBytes_nil, List.append_nil] at hall
        exact ⟨hwhole.noError, hall⟩
  | hangUp hreading =>
      exact ⟨fun hr => (by cases hr), fun hr => (by cases hr), h.whole⟩
  | taskDone =>
      refine h.keep rfl rfl rfl ?_
      rintro hreading (hbroken | hflow | hwhole)
      · exact Or.inl hbroken
      · have hgone := (hcond hreading).2 rfl
        rw [hflow.registered] at hgone
        cases hgone
      · exact Or.inr (Or.inr (hwhole.of_eq rfl rfl rfl rfl))
  | disconnect =>
      refine h.keep rfl rfl rfl ?_
      rintro - (hbroken | hflow | hwhole)
      · exact Or.inl hbroken
      · exact Or.inr (Or.inl ⟨hflow.registered, hflow.unbroken, fun _ => rfl,
          fun hc => (by cases hc), fun hc => (by cases hc)⟩)
      · exact Or.inr (Or.inr (hwhole.of_eq hwhole.gone rfl rfl rfl))

/-- **Uploads are never silently truncated**, in every run in which the
feeder of a body still being read is dropped with the error in the channel
or after `RequestEnd`. -/
theorem upload_never_truncated
    (h : ((uploadSys visitor maxBody).restrict feederKept).Reachable s) :
    neverTruncated visitor s := by
  have hsound : s.Sound visitor := by
    refine h.invariant ?_ ?_
    · intro s hs
      have hs' : s = { rest := visitor } := hs
      rw [hs']
      refine ⟨fun _ => rfl, fun _ => Or.inr (Or.inl ?_), fun hended => (by cases hended)⟩
      refine ⟨rfl, by simp, fun hc => (by cases hc), fun _ => ⟨[], rfl⟩, fun _ _ _ => ?_⟩
      exact ⟨[], rfl, rfl, fun hc => (by cases hc)⟩
    · intro s a s' _ hsound hstep
      exact step_sound hstep.1 hstep.2 hsound
  exact hsound.whole

/-! ## A backend that reads on after a stall -/

/-- A chunk with nothing before it goes straight into the channel. -/
theorem reachable_fed {cond : UploadState → UploadAct → UploadState → Prop}
    (hcond : ∀ s a s', a = .pump ∨ a = .receive → cond s a s')
    {rest : List BodyItem} {bytes received : Bytes} {buffer : List (Option Bytes)} {total : Nat}
    (h : ((uploadSys visitor maxBody).restrict cond).Reachable
      { rest := .chunk bytes :: rest, total := total, buffer := buffer, received := received })
    (hsize : total + bytes.length ≤ maxBody) (hroom : buffer.length < channelCapacity) :
    ((uploadSys visitor maxBody).restrict cond).Reachable
      { rest := rest, total := total + bytes.length, buffer := buffer ++ [some bytes],
        received := received } := by
  have hpumped := h.step ⟨.pump rfl, hcond _ _ _ (Or.inl rfl)⟩
  simp only [UploadState.pumped, Nat.not_lt.mpr hsize, if_false, if_true, List.nil_append]
    at hpumped
  have hfed := hpumped.step ⟨.receive rfl rfl, hcond _ _ _ (Or.inr rfl)⟩
  simpa [UploadState.handled, UploadState.room, hroom] using hfed

/-- The whole body in one chunk, read after its end. -/
theorem upload_never_truncated_short : ∃ s : UploadState, s.ended = some .clean ∧
    s.received = [1, 2] ∧ neverTruncated [.chunk [1, 2]] s := by
  have h0 : ((uploadSys [.chunk [1, 2]] 100).restrict feederKept).Reachable
      { rest := [.chunk [1, 2]] } := .init rfl
  have hkept : ∀ s s' a, a ≠ .giveUp → a ≠ .taskDone → feederKept s a s' := by
    intro s s' a hgive hdone _
    exact ⟨fun ha => absurd ha hgive, fun ha => absurd ha hdone⟩
  have h1 := reachable_fed (by
    rintro s a s' (rfl | rfl)
    · exact hkept _ _ _ (by simp) (by simp)
    · exact hkept _ _ _ (by simp) (by simp)) h0 (by decide) (by decide)
  have h2 := h1.step ⟨.pump rfl, hkept _ _ _ (by simp) (by simp)⟩
  have h3 := h2.step ⟨.receive rfl rfl, hkept _ _ _ (by simp) (by simp)⟩
  have h4 := h3.step ⟨.take rfl rfl, hkept _ _ _ (by simp) (by simp)⟩
  have h5 := h4.step ⟨.finish rfl rfl rfl rfl, hkept _ _ _ (by simp) (by simp)⟩
  exact ⟨_, rfl, rfl, upload_never_truncated h5⟩

/-- One chunk more than the channel holds. -/
def bigUpload : List BodyItem :=
  List.replicate 33 (.chunk [1])

def bigRun : Sys UploadState UploadAct :=
  (uploadSys bigUpload 100).restrict fun _ _ _ => True

theorem reachable_filled : ∀ k ≤ 32, bigRun.Reachable
    { rest := List.replicate (33 - k) (.chunk [1]), total := k,
      buffer := List.replicate k (some [1]) } := by
  intro k
  induction k with
  | zero =>
      intro _
      exact .init rfl
  | succ k ih =>
      intro hk
      have hrest : List.replicate (33 - k) (BodyItem.chunk [1]) =
          .chunk [1] :: List.replicate (33 - (k + 1)) (.chunk [1]) := by
        rw [← List.replicate_succ]
        congr 1
        omega
      have hprev := ih (by omega)
      rw [hrest] at hprev
      have hnext := reachable_fed (fun _ _ _ _ => trivial) hprev (by simp; omega)
        (by simp [channelCapacity]; omega)
      rw [← List.replicate_succ'] at hnext
      exact hnext

/-- The upload after its last chunk was given up, with `k` chunks read. -/
def abandoned (k : Nat) : UploadState where
  rest := []
  total := 33
  registered := false
  buffer := List.replicate (32 - k) (some [1])
  received := List.replicate k 1

theorem reachable_abandoned : bigRun.Reachable (abandoned 0) := by
  have hfull := reachable_filled 32 (Nat.le_refl _)
  have hpumped := hfull.step ⟨.pump rfl, trivial⟩
  have hwaiting := hpumped.step ⟨.receive rfl rfl, trivial⟩
  have hstalled := hwaiting.step ⟨.stall rfl, trivial⟩
  exact hstalled.step ⟨.giveUp rfl, trivial⟩

theorem reachable_drained : ∀ k ≤ 32, bigRun.Reachable (abandoned k) := by
  intro k
  induction k with
  | zero =>
      intro _
      exact reachable_abandoned
  | succ k ih =>
      intro hk
      have hbuffer : (abandoned k).buffer = some [1] :: (abandoned (k + 1)).buffer := by
        simp only [abandoned]
        rw [← List.replicate_succ]
        congr 1
        omega
      have hnext := (ih (by omega)).step ⟨.take rfl hbuffer, trivial⟩
      have htaken : (abandoned k).taken (some [1]) (abandoned (k + 1)).buffer =
          abandoned (k + 1) := by
        simp [UploadState.taken, abandoned, List.replicate_succ']
      rw [htaken] at hnext
      exact hnext

/-- The channel is full when the wait runs out, so the error does not fit;
the backend then reads what is there, and the body ends one chunk short with
nothing to say so. -/
theorem stalled_upload_truncated : ∃ s, (uploadSys bigUpload 100).Reachable s ∧
    s.ended = some .clean ∧ s.received = List.replicate 32 1 ∧
    bigUpload.flatMap BodyItem.bytes = List.replicate 33 1 ∧ ¬neverTruncated bigUpload s := by
  have hread := reachable_drained 32 (Nat.le_refl _)
  have hended := hread.step ⟨.finish rfl rfl rfl rfl, trivial⟩
  refine ⟨_, hended.of_restrict, rfl, rfl, by decide, ?_⟩
  intro h
  exact absurd (h rfl).2 (by decide)

end Aperio
