import Mathlib.Data.List.Basic
import Aperio.Text

/-!
# Relaying a response body

What the client does with the body a backend answers with, in three near
copies: over HTTP/1 (`proxy/http.rs`), HTTP/2 (`proxy/h2.rs`) and a unix socket
(`proxy/unix.rs`). A small body is collected and sent as one response. One
that grows past a threshold is streamed: what was collected goes out in
chunks, and from then on a coalescer fills frames, and lets go of what it
holds where the backend falls quiet.

The backend is the list of what its body yields, each with whether it was
there when the loop polled for it. The tunnel is an arbitrary answer to each
send; a chunk whose id cannot be framed is one it does not take. The head of
the response, which goes along unchanged, is left out.
-/

namespace Aperio

/-! ## The backend and the tunnel -/

inductive BackendItem where
  | data (chunk : Bytes)
  | trailers (list : List (String × String))
  /-- A frame that is neither. -/
  | other
  | failed
  | timedOut
deriving DecidableEq

inductive RelayMsg where
  | responseStart
  | responseChunk (part : Bytes)
  | responseEnd (trailers : Option (List (String × String)))
  | responseAbort
  /-- A buffered response; `binary` if the body is a part of the frame. -/
  | response (binary : Bool) (body : Bytes) (trailers : Option (List (String × String)))
  | errorResponse (status : Nat)
deriving DecidableEq

namespace RelayMsg

/-- The messages after which a request has been answered. -/
def final : RelayMsg → Bool
  | responseStart => false
  | responseChunk _ => false
  | _ => true

def bytes : RelayMsg → Bytes
  | responseChunk part => part
  | response _ body _ => body
  | _ => []

end RelayMsg

/-- The body bytes of what was sent. -/
def sentBytes (sent : List RelayMsg) : Bytes :=
  sent.flatMap RelayMsg.bytes

/-! ## The coalescer -/

def streamChunkSize : Nat := 131072

/-- `ChunkCoalescer::pop_full`: a full frame, and what is left. -/
def popFull (held : Bytes) : Option (Bytes × Bytes) :=
  if held.length < streamChunkSize then none
  else some (held.take streamChunkSize, held.drop streamChunkSize)

/-- `chunks`: pieces of the size of a frame. -/
def chunksFuel : Nat → Bytes → List Bytes
  | 0, _ => []
  | fuel + 1, bs =>
    if bs = [] then [] else bs.take streamChunkSize :: chunksFuel fuel (bs.drop streamChunkSize)

def frameChunks (bs : Bytes) : List Bytes :=
  chunksFuel bs.length bs

/-! ## The loop -/

/-- What the three copies differ in. -/
structure RelayPath where
  threshold : Nat
  readsTrailers : Bool
  /-- A body that is not empty goes out as a part of the frame. -/
  binaryResponse : Bool

def streamThreshold : Nat := 262144

def binaryStreamThreshold : Nat := 32768

structure RelayState where
  streaming : Bool := false
  buf : Bytes := []
  /-- What the coalescer holds. -/
  held : Bytes := []
  total : Nat := 0
  trailers : Option (List (String × String)) := none
  /-- What the tunnel took. -/
  sent : List RelayMsg := []

/-- How the loop is left. -/
inductive LoopEnd where
  /-- The tunnel did not take a message. -/
  | gone
  /-- Nothing has been sent yet, and an error response is. -/
  | refused (status : Nat)
  | broke (aborted : Bool)

abbrev RelayExit := LoopEnd × RelayState

section Relay

variable (tunnel : Nat → Bool)

def sendMsg (s : RelayState) (m : RelayMsg) : Except RelayExit RelayState :=
  if tunnel s.sent.length then .ok { s with sent := s.sent ++ [m] } else .error (.gone, s)

def sendParts (s : RelayState) (parts : List Bytes) : Except RelayExit RelayState :=
  parts.foldlM (fun s part => sendMsg tunnel s (.responseChunk part)) s

/-- Sends full frames as long as there is one. -/
def drainFull : Nat → RelayState → Except RelayExit RelayState
  | 0, s => .ok s
  | fuel + 1, s =>
    match popFull s.held with
    | none => .ok s
    | some (part, rest) => do
      let s ← sendMsg tunnel { s with held := rest } (.responseChunk part)
      drainFull fuel s

/-- `ChunkCoalescer::take`, sent. -/
def flushHeld (s : RelayState) : Except RelayExit RelayState :=
  if s.held = [] then .ok s
  else sendMsg tunnel { s with held := [] } (.responseChunk s.held)

/-- The backend's next item: held bytes are let go of where it is not there
yet. -/
def pollQuiet (s : RelayState) (ready : Bool) : Except RelayExit RelayState :=
  if ready then .ok s else flushHeld tunnel s

variable (path : RelayPath) (maxBody : Nat)

/-- One chunk of the body: measured before it is used for anything. -/
def takeChunk (s : RelayState) (chunk : Bytes) : Except RelayExit RelayState :=
  let s := { s with total := s.total + chunk.length }
  if maxBody < s.total then
    .error (if s.streaming then .broke true else .refused 502, s)
  else if s.streaming then
    let s := { s with held := s.held ++ chunk }
    drainFull tunnel s.held.length s
  else
    let s := { s with buf := s.buf ++ chunk }
    if min path.threshold maxBody < s.buf.length then do
      let s ← sendMsg tunnel { s with streaming := true } .responseStart
      sendParts tunnel { s with buf := [] } (frameChunks s.buf)
    else .ok s

def relayStep (s : RelayState) (next : Bool × BackendItem) : Except RelayExit RelayState := do
  let s ← pollQuiet tunnel s next.1
  match next.2 with
  | .data chunk => takeChunk tunnel path maxBody s chunk
  | .trailers list =>
    if path.readsTrailers then
      .error (.broke false, { s with trailers := if list = [] then s.trailers else some list })
    else .ok s
  | .other => .ok s
  | .failed => .error (if s.streaming then .broke true else .refused 502, s)
  | .timedOut => .error (if s.streaming then .broke true else .refused 504, s)

def relayLoop (items : List (Bool × BackendItem)) (endReady : Bool) : RelayExit :=
  match (do
      let s ← items.foldlM (relayStep tunnel path maxBody) {}
      pollQuiet tunnel s endReady) with
  | .ok s => (.broke false, s)
  | .error out => out

/-- The last message; whether it was taken makes no difference any more. -/
def deliver (s : RelayState) (m : RelayMsg) : List RelayMsg :=
  if tunnel s.sent.length then s.sent ++ [m] else s.sent

/-- Everything the tunnel took: the loop, and what comes after it. A response
that is handed back is sent by the caller. -/
def relayBody (items : List (Bool × BackendItem)) (endReady : Bool) : List RelayMsg :=
  match relayLoop tunnel path maxBody items endReady with
  | (.gone, s) => s.sent
  | (.refused status, s) => deliver tunnel s (.errorResponse status)
  | (.broke aborted, s) =>
    if s.streaming then
      if aborted then deliver tunnel s .responseAbort
      else
        match flushHeld tunnel s with
        | .ok s => deliver tunnel s (.responseEnd s.trailers)
        | .error (_, s) => s.sent
    else deliver tunnel s (.response (path.binaryResponse && !s.buf.isEmpty) s.buf s.trailers)

end Relay

/-! ## The three paths -/

def http1Path : RelayPath where
  threshold := binaryStreamThreshold
  readsTrailers := false
  binaryResponse := true

def http2Path : RelayPath where
  threshold := streamThreshold
  readsTrailers := true
  binaryResponse := false

def unixPath : RelayPath where
  threshold := streamThreshold
  readsTrailers := false
  binaryResponse := false

/-- `bytes_stream` yields chunks, or an error. -/
def http1Items (items : List (Bool × Except Unit Bytes)) : List (Bool × BackendItem) :=
  items.map fun next => (next.1, match next.2 with
    | .ok chunk => .data chunk
    | .error _ => .failed)

/-- `handle_incoming_request`. -/
def relayHttp1 (tunnel : Nat → Bool) (maxBody : Nat)
    (items : List (Bool × Except Unit Bytes)) (endReady : Bool) : List RelayMsg :=
  relayBody tunnel http1Path maxBody (http1Items items) endReady

/-- `handle_incoming_request_h2`. -/
def relayHttp2 (tunnel : Nat → Bool) (maxBody : Nat) (items : List (Bool × BackendItem))
    (endReady : Bool) : List RelayMsg :=
  relayBody tunnel http2Path maxBody items endReady

/-- `handle_incoming_request_unix`. -/
def relayUnix (tunnel : Nat → Bool) (maxBody : Nat) (items : List (Bool × BackendItem))
    (endReady : Bool) : List RelayMsg :=
  relayBody tunnel unixPath maxBody items endReady

/-! ## What the backend's body is -/

def BackendItem.bytes : BackendItem → Bytes
  | .data chunk => chunk
  | _ => []

def BackendItem.fails : BackendItem → Bool
  | .failed => true
  | .timedOut => true
  | _ => false

/-- The item after which nothing of the body comes: its trailers, where they
are read, or an error. -/
def BackendItem.ends (path : RelayPath) : BackendItem → Bool
  | .trailers _ => path.readsTrailers
  | item => item.fails

/-- The bytes of the body, up to where it ends. -/
def bodyOf (path : RelayPath) (items : List (Bool × BackendItem)) : Bytes :=
  (items.takeWhile fun next => !next.2.ends path).flatMap fun next => next.2.bytes

/-- The body ends in an error. -/
def bodyFails (path : RelayPath) (items : List (Bool × BackendItem)) : Bool :=
  (items.find? fun next => next.2.ends path).any fun next => next.2.fails

theorem flatten_chunksFuel (fuel : Nat) (bs : Bytes) (h : bs.length ≤ fuel) :
    (chunksFuel fuel bs).flatten = bs := by
  induction fuel generalizing bs with
  | zero =>
      have hnil : bs = [] := List.length_eq_zero_iff.mp (Nat.le_zero.mp h)
      subst hnil
      rfl
  | succ fuel ih =>
      rw [chunksFuel]
      split
      · rename_i hnil
        rw [hnil]
        rfl
      · rename_i hne
        have hpos : 0 < bs.length := List.length_pos_iff.mpr hne
        have hshort : (bs.drop streamChunkSize).length ≤ fuel := by
          rw [List.length_drop, streamChunkSize]
          omega
        rw [List.flatten_cons, ih _ hshort, List.take_append_drop]

theorem flatten_frameChunks (bs : Bytes) : (frameChunks bs).flatten = bs :=
  flatten_chunksFuel _ bs (Nat.le_refl _)

@[simp] theorem sentBytes_append (sent sent' : List RelayMsg) :
    sentBytes (sent ++ sent') = sentBytes sent ++ sentBytes sent' :=
  List.flatMap_append

@[simp] theorem sentBytes_singleton (m : RelayMsg) : sentBytes [m] = m.bytes := by
  simp [sentBytes]

/-! ## What relaying promises -/

namespace RelayMsg

/-- What says that the body is complete. -/
def completes : RelayMsg → Bool
  | responseEnd _ => true
  | response _ _ _ => true
  | _ => false

/-- What is the only message of its response. -/
def alone : RelayMsg → Bool
  | response _ _ _ => true
  | errorResponse _ => true
  | _ => false

theorem final_of_completes {m : RelayMsg} (h : m.completes = true) : m.final = true := by
  cases m <;> first | rfl | cases h

theorem final_of_alone {m : RelayMsg} (h : m.alone = true) : m.final = true := by
  cases m <;> first | rfl | cases h

end RelayMsg

/-- A body, which ended in an error or did not, was relayed exactly, as far as
the tunnel took it. -/
structure RelayedBody (tunnel : Nat → Bool) (maxBody : Nat) (fails : Bool) (body : Bytes)
    (out : List RelayMsg) : Prop where
  bytes : sentBytes out <+: body
  within : (sentBytes out).length ≤ maxBody
  /-- An end is only ever the end of a whole body. -/
  whole : ∀ m ∈ out, m.completes = true → sentBytes out = body ∧ fails = false
  /-- A body that ends, and within the limit, is completed. -/
  completed : fails = false → body.length ≤ maxBody → (∀ n, tunnel n = true) →
    ∃ m ∈ out, m.completes = true
  /-- A buffered response and an error stand on their own. -/
  alone : ∀ m ∈ out, m.alone = true → out = [m]
  once : out.countP (·.final) ≤ 1
  answered : (∀ n, tunnel n = true) → out.countP (·.final) = 1

/-! ## What the loop keeps -/

/-- No message has answered the request. -/
def Unanswered (sent : List RelayMsg) : Prop :=
  ∀ m ∈ sent, m.final = false

theorem Unanswered.append {sent : List RelayMsg} {m : RelayMsg} (h : Unanswered sent)
    (hm : m.final = false) : Unanswered (sent ++ [m]) := by
  intro m' hm'
  rcases List.mem_append.mp hm' with hm' | hm'
  · exact h m' hm'
  · rw [List.mem_singleton.mp hm']
    exact hm

/-- Where what was received is: sent or held while streaming, and else all in
the buffer. -/
structure RelayState.Holds (maxBody : Nat) (received : Bytes) (s : RelayState) : Prop where
  total : s.total = received.length
  within : received.length ≤ maxBody
  unanswered : Unanswered s.sent
  streamed : s.streaming = true → s.buf = [] ∧ sentBytes s.sent ++ s.held = received
  buffered : s.streaming = false → s.sent = [] ∧ s.held = [] ∧ s.buf = received

/-- What is known of the state a loop is left in. -/
def RelayExit.Fine (tunnel : Nat → Bool) (maxBody : Nat) (received : Bytes) : RelayExit → Prop
  | (.gone, s) => Unanswered s.sent ∧ sentBytes s.sent <+: received ∧
      (sentBytes s.sent).length ≤ maxBody ∧ tunnel s.sent.length = false
  | (.refused _, s) => s.sent = []
  | (.broke true, s) => s.streaming = true ∧ Unanswered s.sent ∧ sentBytes s.sent <+: received ∧
      (sentBytes s.sent).length ≤ maxBody
  | (.broke false, s) => s.Holds maxBody received

/-- A piece of the loop goes on with `P`, or the tunnel took no more. -/
def GoesOn (tunnel : Nat → Bool) (maxBody : Nat) (received : Bytes) (P : RelayState → Prop) :
    Except RelayExit RelayState → Prop
  | .ok s => P s
  | .error out => out.1 = .gone ∧ RelayExit.Fine tunnel maxBody received out

section Steps

variable {tunnel : Nat → Bool} {path : RelayPath} {maxBody : Nat} {received : Bytes}
  {s : RelayState}

theorem GoesOn.bind {P Q : RelayState → Prop} {out : Except RelayExit RelayState}
    {f : RelayState → Except RelayExit RelayState} (h : GoesOn tunnel maxBody received P out)
    (hf : ∀ s, P s → GoesOn tunnel maxBody received Q (f s)) :
    GoesOn tunnel maxBody received Q (out >>= f) := by
  cases out with
  | ok s => exact hf s h
  | error out => exact h

/-- A message goes out, or nothing changes any more. -/
theorem sendMsg_goesOn {m : RelayMsg} (hm : m.final = false) (hun : Unanswered s.sent)
    (hbytes : sentBytes s.sent ++ m.bytes <+: received) (hwithin : received.length ≤ maxBody) :
    GoesOn tunnel maxBody received
      (fun s' => s' = { s with sent := s.sent ++ [m] } ∧ Unanswered s'.sent)
      (sendMsg tunnel s m) := by
  unfold sendMsg
  split
  · exact ⟨rfl, hun.append hm⟩
  · rename_i hrefused
    have hfront : sentBytes s.sent <+: received := (List.prefix_append _ _).trans hbytes
    exact ⟨rfl, hun, hfront, hfront.length_le.trans hwithin, by simpa using hrefused⟩

/-- A part of what is held goes out. -/
theorem sendHeld_goesOn {part rest : Bytes} (h : s.Holds maxBody received)
    (hstreaming : s.streaming = true) (hheld : s.held = part ++ rest) :
    GoesOn tunnel maxBody received (fun s' => s'.Holds maxBody received ∧ s'.streaming = true)
      (sendMsg tunnel { s with held := rest } (.responseChunk part)) := by
  obtain ⟨hbuf, hsplit⟩ := h.streamed hstreaming
  rw [hheld, ← List.append_assoc] at hsplit
  have hsend := @sendMsg_goesOn tunnel maxBody received { s with held := rest }
    (.responseChunk part) rfl h.unanswered ⟨rest, hsplit⟩ h.within
  cases hout : sendMsg tunnel { s with held := rest } (.responseChunk part) with
  | error out =>
      rw [hout] at hsend
      exact hsend
  | ok s' =>
      rw [hout] at hsend
      obtain ⟨rfl, hun⟩ := hsend
      refine ⟨⟨h.total, h.within, hun, fun _ => ⟨hbuf, ?_⟩, fun hnot => ?_⟩, hstreaming⟩
      · show sentBytes (s.sent ++ [.responseChunk part]) ++ rest = received
        rw [sentBytes_append, sentBytes_singleton]
        exact hsplit
      · rw [show s.streaming = false from hnot] at hstreaming
        cases hstreaming

theorem drainFull_goesOn (fuel : Nat) (h : s.Holds maxBody received)
    (hstreaming : s.streaming = true) :
    GoesOn tunnel maxBody received (·.Holds maxBody received) (drainFull tunnel fuel s) := by
  induction fuel generalizing s with
  | zero => exact h
  | succ fuel ih =>
      rw [drainFull]
      cases hpop : popFull s.held with
      | none => exact h
      | some pair =>
          obtain ⟨part, rest⟩ := pair
          have hheld : s.held = part ++ rest := by
            unfold popFull at hpop
            split at hpop
            · cases hpop
            · obtain ⟨rfl, rfl⟩ := Prod.mk.inj (Option.some.inj hpop)
              exact (List.take_append_drop _ _).symm
          exact (sendHeld_goesOn h hstreaming hheld).bind fun s' hs' => ih hs'.1 hs'.2

theorem flushHeld_goesOn (h : s.Holds maxBody received) :
    GoesOn tunnel maxBody received
      (fun s' => s'.Holds maxBody received ∧ s'.streaming = s.streaming ∧ s'.held = [] ∧
        s'.trailers = s.trailers)
      (flushHeld tunnel s) := by
  unfold flushHeld
  split
  · rename_i hnil
    exact ⟨h, rfl, hnil, rfl⟩
  · rename_i hne
    have hstreaming : s.streaming = true := by
      cases hs : s.streaming with
      | true => rfl
      | false => exact absurd (h.buffered hs).2.1 hne
    have hsend := @sendHeld_goesOn tunnel maxBody received s s.held [] h hstreaming
      (List.append_nil _).symm
    unfold sendMsg at hsend ⊢
    split
    · rename_i hok
      rw [if_pos hok] at hsend
      exact ⟨hsend.1, rfl, rfl, rfl⟩
    · rename_i hno
      rw [if_neg hno] at hsend
      exact hsend

theorem pollQuiet_goesOn (h : s.Holds maxBody received) (ready : Bool) :
    GoesOn tunnel maxBody received
      (fun s' => s'.Holds maxBody received ∧ s'.streaming = s.streaming)
      (pollQuiet tunnel s ready) := by
  unfold pollQuiet
  split
  · exact ⟨h, rfl⟩
  · have hflush := @flushHeld_goesOn tunnel maxBody received s h
    cases hout : flushHeld tunnel s with
    | ok s' =>
        rw [hout] at hflush
        exact ⟨hflush.1, hflush.2.1⟩
    | error out =>
        rw [hout] at hflush
        exact hflush

/-- The buffered part goes out, one frame after the other. -/
theorem sendParts_goesOn (parts : List Bytes) (hun : Unanswered s.sent)
    (hbytes : sentBytes s.sent ++ parts.flatten = received) (hwithin : received.length ≤ maxBody) :
    GoesOn tunnel maxBody received
      (fun s' => Unanswered s'.sent ∧ sentBytes s'.sent = received ∧
        s'.streaming = s.streaming ∧ s'.buf = s.buf ∧ s'.held = s.held ∧ s'.total = s.total)
      (sendParts tunnel s parts) := by
  induction parts generalizing s with
  | nil =>
      refine ⟨hun, ?_, rfl, rfl, rfl, rfl⟩
      simpa using hbytes
  | cons part parts ih =>
      unfold sendParts
      rw [List.foldlM_cons]
      rw [List.flatten_cons, ← List.append_assoc] at hbytes
      refine (@sendMsg_goesOn tunnel maxBody received s (.responseChunk part) rfl hun ⟨_, hbytes⟩
        hwithin).bind ?_
      rintro s' ⟨rfl, hun'⟩
      refine ih hun' ?_
      rw [sentBytes_append, sentBytes_singleton]
      exact hbytes

/-- The state in which an error or a chunk too many is met. -/
theorem RelayState.Holds.aborted (h : s.Holds maxBody received) (more : Bytes) (total : Nat)
    (status : Nat) : RelayExit.Fine tunnel maxBody (received ++ more)
      (if s.streaming then .broke true else .refused status, { s with total := total }) := by
  cases hs : s.streaming with
  | true =>
      obtain ⟨-, hsplit⟩ := h.streamed hs
      have hfront : sentBytes s.sent <+: received := ⟨_, hsplit⟩
      exact ⟨rfl, h.unanswered, hfront.trans (List.prefix_append _ _),
        hfront.length_le.trans h.within⟩
  | false => exact (h.buffered hs).1

/-- One item of the body: what was received is still all there, or the loop
ends, and not as if the body had: the tunnel took no more, or it is too
long. -/
def StepOutcome (tunnel : Nat → Bool) (maxBody : Nat) (received : Bytes) :
    Except RelayExit RelayState → Prop
  | .ok s => s.Holds maxBody received
  | .error out => RelayExit.Fine tunnel maxBody received out ∧ out.1 ≠ .broke false ∧
      (out.1 = .gone ∨ maxBody < received.length)

theorem GoesOn.outcome {out : Except RelayExit RelayState}
    (h : GoesOn tunnel maxBody received (·.Holds maxBody received) out) :
    StepOutcome tunnel maxBody received out := by
  cases out with
  | ok s => exact h
  | error out =>
      refine ⟨h.2, ?_, .inl h.1⟩
      rw [h.1]
      nofun

/-- **One chunk.** It is kept, or passed on; the loop ends over the limit, with
nothing of the chunk sent, or where the tunnel takes no more. -/
theorem takeChunk_spec (h : s.Holds maxBody received) (chunk : Bytes) :
    StepOutcome tunnel maxBody (received ++ chunk) (takeChunk tunnel path maxBody s chunk) := by
  have htotal : s.total + chunk.length = (received ++ chunk).length := by
    rw [List.length_append, h.total]
  unfold takeChunk
  dsimp only
  split
  · rename_i hover
    refine ⟨h.aborted chunk _ 502, ?_, .inr (htotal ▸ hover)⟩
    dsimp only
    split
    · nofun
    · nofun
  · rename_i hfits
    have hwithin : (received ++ chunk).length ≤ maxBody := by
      rw [← htotal]
      exact Nat.not_lt.mp hfits
    split
    · rename_i hstreaming
      obtain ⟨hbuf, hsplit⟩ := h.streamed hstreaming
      refine GoesOn.outcome (@drainFull_goesOn tunnel maxBody (received ++ chunk)
        ⟨s.streaming, s.buf, s.held ++ chunk, s.total + chunk.length, s.trailers, s.sent⟩ _ ?_
        hstreaming)
      refine ⟨htotal, hwithin, h.unanswered, fun _ => ⟨hbuf, ?_⟩, fun hnot => ?_⟩
      · show sentBytes s.sent ++ (s.held ++ chunk) = received ++ chunk
        rw [← List.append_assoc, hsplit]
      · rw [show s.streaming = false from hnot] at hstreaming
        cases hstreaming
    · rename_i hnot
      have hbuffering : s.streaming = false := by simpa using hnot
      obtain ⟨hsent, hheld, hbuf⟩ := h.buffered hbuffering
      split
      · refine GoesOn.outcome ?_
        have hnothing : sentBytes s.sent = [] := by
          rw [hsent]
          rfl
        refine (@sendMsg_goesOn tunnel maxBody (received ++ chunk)
          ⟨true, s.buf ++ chunk, s.held, s.total + chunk.length, s.trailers, s.sent⟩
          .responseStart rfl h.unanswered (by
            rw [hnothing]
            exact List.nil_prefix) hwithin).bind ?_
        rintro s' ⟨rfl, hun⟩
        have hparts := @sendParts_goesOn tunnel maxBody (received ++ chunk)
          ⟨true, [], s.held, s.total + chunk.length, s.trailers, s.sent ++ [.responseStart]⟩
          (frameChunks (s.buf ++ chunk)) hun (by
            rw [sentBytes_append, sentBytes_singleton, hnothing, flatten_frameChunks, hbuf]
            rfl) hwithin
        cases hout : sendParts tunnel
            ⟨true, [], s.held, s.total + chunk.length, s.trailers, s.sent ++ [.responseStart]⟩
            (frameChunks (s.buf ++ chunk)) with
        | error out =>
            rw [hout] at hparts
            exact hparts
        | ok s' =>
            rw [hout] at hparts
            obtain ⟨hun', hbytes, hstreaming', hbuf', hheld', htotal'⟩ := hparts
            refine ⟨htotal'.trans htotal, hwithin, hun', fun _ => ⟨hbuf', ?_⟩, fun hno => ?_⟩
            · rw [hbytes, hheld']
              show _ ++ s.held = _
              rw [hheld, List.append_nil]
            · rw [hno] at hstreaming'
              cases hstreaming'
      · refine ⟨htotal, hwithin, h.unanswered, fun hyes => ?_, fun _ => ⟨hsent, hheld, ?_⟩⟩
        · rw [show s.streaming = true from hyes] at hbuffering
          cases hbuffering
        · show s.buf ++ chunk = received ++ chunk
          rw [hbuf]

/-- What an item that ends the body leaves: an end as of a whole body exactly
where it is no error, unless the tunnel took no more. -/
def EndOutcome (tunnel : Nat → Bool) (maxBody : Nat) (fails : Bool) (received : Bytes) :
    Except RelayExit RelayState → Prop
  | .ok _ => False
  | .error out => RelayExit.Fine tunnel maxBody received out ∧
      (out.1 = .broke false → fails = false) ∧
      (fails = false → out.1 = .gone ∨ out.1 = .broke false)

/-- An error met in a state that holds everything. -/
theorem RelayState.Holds.failed (h : s.Holds maxBody received) (status : Nat) :
    EndOutcome tunnel maxBody true received
      (.error (if s.streaming then .broke true else .refused status, s)) := by
  have hfine := @RelayState.Holds.aborted tunnel maxBody received s h [] s.total status
  rw [List.append_nil] at hfine
  refine ⟨hfine, fun hbroke => ?_, nofun⟩
  dsimp only at hbroke
  split at hbroke
  · cases hbroke
  · cases hbroke

/-- **Step lemma.** -/
theorem relayStep_spec (h : s.Holds maxBody received) (next : Bool × BackendItem) :
    if next.2.ends path then
      EndOutcome tunnel maxBody next.2.fails received (relayStep tunnel path maxBody s next)
    else StepOutcome tunnel maxBody (received ++ next.2.bytes)
      (relayStep tunnel path maxBody s next) := by
  obtain ⟨ready, item⟩ := next
  have hpoll := @pollQuiet_goesOn tunnel maxBody received s h ready
  unfold relayStep
  cases hout : pollQuiet tunnel s ready with
  | error out =>
      rw [hout] at hpoll
      obtain ⟨exit, s'⟩ := out
      obtain ⟨rfl, hfine⟩ : exit = .gone ∧ _ := hpoll
      split
      · exact ⟨hfine, nofun, fun _ => .inl rfl⟩
      · obtain ⟨hun, hfront, hwithin, hrefused⟩ := hfine
        exact ⟨⟨hun, hfront.trans (List.prefix_append _ _), hwithin, hrefused⟩, nofun, .inl rfl⟩
  | ok s' =>
      rw [hout] at hpoll
      obtain ⟨hs', -⟩ := hpoll
      cases item with
      | data chunk => exact takeChunk_spec hs' chunk
      | trailers list =>
          cases hreads : path.readsTrailers with
          | true =>
              simp only [BackendItem.ends, hreads, if_true]
              exact ⟨⟨hs'.total, hs'.within, hs'.unanswered, hs'.streamed, hs'.buffered⟩,
                fun _ => rfl, fun _ => .inr rfl⟩
          | false =>
              simp only [BackendItem.ends, hreads, BackendItem.bytes, List.append_nil]
              exact hs'
      | other =>
          show StepOutcome tunnel maxBody (received ++ []) (.ok s')
          rw [List.append_nil]
          exact hs'
      | failed => exact hs'.failed 502
      | timedOut => exact hs'.failed 504

/-- What a loop has received where it ends: a part of the body, and all of it
where it ends without an error. A body that ends within the limit is the
whole one, as long as the tunnel takes it. -/
def LoopOutcome (tunnel : Nat → Bool) (maxBody : Nat) (fails : Bool) (body : Bytes)
    (out : RelayExit) : Prop :=
  ∃ received, received <+: body ∧ RelayExit.Fine tunnel maxBody received out ∧
    (out.1 = .broke false → received = body ∧ fails = false) ∧
    (fails = false → body.length ≤ maxBody → out.1 = .gone ∨ out.1 = .broke false)

theorem bodyOf_cons (next : Bool × BackendItem) (items : List (Bool × BackendItem)) :
    bodyOf path (next :: items) =
      if next.2.ends path then [] else next.2.bytes ++ bodyOf path items := by
  unfold bodyOf
  cases hends : next.2.ends path with
  | true => simp [hends]
  | false => simp [hends]

theorem bodyFails_cons (next : Bool × BackendItem) (items : List (Bool × BackendItem)) :
    bodyFails path (next :: items) =
      if next.2.ends path then next.2.fails else bodyFails path items := by
  unfold bodyFails
  cases hends : next.2.ends path with
  | true => simp [hends]
  | false => simp [hends]

/-- **Run lemma.** -/
theorem relayItems_spec (items : List (Bool × BackendItem)) (h : s.Holds maxBody received) :
    match items.foldlM (relayStep tunnel path maxBody) s with
    | .ok s' => s'.Holds maxBody (received ++ bodyOf path items) ∧ bodyFails path items = false
    | .error out =>
        LoopOutcome tunnel maxBody (bodyFails path items) (received ++ bodyOf path items) out := by
  induction items generalizing s received with
  | nil =>
      show s.Holds maxBody (received ++ []) ∧ _
      rw [List.append_nil]
      exact ⟨h, rfl⟩
  | cons next items ih =>
      have hstep := @relayStep_spec tunnel path maxBody received s h next
      rw [List.foldlM_cons, bodyOf_cons, bodyFails_cons]
      cases hends : next.2.ends path with
      | true =>
          rw [hends, if_pos rfl] at hstep
          cases hout : relayStep tunnel path maxBody s next with
          | ok s' =>
              rw [hout] at hstep
              exact hstep.elim
          | error out =>
              rw [hout] at hstep
              obtain ⟨hfine, hbroke, hwhole⟩ := hstep
              rw [if_pos rfl, if_pos rfl, List.append_nil]
              exact ⟨received, List.prefix_rfl, hfine, fun h => ⟨rfl, hbroke h⟩,
                fun h _ => hwhole h⟩
      | false =>
          rw [hends, if_neg (by decide)] at hstep
          rw [if_neg (by decide), if_neg (by decide), ← List.append_assoc]
          cases hout : relayStep tunnel path maxBody s next with
          | ok s' =>
              rw [hout] at hstep
              exact ih hstep
          | error out =>
              rw [hout] at hstep
              obtain ⟨hfine, hbroke, hwhy⟩ := hstep
              refine ⟨_, List.prefix_append _ _, hfine, fun h => absurd h hbroke, fun _ hfits => ?_⟩
              rcases hwhy with hgone | hover
              · exact .inl hgone
              · rw [List.length_append] at hfits
                omega

theorem relayLoop_spec (items : List (Bool × BackendItem)) (endReady : Bool) :
    LoopOutcome tunnel maxBody (bodyFails path items) (bodyOf path items)
      (relayLoop tunnel path maxBody items endReady) := by
  have hstart : ({} : RelayState).Holds maxBody [] :=
    ⟨rfl, Nat.zero_le _, fun m hm => absurd hm List.not_mem_nil, nofun, fun _ => ⟨rfl, rfl, rfl⟩⟩
  have hitems := @relayItems_spec tunnel path maxBody [] {} items hstart
  unfold relayLoop
  rw [List.nil_append] at hitems
  cases hout : items.foldlM (relayStep tunnel path maxBody) {} with
  | error out =>
      rw [hout] at hitems
      exact hitems
  | ok s =>
      rw [hout] at hitems
      obtain ⟨hholds, hends⟩ := hitems
      have hpoll := @pollQuiet_goesOn tunnel maxBody _ s hholds endReady
      show LoopOutcome _ _ _ _ (match pollQuiet tunnel s endReady with
        | .ok s => (.broke false, s)
        | .error out => out)
      cases hend : pollQuiet tunnel s endReady with
      | ok s' =>
          rw [hend] at hpoll
          exact ⟨_, List.prefix_rfl, hpoll.1, fun _ => ⟨rfl, hends⟩, fun _ _ => .inr rfl⟩
      | error out =>
          rw [hend] at hpoll
          exact ⟨_, List.prefix_rfl, hpoll.2, fun _ => ⟨rfl, hends⟩, fun _ _ => .inl hpoll.1⟩

end Steps

/-! ## The whole response -/

section Whole

variable {tunnel : Nat → Bool} {path : RelayPath} {maxBody : Nat} {fails : Bool} {body : Bytes}
  {s : RelayState}

theorem Unanswered.countP {sent : List RelayMsg} (h : Unanswered sent) :
    sent.countP (·.final) = 0 := by
  refine List.countP_eq_zero.mpr fun m hm => ?_
  rw [h m hm]
  decide

/-- The tunnel took nothing that answers the request. -/
theorem RelayedBody.cut {sent : List RelayMsg} (hun : Unanswered sent)
    (hbytes : sentBytes sent <+: body) (hwithin : (sentBytes sent).length ≤ maxBody)
    (hrefused : ∃ n, tunnel n = false) :
    RelayedBody tunnel maxBody fails body sent where
  bytes := hbytes
  within := hwithin
  whole m hm hcomplete := by
    exact absurd (RelayMsg.final_of_completes hcomplete) (by rw [hun m hm]; decide)
  alone m hm halone := absurd (RelayMsg.final_of_alone halone) (by rw [hun m hm]; decide)
  once := by
    rw [hun.countP]
    decide
  completed _ _ hall := by
    obtain ⟨n, hn⟩ := hrefused
    rw [hall n] at hn
    cases hn
  answered hall := by
    obtain ⟨n, hn⟩ := hrefused
    rw [hall n] at hn
    cases hn

theorem deliver_relayed {m : RelayMsg} (hun : Unanswered s.sent) (hfinal : m.final = true)
    (hbytes : sentBytes s.sent ++ m.bytes <+: body)
    (hwithin : (sentBytes s.sent ++ m.bytes).length ≤ maxBody)
    (hwhole : m.completes = true → sentBytes s.sent ++ m.bytes = body ∧ fails = false)
    (hcompleted : fails = false → body.length ≤ maxBody → m.completes = true)
    (halone : m.alone = true → s.sent = []) :
    RelayedBody tunnel maxBody fails body (deliver tunnel s m) := by
  unfold deliver
  split
  · have hsum : sentBytes (s.sent ++ [m]) = sentBytes s.sent ++ m.bytes := by
      rw [sentBytes_append, sentBytes_singleton]
    have hcount : (s.sent ++ [m]).countP (·.final) = 1 := by
      rw [List.countP_append, hun.countP, List.countP_singleton, hfinal]
      rfl
    have hmem : ∀ m' ∈ s.sent ++ [m], m'.final = true → m' = m := by
      intro m' hm' hfinal'
      rcases List.mem_append.mp hm' with hm' | hm'
      · rw [hun m' hm'] at hfinal'
        cases hfinal'
      · exact List.mem_singleton.mp hm'
    refine ⟨hsum ▸ hbytes, hsum ▸ hwithin, fun m' hm' hcomplete => ?_,
      fun hends hfits _ => ⟨m, List.mem_append_right _ List.mem_cons_self, hcompleted hends hfits⟩,
      fun m' hm' hal => ?_, hcount.le, fun _ => hcount⟩
    · obtain rfl := hmem m' hm' (RelayMsg.final_of_completes hcomplete)
      rw [hsum]
      exact hwhole hcomplete
    · obtain rfl := hmem m' hm' (RelayMsg.final_of_alone hal)
      rw [halone hal]
      rfl
  · rename_i hrefused
    exact RelayedBody.cut hun ((List.prefix_append _ _).trans hbytes)
      ((List.prefix_append _ _).length_le.trans hwithin) ⟨_, by simpa using hrefused⟩

theorem relayBody_relayed (items : List (Bool × BackendItem)) (endReady : Bool) :
    RelayedBody tunnel maxBody (bodyFails path items) (bodyOf path items)
      (relayBody tunnel path maxBody items endReady) := by
  have hloop := @relayLoop_spec tunnel path maxBody items endReady
  generalize bodyOf path items = body at hloop ⊢
  generalize bodyFails path items = fails at hloop ⊢
  unfold relayBody
  generalize relayLoop tunnel path maxBody items endReady = out at hloop ⊢
  obtain ⟨exit, s⟩ := out
  obtain ⟨received, hreceived, hfine, hall, hends⟩ := hloop
  cases exit with
  | gone =>
      obtain ⟨hun, hfront, hwithin, hrefused⟩ := hfine
      exact RelayedBody.cut hun (hfront.trans hreceived) hwithin ⟨_, hrefused⟩
  | refused status =>
      have hsent : s.sent = [] := hfine
      refine deliver_relayed ?_ rfl ?_ ?_ nofun (fun hf hfits => ?_) fun _ => hsent
      · rw [hsent]
        exact fun m hm => absurd hm List.not_mem_nil
      · rw [hsent]
        exact List.nil_prefix
      · rw [hsent]
        exact Nat.zero_le _
      · rcases hends hf hfits with h | h <;> cases h
  | broke aborted =>
      cases aborted with
      | true =>
          obtain ⟨hstreaming, hun, hfront, hwithin⟩ := hfine
          dsimp only
          rw [if_pos hstreaming, if_pos rfl]
          have hnone : RelayMsg.responseAbort.bytes = [] := rfl
          refine deliver_relayed hun rfl ?_ ?_ nofun (fun hf hfits => ?_) nofun
          · rw [hnone, List.append_nil]
            exact hfront.trans hreceived
          · rw [hnone, List.append_nil]
            exact hwithin
          · rcases hends hf hfits with h | h <;> cases h
      | false =>
          have hholds : s.Holds maxBody received := hfine
          obtain ⟨rfl, hsound⟩ := hall rfl
          dsimp only
          split
          · rename_i hstreaming
            rw [if_neg (by decide)]
            have hflush := @flushHeld_goesOn tunnel maxBody received s hholds
            cases hend : flushHeld tunnel s with
            | error out =>
                rw [hend] at hflush
                obtain ⟨exit, s'⟩ := out
                obtain ⟨rfl, hun, hfront, hwithin, hrefused⟩ := hflush
                exact RelayedBody.cut hun hfront hwithin ⟨_, hrefused⟩
            | ok s' =>
                rw [hend] at hflush
                obtain ⟨hs', hsame, hheld, -⟩ := hflush
                obtain ⟨-, hsplit⟩ := hs'.streamed (hsame.trans hstreaming)
                have hbytes : sentBytes s'.sent ++ (RelayMsg.responseEnd s'.trailers).bytes =
                    received := by
                  rw [hheld] at hsplit
                  exact hsplit
                refine deliver_relayed hs'.unanswered rfl ?_ ?_ (fun _ => ⟨hbytes, hsound⟩)
                  (fun _ _ => rfl) nofun
                · exact ⟨[], (List.append_nil _).trans hbytes⟩
                · rw [hbytes]
                  exact hs'.within
          · rename_i hnot
            obtain ⟨hsent, -, hbuf⟩ := hholds.buffered (by simpa using hnot)
            have hbytes : sentBytes s.sent ++ s.buf = received := by
              rw [hsent, hbuf]
              rfl
            refine deliver_relayed hholds.unanswered rfl ?_ ?_ (fun _ => ⟨hbytes, hsound⟩)
              (fun _ _ => rfl) fun _ => hsent
            · exact ⟨[], (List.append_nil _).trans hbytes⟩
            · rw [RelayMsg.bytes, hbytes]
              exact hholds.within

end Whole

/-- **Bodies are relayed exactly**, on each path, whatever the backend yields,
wherever it falls quiet, however it ends, and whatever the tunnel takes. -/
theorem body_relayed (tunnel : Nat → Bool) (maxBody : Nat)
    (chunks : List (Bool × Except Unit Bytes)) (items : List (Bool × BackendItem))
    (endReady : Bool) :
    RelayedBody tunnel maxBody (bodyFails http1Path (http1Items chunks))
      (bodyOf http1Path (http1Items chunks)) (relayHttp1 tunnel maxBody chunks endReady) ∧
    RelayedBody tunnel maxBody (bodyFails http2Path items) (bodyOf http2Path items)
      (relayHttp2 tunnel maxBody items endReady) ∧
    RelayedBody tunnel maxBody (bodyFails unixPath items) (bodyOf unixPath items)
      (relayUnix tunnel maxBody items endReady) :=
  ⟨relayBody_relayed _ _, relayBody_relayed _ _, relayBody_relayed _ _⟩

/-- A body of two chunks is completed; one whose backend fails after the first
is answered with an error, and nothing of it is sent. -/
theorem body_relayed_pages :
    (∃ m ∈ relayHttp1 (fun _ => true) 8 [(true, .ok [1]), (false, .ok [2])] true,
      m.completes = true) ∧
    (∀ m ∈ relayHttp2 (fun _ => true) 8 [(true, .data [1]), (true, .failed)] true,
      ¬m.completes = true) ∧
    relayHttp2 (fun _ => true) 8 [(true, .data [1]), (true, .failed)] true =
      [.errorResponse 502] :=
  ⟨(body_relayed (fun _ => true) 8 [(true, .ok [1]), (false, .ok [2])] [] true).1.completed
      (by decide) (by decide) fun _ => rfl,
    fun m hm hcomplete =>
      absurd ((body_relayed (fun _ => true) 8 [] [(true, .data [1]), (true, .failed)]
        true).2.1.whole m hm hcomplete).2 (by decide),
    by decide⟩

end Aperio
