import Aperio.Revalidation

/-!
# The dispatch loop

`Attempt::run` of `proxy/forward/attempt.rs`: a request that has passed its
gates, from its first selection to the answer the visitor gets. A dispatch
registers an id in `pending_requests`; whoever takes the entry out answers the
request over the entry's channel, or drops the channel and loses it. A lost
dispatch and a buffered server error may be followed by another one, to a
client picked then.

The connections come and go meanwhile, and so do the entries of other
requests. Only the window of a failover is measured here: where an await has a
timeout, it may run out at any time.
-/

namespace Aperio

/-! ## Settings -/

inductive FailoverMode where
  | fail
  | retry
  | wait
  | retryWait
deriving Repr, DecidableEq

/-- The window is in milliseconds. -/
structure FailoverConfig where
  mode : FailoverMode := .fail
  maxJumps : Nat := 0
  window : Nat := 0
  allMethods : Bool := false
  retryOn5xx : Bool := false
  retryStatuses : List Nat := []
deriving Repr, DecidableEq

def FailoverConfig.retryCovers (cfg : FailoverConfig) (status : Nat) : Bool :=
  if !cfg.retryOn5xx then false
  else if cfg.retryStatuses.isEmpty then decide (500 ≤ status) && decide (status < 600)
  else cfg.retryStatuses.contains status

def methodRetryable (method : String) (allMethods : Bool) : Bool :=
  allMethods || ["GET", "HEAD", "OPTIONS", "PUT", "DELETE", "TRACE"].contains method

/-- How long `wait_for_candidate` sleeps between two picks. -/
def pollInterval : Nat := 250

/-! ## The request -/

/-- A selection: who was picked, and the service as it was declared then. -/
structure Assignment where
  client : SelectedClient
  service : ServiceState
deriving DecidableEq

/-- A request with its first selection. Its cache flag and its body limit are
that selection's. -/
structure Attempt extends Dispatch where
  body : RequestBody
  first : Assignment
  callerIp : IpAddr
  canary : Option (String × Side) := none
  failover : FailoverConfig := {}
  answers : AnswerConfig
  decode : String → Option Bytes
  key : String
  client_cache : client.cache = first.service.cache
  body_declared : body.maxRequestBody = first.service.maxRequestBody

namespace Attempt

variable (A : Attempt)

/-- A client-side `forward` let the visitor in, over one connection. -/
def forwarded : Bool :=
  A.identity.any (·.forwardClientId.isSome)

/-- What a retry and a failover ask of the request alike. -/
def repeatable : Bool :=
  !A.streamRequest && methodRetryable A.method A.failover.allMethods && !A.forwarded

def retries (jumpsUsed : Nat) (res : TunnelResponse) : Bool :=
  res.streamRx.isNone && A.repeatable && A.failover.retryCovers res.status &&
    decide (jumpsUsed < A.failover.maxJumps)

def canFailover (jumpsUsed : Nat) : Bool :=
  A.repeatable && A.failover.mode != .fail && decide (jumpsUsed < A.failover.maxJumps)

def pick (m : Moment) (args : PickArgs) : PickOutcome :=
  pickProxyClient m.clients A.path A.host m.now A.gate.downThreshold args

/-- What a re-dispatch picks with. The strategy and the group's cursor are
those of the moment. -/
def repick (requirement : Option SelectionRequirement) (canary : Option (String × Side))
    (strategy : LbStrategy) (cursor : Nat) : PickArgs where
  strategy := strategy
  requirement := requirement
  visitorIp := some A.callerIp
  canary := canary
  cursor := cursor

/-- Who is waited for: the process that was lost, or anybody. -/
def awaited (lost : SelectedClient) : Option SelectionRequirement :=
  match A.failover.mode with
  | .wait => lost.instanceId.map .process
  | _ => none

/-- The body limit of a service: its own, within the server's. -/
def limitOf (a : Assignment) : Nat :=
  { A.body with maxRequestBody := a.service.maxRequestBody }.limit

def overLimit : Bool :=
  A.contentLength.any (A.body.limit < ·)

end Attempt

/-! ## The state -/

/-- What has come over the channel of a dispatch. -/
inductive Channel where
  | quiet
  | answered (res : TunnelResponse)
  | closed
deriving Repr, DecidableEq

def Channel.of : Option TunnelResponse → Channel
  | some res => .answered res
  | none => .closed

inductive DispatchOutcome where
  | notSerialized
  | notSent
  | timedOut
  | lost
  | answered (res : TunnelResponse)
deriving Repr, DecidableEq

/-- A dispatch, with the bytes of its buffered body. -/
structure Handed where
  id : String
  given : Assignment
  buffered : Nat
  outcome : Option DispatchOutcome := none
deriving DecidableEq

/-- The task that relays a streamed body. -/
structure PumpTask where
  id : String
  rest : List BodyItem
  total : Nat := 0
  running : Bool := true
deriving Repr, DecidableEq

inductive AttemptReply where
  | fromCache
  | turnedAway
  | clientConcurrency
  | notSerialized
  | timedOut
  | relayed (res : TunnelResponse)
  | closedAbruptly
deriving Repr, DecidableEq

inductive AttemptPhase where
  | picked
  | ready
  | awaiting (id : String) (channel : Channel)
  | lost
  | waiting (requirement : Option SelectionRequirement)
  | left (reply : AttemptReply)
  | abandoned
deriving Repr, DecidableEq

/-- `minted` are the ids anybody has used, `doomed` those a guard's task will
take out. `clock` is in milliseconds. The newest dispatch comes first. `moves`
counts what the handler has done, `idle` the polls that found nobody. -/
structure AttemptState where
  moment : Moment
  clock : Nat := 0
  pending : AList fun _ : String => String := ∅
  minted : List String := []
  doomed : List String := []
  selected : Assignment
  jumpsUsed : Nat := 0
  deadline : Option Nat := none
  resumeAt : Nat := 0
  phase : AttemptPhase := .picked
  bytes : Bytes := []
  dispatches : List Handed := []
  pump : Option PumpTask := none
  refreshing : Bool := false
  writes : List (Assignment × CacheWrite) := []
  moves : Nat := 0
  idle : Nat := 0

/-- What became of the newest dispatch. -/
def noteOutcome (outcome : Option DispatchOutcome) : List Handed → List Handed
  | [] => []
  | d :: rest => { d with outcome := outcome.or d.outcome } :: rest

/-- The sender of an id was used or dropped. -/
def AttemptPhase.hear (phase : AttemptPhase) (id : String) (channel : Channel) : AttemptPhase :=
  if phase = .awaiting id .quiet then .awaiting id channel else phase

namespace AttemptState

variable (s : AttemptState)

/-- Somebody takes an entry out. -/
def take (id : String) (answer : Option TunnelResponse) : AttemptState :=
  { s with phase := s.phase.hear id (.of answer), pending := s.pending.erase id }

/-- The entries without that of the newest dispatch. -/
def withoutOwn : AList fun _ : String => String :=
  match s.dispatches with
  | [] => s.pending
  | d :: _ => s.pending.erase d.id

def removeOwn : AttemptState :=
  { s with pending := s.withoutOwn }

/-- `PendingGuard::drop`: the entry goes at once, or, where somebody holds the
map, by a task. -/
def dropGuard (contended : Bool) : AttemptState :=
  { s with
    pending := if contended then s.pending else s.withoutOwn
    doomed := if contended then (s.dispatches.take 1).map (·.id) ++ s.doomed else s.doomed }

/-- A dispatch under a new id. One that is served from here registers
nothing. -/
def register (id : String) : AttemptState :=
  { s with
    minted := id :: s.minted
    pending :=
      if s.selected.service.serverSideTarget.isSome then s.pending
      else s.pending.insert id s.selected.client.id
    dispatches := ⟨id, s.selected, s.bytes.length, none⟩ :: s.dispatches
    moves := s.moves + 1 }

def note (outcome : Option DispatchOutcome) : AttemptState :=
  { s with dispatches := noteOutcome outcome s.dispatches }

/-- On its way. The body of a streamed request is taken once. -/
def handOver (A : Attempt) (id : String) : AttemptState :=
  { s.register id with
    phase := .awaiting id .quiet
    pump := s.pump.or (if A.streamRequest then some ⟨id, A.body.items, 0, true⟩ else none) }

/-- A dispatch that did not get out. -/
def failHandOver (id : String) (outcome : DispatchOutcome) (phase : AttemptPhase) : AttemptState :=
  { ((s.register id).note (some outcome)).removeOwn with phase := phase }

def redispatch (next : Assignment) (outcome : Option DispatchOutcome) (contended : Bool) :
    AttemptState :=
  { (s.note outcome).dropGuard contended with
    selected := next
    phase := .ready
    moves := s.moves + 1 }

/-- A timeout takes the entry out itself, before the guard does. -/
def leave (reply : AttemptReply) (outcome : Option DispatchOutcome) (contended : Bool) :
    AttemptState :=
  let noted := s.note outcome
  let pending := if reply = .timedOut then noted.withoutOwn else noted.pending
  { { noted with pending := pending }.dropGuard contended with
    phase := .left reply
    moves := s.moves + 1 }

/-- An upload that cannot be completed drops its request. -/
def abortPump (p : PumpTask) : AttemptState :=
  { s.take p.id none with pump := some { p with running := false } }

/-- The pump's next item, under the limit it was started with. -/
def pumpItem (limit : Nat) (p : PumpTask) (sent : Bool) : AttemptState :=
  match p.rest with
  | [] => { s with pump := some { p with running := false } }
  | .error :: _ => s.abortPump p
  | .chunk bytes :: rest =>
    if limit < p.total + bytes.length then s.abortPump p
    else if sent then
      { s with pump := some { p with rest := rest, total := p.total + bytes.length } }
    else s.abortPump p

/-- What the cache is given of the answer the visitor gets. -/
def stores (A : Attempt) : AttemptReply → List (Assignment × CacheWrite)
  | .relayed res =>
    ((dispatchWrites A.answers A.decode A.host A.path A.key A.cacheEligible res).map
      (s.selected, ·)).toList
  | _ => []

end AttemptState

/-! ## What the pieces change -/

section Pieces

variable {s : AttemptState} {id : String} {d : Handed}

theorem AttemptPhase.hear_quiet (phase : AttemptPhase) : phase.hear id .quiet = phase := by
  rw [hear]
  split
  · rename_i h
    exact h.symm
  · rfl

theorem AttemptPhase.hear_of_ne {phase : AttemptPhase} {channel : Channel}
    (h : phase ≠ .awaiting id .quiet) : phase.hear id channel = phase :=
  if_neg h

theorem noteOutcome_ids (outcome : Option DispatchOutcome) (l : List Handed) :
    (noteOutcome outcome l).map (·.id) = l.map (·.id) := by
  cases l <;> rfl

theorem noteOutcome_length (outcome : Option DispatchOutcome) (l : List Handed) :
    (noteOutcome outcome l).length = l.length := by
  cases l <;> rfl

theorem noteOutcome_tail (outcome : Option DispatchOutcome) (l : List Handed) :
    (noteOutcome outcome l).tail = l.tail := by
  cases l <;> rfl

/-- A noted dispatch is one that was there, but for what became of it. -/
theorem mem_noteOutcome {outcome : Option DispatchOutcome} {l : List Handed}
    (h : d ∈ noteOutcome outcome l) : ∃ d' ∈ l, d.id = d'.id ∧ d.given = d'.given ∧
      d.buffered = d'.buffered ∧ (d.outcome = d'.outcome ∨ d.outcome = outcome) := by
  cases l with
  | nil => cases h
  | cons first rest =>
      rcases List.mem_cons.mp h with rfl | hrest
      · refine ⟨first, List.mem_cons_self, rfl, rfl, rfl, ?_⟩
        cases outcome with
        | none => exact .inl rfl
        | some _ => exact .inr rfl
      · exact ⟨d, List.mem_cons_of_mem _ hrest, rfl, rfl, rfl, .inl rfl⟩

namespace AttemptState

theorem mem_of_mem_withoutOwn (h : id ∈ s.withoutOwn) : id ∈ s.pending := by
  rw [withoutOwn] at h
  split at h
  · exact h
  · exact (AList.mem_erase.mp h).2

theorem own_notMem_withoutOwn {rest : List Handed} (h : s.dispatches = d :: rest) :
    d.id ∉ s.withoutOwn := by
  rw [withoutOwn, h]
  exact fun hmem => (AList.mem_erase.mp hmem).1 rfl

theorem mem_of_mem_dropGuard {contended : Bool} (h : id ∈ (s.dropGuard contended).pending) :
    id ∈ s.pending := by
  cases contended with
  | true => exact h
  | false => exact mem_of_mem_withoutOwn h

theorem mem_of_mem_leave {reply : AttemptReply} {outcome : Option DispatchOutcome}
    {contended : Bool} (h : id ∈ (s.leave reply outcome contended).pending) : id ∈ s.pending := by
  have hnoted := mem_of_mem_dropGuard h
  by_cases hreply : reply = .timedOut
  · simp only [hreply, if_true] at hnoted
    have hpending : id ∈ (s.note outcome).pending := mem_of_mem_withoutOwn hnoted
    exact hpending
  · simp only [hreply, if_false] at hnoted
    exact hnoted

/-- The pump goes on with its body, or ends, or drops its request. -/
theorem pumpItem_cases (s : AttemptState) (limit : Nat) (p : PumpTask) (sent : Bool) :
    (∃ q, q.id = p.id ∧ (p.total ≤ limit → q.total ≤ limit) ∧
        s.pumpItem limit p sent = { s with pump := some q }) ∨
      s.pumpItem limit p sent = s.abortPump p := by
  rw [pumpItem]
  split
  · exact .inl ⟨{ p with running := false }, rfl, fun h => h, rfl⟩
  · exact .inr rfl
  · rename_i bytes rest _
    split
    · exact .inr rfl
    · rename_i hroom
      split
      · exact .inl ⟨{ p with rest := rest, total := p.total + bytes.length }, rfl,
          fun _ => Nat.le_of_not_lt hroom, rfl⟩
      · exact .inr rfl

end AttemptState

end Pieces

/-! ## The run -/

inductive AttemptAct where
  | others (moment : Moment) (clock : Nat)
  | registered (id client : String)
  | taken (id : String) (answer : Option TunnelResponse)
  | fetched (answer : Option TunnelResponse)
  | swept (id : String)
  | pumped (sent : Bool)
  | refreshed (res : TunnelResponse)
  | hit
  | enter
  | dispatch (id : String)
  | lose
  | wait
  | poll
  | redispatch (next : Assignment)
  | leave (reply : AttemptReply)
  | hangUp

namespace Attempt

variable (A : Attempt)

/-- The pick finds this service. -/
def Finds (m : Moment) (args : PickArgs) (next : Assignment) : Prop :=
  A.pick m args = .selected next.client ∧ serves m next.client next.service

/-- The three ways to another dispatch, with the jump each is charged and what
the last one came to. -/
inductive Redispatches (s : AttemptState) : Assignment → Nat → Option DispatchOutcome → Prop
  | retry {id : String} {res : TunnelResponse} {next : Assignment} {strategy : LbStrategy}
      {cursor : Nat} (hphase : s.phase = .awaiting id (.answered res))
      (hretry : A.retries s.jumpsUsed res = true)
      (hfound : A.Finds s.moment (A.repick none A.canary strategy cursor) next) :
      Redispatches s next 1 (some (.answered res))
  | failover {next : Assignment} {strategy : LbStrategy} {cursor : Nat}
      (hphase : s.phase = .lost) (hcan : A.canFailover s.jumpsUsed = true)
      (hmode : A.failover.mode = .retry)
      (hfound : A.Finds s.moment (A.repick none A.canary strategy cursor) next) :
      Redispatches s next 1 none
  | found {requirement : Option SelectionRequirement} {next : Assignment}
      {strategy : LbStrategy} {cursor : Nat} (hphase : s.phase = .waiting requirement)
      (hawake : s.resumeAt ≤ s.clock)
      (hfound : A.Finds s.moment (A.repick requirement none strategy cursor) next) :
      Redispatches s next 0 none

/-- The ways out, with what the last dispatch came to. -/
inductive Leaves (s : AttemptState) : AttemptReply → Option DispatchOutcome → Prop
  | turnedAway (hphase : s.phase = .picked) : Leaves s .turnedAway none
  | noSlot (hphase : s.phase = .ready)
      (hlimited : s.selected.service.inflightLimiter.isSome = true) :
      Leaves s .clientConcurrency none
  | timeout {id : String} {channel : Channel} (hphase : s.phase = .awaiting id channel) :
      Leaves s .timedOut (some .timedOut)
  | relay {id : String} {res : TunnelResponse} {strategy : LbStrategy} {cursor : Nat}
      (hphase : s.phase = .awaiting id (.answered res))
      (hkept : A.retries s.jumpsUsed res = false ∨
        ∀ client, A.pick s.moment (A.repick none A.canary strategy cursor) ≠ .selected client) :
      Leaves s (.relayed res) (some (.answered res))
  | noFailover (hphase : s.phase = .lost) (hcannot : A.canFailover s.jumpsUsed = false) :
      Leaves s .closedAbruptly none
  | nobody {strategy : LbStrategy} {cursor : Nat} (hphase : s.phase = .lost)
      (hmode : A.failover.mode = .retry)
      (hnone : ∀ client, A.pick s.moment (A.repick none A.canary strategy cursor) ≠
        .selected client) :
      Leaves s .closedAbruptly none
  | expired {requirement : Option SelectionRequirement} {strategy : LbStrategy} {cursor : Nat}
      (hphase : s.phase = .waiting requirement) (hawake : s.resumeAt ≤ s.clock)
      (hover : (∃ redirect, A.pick s.moment (A.repick requirement none strategy cursor) =
          .denied redirect) ∨
        A.pick s.moment (A.repick requirement none strategy cursor) = .noRoute ∧
          ∀ deadline ∈ s.deadline, deadline ≤ s.clock) :
      Leaves s .closedAbruptly none

inductive Step : AttemptState → AttemptAct → AttemptState → Prop
  | others {s : AttemptState} {moment : Moment} {clock : Nat} (hlater : s.clock ≤ clock) :
      Step s (.others moment clock) { s with moment := moment, clock := clock }
  | registered {s : AttemptState} {id client : String} (hfresh : id ∉ s.minted) :
      Step s (.registered id client)
        { s with minted := id :: s.minted, pending := s.pending.insert id client }
  | taken {s : AttemptState} {id : String} {answer : Option TunnelResponse}
      (hentry : id ∈ s.pending) : Step s (.taken id answer) (s.take id answer)
  | fetched {s : AttemptState} {id : String} {answer : Option TunnelResponse}
      (hphase : s.phase = .awaiting id .quiet)
      (hserver : s.selected.service.serverSideTarget.isSome = true) :
      Step s (.fetched answer) { s with phase := s.phase.hear id (.of answer) }
  | swept {s : AttemptState} {id : String} (hdoomed : id ∈ s.doomed) :
      Step s (.swept id) { s.take id none with doomed := s.doomed.erase id }
  | pumped {s : AttemptState} {p : PumpTask} {sent : Bool} (hpump : s.pump = some p)
      (hrunning : p.running = true) :
      Step s (.pumped sent) (s.pumpItem A.body.limit p sent)
  | refreshed {s : AttemptState} {res : TunnelResponse} (hrefresh : s.refreshing = true) :
      Step s (.refreshed res)
        { s with
          refreshing := false
          writes := ((refreshWrites A.decode A.key res).map (A.first, ·)).toList ++ s.writes }
  | hit {s : AttemptState} {stale : Bool} (hphase : s.phase = .picked)
      (helig : A.cacheEligible = true) :
      Step s .hit { s.leave .fromCache none false with refreshing := stale }
  | buffered {s : AttemptState} {bytes : Bytes} (hphase : s.phase = .picked)
      (hwhole : A.streamRequest = false) (hlength : A.overLimit = false)
      (hbytes : RequestBody.whole A.body.limit A.body.items = some bytes) :
      Step s .enter { s with phase := .ready, bytes := bytes, moves := s.moves + 1 }
  | streamed {s : AttemptState} (hphase : s.phase = .picked) (hstream : A.streamRequest = true)
      (hlength : A.overLimit = false) :
      Step s .enter { s with phase := .ready, moves := s.moves + 1 }
  | handed {s : AttemptState} {id : String} (hphase : s.phase = .ready) (hfresh : id ∉ s.minted) :
      Step s (.dispatch id) (s.handOver A id)
  | unsent {s : AttemptState} {id : String} (hphase : s.phase = .ready) (hfresh : id ∉ s.minted)
      (hrelayed : s.selected.service.serverSideTarget = none) :
      Step s (.dispatch id) (s.failHandOver id .notSent .lost)
  | unserialized {s : AttemptState} {id : String} (hphase : s.phase = .ready)
      (hfresh : id ∉ s.minted) :
      Step s (.dispatch id) (s.failHandOver id .notSerialized (.left .notSerialized))
  | lose {s : AttemptState} {id : String} (hphase : s.phase = .awaiting id .closed) :
      Step s .lose { s.note (some .lost) with phase := .lost, moves := s.moves + 1 }
  | wait {s : AttemptState} (hphase : s.phase = .lost) (hcan : A.canFailover s.jumpsUsed = true)
      (hmode : A.failover.mode = .wait ∨ A.failover.mode = .retryWait) :
      Step s .wait
        { s with
          phase := .waiting (A.awaited s.selected.client)
          jumpsUsed := s.jumpsUsed + 1
          deadline := s.deadline.or (some (s.clock + A.failover.window))
          resumeAt := s.clock
          moves := s.moves + 1 }
  | poll {s : AttemptState} {requirement : Option SelectionRequirement} {strategy : LbStrategy}
      {cursor : Nat} {deadline : Nat} (hphase : s.phase = .waiting requirement)
      (hawake : s.resumeAt ≤ s.clock) (hdeadline : s.deadline = some deadline)
      (hopen : s.clock < deadline)
      (hpick : A.pick s.moment (A.repick requirement none strategy cursor) = .noRoute) :
      Step s .poll { s with resumeAt := s.clock + pollInterval, idle := s.idle + 1 }
  | redispatch {s : AttemptState} {next : Assignment} {jumps : Nat}
      {outcome : Option DispatchOutcome} {contended : Bool}
      (hway : A.Redispatches s next jumps outcome) :
      Step s (.redispatch next)
        { s.redispatch next outcome contended with jumpsUsed := s.jumpsUsed + jumps }
  | leave {s : AttemptState} {reply : AttemptReply} {outcome : Option DispatchOutcome}
      {contended : Bool} (hway : A.Leaves s reply outcome) :
      Step s (.leave reply)
        { s.leave reply outcome contended with writes := s.stores A reply ++ s.writes }
  | hangUp {s : AttemptState} {contended : Bool} (hleft : ∀ reply, s.phase ≠ .left reply)
      (hhere : s.phase ≠ .abandoned) :
      Step s .hangUp
        { s.dropGuard contended with phase := .abandoned, moves := s.moves + 1 }

/-- The request has its first selection, and nothing has been dispatched. -/
def sys : Sys AttemptState AttemptAct where
  init s :=
    s = { moment := s.moment, clock := s.clock, pending := s.pending, minted := s.minted
          selected := A.first } ∧
      ∀ id ∈ s.pending, id ∈ s.minted
  step := A.Step

end Attempt

end Aperio
