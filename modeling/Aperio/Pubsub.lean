import Aperio.Run
import Aperio.Topics

/-!
# Messages between the clients of an organization

`tunnel/pubsub.rs` of the server: subscriptions, publishing, and the queues
of QoS 1 messages that are waiting to be acknowledged. A publish looks up its
subscribers under one lock, writes to them under none and records what it
wrote under another; an acknowledgement finds out whose it is and then clears
the queue; the sweeper takes its snapshot, writes, and gives up on what is
old, each under a lock of its own. A step of `pubsubSys` is one of these
regions or one write, so connections come and go between any two.

A map is iterated in some order (`Lists`). Times are in nanoseconds, and a
send to a connection's channel succeeds or fails as it likes.
-/

namespace Aperio

/-! ## Connections and queues -/

/-- A connection, as far as messages go. -/
structure MsgHandle where
  perms : TopicPerms
  instanceGroup : Option String
  subscriptions : List String := []
deriving DecidableEq

/-- The process a connection belongs to: its own id where it names none. -/
def MsgHandle.process (handle : MsgHandle) (connectionId : String) : String :=
  handle.instanceGroup.getD connectionId

def maxFiltersPerClient : Nat := 64

def ackTimeout : Nat := 3000000000

def maxAckWait : Nat := 30000000000

def maxPendingPerProcess : Nat := 256

/-- The organization a message was published in, and the process it was
handed to. -/
abbrev PendingKey := Option String × String

/-- `TunnelMessage::Publish`. -/
structure PublishFrame where
  topic : String
  payload : Bytes
  id : String
  qos : Nat
deriving Repr, DecidableEq

structure Pending where
  id : String
  topic : String
  frame : PublishFrame
  firstSent : Nat
  lastSent : Nat
  attempts : Nat
deriving Repr, DecidableEq

/-! ## Subscribing -/

/-- One filter of a `Subscribe`: the handle after it, and the refusal. -/
def MsgHandle.subscribe (handle : MsgHandle) (topic : String) :
    MsgHandle × Option (String × String) :=
  match validateTopicFilter topic with
  | .error why => (handle, some (topic, why))
  | .ok () =>
    if !mayUseTopic handle.perms topic then
      let why :=
        if startsWith topic reservedTopicPrefix then
          "`" ++ reservedTopicPrefix ++ "` is the server's own event namespace and is not covered " ++
            "by a wildcard grant; add `" ++ reservedTopicPrefix ++
            "#` (or a narrower filter under it) to the token's topics"
        else "the token does not carry this topic; add it to the token's topics"
      (handle, some (topic, why))
    else if topic ∈ handle.subscriptions then (handle, none)
    else if maxFiltersPerClient ≤ handle.subscriptions.length then
      (handle, some (topic, "at the limit of " ++ toString maxFiltersPerClient ++ " topic filters"))
    else ({ handle with subscriptions := handle.subscriptions ++ [topic] }, none)

def MsgHandle.unsubscribe (handle : MsgHandle) (topic : String) : MsgHandle :=
  { handle with subscriptions := handle.subscriptions.filter (· != topic) }

/-- `set_subscriptions` on the connection it found. -/
def MsgHandle.setSubscriptions (handle : MsgHandle) (topics : List String) (add : Bool) :
    MsgHandle × List (String × String) :=
  topics.foldl (fun (handle, refused) topic =>
    if add then
      let (handle, refusal) := handle.subscribe topic
      (handle, refused ++ refusal.toList)
    else (handle.unsubscribe topic, refused)) (handle, [])

/-! ## Publishing -/

inductive Publisher where
  | client (id : String)
  | api (actor : String)
  | server
deriving Repr, DecidableEq

def Publisher.mayUseReserved : Publisher → Bool
  | .server => true
  | _ => false

/-- What `publish` refuses before it looks at anyone. -/
def checkPublish (topic : String) (payload : Bytes) (publisher : Publisher) :
    Except String Unit := do
  validateTopic topic
  refuseIf (startsWith topic reservedTopicPrefix && !publisher.mayUseReserved)
    ("`" ++ reservedTopicPrefix ++ "` is the server's own namespace and cannot be published into")
  refuseIf (decide (maxMessageBytes < payload.length))
    ("payload is " ++ toString payload.length ++ " bytes, over the " ++
      toString maxMessageBytes ++ "-byte limit")

structure MsgTarget where
  process : String
  connectionId : String
  handle : MsgHandle
deriving DecidableEq

/-- One connection of each subscribing process, `seen` being those that have
one. -/
def selectTargets (org : Option String) (topic : String) :
    List String → List (String × MsgHandle) → List MsgTarget
  | _, [] => []
  | seen, (connectionId, handle) :: rest =>
    if handle.perms.orgId ≠ org then selectTargets org topic seen rest
    else if !handle.subscriptions.any (topicMatches · topic) then selectTargets org topic seen rest
    else if handle.process connectionId ∈ seen then selectTargets org topic seen rest
    else
      ⟨handle.process connectionId, connectionId, handle⟩ ::
        selectTargets org topic (handle.process connectionId :: seen) rest

/-- A message at the end of its queue, the oldest one dropped at the limit. -/
def recordPending (queue : List Pending) (message : Pending) : List Pending :=
  (if maxPendingPerProcess ≤ queue.length then queue.tail else queue) ++ [message]

/-- The message in the queue of every process it was handed to. -/
def recordDelivered (org : Option String) (message : Pending) (pending : PendingKey → List Pending)
    (deliveredTo : List String) : PendingKey → List Pending :=
  deliveredTo.foldl (fun pending process =>
    Function.update pending (org, process) (recordPending (pending (org, process)) message)) pending

/-! ## Acknowledging and sweeping -/

def clearPending (queue : List Pending) (id : String) : List Pending :=
  queue.filter (·.id != id)

/-- Whether a message is sent again. -/
def Pending.due (message : Pending) (now : Nat) : Bool :=
  decide (ackTimeout ≤ now - message.lastSent)

def dueMessages (queue : List Pending) (now : Nat) : List (String × PublishFrame) :=
  (queue.filter (·.due now)).map fun message => (message.id, message.frame)

def markSent (queue : List Pending) (now : Nat) : List Pending :=
  queue.map fun message =>
    if message.due now then { message with lastSent := now, attempts := message.attempts + 1 }
    else message

/-- The connection a queue is sent to again: one of the process in that
organization, by instance or by connection id. -/
def resendTarget (clients : List (String × MsgHandle)) (key : PendingKey) :
    Option (String × MsgHandle) :=
  (clients.find? fun c => c.2.perms.orgId == key.1 && c.2.instanceGroup == some key.2).or
    (clients.find? fun c => c.1 == key.2 && c.2.perms.orgId == key.1)

def giveUpPending (queue : List Pending) (now : Nat) : List Pending :=
  queue.filter fun message => decide (now - message.firstSent < maxAckWait)

/-! ## The system -/

/-- Where a call is. `started` is the step a sweep began with. -/
inductive MsgTask where
  | sending (org : Option String) (frame : PublishFrame) (targets : List MsgTarget)
      (deliveredTo : List String)
  | stamped (org : Option String) (frame : PublishFrame) (deliveredTo : List String) (now : Nat)
  | acknowledging (key : PendingKey) (id : String)
  | sweeping (started now : Nat)
  | resending (started now : Nat) (due : List (PendingKey × List (String × PublishFrame)))
  | writing (started now : Nat) (key : PendingKey) (target : String × MsgHandle)
      (messages : List (String × PublishFrame))
      (due : List (PendingKey × List (String × PublishFrame)))

/-- A frame written to a connection. For a resend, the step its sweep started
with and the queue the message is in. -/
structure Written where
  connectionId : String
  perms : TopicPerms
  org : Option String
  id : String
  frame : PublishFrame
  resend : Option (Nat × PendingKey)

/-- The connections, the queues, the calls under way and the time. The rest
is what happened: the steps taken, when each message was first looked at,
what was recorded in each queue and when, which acknowledgements found their
message, and what was written. -/
structure MsgState where
  clients : String → Option MsgHandle := fun _ => none
  pending : PendingKey → List Pending := fun _ => []
  tasks : Nat → Option MsgTask := fun _ => none
  clock : Nat := 0
  steps : Nat := 0
  began : String → Option Nat := fun _ => none
  recorded : PendingKey → List (String × Nat) := fun _ => []
  acked : List (PendingKey × String × Nat) := []
  written : List Written := []

inductive MsgAct where
  | connect (id : String) (perms : TopicPerms) (instanceGroup : Option String)
  | disconnect (id : String)
  | setSubscriptions (id : String) (topics : List String) (add : Bool)
  | tick (elapsed : Nat)
  | publish (r : Nat) (org : Option String) (topic : String) (payload : Bytes)
      (publisher : Publisher) (qos : Nat) (id : String)
  | send (r : Nat) (ok : Bool)
  | done (r : Nat)
  | stamp (r : Nat)
  | record (r : Nat)
  | acknowledge (r : Nat) (connectionId id : String)
  | clear (r : Nat) (key : PendingKey) (id : String)
  | sweep (r : Nat)
  | snapshot (r : Nat)
  | pick (r : Nat)
  | resend (r : Nat) (ok : Bool)
  | next (r : Nat)
  | giveUp (r : Nat) (now : Nat)

/-- An order the map may be iterated in. -/
structure Lists (order : List (String × MsgHandle)) (clients : String → Option MsgHandle) : Prop where
  nodup : (order.map Prod.fst).Nodup
  mem : ∀ id handle, (id, handle) ∈ order ↔ clients id = some handle

namespace MsgState

variable (s : MsgState)

def setTask (r : Nat) (task : Option MsgTask) : MsgState :=
  { s with tasks := Function.update s.tasks r task, steps := s.steps + 1 }

@[simp] theorem setTask_pending (r : Nat) (task : Option MsgTask) :
    (s.setTask r task).pending = s.pending := rfl

def setClient (id : String) (handle : Option MsgHandle) : MsgState :=
  { s with clients := Function.update s.clients id handle, steps := s.steps + 1 }

/-- What the recording of a publish leaves behind. -/
def noteRecorded (org : Option String) (id : String) (deliveredTo : List String) :
    PendingKey → List (String × Nat) :=
  fun key => if key.1 = org ∧ key.2 ∈ deliveredTo then s.recorded key ++ [(id, s.steps)]
    else s.recorded key

/-- What an acknowledgement leaves behind, if it found its message. -/
def noteAcked (key : PendingKey) (id : String) : List (PendingKey × String × Nat) :=
  if id ∈ (s.pending key).map (·.id) then (key, id, s.steps) :: s.acked else s.acked

def noteWritten (ok : Bool) (w : Written) : List Written :=
  if ok then w :: s.written else s.written

inductive Step : MsgState → MsgAct → MsgState → Prop
  | connect {s : MsgState} (id : String) (perms : TopicPerms) (instanceGroup : Option String) :
      Step s (.connect id perms instanceGroup) (s.setClient id (some ⟨perms, instanceGroup, []⟩))
  | disconnect {s : MsgState} (id : String) : Step s (.disconnect id) (s.setClient id none)
  | setSubscriptions {s : MsgState} {id : String} {handle : MsgHandle} (topics : List String)
      (add : Bool) (h : s.clients id = some handle) :
      Step s (.setSubscriptions id topics add)
        (s.setClient id (some (handle.setSubscriptions topics add).1))
  | tick {s : MsgState} (elapsed : Nat) :
      Step s (.tick elapsed) { s with clock := s.clock + elapsed, steps := s.steps + 1 }
  -- the id is a new UUID
  | publish {s : MsgState} {r : Nat} {org : Option String} {topic : String} {payload : Bytes}
      {publisher : Publisher} {qos : Nat} {id : String} {order : List (String × MsgHandle)}
      (hfree : s.tasks r = none) (hok : checkPublish topic payload publisher = .ok ())
      (hid : s.began id = none) (horder : Lists order s.clients) :
      Step s (.publish r org topic payload publisher qos id)
        { s.setTask r (some (.sending org ⟨topic, payload, id, min qos 1⟩
            (selectTargets org topic [] order) [])) with
          began := Function.update s.began id (some s.steps) }
  | send {s : MsgState} {r : Nat} {org : Option String} {frame : PublishFrame} {target : MsgTarget}
      {targets : List MsgTarget} {deliveredTo : List String} (ok : Bool)
      (h : s.tasks r = some (.sending org frame (target :: targets) deliveredTo)) :
      Step s (.send r ok)
        { s.setTask r (some (.sending org frame targets
            (if ok then deliveredTo ++ [target.process] else deliveredTo))) with
          written := s.noteWritten ok
            ⟨target.connectionId, target.handle.perms, org, frame.id, frame, none⟩ }
  | done {s : MsgState} {r : Nat} {org : Option String} {frame : PublishFrame}
      {deliveredTo : List String} (h : s.tasks r = some (.sending org frame [] deliveredTo))
      (hqos : frame.qos = 0) : Step s (.done r) (s.setTask r none)
  | stamp {s : MsgState} {r : Nat} {org : Option String} {frame : PublishFrame}
      {deliveredTo : List String} (h : s.tasks r = some (.sending org frame [] deliveredTo))
      (hqos : 1 ≤ frame.qos) :
      Step s (.stamp r) (s.setTask r (some (.stamped org frame deliveredTo s.clock)))
  | record {s : MsgState} {r : Nat} {org : Option String} {frame : PublishFrame}
      {deliveredTo : List String} {now : Nat}
      (h : s.tasks r = some (.stamped org frame deliveredTo now)) :
      Step s (.record r)
        { s.setTask r none with
          pending := recordDelivered org ⟨frame.id, frame.topic, frame, now, now, 1⟩ s.pending
            deliveredTo
          recorded := s.noteRecorded org frame.id deliveredTo }
  | acknowledge {s : MsgState} {r : Nat} {connectionId : String} {handle : MsgHandle} (id : String)
      (hfree : s.tasks r = none) (h : s.clients connectionId = some handle) :
      Step s (.acknowledge r connectionId id)
        (s.setTask r (some (.acknowledging (handle.perms.orgId, handle.process connectionId) id)))
  | clear {s : MsgState} {r : Nat} {key : PendingKey} {id : String}
      (h : s.tasks r = some (.acknowledging key id)) :
      Step s (.clear r key id)
        { s.setTask r none with
          pending := Function.update s.pending key (clearPending (s.pending key) id)
          acked := s.noteAcked key id }
  | sweep {s : MsgState} {r : Nat} (hfree : s.tasks r = none) :
      Step s (.sweep r) (s.setTask r (some (.sweeping s.steps s.clock)))
  | snapshot {s : MsgState} {r started now : Nat} {keys : List PendingKey}
      (h : s.tasks r = some (.sweeping started now)) (hnodup : keys.Nodup)
      (hkeys : ∀ key, key ∈ keys ↔ dueMessages (s.pending key) now ≠ []) :
      Step s (.snapshot r)
        { s.setTask r (some (.resending started now
            (keys.map fun key => (key, dueMessages (s.pending key) now)))) with
          pending := fun key => markSent (s.pending key) now }
  | pick {s : MsgState} {r started now : Nat} {key : PendingKey}
      {messages : List (String × PublishFrame)}
      {due : List (PendingKey × List (String × PublishFrame))} {order : List (String × MsgHandle)}
      (h : s.tasks r = some (.resending started now ((key, messages) :: due)))
      (horder : Lists order s.clients) :
      Step s (.pick r) (s.setTask r (some
        (match resendTarget order key with
        | some target => .writing started now key target messages due
        | none => .resending started now due)))
  | resend {s : MsgState} {r started now : Nat} {key : PendingKey} {target : String × MsgHandle}
      {message : String × PublishFrame} {messages : List (String × PublishFrame)}
      {due : List (PendingKey × List (String × PublishFrame))} (ok : Bool)
      (h : s.tasks r = some (.writing started now key target (message :: messages) due)) :
      Step s (.resend r ok)
        { s.setTask r (some (.writing started now key target messages due)) with
          written := s.noteWritten ok
            ⟨target.1, target.2.perms, key.1, message.1, message.2, some (started, key)⟩ }
  | next {s : MsgState} {r started now : Nat} {key : PendingKey} {target : String × MsgHandle}
      {due : List (PendingKey × List (String × PublishFrame))}
      (h : s.tasks r = some (.writing started now key target [] due)) :
      Step s (.next r) (s.setTask r (some (.resending started now due)))
  | giveUp {s : MsgState} {r started now : Nat} (h : s.tasks r = some (.resending started now [])) :
      Step s (.giveUp r now)
        { s.setTask r none with pending := fun key => giveUpPending (s.pending key) now }

end MsgState

def pubsubSys : Sys MsgState MsgAct where
  init s := s = {}
  step := MsgState.Step

end Aperio
