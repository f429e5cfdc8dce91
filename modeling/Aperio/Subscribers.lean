import Aperio.KeyedSum
import Aperio.MessageBus
import Aperio.Pubsub
import Aperio.TopicFilters

/-!
# Local subscribers and the server's subscriptions

`messages_mqtt.rs` and `messages_http.rs` of the client: a local session holds
and releases filters of the bus, and tells the tunnel connections when the
process starts or stops asking for one. A reload of the configuration and a
connection that comes up tell them as well. Taking a hold, giving one back,
cloning the list of writers, reading the filters and each send are steps of
their own, and a session can be cancelled between any two.

The server's side is `set_subscriptions` on the connection's handle. What was
sent on a connection is read in order; what the server will hold once it has
read everything is `willHold`.

`Orderly` is what the agreement needs: whoever changes the set, or speaks of
a set that has changed since it was read, leaves no connection behind that
nobody is going to tell.
-/

namespace Aperio

/-! ## Sessions and what they say -/

/-- What a session is doing: holding the filters of a `SUBSCRIBE`, or giving
filters back, and in the second case whether it ends with that. -/
inductive SessionAt where
  | holding (rest : List String)
  | releasing (rest : List String) (ends : Bool)
deriving Repr, DecidableEq

/-- `held` are the holds the session has taken and not given back. -/
structure LocalSession where
  held : List String := []
  doing : SessionAt := .holding []
deriving Repr, DecidableEq

/-- Waiting for the next packet. -/
def LocalSession.idle (session : LocalSession) : Bool :=
  session.doing == .holding [] || session.doing == .releasing [] false

/-- Who can be telling the connections something. -/
inductive SubTask where
  | session (n : Nat)
  | reload
  | connection (conn : Nat)
deriving Repr, DecidableEq

/-- A `resubscribe_all`, a `subscribe_on` or an `unsubscribe_everywhere` under
way: before the writers were cloned, before the filters were read for the
next writer, and before the next send. -/
inductive Telling where
  | resubscribe
  | resubscribing (rest : List Writer)
  | sending (w : Writer) (topics : List String) (rest : List Writer)
  | unsubscribe (filter : String)
  | unsubscribing (filter : String) (rest : List Writer)
deriving Repr, DecidableEq

/-- The loop over the writers, which ends with the last one. -/
def Telling.toAll : List Writer → Option Telling
  | [] => none
  | w :: rest => some (.resubscribing (w :: rest))

def Telling.toAllOf (filter : String) : List Writer → Option Telling
  | [] => none
  | w :: rest => some (.unsubscribing filter (w :: rest))

/-- `Subscribe`, or `Unsubscribe`. -/
structure SubMessage where
  topics : List String
  add : Bool
deriving Repr, DecidableEq

/-- Connections are numbered as in the bus. `queues` is what was sent on each
and not yet read by the server, `handles` what the server has of it. -/
structure SubState where
  bus : BusState := {}
  filters : List TopicFilter
  sessions : AList fun _ : Nat => LocalSession := ∅
  tells : SubTask → Option Telling := fun _ => none
  queues : Nat → List SubMessage := fun _ => []
  handles : Nat → MsgHandle

inductive SubAct where
  | bus (a : BusAct)
  | accept (n : Nat)
  /-- A packet, or the request of an event stream. -/
  | subscribe (n : Nat) (topics : List String)
  | unsubscribe (n : Nat) (topics : List String)
  /-- The peer is gone, or the packet is no packet. -/
  | finish (n : Nat)
  /-- The next hold or release. -/
  | next (n : Nat)
  | close (n : Nat)
  | cancel (n : Nat)
  | reload (topics : List String)
  | clone (task : SubTask)
  | read (task : SubTask)
  | send (task : SubTask)
  /-- The server reads one message of a connection. -/
  | serve (conn : Nat)

namespace SubState

variable (s : SubState)

def tell (task : SubTask) (telling : Option Telling) : SubState :=
  { s with tells := Function.update s.tells task telling }

def setSession (n : Nat) (session : LocalSession) : SubState :=
  { s with sessions := s.sessions.insert n session }

def enqueue (conn : Nat) (message : SubMessage) : SubState :=
  { s with queues := Function.update s.queues conn (s.queues conn ++ [message]) }

/-- A session that waits for a packet, and has nothing left to say. -/
def whenIdle (n : Nat) (next : LocalSession → SessionAt) : Option SubState :=
  match s.sessions.lookup n, s.tells (.session n) with
  | some session, none =>
    if session.idle then some (s.setSession n { session with doing := next session }) else none
  | _, _ => none

/-- A hold or a release, and what it makes the session say. -/
def advance (n : Nat) (session : LocalSession) : Option SubState :=
  match session.doing with
  | .holding (filter :: rest) =>
    if filter ∈ session.held then some (s.setSession n { session with doing := .holding rest })
    else
      let s' := { s.setSession n ⟨session.held ++ [filter], .holding rest⟩ with
        filters := (holdFilter s.filters filter).2 }
      some (if (holdFilter s.filters filter).1 then s'.tell (.session n) (some .resubscribe)
        else s')
  | .releasing (filter :: rest) ends =>
    let s' := { s.setSession n ⟨session.held.erase filter, .releasing rest ends⟩ with
      filters := (releaseFilter s.filters filter).2 }
    some (if (releaseFilter s.filters filter).1 then
        s'.tell (.session n) (some (.unsubscribe filter))
      else s')
  | _ => none

def act : SubAct → Option SubState
  | .bus _ => none
  | .accept n =>
    match s.sessions.lookup n with
    | some _ => none
    | none => some (s.setSession n {})
  | .subscribe n topics =>
    s.whenIdle n fun _ => .holding (topics.filter fun f => (validateTopicFilter f).isOk)
  | .unsubscribe n topics =>
    s.whenIdle n fun session => .releasing (session.held.filter (· ∈ topics)) false
  | .finish n => s.whenIdle n fun session => .releasing session.held true
  | .next n =>
    match s.sessions.lookup n, s.tells (.session n) with
    | some session, none => s.advance n session
    | _, _ => none
  | .close n =>
    match s.sessions.lookup n, s.tells (.session n) with
    | some session, none =>
      if session.doing = .releasing [] true then some { s with sessions := s.sessions.erase n }
      else none
    | _, _ => none
  | .cancel n =>
    match s.sessions.lookup n with
    | none => none
    | some _ => some { s.tell (.session n) none with sessions := s.sessions.erase n }
  | .reload topics =>
    match s.tells .reload with
    | some _ => none
    | none =>
      let s' := { s with filters := (setFilters s.filters topics).2 }
      some (if (setFilters s.filters topics).1 then s'.tell .reload (some .resubscribe) else s')
  | .clone task =>
    match s.tells task with
    | some .resubscribe => some (s.tell task (Telling.toAll s.bus.writers))
    | some (.unsubscribe filter) => some (s.tell task (Telling.toAllOf filter s.bus.writers))
    | _ => none
  | .read task =>
    match s.tells task with
    | some (.resubscribing (w :: rest)) =>
      some (s.tell task (if patterns s.filters = [] then Telling.toAll rest
        else some (.sending w (patterns s.filters) rest)))
    | _ => none
  | .send task =>
    match s.tells task with
    | some (.sending w topics rest) =>
      some ((s.tell task (Telling.toAll rest)).enqueue w.2 ⟨topics, true⟩)
    | some (.unsubscribing filter (w :: rest)) =>
      some ((s.tell task (Telling.toAllOf filter rest)).enqueue w.2 ⟨[filter], false⟩)
    | _ => none
  | .serve conn =>
    match s.queues conn with
    | [] => none
    | message :: rest => some { s with
        queues := Function.update s.queues conn rest
        handles := Function.update s.handles conn
          ((s.handles conn).setSubscriptions message.topics message.add).1 }

end SubState

/-- The task that attaches a writer goes on to subscribe on it. -/
def SubState.onBus (s : SubState) (a : BusAct) (bus : BusState) : SubState :=
  match a with
  | .attach w => { s.tell (.connection w.2) (some (.resubscribing [w])) with bus := bus }
  | _ => { s with bus := bus }

inductive SubStep : SubState → SubAct → SubState → Prop
  | bus {s : SubState} {a : BusAct} {bus : BusState} (h : BusStep s.bus a bus) :
      SubStep s (.bus a) (s.onBus a bus)
  | act {s s' : SubState} {a : SubAct} (h : s.act a = some s') : SubStep s a s'

/-- A process that starts with a configuration, and a server that knows no
subscription of it. -/
def subscriberSys : Sys SubState SubAct where
  init s := ∃ topics handles, s = { filters := configured topics, handles := handles } ∧
    ∀ conn, (handles conn).subscriptions = []
  step := SubStep

/-! ## Agreement -/

namespace SubState

variable (s : SubState)

/-- The live local subscriptions on a filter. -/
def liveOn (filter : String) : Nat :=
  sumOver (fun _ session => session.held.count filter) s.sessions

/-- The server holds the filter on the connection once it has read what was
sent. -/
def willHold (conn : Nat) (filter : String) : Bool :=
  (s.queues conn).foldl (fun held message => if filter ∈ message.topics then message.add else held)
    (decide (filter ∈ (s.handles conn).subscriptions))

/-- Nobody has anything left to say, and everything said has been read. -/
def Settled : Prop :=
  s.bus.pending = [] ∧ (∀ task, s.tells task = none) ∧ ∀ conn, s.bus.Live conn → s.queues conn = []

structure Agrees : Prop where
  holders : ∀ filter, holdersOf s.filters filter = s.liveOn filter
  subscribed : s.Settled → ∀ conn, s.bus.Live conn → ∀ filter,
    filter ∈ (s.handles conn).subscriptions ↔ filter ∈ patterns s.filters

end SubState

/-! ## What is owed -/

/-- The connections that will still be told. -/
def Telling.targets (writers : List Writer) : Telling → List Nat
  | .resubscribe => writers.map Prod.snd
  | .resubscribing rest => rest.map Prod.snd
  | .sending w _ rest => w.2 :: rest.map Prod.snd
  | .unsubscribe _ => writers.map Prod.snd
  | .unsubscribing _ rest => rest.map Prod.snd

/-- The connection will be told that the process asks for the filter, if it
still does when the filters are read. -/
def Telling.owesOn (writers : List Writer) (conn : Nat) (filter : String) : Telling → Prop
  | .resubscribe => conn ∈ writers.map Prod.snd
  | .resubscribing rest => conn ∈ rest.map Prod.snd
  | .sending w topics rest => w.2 = conn ∧ filter ∈ topics ∨ conn ∈ rest.map Prod.snd
  | _ => False

/-- The connection will be told that the process gave the filter up. -/
def Telling.owesOff (writers : List Writer) (conn : Nat) (filter : String) : Telling → Prop
  | .unsubscribe f => f = filter ∧ conn ∈ writers.map Prod.snd
  | .unsubscribing f rest => f = filter ∧ conn ∈ rest.map Prod.snd
  | _ => False

namespace SubState

variable (s : SubState)

def owedOn (conn : Nat) (filter : String) : Prop :=
  conn ∈ s.bus.pending.map Prod.snd ∨
    ∃ task telling, s.tells task = some telling ∧ telling.owesOn s.bus.writers conn filter

def owedOff (conn : Nat) (filter : String) : Prop :=
  ∃ task telling, s.tells task = some telling ∧ telling.owesOff s.bus.writers conn filter

/-- What the steps of a run must meet.

A session is cancelled only while it holds nothing and has no live connection
left to tell. A reload drops a filter only where no live connection has it,
or somebody is about to take it off. A send that speaks of a filter the other
way than the process now has it leaves somebody behind who will put that
right. Neither `attach` nor `detach` takes the writer of a live connection.
And the server refuses no filter. -/
def Orderly (s : SubState) (a : SubAct) (_ : SubState) : Prop :=
  match a with
  | .bus (.attach w) => ∀ conn, (w.1, conn) ∈ s.bus.writers → ¬s.bus.Live conn
  | .bus (.detach r) => ∀ run, s.bus.runs r = some run →
      ∀ conn, (run.clientId, conn) ∈ s.bus.writers → ¬s.bus.Live conn
  | .cancel n => (∀ session, s.sessions.lookup n = some session → session.held = []) ∧
      ∀ telling, s.tells (.session n) = some telling →
        ∀ conn ∈ telling.targets s.bus.writers, ¬s.bus.Live conn
  | .reload topics => ∀ filter ∈ patterns s.filters,
      filter ∉ patterns (setFilters s.filters topics).2 →
        ∀ conn, s.bus.Live conn → s.willHold conn filter = false ∨ s.owedOff conn filter
  | .send task =>
    match s.tells task with
    | some (.sending w topics _) => s.bus.Live w.2 →
        ∀ filter ∈ topics, filter ∈ patterns s.filters ∨ s.owedOff w.2 filter
    | some (.unsubscribing filter (w :: _)) => s.bus.Live w.2 →
        filter ∉ patterns s.filters ∨ s.owedOn w.2 filter
    | _ => True
  | .serve conn => ∀ message rest, s.queues conn = message :: rest →
      ((s.handles conn).setSubscriptions message.topics message.add).2 = []
  | _ => True

end SubState

/-! ## What the server holds -/

namespace MsgHandle

variable {handle : MsgHandle} {topic filter : String} {topics : List String}

theorem mem_subscribe (h : (handle.subscribe topic).2 = none) :
    filter ∈ (handle.subscribe topic).1.subscriptions ↔
      filter ∈ handle.subscriptions ∨ filter = topic := by
  cases hvalid : validateTopicFilter topic with
  | error why => simp [subscribe, hvalid] at h
  | ok =>
      simp only [subscribe, hvalid] at h ⊢
      by_cases hmay : (!mayUseTopic handle.perms topic) = true
      · simp [hmay] at h
      · rw [if_neg hmay] at h ⊢
        by_cases hin : topic ∈ handle.subscriptions
        · rw [if_pos hin]
          constructor
          · exact Or.inl
          · rintro (hold | rfl)
            · exact hold
            · exact hin
        · rw [if_neg hin] at h ⊢
          by_cases hfull : maxFiltersPerClient ≤ handle.subscriptions.length
          · simp [hfull] at h
          · rw [if_neg hfull]
            simp

theorem mem_unsubscribe : filter ∈ (handle.unsubscribe topic).subscriptions ↔
    filter ∈ handle.subscriptions ∧ filter ≠ topic := by
  simp [unsubscribe]

/-- Where nothing is refused, an `Unsubscribe` takes its topics away and a
`Subscribe` adds its own. -/
theorem mem_setSubscriptions {add : Bool} (h : (handle.setSubscriptions topics add).2 = []) :
    filter ∈ (handle.setSubscriptions topics add).1.subscriptions ↔
      if filter ∈ topics then add = true else filter ∈ handle.subscriptions := by
  -- the refusals are collected on the way, so every one of them was none
  suffices hfold : ∀ refused, (topics.foldl (fun (p : MsgHandle × List (String × String)) topic =>
      if add then ((p.1.subscribe topic).1, p.2 ++ (p.1.subscribe topic).2.toList)
      else (p.1.unsubscribe topic, p.2)) (handle, refused)).2 = [] →
      refused = [] ∧
        (filter ∈ (topics.foldl (fun (p : MsgHandle × List (String × String)) topic =>
          if add then ((p.1.subscribe topic).1, p.2 ++ (p.1.subscribe topic).2.toList)
          else (p.1.unsubscribe topic, p.2)) (handle, refused)).1.subscriptions ↔
          if filter ∈ topics then add = true else filter ∈ handle.subscriptions) from
    (hfold [] h).2
  clear h
  intro refused hrefused
  induction topics generalizing handle refused with
  | nil => exact ⟨hrefused, by simp⟩
  | cons topic topics ih =>
      rw [List.foldl_cons] at hrefused ⊢
      cases add with
      | true =>
          simp only [if_true] at hrefused ⊢ ih
          obtain ⟨hnone, hmem⟩ := ih _ hrefused
          obtain ⟨hprev, hone⟩ := List.append_eq_nil_iff.mp hnone
          refine ⟨hprev, ?_⟩
          rw [hmem, mem_subscribe (by simpa using hone)]
          by_cases hin : filter ∈ topics
          · simp [hin]
          · by_cases heq : filter = topic
            · simp [heq]
            · simp [hin, heq]
      | false =>
          simp only [Bool.false_eq_true, if_false] at hrefused ⊢ ih
          obtain ⟨hnone, hmem⟩ := ih _ hrefused
          refine ⟨hnone, ?_⟩
          rw [hmem, mem_unsubscribe]
          by_cases hin : filter ∈ topics
          · simp [hin]
          · by_cases heq : filter = topic
            · simp [heq]
            · simp [hin, heq]

end MsgHandle

namespace SubState

variable {s s' : SubState} {conn other : Nat} {filter : String} {task : SubTask}
  {message : SubMessage} {told : Option Telling} {telling : Telling}

theorem willHold_enqueue_self :
    (s.enqueue conn message).willHold conn filter =
      if filter ∈ message.topics then message.add else s.willHold conn filter := by
  rw [willHold, enqueue]
  simp only [Function.update_self, List.foldl_append, List.foldl_cons, List.foldl_nil]
  rfl

theorem willHold_enqueue_other (h : other ≠ conn) :
    (s.enqueue conn message).willHold other filter = s.willHold other filter := by
  rw [willHold, enqueue]
  simp only [Function.update_of_ne h]
  rfl

/-- Reading a message changes nothing about what will be held. -/
theorem willHold_serve {rest : List SubMessage} (hqueue : s.queues conn = message :: rest)
    (hnone : ((s.handles conn).setSubscriptions message.topics message.add).2 = []) (other : Nat)
    (filter : String) :
    ({ s with
      queues := Function.update s.queues conn rest
      handles := Function.update s.handles conn
        ((s.handles conn).setSubscriptions message.topics message.add).1 } : SubState).willHold
        other filter = s.willHold other filter := by
  by_cases h : other = conn
  · subst h
    have hread : decide (filter ∈ ((s.handles other).setSubscriptions message.topics
        message.add).1.subscriptions) =
          if filter ∈ message.topics then message.add
          else decide (filter ∈ (s.handles other).subscriptions) := by
      rw [Bool.eq_iff_iff, decide_eq_true_eq, MsgHandle.mem_setSubscriptions hnone]
      split
      · exact Iff.rfl
      · exact decide_eq_true_iff.symm
    simp only [willHold, Function.update_self, hqueue, List.foldl_cons, hread]
  · simp only [willHold, Function.update_of_ne h]

end SubState

/-- What a session gives back it has, and one that ends gives back all. -/
def LocalSession.Ok (session : LocalSession) : Prop :=
  session.held.Nodup ∧
    match session.doing with
    | .holding _ => True
    | .releasing rest ends => rest.Nodup ∧ (∀ filter ∈ rest, filter ∈ session.held) ∧
      (ends = true → ∀ filter ∈ session.held, filter ∈ rest)

/-! ## What is still owed after a step -/

namespace Telling

variable {telling : Telling} {writers writers' rest : List Writer} {conn : Nat}
  {filter f : String}

theorem owesOn.mono (h : telling.owesOn writers conn filter)
    (hwriters : conn ∈ writers.map Prod.snd → conn ∈ writers'.map Prod.snd) :
    telling.owesOn writers' conn filter := by
  cases telling with
  | resubscribe => exact hwriters h
  | resubscribing => exact h
  | sending => exact h
  | unsubscribe => exact h
  | unsubscribing => exact h

theorem owesOff.mono (h : telling.owesOff writers conn filter)
    (hwriters : conn ∈ writers.map Prod.snd → conn ∈ writers'.map Prod.snd) :
    telling.owesOff writers' conn filter := by
  cases telling with
  | resubscribe => exact h
  | resubscribing => exact h
  | sending => exact h
  | unsubscribe => exact ⟨h.1, hwriters h.2⟩
  | unsubscribing => exact h

theorem owesOn.mem_targets (h : telling.owesOn writers conn filter) :
    conn ∈ telling.targets writers := by
  cases telling with
  | resubscribe => exact h
  | resubscribing => exact h
  | sending w topics rest =>
      rcases h with ⟨rfl, -⟩ | h
      · exact List.mem_cons_self
      · exact List.mem_cons_of_mem _ h
  | unsubscribe => exact h.elim
  | unsubscribing => exact h.elim

theorem owesOff.mem_targets (h : telling.owesOff writers conn filter) :
    conn ∈ telling.targets writers := by
  cases telling with
  | resubscribe => exact h.elim
  | resubscribing => exact h.elim
  | sending => exact h.elim
  | unsubscribe => exact h.2
  | unsubscribing => exact h.2

theorem toAll_owesOn (h : conn ∈ rest.map Prod.snd) :
    ∃ telling, toAll rest = some telling ∧ telling.owesOn writers conn filter := by
  cases rest with
  | nil => cases h
  | cons w rest => exact ⟨_, rfl, h⟩

theorem toAllOf_owesOff (h : conn ∈ rest.map Prod.snd) :
    ∃ telling, toAllOf filter rest = some telling ∧ telling.owesOff writers conn filter := by
  cases rest with
  | nil => cases h
  | cons w rest => exact ⟨_, rfl, rfl, h⟩

/-- What a loop still has to tell is in its list. -/
theorem targets_toAll (h : toAll rest = some telling) : telling.targets [] = rest.map Prod.snd := by
  cases rest with
  | nil => cases h
  | cons w rest =>
      obtain rfl := Option.some.inj h
      rfl

theorem targets_toAllOf (h : toAllOf f rest = some telling) :
    telling.targets [] = rest.map Prod.snd := by
  cases rest with
  | nil => cases h
  | cons w rest =>
      obtain rfl := Option.some.inj h
      rfl

end Telling

namespace SubState

variable {s s' : SubState} {conn other : Nat} {filter : String} {task : SubTask}
  {message : SubMessage} {told new : Option Telling} {telling : Telling}

@[simp] theorem tell_self : (s.tell task new).tells task = new :=
  Function.update_self ..

theorem tell_other {t : SubTask} (h : t ≠ task) : (s.tell task new).tells t = s.tells t :=
  Function.update_of_ne h ..

theorem owedOn_tell (h : s.owedOn conn filter)
    (hkept : ∀ old, s.tells task = some old → old.owesOn s.bus.writers conn filter →
      ∃ telling, new = some telling ∧ telling.owesOn s.bus.writers conn filter) :
    (s.tell task new).owedOn conn filter := by
  rcases h with hpending | ⟨t, telling, htells, howes⟩
  · exact Or.inl hpending
  · by_cases ht : t = task
    · subst ht
      obtain ⟨telling', hnew, howes'⟩ := hkept telling htells howes
      refine Or.inr ⟨t, telling', ?_, howes'⟩
      rw [tell_self, hnew]
    · refine Or.inr ⟨t, telling, ?_, howes⟩
      rw [tell_other ht, htells]

theorem owedOff_tell (h : s.owedOff conn filter)
    (hkept : ∀ old, s.tells task = some old → old.owesOff s.bus.writers conn filter →
      ∃ telling, new = some telling ∧ telling.owesOff s.bus.writers conn filter) :
    (s.tell task new).owedOff conn filter := by
  obtain ⟨t, telling, htells, howes⟩ := h
  by_cases ht : t = task
  · subst ht
    obtain ⟨telling', hnew, howes'⟩ := hkept telling htells howes
    refine ⟨t, telling', ?_, howes'⟩
    rw [tell_self, hnew]
  · refine ⟨t, telling, ?_, howes⟩
    rw [tell_other ht, htells]

/-- The connection has the filter, or does not, as the process asks for it or
not, once everybody who is about to say so has said it. -/
def Covered (s : SubState) (conn : Nat) (filter : String) : Prop :=
  (filter ∈ patterns s.filters → s.willHold conn filter = true ∨ s.owedOn conn filter) ∧
    (filter ∉ patterns s.filters → s.willHold conn filter = false ∨ s.owedOff conn filter)

theorem Covered.keep (h : s.Covered conn filter)
    (hfilters : filter ∈ patterns s'.filters ↔ filter ∈ patterns s.filters)
    (hwill : s'.willHold conn filter = s.willHold conn filter)
    (hon : filter ∈ patterns s.filters → s.owedOn conn filter → s'.owedOn conn filter)
    (hoff : s.owedOff conn filter → s'.owedOff conn filter) : s'.Covered conn filter := by
  constructor
  · intro hwanted
    rw [hwill]
    exact (h.1 (hfilters.mp hwanted)).imp_right (hon (hfilters.mp hwanted))
  · intro hnot
    rw [hwill]
    exact (h.2 (fun hin => hnot (hfilters.mpr hin))).imp_right hoff

/-- Nothing was ever said to the connection. -/
structure Untouched (s : SubState) (conn : Nat) : Prop where
  queue : s.queues conn = []
  handle : (s.handles conn).subscriptions = []
  writer : conn ∉ s.bus.writers.map Prod.snd
  told : ∀ task telling, s.tells task = some telling → conn ∉ telling.targets []

theorem Untouched.willHold (h : s.Untouched conn) : s.willHold conn filter = false := by
  simp [SubState.willHold, h.queue, h.handle]

/-- What every orderly run keeps. -/
structure Kept (s : SubState) : Prop where
  tidy : Tidy s.filters
  holders : ∀ filter, holdersOf s.filters filter = s.liveOn filter
  sessions : ∀ n session, s.sessions.lookup n = some session → session.Ok
  registered : ∀ conn, s.bus.Live conn →
    conn ∈ s.bus.pending.map Prod.snd ∨ conn ∈ s.bus.writers.map Prod.snd
  numbered : ∀ conn ∈ s.bus.pending.map Prod.snd, conn < s.bus.next
  once : (s.bus.pending.map Prod.snd).Nodup
  fresh : ∀ conn, conn ∈ s.bus.pending.map Prod.snd ∨ s.bus.next ≤ conn → s.Untouched conn
  own : ∀ conn telling, s.tells (.connection conn) = some telling →
    ∃ w : Writer, w.2 = conn ∧
      (telling = .resubscribing [w] ∨ ∃ topics, telling = .sending w topics [])
  covered : ∀ conn, s.bus.Live conn → ∀ filter, s.Covered conn filter

/-! ## Sessions -/

theorem liveOn_setSession {n : Nat} {session new : LocalSession}
    (h : s.sessions.lookup n = some session) (filter : String) :
    (s.setSession n new).liveOn filter + session.held.count filter =
      s.liveOn filter + new.held.count filter := by
  rw [liveOn, setSession, sumOver_insert, liveOn, sumOver_of_lookup _ h]
  omega

theorem liveOn_accept {n : Nat} (h : s.sessions.lookup n = none) (filter : String) :
    (s.setSession n {}).liveOn filter = s.liveOn filter := by
  rw [liveOn, setSession, sumOver_insert, erase_of_lookup_eq_none h]
  exact Nat.zero_add _

theorem sessions_setSession {n : Nat} {new : LocalSession} (h : s.Kept) (hnew : new.Ok) :
    ∀ m session, (s.setSession n new).sessions.lookup m = some session → session.Ok := by
  intro m session hm
  by_cases hmn : m = n
  · subst hmn
    rw [setSession, AList.lookup_insert] at hm
    obtain rfl := Option.some.inj hm
    exact hnew
  · rw [setSession, AList.lookup_insert_ne hmn] at hm
    exact h.sessions m session hm

theorem sessions_erase {n : Nat} (h : s.Kept) :
    ∀ m session, (s.sessions.erase n).lookup m = some session → session.Ok := by
  intro m session hm
  by_cases hmn : m = n
  · subst hmn
    rw [AList.lookup_erase] at hm
    cases hm
  · rw [AList.lookup_erase_ne hmn] at hm
    exact h.sessions m session hm

/-- A session that holds nothing goes without a change to the count. -/
theorem liveOn_erase {n : Nat} {session : LocalSession} (h : s.sessions.lookup n = some session)
    (hheld : session.held = []) (filter : String) :
    sumOver (fun _ session => session.held.count filter) (s.sessions.erase n) =
      s.liveOn filter := by
  rw [liveOn, sumOver_of_lookup _ h, hheld]
  exact (Nat.zero_add _).symm

/-! ## Steps that leave the connections alone -/

theorem Untouched.tell (h : s.Untouched conn)
    (hnew : ∀ telling, new = some telling → conn ∉ telling.targets []) :
    (s.tell task new).Untouched conn := by
  refine ⟨h.queue, h.handle, h.writer, ?_⟩
  intro t telling ht
  by_cases heq : t = task
  · subst heq
    rw [tell_self] at ht
    exact hnew telling ht
  · rw [tell_other heq] at ht
    exact h.told t telling ht

/-- **Frame rule.** A step that leaves the bus alone. -/
theorem Kept.of_same_bus (h : s.Kept) (hbus : s'.bus = s.bus) (htidy : Tidy s'.filters)
    (hholders : ∀ filter, holdersOf s'.filters filter = s'.liveOn filter)
    (hsessions : ∀ n session, s'.sessions.lookup n = some session → session.Ok)
    (hfresh : ∀ conn, s.Untouched conn → s'.Untouched conn)
    (hown : ∀ conn telling, s'.tells (.connection conn) = some telling →
      ∃ w : Writer, w.2 = conn ∧
        (telling = .resubscribing [w] ∨ ∃ topics, telling = .sending w topics []))
    (hcovered : ∀ conn, s.bus.Live conn → ∀ filter, s'.Covered conn filter) : s'.Kept where
  tidy := htidy
  holders := hholders
  sessions := hsessions
  registered := by
    rw [hbus]
    exact h.registered
  numbered := by
    rw [hbus]
    exact h.numbered
  once := by
    rw [hbus]
    exact h.once
  fresh := by
    rw [hbus]
    exact fun conn hconn => hfresh conn (h.fresh conn hconn)
  own := hown
  covered := by
    rw [hbus]
    exact hcovered

/-- A session moves without taking a hold or giving one back. -/
theorem Kept.session (h : s.Kept) {n : Nat} {session : LocalSession}
    (hlookup : s.sessions.lookup n = some session) {doing : SessionAt}
    (hok : ({ session with doing := doing } : LocalSession).Ok) :
    (s.setSession n { session with doing := doing }).Kept := by
  refine h.of_same_bus rfl h.tidy ?_ (sessions_setSession h hok) ?_ h.own h.covered
  · intro filter
    have hlive := @liveOn_setSession _ _ _ { session with doing := doing } hlookup filter
    rw [show (s.setSession n _).filters = s.filters from rfl, h.holders]
    simp only at hlive
    omega
  · exact fun conn hconn => ⟨hconn.queue, hconn.handle, hconn.writer, hconn.told⟩

theorem Kept.accept (h : s.Kept) {n : Nat} (hlookup : s.sessions.lookup n = none) :
    (s.setSession n {}).Kept := by
  have hok : ({} : LocalSession).Ok := ⟨List.nodup_nil, trivial⟩
  refine h.of_same_bus rfl h.tidy ?_ (sessions_setSession h hok) ?_ h.own h.covered
  · intro filter
    rw [liveOn_accept hlookup]
    exact h.holders filter
  · exact fun conn hconn => ⟨hconn.queue, hconn.handle, hconn.writer, hconn.told⟩

theorem Kept.whenIdle (h : s.Kept) {n : Nat} {doing : LocalSession → SessionAt}
    (hstep : s.whenIdle n doing = some s')
    (hok : ∀ session : LocalSession, session.Ok →
      ({ session with doing := doing session } : LocalSession).Ok) :
    s'.Kept := by
  unfold SubState.whenIdle at hstep
  split at hstep
  · rename_i session hlookup _
    split at hstep
    · obtain rfl := Option.some.inj hstep
      exact h.session hlookup (hok session (h.sessions n session hlookup))
    · cases hstep
  · cases hstep

theorem Kept.close (h : s.Kept) {n : Nat} {session : LocalSession}
    (hlookup : s.sessions.lookup n = some session) (hheld : session.held = []) :
    ({ s with sessions := s.sessions.erase n } : SubState).Kept := by
  refine h.of_same_bus rfl h.tidy ?_ (sessions_erase h) ?_ h.own h.covered
  · intro filter
    exact (h.holders filter).trans (liveOn_erase hlookup hheld filter).symm
  · exact fun conn hconn => ⟨hconn.queue, hconn.handle, hconn.writer, hconn.told⟩

/-! ## A new set of filters -/

/-- The process asks for the same filters as before, whoever holds them. -/
theorem Kept.same (h : s.Kept) {sessions : AList fun _ : Nat => LocalSession}
    {filters : List TopicFilter} (htidy : Tidy filters)
    (hholders : ∀ filter, holdersOf filters filter =
      ({ s with sessions := sessions, filters := filters } : SubState).liveOn filter)
    (hsessions : ∀ n session, sessions.lookup n = some session → session.Ok)
    (hsame : ∀ filter, filter ∈ patterns filters ↔ filter ∈ patterns s.filters) :
    ({ s with sessions := sessions, filters := filters } : SubState).Kept := by
  refine h.of_same_bus rfl htidy hholders hsessions ?_ h.own ?_
  · exact fun conn hconn => ⟨hconn.queue, hconn.handle, hconn.writer, hconn.told⟩
  · intro conn hlive filter
    exact (h.covered conn hlive filter).keep (hsame filter) rfl (fun _ => id) id

/-- The process asks for other filters than before, and somebody who had
nothing to say is about to say so. -/
theorem Kept.say (h : s.Kept) {sessions : AList fun _ : Nat => LocalSession}
    {filters : List TopicFilter} (htidy : Tidy filters)
    (hholders : ∀ filter, holdersOf filters filter =
      ({ s with sessions := sessions, filters := filters } : SubState).liveOn filter)
    (hsessions : ∀ n session, sessions.lookup n = some session → session.Ok)
    (hsilent : s.tells task = none) (htask : ∀ conn, task ≠ .connection conn)
    (htargets : telling.targets [] = [])
    (hon : ∀ filter ∈ patterns filters, filter ∉ patterns s.filters →
      ∀ conn ∈ s.bus.writers.map Prod.snd, telling.owesOn s.bus.writers conn filter)
    (hoff : ∀ filter ∈ patterns s.filters, filter ∉ patterns filters → ∀ conn, s.bus.Live conn →
      (conn ∈ s.bus.writers.map Prod.snd → telling.owesOff s.bus.writers conn filter) ∨
        s.willHold conn filter = false ∨ s.owedOff conn filter) :
    (SubState.tell { s with sessions := sessions, filters := filters } task
      (some telling)).Kept := by
  -- nobody else has less to say than before
  have howedOn : ∀ {conn filter}, s.owedOn conn filter →
      (SubState.tell { s with sessions := sessions, filters := filters } task
        (some telling)).owedOn conn filter := fun howed =>
    owedOn_tell (s := { s with sessions := sessions, filters := filters }) howed
      fun old hold => by cases hsilent.symm.trans hold
  have howedOff : ∀ {conn filter}, s.owedOff conn filter →
      (SubState.tell { s with sessions := sessions, filters := filters } task
        (some telling)).owedOff conn filter := fun howed =>
    owedOff_tell (s := { s with sessions := sessions, filters := filters }) howed
      fun old hold => by cases hsilent.symm.trans hold
  refine h.of_same_bus rfl htidy hholders hsessions ?_ ?_ ?_
  · intro conn hconn
    refine Untouched.tell (s := { s with sessions := sessions, filters := filters })
      ⟨hconn.queue, hconn.handle, hconn.writer, hconn.told⟩ ?_
    intro t ht
    obtain rfl := Option.some.inj ht
    rw [htargets]
    exact List.not_mem_nil
  · intro conn t ht
    rw [tell_other (Ne.symm (htask conn))] at ht
    exact h.own conn t ht
  · intro conn hlive filter
    constructor
    · intro hwanted
      by_cases hbefore : filter ∈ patterns s.filters
      · exact ((h.covered conn hlive filter).1 hbefore).imp_right howedOn
      · rcases h.registered conn hlive with hpending | hwriter
        · exact Or.inr (Or.inl hpending)
        · exact Or.inr (Or.inr ⟨task, telling, tell_self, hon filter hwanted hbefore conn hwriter⟩)
    · intro hnot
      by_cases hbefore : filter ∈ patterns s.filters
      · rcases hoff filter hbefore hnot conn hlive with hsaid | hwill | howed
        · rcases h.registered conn hlive with hpending | hwriter
          · exact Or.inl (h.fresh conn (Or.inl hpending)).willHold
          · exact Or.inr ⟨task, telling, tell_self, hsaid hwriter⟩
        · exact Or.inl hwill
        · exact Or.inr (howedOff howed)
      · exact ((h.covered conn hlive filter).2 hbefore).imp_right howedOff

/-- A session takes a hold: the process asks for the filter from now on. -/
theorem Kept.hold (h : s.Kept) {n : Nat} {session : LocalSession} {rest : List String}
    (hlookup : s.sessions.lookup n = some session) (hsilent : s.tells (.session n) = none)
    (hnew : filter ∉ session.held) :
    (if (holdFilter s.filters filter).1 then
      SubState.tell { s.setSession n ⟨session.held ++ [filter], .holding rest⟩ with
        filters := (holdFilter s.filters filter).2 } (.session n) (some .resubscribe)
    else { s.setSession n ⟨session.held ++ [filter], .holding rest⟩ with
      filters := (holdFilter s.filters filter).2 }).Kept := by
  have hok : (⟨session.held ++ [filter], .holding rest⟩ : LocalSession).Ok := by
    refine ⟨?_, trivial⟩
    rw [← List.concat_eq_append]
    exact (h.sessions n session hlookup).1.concat hnew
  have hsessions := sessions_setSession (n := n) h hok
  have hholders : ∀ f, holdersOf (holdFilter s.filters filter).2 f =
      (s.setSession n ⟨session.held ++ [filter], .holding rest⟩).liveOn f := by
    intro f
    have hlive := @liveOn_setSession _ _ _ ⟨session.held ++ [filter], .holding rest⟩ hlookup f
    rw [holdersOf_holdFilter, h.holders]
    simp only [List.count_append, List.count_singleton, beq_iff_eq] at hlive
    by_cases hf : f = filter
    · simp only [hf, if_true] at hlive ⊢
      omega
    · simp only [Ne.symm hf, hf, if_false] at hlive ⊢
      omega
  split
  · refine h.say h.tidy.holdFilter hholders hsessions hsilent (by simp) rfl ?_ ?_
    · exact fun _ _ _ conn hconn => hconn
    · intro f hbefore hnot
      exact absurd (patterns_holdFilter.mpr (Or.inl hbefore)) hnot
  · rename_i hknown
    rw [holdFilter_new, not_not] at hknown
    refine h.same h.tidy.holdFilter hholders hsessions fun f => ?_
    rw [patterns_holdFilter]
    constructor
    · rintro (hf | rfl)
      · exact hf
      · exact hknown
    · exact Or.inl

/-- A session gives a hold back, perhaps the last one. -/
theorem Kept.release (h : s.Kept) {n : Nat} {session : LocalSession} {rest : List String}
    {ends : Bool} (hlookup : s.sessions.lookup n = some session)
    (hsilent : s.tells (.session n) = none)
    (hdoing : session.doing = .releasing (filter :: rest) ends) :
    (if (releaseFilter s.filters filter).1 then
      SubState.tell { s.setSession n ⟨session.held.erase filter, .releasing rest ends⟩ with
        filters := (releaseFilter s.filters filter).2 } (.session n) (some (.unsubscribe filter))
    else { s.setSession n ⟨session.held.erase filter, .releasing rest ends⟩ with
      filters := (releaseFilter s.filters filter).2 }).Kept := by
  obtain ⟨hnodup, hreleasing⟩ := h.sessions n session hlookup
  rw [hdoing] at hreleasing
  obtain ⟨hrest, hsub, hends⟩ := hreleasing
  rw [List.nodup_cons] at hrest
  have hmem : filter ∈ session.held := hsub filter List.mem_cons_self
  have hok : (⟨session.held.erase filter, .releasing rest ends⟩ : LocalSession).Ok := by
    refine ⟨hnodup.erase filter, hrest.2, ?_, ?_⟩
    · intro f hf
      rw [hnodup.mem_erase_iff]
      refine ⟨?_, hsub f (List.mem_cons_of_mem _ hf)⟩
      rintro rfl
      exact hrest.1 hf
    · intro he f hf
      rw [hnodup.mem_erase_iff] at hf
      exact (List.mem_cons.mp (hends he f hf.2)).resolve_left hf.1
  have hsessions := sessions_setSession (n := n) h hok
  have hcount : 0 < session.held.count filter := List.count_pos_iff.mpr hmem
  have hholders : ∀ f, holdersOf (releaseFilter s.filters filter).2 f =
      (s.setSession n ⟨session.held.erase filter, .releasing rest ends⟩).liveOn f := by
    intro f
    have hlive := @liveOn_setSession _ _ _ ⟨session.held.erase filter, .releasing rest ends⟩
      hlookup f
    rw [holdersOf_releaseFilter h.tidy, h.holders]
    by_cases hf : f = filter
    · subst hf
      simp only [List.count_erase_self, if_true] at hlive ⊢
      omega
    · rw [List.count_erase_of_ne hf] at hlive
      rw [if_neg hf]
      omega
  split
  · rename_i hgone
    refine h.say h.tidy.releaseFilter hholders hsessions hsilent (by simp) rfl ?_ ?_
    · intro f hwanted hnot
      exact absurd ((patterns_releaseFilter h.tidy).mp hwanted).1 hnot
    · intro f hbefore hnot conn _
      rw [patterns_releaseFilter h.tidy] at hnot
      have hf : filter = f := by
        by_contra hne
        exact hnot ⟨hbefore, fun _ => Ne.symm hne⟩
      exact Or.inl fun hwriter => ⟨hf, hwriter⟩
  · rename_i hstays
    refine h.same h.tidy.releaseFilter hholders hsessions fun f => ?_
    rw [patterns_releaseFilter h.tidy]
    constructor
    · exact And.left
    · exact fun hf => ⟨hf, fun hgone => absurd hgone hstays⟩

theorem Kept.reload (h : s.Kept) {topics : List String} (hsilent : s.tells .reload = none)
    (hdropped : ∀ filter ∈ patterns s.filters,
      filter ∉ patterns (setFilters s.filters topics).2 →
        ∀ conn, s.bus.Live conn → s.willHold conn filter = false ∨ s.owedOff conn filter) :
    (if (setFilters s.filters topics).1 then
      SubState.tell { s with filters := (setFilters s.filters topics).2 } .reload
        (some .resubscribe)
    else { s with filters := (setFilters s.filters topics).2 }).Kept := by
  have hholders : ∀ f, holdersOf (setFilters s.filters topics).2 f = s.liveOn f := by
    intro f
    rw [holdersOf_setFilters h.tidy]
    exact h.holders f
  split
  · refine h.say (h.tidy.setFilters topics) hholders h.sessions hsilent (by simp) rfl ?_ ?_
    · exact fun _ _ _ conn hconn => hconn
    · exact fun f hbefore hnot conn hlive => Or.inr (hdropped f hbefore hnot conn hlive)
  · rename_i hunchanged
    rw [Bool.not_eq_true] at hunchanged
    refine h.same (h.tidy.setFilters topics) hholders h.sessions fun f => ?_
    rw [setFilters_unchanged hunchanged]

/-! ## Telling the connections -/

/-- A session that is cancelled holding nothing, with nobody left to tell. -/
theorem Kept.cancel (h : s.Kept) {n : Nat} {session : LocalSession}
    (hlookup : s.sessions.lookup n = some session) (hheld : session.held = [])
    (htold : ∀ telling, s.tells (.session n) = some telling →
      ∀ conn ∈ telling.targets s.bus.writers, ¬s.bus.Live conn) :
    ({ s.tell (.session n) none with sessions := s.sessions.erase n } : SubState).Kept := by
  refine h.of_same_bus rfl h.tidy ?_ (sessions_erase h) ?_ ?_ ?_
  · intro filter
    exact (h.holders filter).trans (liveOn_erase hlookup hheld filter).symm
  · intro conn hconn
    have htell : (s.tell (.session n) none).Untouched conn := hconn.tell fun _ ht => by cases ht
    exact ⟨htell.queue, htell.handle, htell.writer, htell.told⟩
  · intro conn telling ht
    exact h.own conn telling ht
  · intro conn hlive filter
    refine (h.covered conn hlive filter).keep Iff.rfl rfl ?_ ?_
    · intro _ howed
      exact owedOn_tell howed fun old hold howes =>
        absurd hlive (htold old hold conn howes.mem_targets)
    · intro howed
      exact owedOff_tell howed fun old hold howes =>
        absurd hlive (htold old hold conn howes.mem_targets)

/-- A task goes on with what it has to say. -/
theorem Kept.goOn (h : s.Kept) {old : Telling} (hold : s.tells task = some old)
    (htargets : ∀ telling, new = some telling → ∀ conn ∈ telling.targets [],
      conn ∈ old.targets s.bus.writers)
    (hown : ∀ conn, task = .connection conn → ∀ telling, new = some telling →
      ∃ w : Writer, w.2 = conn ∧
        (telling = .resubscribing [w] ∨ ∃ topics, telling = .sending w topics []))
    (hon : ∀ conn filter, filter ∈ patterns s.filters → old.owesOn s.bus.writers conn filter →
      ∃ telling, new = some telling ∧ telling.owesOn s.bus.writers conn filter)
    (hoff : ∀ conn filter, old.owesOff s.bus.writers conn filter →
      ∃ telling, new = some telling ∧ telling.owesOff s.bus.writers conn filter) :
    (s.tell task new).Kept := by
  refine h.of_same_bus rfl h.tidy h.holders h.sessions ?_ ?_ ?_
  · intro conn hconn
    refine hconn.tell fun telling ht hmem => ?_
    have hin := htargets telling ht conn hmem
    have hout := hconn.told task old hold
    cases old with
    | resubscribe => exact hconn.writer hin
    | resubscribing => exact hout hin
    | sending => exact hout hin
    | unsubscribe => exact hconn.writer hin
    | unsubscribing => exact hout hin
  · intro conn telling ht
    by_cases heq : SubTask.connection conn = task
    · subst heq
      rw [tell_self] at ht
      exact hown conn rfl telling ht
    · rw [tell_other heq] at ht
      exact h.own conn telling ht
  · intro conn hlive filter
    refine (h.covered conn hlive filter).keep Iff.rfl rfl ?_ ?_
    · intro hwanted howed
      refine owedOn_tell howed fun old' hold' howes => ?_
      obtain rfl := Option.some.inj (hold.symm.trans hold')
      exact hon conn filter hwanted howes
    · intro howed
      refine owedOff_tell howed fun old' hold' howes => ?_
      obtain rfl := Option.some.inj (hold.symm.trans hold')
      exact hoff conn filter howes

theorem Kept.clone (h : s.Kept) (hstep : s.act (.clone task) = some s') : s'.Kept := by
  simp only [act] at hstep
  split at hstep
  · rename_i hold
    obtain rfl := Option.some.inj hstep
    refine h.goOn hold ?_ ?_ ?_ ?_
    · intro telling ht conn hmem
      rw [Telling.targets_toAll ht] at hmem
      exact hmem
    · rintro conn rfl
      obtain ⟨w, -, hw | ⟨topics, hw⟩⟩ := h.own conn _ hold
      · cases hw
      · cases hw
    · exact fun conn filter _ howes => Telling.toAll_owesOn howes
    · exact fun conn filter howes => howes.elim
  · rename_i f hold
    obtain rfl := Option.some.inj hstep
    refine h.goOn hold ?_ ?_ ?_ ?_
    · intro telling ht conn hmem
      rw [Telling.targets_toAllOf ht] at hmem
      exact hmem
    · rintro conn rfl
      obtain ⟨w, -, hw | ⟨topics, hw⟩⟩ := h.own conn _ hold
      · cases hw
      · cases hw
    · exact fun conn filter _ howes => howes.elim
    · rintro conn filter ⟨rfl, hmem⟩
      exact Telling.toAllOf_owesOff hmem
  · cases hstep

/-- The filters are read for the next connection: what the process asks for
now is what it will be told. -/
theorem Kept.read (h : s.Kept) (hstep : s.act (.read task) = some s') : s'.Kept := by
  simp only [act] at hstep
  split at hstep
  · rename_i w rest hold
    obtain rfl := Option.some.inj hstep
    have hlast : ∀ conn, task = .connection conn → w.2 = conn ∧ rest = [] := by
      rintro conn rfl
      obtain ⟨v, hv, heq | ⟨topics, heq⟩⟩ := h.own conn _ hold
      · obtain ⟨rfl, rfl⟩ := List.cons.inj (Telling.resubscribing.inj heq)
        exact ⟨hv, rfl⟩
      · cases heq
    split
    · rename_i hempty
      refine h.goOn hold ?_ ?_ ?_ ?_
      · intro telling ht conn hmem
        rw [Telling.targets_toAll ht] at hmem
        exact List.mem_cons_of_mem _ hmem
      · intro conn htask telling ht
        rw [(hlast conn htask).2] at ht
        cases ht
      · intro conn filter hwanted
        rw [hempty] at hwanted
        cases hwanted
      · exact fun conn filter howes => howes.elim
    · refine h.goOn hold ?_ ?_ ?_ ?_
      · intro telling ht conn hmem
        obtain rfl := Option.some.inj ht
        exact hmem
      · intro conn htask telling ht
        obtain ⟨hw, rfl⟩ := hlast conn htask
        exact ⟨w, hw, Or.inr ⟨_, (Option.some.inj ht).symm⟩⟩
      · intro conn filter hwanted howes
        refine ⟨_, rfl, ?_⟩
        rcases List.mem_cons.mp howes with heq | hrest
        · exact Or.inl ⟨heq.symm, hwanted⟩
        · exact Or.inr hrest
      · exact fun conn filter howes => howes.elim
  · cases hstep

/-- **Frame rule.** A task sends on a connection and goes on. What it said it
no longer owes, and somebody will put right what it said of a filter the
process has the other way. -/
theorem Kept.sent (h : s.Kept) {old : Telling} {w : Writer} (hold : s.tells task = some old)
    (hw : w.2 ∈ old.targets [])
    (htargets : ∀ telling, new = some telling → ∀ conn ∈ telling.targets [],
      conn ∈ old.targets [])
    (hown : ∀ conn, task = .connection conn → new = none)
    (hon : ∀ conn filter, old.owesOn s.bus.writers conn filter →
      conn = w.2 ∧ filter ∈ message.topics ∧ message.add = true ∨
        ∃ telling, new = some telling ∧ telling.owesOn s.bus.writers conn filter)
    (hoff : ∀ conn filter, old.owesOff s.bus.writers conn filter →
      conn = w.2 ∧ filter ∈ message.topics ∧ message.add = false ∨
        ∃ telling, new = some telling ∧ telling.owesOff s.bus.writers conn filter)
    (hadds : message.add = true → s.bus.Live w.2 → ∀ filter ∈ message.topics,
      filter ∈ patterns s.filters ∨ s.owedOff w.2 filter)
    (htakes : message.add = false → s.bus.Live w.2 → ∀ filter ∈ message.topics,
      filter ∉ patterns s.filters ∨ s.owedOn w.2 filter) :
    ((s.tell task new).enqueue w.2 message).Kept := by
  refine h.of_same_bus rfl h.tidy h.holders h.sessions ?_ ?_ ?_
  · intro conn hconn
    have hother : conn ≠ w.2 := by
      rintro rfl
      exact hconn.told task old hold hw
    have htell : (s.tell task new).Untouched conn :=
      hconn.tell fun telling ht hmem => hconn.told task old hold (htargets telling ht conn hmem)
    refine ⟨?_, htell.handle, htell.writer, htell.told⟩
    rw [enqueue]
    simp only [Function.update_of_ne hother]
    exact htell.queue
  · intro conn telling ht
    by_cases heq : SubTask.connection conn = task
    · rw [heq, show ((s.tell task new).enqueue w.2 message).tells task = new from tell_self,
        hown conn heq.symm] at ht
      cases ht
    · exact h.own conn telling ((tell_other heq).symm.trans ht)
  · intro conn hlive filter
    -- what is owed stays owed, unless it was said just now
    have howedOn : s.owedOn conn filter →
        ¬(conn = w.2 ∧ filter ∈ message.topics ∧ message.add = true) →
        ((s.tell task new).enqueue w.2 message).owedOn conn filter := by
      intro howed hnow
      refine owedOn_tell howed fun old' hold' howes => ?_
      obtain rfl := Option.some.inj (hold.symm.trans hold')
      exact (hon conn filter howes).resolve_left hnow
    have howedOff : s.owedOff conn filter →
        ¬(conn = w.2 ∧ filter ∈ message.topics ∧ message.add = false) →
        ((s.tell task new).enqueue w.2 message).owedOff conn filter := by
      intro howed hnow
      refine owedOff_tell howed fun old' hold' howes => ?_
      obtain rfl := Option.some.inj (hold.symm.trans hold')
      exact (hoff conn filter howes).resolve_left hnow
    by_cases hnow : conn = w.2 ∧ filter ∈ message.topics
    · obtain ⟨rfl, htopic⟩ := hnow
      rw [Covered, willHold_enqueue_self, if_pos htopic]
      cases hadd : message.add with
      | true =>
          refine ⟨fun _ => Or.inl rfl, fun hnot => Or.inr ?_⟩
          refine howedOff ((hadds hadd hlive filter htopic).resolve_left hnot) ?_
          rintro ⟨-, -, hfalse⟩
          cases hadd.symm.trans hfalse
      | false =>
          refine ⟨fun hwanted => Or.inr ?_, fun _ => Or.inl rfl⟩
          refine howedOn ((htakes hadd hlive filter htopic).resolve_left
            fun hnot => hnot hwanted) ?_
          rintro ⟨-, -, htrue⟩
          cases hadd.symm.trans htrue
    · have hwill : ((s.tell task new).enqueue w.2 message).willHold conn filter =
          s.willHold conn filter := by
        by_cases hconn : conn = w.2
        · rw [hconn, willHold_enqueue_self, if_neg fun htopic => hnow ⟨hconn, htopic⟩]
          rfl
        · rw [willHold_enqueue_other hconn]
          rfl
      refine (h.covered conn hlive filter).keep Iff.rfl hwill ?_ ?_
      · exact fun _ howed => howedOn howed fun hsaid => hnow ⟨hsaid.1, hsaid.2.1⟩
      · exact fun howed => howedOff howed fun hsaid => hnow ⟨hsaid.1, hsaid.2.1⟩

theorem Kept.send (h : s.Kept) (horderly : s.Orderly (.send task) s')
    (hstep : s.act (.send task) = some s') : s'.Kept := by
  cases hold : s.tells task with
  | none => simp [act, hold] at hstep
  | some old =>
      cases old with
      | resubscribe => simp [act, hold] at hstep
      | resubscribing rest => simp [act, hold] at hstep
      | unsubscribe f => simp [act, hold] at hstep
      | sending w topics rest =>
          simp only [act, hold] at hstep
          simp only [Orderly, hold] at horderly
          obtain rfl := Option.some.inj hstep
          refine h.sent hold List.mem_cons_self ?_ ?_ ?_ ?_ ?_ ?_
          · intro telling ht conn hmem
            rw [Telling.targets_toAll ht] at hmem
            exact List.mem_cons_of_mem _ hmem
          · rintro conn rfl
            obtain ⟨v, -, heq | ⟨topics', heq⟩⟩ := h.own conn _ hold
            · cases heq
            · obtain ⟨-, -, rfl⟩ := Telling.sending.inj heq
              rfl
          · rintro conn filter (⟨heq, htopic⟩ | hrest)
            · exact Or.inl ⟨heq.symm, htopic, rfl⟩
            · exact Or.inr (Telling.toAll_owesOn hrest)
          · exact fun conn filter howes => howes.elim
          · exact fun _ => horderly
          · exact fun hadd => by cases hadd
      | unsubscribing f writers =>
          cases writers with
          | nil => simp [act, hold] at hstep
          | cons w rest =>
              simp only [act, hold] at hstep
              simp only [Orderly, hold] at horderly
              obtain rfl := Option.some.inj hstep
              refine h.sent hold List.mem_cons_self ?_ ?_ ?_ ?_ ?_ ?_
              · intro telling ht conn hmem
                rw [Telling.targets_toAllOf ht] at hmem
                exact List.mem_cons_of_mem _ hmem
              · rintro conn rfl
                obtain ⟨v, -, heq | ⟨topics', heq⟩⟩ := h.own conn _ hold
                · cases heq
                · cases heq
              · exact fun conn filter howes => howes.elim
              · rintro conn filter ⟨rfl, hmem⟩
                rcases List.mem_cons.mp hmem with heq | hrest
                · exact Or.inl ⟨heq, List.mem_singleton_self _, rfl⟩
                · exact Or.inr (Telling.toAllOf_owesOff hrest)
              · exact fun hadd => by cases hadd
              · intro _ hlive filter htopic
                rw [List.mem_singleton.mp htopic]
                exact horderly hlive

/-- Reading a message changes nothing: what it says was already counted. -/
theorem Kept.serve (h : s.Kept) (horderly : s.Orderly (.serve conn) s')
    (hstep : s.act (.serve conn) = some s') : s'.Kept := by
  cases hqueue : s.queues conn with
  | nil => simp [act, hqueue] at hstep
  | cons message rest =>
      simp only [act, hqueue] at hstep
      obtain rfl := Option.some.inj hstep
      have hwill := willHold_serve hqueue (horderly message rest hqueue)
      refine h.of_same_bus rfl h.tidy h.holders h.sessions ?_ h.own ?_
      · intro other hother
        have hne : other ≠ conn := by
          rintro rfl
          cases hother.queue.symm.trans hqueue
        refine ⟨?_, ?_, hother.writer, hother.told⟩
        · simp only [Function.update_of_ne hne]
          exact hother.queue
        · simp only [Function.update_of_ne hne]
          exact hother.handle
      · intro other hlive filter
        exact (h.covered other hlive filter).keep Iff.rfl (hwill other filter) (fun _ => id) id

/-! ## Connections -/

/-- A run that is not up afterwards makes no connection live. -/
theorem live_of_setRun {bus : BusState} {r : Nat} {run : Option ServiceRun}
    (hup : ∀ new conn, run = some new → new.phase ≠ .up conn)
    (h : (bus.setRun r run).Live conn) : bus.Live conn := by
  obtain ⟨r', old, hold, hphase⟩ := h
  rcases BusState.setRun_cases hold with ⟨-, hput⟩ | ⟨-, hbefore⟩
  · exact absurd hphase (hup old conn hput)
  · exact ⟨r', old, hbefore, hphase⟩

/-- **Frame rule.** No connection comes up, and the live ones keep their
writers. -/
theorem Kept.writers (h : s.Kept) {bus : BusState} (hpending : bus.pending = s.bus.pending)
    (hnext : bus.next = s.bus.next) (hlive : ∀ conn, bus.Live conn → s.bus.Live conn)
    (hsub : ∀ w ∈ bus.writers, w ∈ s.bus.writers)
    (hspared : ∀ conn, bus.Live conn → conn ∈ s.bus.writers.map Prod.snd →
      conn ∈ bus.writers.map Prod.snd) : ({ s with bus := bus } : SubState).Kept where
  tidy := h.tidy
  holders := h.holders
  sessions := h.sessions
  registered := by
    intro conn hconn
    rw [hpending]
    exact (h.registered conn (hlive conn hconn)).imp_right (hspared conn hconn)
  numbered := by
    rw [hpending, hnext]
    exact h.numbered
  once := by
    rw [hpending]
    exact h.once
  fresh := by
    rw [hpending, hnext]
    intro conn hconn
    have hold := h.fresh conn hconn
    refine ⟨hold.queue, hold.handle, ?_, hold.told⟩
    intro hmem
    obtain ⟨w, hw, rfl⟩ := List.mem_map.mp hmem
    exact hold.writer (List.mem_map_of_mem (hsub w hw))
  own := h.own
  covered := by
    intro conn hconn filter
    refine (h.covered conn (hlive conn hconn) filter).keep Iff.rfl rfl ?_ ?_
    · rintro - (hin | ⟨task, telling, ht, howes⟩)
      · refine Or.inl ?_
        rw [hpending]
        exact hin
      · exact Or.inr ⟨task, telling, ht, howes.mono (hspared conn hconn)⟩
    · rintro ⟨task, telling, ht, howes⟩
      exact ⟨task, telling, ht, howes.mono (hspared conn hconn)⟩

theorem Kept.setRun (h : s.Kept) {r : Nat} {run : Option ServiceRun}
    (hup : ∀ new conn, run = some new → new.phase ≠ .up conn) :
    ({ s with bus := s.bus.setRun r run } : SubState).Kept :=
  h.writers rfl rfl (fun _ => live_of_setRun hup) (fun _ => id) fun _ _ => id

/-- A connection comes up. Nothing was said to it, and its attach task is on
the way. -/
theorem Kept.connect (h : s.Kept) {r : Nat} {clientId : String} :
    ({ s with bus := { s.bus.setRun r (some ⟨clientId, .up s.bus.next⟩) with
      pending := (clientId, s.bus.next) :: s.bus.pending
      next := s.bus.next + 1 } } : SubState).Kept where
  tidy := h.tidy
  holders := h.holders
  sessions := h.sessions
  registered := by
    rintro conn ⟨r', run, hrun, hphase⟩
    rcases BusState.setRun_cases hrun with ⟨-, hput⟩ | ⟨-, hbefore⟩
    · obtain rfl := Option.some.inj hput
      obtain rfl := RunPhase.up.inj hphase
      exact Or.inl List.mem_cons_self
    · exact (h.registered conn ⟨r', run, hbefore, hphase⟩).imp_left (List.mem_cons_of_mem _)
  numbered := by
    intro conn hconn
    rcases List.mem_cons.mp hconn with rfl | hold
    · exact Nat.lt_succ_self _
    · exact Nat.lt_succ_of_lt (h.numbered conn hold)
  once := by
    refine List.nodup_cons.mpr ⟨?_, h.once⟩
    exact fun hmem => absurd (h.numbered _ hmem) (Nat.lt_irrefl _)
  fresh := by
    intro conn hconn
    have hold : s.Untouched conn := by
      refine h.fresh conn ?_
      rcases hconn with hmem | hlater
      · rcases List.mem_cons.mp hmem with rfl | hold
        · exact Or.inr (Nat.le_refl _)
        · exact Or.inl hold
      · exact Or.inr (Nat.le_of_succ_le hlater)
    exact ⟨hold.queue, hold.handle, hold.writer, hold.told⟩
  own := h.own
  covered := by
    rintro conn ⟨r', run, hrun, hphase⟩ filter
    rcases BusState.setRun_cases hrun with ⟨-, hput⟩ | ⟨-, hbefore⟩
    · obtain rfl := Option.some.inj hput
      obtain rfl := RunPhase.up.inj hphase
      have hnew : s.Untouched s.bus.next := h.fresh _ (Or.inr (Nat.le_refl _))
      exact ⟨fun _ => Or.inr (Or.inl List.mem_cons_self), fun _ => Or.inl hnew.willHold⟩
    · refine (h.covered conn ⟨r', run, hbefore, hphase⟩ filter).keep Iff.rfl rfl ?_ id
      exact fun _ howed => howed.imp_left (List.mem_cons_of_mem _)

/-- A connection's writer is registered, and its task goes on to subscribe on
it. -/
theorem Kept.attach (h : s.Kept) {w : Writer} (hw : w ∈ s.bus.pending)
    (hspared : ∀ conn, (w.1, conn) ∈ s.bus.writers → ¬s.bus.Live conn) :
    ({ s.tell (.connection w.2) (some (.resubscribing [w])) with
      bus := { s.bus with
        pending := s.bus.pending.erase w
        writers := attachWriter s.bus.writers w } } : SubState).Kept := by
  have hpending : w.2 ∈ s.bus.pending.map Prod.snd := List.mem_map_of_mem hw
  have hbefore : s.Untouched w.2 := h.fresh w.2 (Or.inl hpending)
  have hnew : w.2 ∉ (s.bus.pending.erase w).map Prod.snd := by
    have hperm := ((List.perm_cons_erase hw).map Prod.snd).nodup_iff.mp h.once
    exact (List.nodup_cons.mp hperm).1
  have hold : ∀ conn ∈ (s.bus.pending.erase w).map Prod.snd,
      conn ∈ s.bus.pending.map Prod.snd := fun conn hconn =>
    (List.erase_sublist.map Prod.snd).subset hconn
  -- the task of the connection had nothing to say before
  have hsilent : s.tells (.connection w.2) = none := by
    cases ht : s.tells (.connection w.2) with
    | none => rfl
    | some telling =>
        obtain ⟨v, hv, rfl | ⟨topics, rfl⟩⟩ := h.own w.2 telling ht
        · exact absurd (List.mem_singleton.mpr hv.symm) (hbefore.told _ _ ht)
        · exact absurd (List.mem_singleton.mpr hv.symm) (hbefore.told _ _ ht)
  have hwriters : ∀ conn, s.bus.Live conn → conn ∈ s.bus.writers.map Prod.snd →
      conn ∈ (attachWriter s.bus.writers w).map Prod.snd := by
    intro conn hlive hmem
    obtain ⟨v, hv, rfl⟩ := List.mem_map.mp hmem
    refine List.mem_map_of_mem (mem_attachWriter.mpr (Or.inl ⟨hv, ?_⟩))
    intro heq
    refine hspared v.2 ?_ hlive
    rw [← heq]
    exact hv
  -- whoever was on the way is registered, or still on the way
  have harrives : ∀ conn ∈ s.bus.pending.map Prod.snd,
      conn = w.2 ∨ conn ∈ (s.bus.pending.erase w).map Prod.snd := by
    intro conn hconn
    exact List.mem_cons.mp (((List.perm_cons_erase hw).map Prod.snd).mem_iff.mp hconn)
  refine ⟨h.tidy, h.holders, h.sessions, ?_, ?_, ?_, ?_, ?_, ?_⟩
  · intro conn hlive
    rcases h.registered conn hlive with hin | hin
    · rcases harrives conn hin with rfl | hstill
      · exact Or.inr (List.mem_map_of_mem (mem_attachWriter.mpr (Or.inr rfl)))
      · exact Or.inl hstill
    · exact Or.inr (hwriters conn hlive hin)
  · exact fun conn hconn => h.numbered conn (hold conn hconn)
  · exact h.once.sublist (List.erase_sublist.map Prod.snd)
  · intro conn hconn
    have hne : conn ≠ w.2 := by
      rintro rfl
      rcases hconn with hmem | hlater
      · exact hnew hmem
      · exact absurd (h.numbered w.2 hpending) (Nat.not_lt.mpr hlater)
    have huntouched : s.Untouched conn := h.fresh conn (hconn.imp_left (hold conn))
    have htell : (s.tell (.connection w.2) (some (.resubscribing [w]))).Untouched conn := by
      refine huntouched.tell fun telling ht => ?_
      obtain rfl := Option.some.inj ht
      exact fun hmem => hne (List.mem_singleton.mp hmem)
    refine ⟨htell.queue, htell.handle, ?_, htell.told⟩
    intro hmem
    obtain ⟨v, hv, rfl⟩ := List.mem_map.mp hmem
    rcases mem_attachWriter.mp hv with ⟨hin, -⟩ | rfl
    · exact huntouched.writer (List.mem_map_of_mem hin)
    · exact hne rfl
  · intro conn telling ht
    by_cases heq : conn = w.2
    · subst heq
      obtain rfl := Option.some.inj (tell_self.symm.trans ht)
      exact ⟨w, rfl, Or.inl rfl⟩
    · refine h.own conn telling ((tell_other ?_).symm.trans ht)
      exact fun hsame => heq (SubTask.connection.inj hsame)
  · intro conn hlive filter
    have howes : (Telling.resubscribing [w]).owesOn (attachWriter s.bus.writers w) w.2 filter :=
      List.mem_singleton_self _
    -- nobody else is at the task of the connection
    have hother : ∀ t telling, s.tells t = some telling →
        (s.tell (.connection w.2) (some (.resubscribing [w]))).tells t = some telling := by
      intro t telling ht
      rw [tell_other, ht]
      rintro rfl
      cases hsilent.symm.trans ht
    refine (h.covered conn hlive filter).keep Iff.rfl rfl ?_ ?_
    · rintro - (hin | ⟨t, telling, ht, howed⟩)
      · rcases harrives conn hin with rfl | hstill
        · exact Or.inr ⟨_, _, tell_self, howes⟩
        · exact Or.inl hstill
      · exact Or.inr ⟨t, telling, hother t telling ht, howed.mono (hwriters conn hlive)⟩
    · rintro ⟨t, telling, ht, howed⟩
      exact ⟨t, telling, hother t telling ht, howed.mono (hwriters conn hlive)⟩

theorem Kept.bus (h : s.Kept) {a : BusAct} {bus : BusState} (hstep : BusStep s.bus a bus)
    (horderly : s.Orderly (.bus a) s') : (s.onBus a bus).Kept := by
  cases hstep with
  | spawn hfree => exact h.setRun (by rintro new conn ⟨⟩ ⟨⟩)
  | connect hrun => exact h.connect
  | refused hrun => exact h.setRun (by rintro new conn ⟨⟩ ⟨⟩)
  | ended hrun => exact h.setRun (by rintro new conn ⟨⟩ ⟨⟩)
  | attach hpending => exact h.attach hpending horderly
  | @detach r clientId conn hrun =>
      have hbefore : ∀ conn, (s.bus.setRun r (some ⟨clientId, .idle⟩)).Live conn →
          s.bus.Live conn := fun _ => live_of_setRun (by rintro new conn ⟨⟩ ⟨⟩)
      refine h.writers rfl rfl hbefore (fun w hw => (mem_detachWriter.mp hw).1) ?_
      intro conn hlive hmem
      obtain ⟨w, hw, rfl⟩ := List.mem_map.mp hmem
      refine List.mem_map_of_mem (mem_detachWriter.mpr ⟨hw, ?_⟩)
      rintro rfl
      exact horderly _ hrun w.2 hw (hbefore w.2 hlive)
  | stop hrun => exact h.setRun (by rintro new conn ⟨⟩)

theorem Kept.advance (h : s.Kept) {n : Nat} {session : LocalSession}
    (hlookup : s.sessions.lookup n = some session) (hsilent : s.tells (.session n) = none)
    (hstep : s.advance n session = some s') : s'.Kept := by
  have hok := h.sessions n session hlookup
  cases hdoing : session.doing with
  | holding rest =>
      cases rest with
      | nil => simp [SubState.advance, hdoing] at hstep
      | cons filter rest =>
          simp only [SubState.advance, hdoing] at hstep
          by_cases hheld : filter ∈ session.held
          · rw [if_pos hheld] at hstep
            obtain rfl := Option.some.inj hstep
            exact h.session hlookup ⟨hok.1, trivial⟩
          · rw [if_neg hheld] at hstep
            obtain rfl := Option.some.inj hstep
            exact h.hold hlookup hsilent hheld
  | releasing rest ends =>
      cases rest with
      | nil => simp [SubState.advance, hdoing] at hstep
      | cons filter rest =>
          simp only [SubState.advance, hdoing] at hstep
          obtain rfl := Option.some.inj hstep
          exact h.release hlookup hsilent hdoing

theorem Kept.act (h : s.Kept) {a : SubAct} (horderly : s.Orderly a s')
    (hstep : s.act a = some s') : s'.Kept := by
  cases a with
  | bus a => cases hstep
  | accept n =>
      simp only [SubState.act] at hstep
      split at hstep
      · cases hstep
      · rename_i hlookup
        obtain rfl := Option.some.inj hstep
        exact h.accept hlookup
  | subscribe n topics => exact h.whenIdle hstep fun session hok => ⟨hok.1, trivial⟩
  | unsubscribe n topics =>
      refine h.whenIdle hstep fun session hok => ⟨hok.1, hok.1.filter _, ?_, ?_⟩
      · exact fun filter hmem => List.mem_of_mem_filter hmem
      · exact fun hends => by cases hends
  | finish n =>
      exact h.whenIdle hstep fun session hok =>
        ⟨hok.1, hok.1, fun _ hmem => hmem, fun _ _ hmem => hmem⟩
  | next n =>
      simp only [SubState.act] at hstep
      split at hstep
      · rename_i session hlookup hsilent
        exact h.advance hlookup hsilent hstep
      · cases hstep
  | close n =>
      simp only [SubState.act] at hstep
      split at hstep
      · rename_i session hlookup _
        split at hstep
        · rename_i hdoing
          obtain rfl := Option.some.inj hstep
          refine h.close hlookup (List.eq_nil_iff_forall_not_mem.mpr ?_)
          intro filter hmem
          have hreleasing := (h.sessions n session hlookup).2
          rw [hdoing] at hreleasing
          exact absurd (hreleasing.2.2 rfl filter hmem) List.not_mem_nil
        · cases hstep
      · cases hstep
  | cancel n =>
      simp only [SubState.act] at hstep
      split at hstep
      · cases hstep
      · rename_i session hlookup
        obtain rfl := Option.some.inj hstep
        exact h.cancel hlookup (horderly.1 session hlookup) horderly.2
  | reload topics =>
      simp only [SubState.act] at hstep
      split at hstep
      · cases hstep
      · rename_i hsilent
        obtain rfl := Option.some.inj hstep
        exact h.reload hsilent horderly
  | clone task => exact h.clone hstep
  | read task => exact h.read hstep
  | send task => exact h.send horderly hstep
  | serve conn => exact h.serve horderly hstep

theorem Kept.init (h : subscriberSys.init s) : s.Kept := by
  obtain ⟨topics, handles, rfl, hempty⟩ := h
  refine ⟨tidy_configured topics, ?_, ?_, ?_, ?_, List.nodup_nil, ?_, ?_, ?_⟩
  · exact fun filter => holdersOf_configured topics filter
  · intro n session hlookup
    cases hlookup
  · rintro conn ⟨r, run, hrun, -⟩
    cases hrun
  · exact fun conn hconn => absurd hconn List.not_mem_nil
  · refine fun conn _ => ⟨rfl, hempty conn, List.not_mem_nil, ?_⟩
    intro task telling ht
    cases ht
  · intro conn telling ht
    cases ht
  · rintro conn ⟨r, run, hrun, -⟩
    cases hrun

/-- With nothing owed and nothing unread, what the server will hold is what
it holds, and what it should. -/
theorem Kept.agrees (h : s.Kept) : s.Agrees := by
  refine ⟨h.holders, ?_⟩
  rintro ⟨hpending, hsilent, hread⟩ conn hlive filter
  have hwill : s.willHold conn filter = decide (filter ∈ (s.handles conn).subscriptions) := by
    rw [SubState.willHold, hread conn hlive]
    rfl
  have hnoneOn : ¬s.owedOn conn filter := by
    rintro (hin | ⟨task, telling, ht, -⟩)
    · rw [hpending] at hin
      cases hin
    · cases (hsilent task).symm.trans ht
  have hnoneOff : ¬s.owedOff conn filter := by
    rintro ⟨task, telling, ht, -⟩
    cases (hsilent task).symm.trans ht
  obtain ⟨hon, hoff⟩ := h.covered conn hlive filter
  rw [hwill] at hon hoff
  constructor
  · intro hheld
    by_contra hnot
    exact absurd hheld (of_decide_eq_false ((hoff hnot).resolve_right hnoneOff))
  · intro hwanted
    exact of_decide_eq_true ((hon hwanted).resolve_right hnoneOn)

end SubState

/-- **Local subscribers and the server's subscriptions agree**, in every
orderly run. -/
theorem subscriptions_agree {s : SubState}
    (h : (subscriberSys.restrict SubState.Orderly).Reachable s) : s.Agrees := by
  have hkept : s.Kept := by
    refine h.invariant (fun s => SubState.Kept.init) ?_
    rintro s a s' - hkept ⟨hstep, horderly⟩
    cases hstep with
    | bus hbus => exact hkept.bus hbus horderly
    | act hact => exact hkept.act horderly hact
  exact hkept.agrees

/-! ## A subscriber, a cancelled one and a reload -/

namespace SubState

/-- A process with those filters in its configuration, and a server that
takes every filter. -/
def started (topics : List String) : SubState where
  filters := configured topics
  handles := fun _ =>
    { perms := { ClientPerms.ofMaster with topics := [] }, instanceGroup := none }

theorem started_init (topics : List String) : subscriberSys.init (started topics) :=
  ⟨topics, _, rfl, fun _ => rfl⟩

/-- A connection that came up while the file named `deploy` has it on the
server, and a reload that drops it says nothing. -/
theorem reload_keeps_subscription : ∃ s, subscriberSys.Reachable s ∧ s.Settled ∧ s.bus.Live 0 ∧
    s.filters = [] ∧ (s.handles 0).subscriptions = ["deploy"] := by
  have h0 : subscriberSys.Reachable (started ["deploy"]) := .init (started_init _)
  have h1 := h0.step (.bus (@BusStep.spawn _ 0 "web" rfl))
  have h2 := h1.step (.bus (@BusStep.connect _ 0 "web" rfl))
  have h3 := h2.step (.bus (.attach List.mem_cons_self))
  have h4 := h3.step (@SubStep.act _ _ (.read (.connection 0)) rfl)
  have h5 := h4.step (@SubStep.act _ _ (.send (.connection 0)) rfl)
  have h6 := h5.step (@SubStep.act _ _ (.serve 0) rfl)
  have h7 := h6.step (@SubStep.act _ _ (.reload []) rfl)
  have h8 := h7.step (@SubStep.act _ _ (.clone .reload) rfl)
  have h9 := h8.step (@SubStep.act _ _ (.read .reload) rfl)
  refine ⟨_, h9, ⟨rfl, ?_, ?_⟩, ⟨0, _, rfl, rfl⟩, rfl, rfl⟩
  · rintro (n | _ | (_ | conn))
    · rfl
    · rfl
    · rfl
    · rfl
  · rintro (_ | conn) -
    · rfl
    · rfl

end SubState

/-- A session that subscribed, with the connection told. -/
theorem subscriptions_agree_one : ∃ s : SubState, s.Settled ∧ s.bus.Live 0 ∧
    s.liveOn "deploy" = 1 ∧ (s.handles 0).subscriptions = ["deploy"] ∧ s.Agrees := by
  have h0 : (subscriberSys.restrict SubState.Orderly).Reachable (SubState.started []) :=
    .init (SubState.started_init [])
  have h1 := h0.step ⟨.bus (@BusStep.spawn _ 0 "web" rfl), trivial⟩
  have h2 := h1.step ⟨.bus (@BusStep.connect _ 0 "web" rfl), trivial⟩
  have h3 := h2.step ⟨.bus (.attach List.mem_cons_self),
    fun conn hin => absurd hin List.not_mem_nil⟩
  have h4 := h3.step ⟨@SubStep.act _ _ (.read (.connection 0)) rfl, trivial⟩
  have h5 := h4.step ⟨@SubStep.act _ _ (.accept 0) rfl, trivial⟩
  have h6 := h5.step ⟨@SubStep.act _ _ (.subscribe 0 ["deploy"]) rfl, trivial⟩
  have h7 := h6.step ⟨@SubStep.act _ _ (.next 0) rfl, trivial⟩
  have h8 := h7.step ⟨@SubStep.act _ _ (.clone (.session 0)) rfl, trivial⟩
  have h9 := h8.step ⟨@SubStep.act _ _ (.read (.session 0)) rfl, trivial⟩
  have h10 := h9.step ⟨@SubStep.act _ _ (.send (.session 0)) rfl, fun _ filter hf => Or.inl hf⟩
  have h11 := h10.step ⟨@SubStep.act _ _ (.serve 0) rfl, fun message rest hqueue => by
    obtain ⟨rfl, rfl⟩ := List.cons.inj hqueue
    rfl⟩
  refine ⟨_, ⟨rfl, ?_, ?_⟩, ⟨0, _, rfl, rfl⟩, rfl, rfl, subscriptions_agree h11⟩
  · rintro ((_ | n) | _ | (_ | conn))
    · rfl
    · rfl
    · rfl
    · rfl
    · rfl
  · rintro (_ | conn) -
    · rfl
    · rfl

/-- A session that is cancelled while it holds `deploy` leaves a holder
behind that is nobody, and a reload leaves a subscription behind that nobody
asks for. -/
theorem subscriptions_disagree :
    (∃ s, subscriberSys.Reachable s ∧ holdersOf s.filters "deploy" = 1 ∧
      s.liveOn "deploy" = 0 ∧ ¬s.Agrees) ∧
    ∃ s, subscriberSys.Reachable s ∧ s.Settled ∧ s.bus.Live 0 ∧ s.filters = [] ∧
      (s.handles 0).subscriptions = ["deploy"] ∧ ¬s.Agrees := by
  constructor
  · have h0 : subscriberSys.Reachable (SubState.started []) := .init (SubState.started_init [])
    have h1 := h0.step (@SubStep.act _ _ (.accept 0) rfl)
    have h2 := h1.step (@SubStep.act _ _ (.subscribe 0 ["deploy"]) rfl)
    have h3 := h2.step (@SubStep.act _ _ (.next 0) rfl)
    have h4 := h3.step (@SubStep.act _ _ (.cancel 0) rfl)
    refine ⟨_, h4, rfl, rfl, ?_⟩
    intro hagrees
    exact absurd (hagrees.holders "deploy") Nat.one_ne_zero
  · obtain ⟨s, hs, hsettled, hlive, hfilters, hheld⟩ := SubState.reload_keeps_subscription
    refine ⟨s, hs, hsettled, hlive, hfilters, hheld, ?_⟩
    intro hagrees
    have hin := (hagrees.subscribed hsettled 0 hlive "deploy").mp (by simp [hheld])
    rw [hfilters] at hin
    exact absurd hin List.not_mem_nil

end Aperio
