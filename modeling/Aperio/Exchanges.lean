import Mathlib.Algebra.GroupWithZero.Nat
import Mathlib.Data.List.AList
import Aperio.Run

/-!
# Exchanges in flight

`tunnel/ws/response.rs`: what a tunnel connection may do to the requests
that wait for it and to the response bodies it streams. The two tables are
shared by all connections, and each handler checks the owner of an entry by
itself.

A connection handles one frame after the other, but the frames of different
connections interleave, so a handler that takes a lock twice is two steps
here: what is left of it stands in `Conn.rest` until the connection is
resumed. Whether a receiver still listens is the world's to say, and so is
what the base64 decoder makes of a payload.

`Exchanges.issued` and `Exchanges.opened` record for whom each request id
was drawn and each channel was made. No handler reads them. Request ids are
UUIDs, so one that is drawn is one that was never drawn before.
-/

namespace Aperio

/-! ## The tables -/

/-- A channel, by the order in which channels were made. -/
abbrev Chan := Nat

structure PendingRequest where
  tx : Chan
  clientId : String
deriving Repr, DecidableEq

structure ResponseStreamHandle where
  tx : Chan
  clientId : String
deriving Repr, DecidableEq

structure StreamCacheEntry where
  tx : Chan
  unreported : Nat
deriving Repr, DecidableEq

structure ClientTimings where
  backendSentUs : Nat
  backendFirstByteUs : Nat
  backendDoneUs : Option Nat
  respondUs : Nat
deriving Repr, DecidableEq

structure TunnelResponse where
  status : Nat
  headers : List (String × String)
  body : Option String := none
  bodyRaw : Option (List UInt8) := none
  trailers : Option (List (String × String)) := none
  streamRx : Option Chan := none
  timings : Option ClientTimings := none
deriving Repr, DecidableEq

/-- What a receiver is given. -/
inductive Item where
  | response (r : TunnelResponse)
  | data (bytes : List UInt8)
  | trailers (t : List (String × String))
  | aborted
deriving Repr, DecidableEq

abbrev Deliveries := List (Chan × Item)

/-- What is left of a handler between two of its lock regions: a chunk to
push, or a stream to take out of the table. -/
inductive Rest where
  | idle
  | push (id : String) (tx : Chan) (bytes : List UInt8)
  | drop (id : String) (account : Bool)
deriving Repr, DecidableEq

structure Conn where
  cache : AList fun _ : String => StreamCacheEntry := ∅
  rest : Rest := .idle

structure Exchanges where
  pending : AList fun _ : String => PendingRequest := ∅
  streams : AList fun _ : String => ResponseStreamHandle := ∅
  conns : AList fun _ : String => Conn := ∅
  charged : Nat := 0
  issued : AList fun _ : String => String := ∅
  opened : List String := []

/-! ## The handlers -/

/-- The frames that answer requests. -/
inductive Frame where
  | response (id : String) (r : TunnelResponse)
  | responseStart (id : String) (status : Nat) (headers : List (String × String))
      (timings : Option ClientTimings)
  | responseChunk (id : String) (data : String)
  | binaryChunk (id : String) (payload : List UInt8)
  | responseEnd (id : String) (trailers : Option (List (String × String)))
  | responseAbort (id : String)
deriving Repr, DecidableEq

def streamAccountFlushBytes : Nat := 1024 * 1024

namespace Exchanges

variable (s : Exchanges) (client : String)

def conn : Conn := (s.conns.lookup client).getD {}

def setConn (c : Conn) : Exchanges := { s with conns := s.conns.insert client c }

/-- The channel's receiver gets the item, if there still is a receiver. -/
def delivered (heard : Bool) (tx : Chan) (item : Item) : Deliveries :=
  if heard then [(tx, item)] else []

def finishStreamAccounting (id : String) : Exchanges :=
  let c := s.conn client
  let unreported := ((c.cache.lookup id).map (·.unreported)).getD 0
  { s.setConn client { c with cache := c.cache.erase id } with charged := s.charged + unreported }

/-- The chunk of a stream this connection feeds. Only the first chunk is
checked against the table; the sender is remembered. -/
def deliverResponseChunk (id : String) (bytes : List UInt8) : Exchanges :=
  let c := s.conn client
  match c.cache.lookup id with
  | some e => s.setConn client { c with rest := .push id e.tx bytes }
  | none =>
    match s.streams.lookup id with
    | some h =>
      if h.clientId = client then
        s.setConn client { cache := c.cache.insert id ⟨h.tx, 0⟩, rest := .push id h.tx bytes }
      else s
    | none => s

/-- The push of `deliver_response_chunk` and the accounting after it. -/
def pushChunk (id : String) (bytes : List UInt8) (heard : Bool) : Exchanges :=
  let c := s.conn client
  if heard then
    match c.cache.lookup id with
    | some e =>
      let unreported := e.unreported + bytes.length
      if streamAccountFlushBytes ≤ unreported then
        { s.setConn client { cache := c.cache.insert id ⟨e.tx, 0⟩, rest := .idle } with
          charged := s.charged + unreported }
      else s.setConn client { cache := c.cache.insert id ⟨e.tx, unreported⟩, rest := .idle }
    | none =>
      { s.setConn client { c with rest := .idle } with charged := s.charged + bytes.length }
  else s.setConn client { c with rest := .drop id true }

def dropStream (id : String) (account : Bool) : Exchanges :=
  let c := s.conn client
  let s := { s.setConn client { c with rest := .idle } with streams := s.streams.erase id }
  if account then s.finishStreamAccounting client id else s

def onResponse (id : String) (r : TunnelResponse) (heard : Bool) : Exchanges × Deliveries :=
  match s.pending.lookup id with
  | some req =>
    if req.clientId = client then
      ({ s with pending := s.pending.erase id },
        delivered heard req.tx (.response { r with streamRx := none }))
    else (s, [])
  | none => (s, [])

/-- The stream is registered before the head is handed over, and taken back
where nobody waits for the head any more. -/
def onResponseStart (id : String) (status : Nat) (headers : List (String × String))
    (timings : Option ClientTimings) (heard : Bool) : Exchanges × Deliveries :=
  match s.pending.lookup id with
  | some req =>
    if req.clientId = client then
      let tx := s.opened.length
      let s' : Exchanges :=
        { s with
          pending := s.pending.erase id
          streams := s.streams.insert id ⟨tx, client⟩
          opened := s.opened ++ [client] }
      let head : TunnelResponse := { status, headers, streamRx := some tx, timings }
      (if heard then s' else s'.setConn client { s'.conn client with rest := .drop id false },
        delivered heard req.tx (.response head))
    else (s, [])
  | none => (s, [])

def onResponseChunk (decode : String → Option (List UInt8)) (id data : String) : Exchanges :=
  match decode data with
  | some bytes => s.deliverResponseChunk client id bytes
  | none =>
    Exchanges.finishStreamAccounting { s with streams := s.streams.erase id } client id

/-- `take_owned_stream`: the check and the removal under one lock. -/
def takeOwnedStream (id : String) : Option (ResponseStreamHandle × Exchanges) :=
  match s.streams.lookup id with
  | some h =>
    if h.clientId = client then some (h, { s with streams := s.streams.erase id }) else none
  | none => none

/-- The end of a stream, and its failure, differ in the last item. -/
def closeStream (id : String) (last : Option Item) (heard : Bool) : Exchanges × Deliveries :=
  match s.takeOwnedStream client id with
  | some (h, s') =>
    (s'.finishStreamAccounting client id,
      match last with
      | some item => delivered heard h.tx item
      | none => [])
  | none => (s.finishStreamAccounting client id, [])

def onResponseEnd (id : String) (trailers : Option (List (String × String))) (heard : Bool) :
    Exchanges × Deliveries :=
  s.closeStream client id (trailers.map .trailers) heard

def onResponseAbort (id : String) (heard : Bool) : Exchanges × Deliveries :=
  s.closeStream client id (some .aborted) heard

def onFrame (decode : String → Option (List UInt8)) (heard : Bool) :
    Frame → Exchanges × Deliveries
  | .response id r => s.onResponse client id r heard
  | .responseStart id status headers timings =>
    s.onResponseStart client id status headers timings heard
  | .responseChunk id data => (s.onResponseChunk client decode id data, [])
  | .binaryChunk id payload => (s.deliverResponseChunk client id payload, [])
  | .responseEnd id trailers => s.onResponseEnd client id trailers heard
  | .responseAbort id => s.onResponseAbort client id heard

/-- A handler goes on where it left off. -/
def resume (heard : Bool) : Exchanges × Deliveries :=
  match (s.conn client).rest with
  | .idle => (s, [])
  | .push id tx bytes => (s.pushChunk client id bytes heard, delivered heard tx (.data bytes))
  | .drop id account => (s.dropStream client id account, [])

/-- One lock region of a connection: a frame arrives, or the last one goes
on. -/
def turn (decode : String → Option (List UInt8)) (heard : Bool) :
    Option Frame → Exchanges × Deliveries
  | some f => s.onFrame client decode heard f
  | none => s.resume client heard

/-! ## The rest of the server -/

/-- A request is given to a connection under an id drawn for it. -/
def dispatch (id : String) : Exchanges :=
  { s with
    pending := s.pending.insert id ⟨s.opened.length, client⟩
    issued := s.issued.insert id client
    opened := s.opened ++ [client] }

def disconnect : Exchanges :=
  { s with
    conns := s.conns.erase client
    charged := s.charged + ((s.conn client).cache.entries.map (·.2.unreported)).sum }

end Exchanges

inductive ExchangeAct where
  | dispatch (id client : String)
  | forgetPending (id : String)
  | sweepStream (id : String)
  | connect (client : String)
  | disconnect (client : String)
  | turn (client : String) (heard : Bool) (frame : Option Frame)

/-- The server's runs. A pending entry goes when its handler gives up or its
connection is lost, a stream when its connection is lost; the sweep over a
lost connection's entries is taken one entry at a time. -/
def exchanges (decode : String → Option (List UInt8)) : Sys Exchanges ExchangeAct where
  init s := s = {}
  step s a s' :=
    match a with
    | .dispatch id client => s.issued.lookup id = none ∧ s' = s.dispatch client id
    | .forgetPending id => s' = { s with pending := s.pending.erase id }
    | .sweepStream id =>
      (∃ h, s.streams.lookup id = some h ∧ s.conns.lookup h.clientId = none) ∧
        s' = { s with streams := s.streams.erase id }
    | .connect client => s.conns.lookup client = none ∧ s' = s.setConn client {}
    | .disconnect client => s' = s.disconnect client
    | .turn client heard frame =>
      (∃ c, s.conns.lookup client = some c ∧ (c.rest = .idle ↔ frame.isSome)) ∧
        s' = (s.turn client decode heard frame).1

/-! ## Ownership -/

section Ownership

variable {s s' : Exchanges} {client : String} {decode : String → Option (List UInt8)}

/-- An id drawn for a connection, with a channel made for it. -/
def Exchanges.Belongs (s : Exchanges) (client id : String) (tx : Chan) : Prop :=
  s.issued.lookup id = some client ∧ s.opened[tx]? = some client

/-- What a connection remembers and has left to do is about its own ids. -/
structure Conn.Own (s : Exchanges) (client : String) (c : Conn) : Prop where
  cache : ∀ id e, c.cache.lookup id = some e → s.Belongs client id e.tx
  push : ∀ id tx bytes, c.rest = .push id tx bytes → s.Belongs client id tx
  drop : ∀ id account, c.rest = .drop id account → s.issued.lookup id = some client

/-- Every entry is owned by the connection its id was drawn for. -/
structure Exchanges.Owned (s : Exchanges) : Prop where
  pending : ∀ id req, s.pending.lookup id = some req → s.Belongs req.clientId id req.tx
  streams : ∀ id h, s.streams.lookup id = some h → s.Belongs h.clientId id h.tx
  conns : ∀ client c, s.conns.lookup client = some c → c.Own s client

/-- Ids and channels are only ever added. -/
structure Exchanges.Grows (s s' : Exchanges) : Prop where
  issued : ∀ id client, s.issued.lookup id = some client → s'.issued.lookup id = some client
  opened : s.opened <+: s'.opened

theorem Exchanges.Belongs.grows {id : String} {tx : Chan} (h : s.Belongs client id tx)
    (hg : s.Grows s') : s'.Belongs client id tx := by
  obtain ⟨hid, htx⟩ := h
  refine ⟨hg.issued id client hid, ?_⟩
  obtain ⟨hlt, hget⟩ := List.getElem?_eq_some_iff.mp htx
  rw [List.getElem?_eq_some_iff]
  refine ⟨Nat.lt_of_lt_of_le hlt hg.opened.length_le, ?_⟩
  rw [← hg.opened.getElem hlt]
  exact hget

theorem Conn.Own.grows {c : Conn} (h : c.Own s client) (hg : s.Grows s') : c.Own s' client where
  cache id e he := (h.cache id e he).grows hg
  push id tx bytes hr := (h.push id tx bytes hr).grows hg
  drop id account hr := hg.issued id client (h.drop id account hr)

theorem Conn.own_empty : ({} : Conn).Own s client where
  cache id e he := by simp at he
  push id tx bytes hr := by simp at hr
  drop id account hr := by simp at hr

theorem Exchanges.Owned.conn (h : s.Owned) (client : String) : (s.conn client).Own s client := by
  unfold Exchanges.conn
  cases hc : s.conns.lookup client with
  | none => exact Conn.own_empty
  | some c => exact h.conns client c hc

/-- Everything a turn of `client` that stays with its own entries may do. -/
structure Change (client : String) (s s' : Exchanges) (ds : Deliveries) : Prop where
  grows : s.Grows s'
  pending : ∀ id, s'.pending.lookup id = s.pending.lookup id ∨
    s.issued.lookup id = some client ∧ s'.pending.lookup id = none
  streams : ∀ id, s'.streams.lookup id = s.streams.lookup id ∨
    s.issued.lookup id = some client ∧
      ∀ h, s'.streams.lookup id = some h → h.clientId = client ∧ s'.opened[h.tx]? = some client
  others : ∀ b, b ≠ client → s'.conns.lookup b = s.conns.lookup b
  own : ∀ c, s'.conns.lookup client = some c → c.Own s' client
  deliveries : ∀ d ∈ ds, s.opened[d.1]? = some client

theorem Change.owned {ds : Deliveries} (h : Change client s s' ds) (ho : s.Owned) : s'.Owned where
  pending id req hreq := by
    rcases h.pending id with heq | ⟨-, hnone⟩
    · rw [heq] at hreq
      exact (ho.pending id req hreq).grows h.grows
    · rw [hnone] at hreq
      exact absurd hreq (by simp)
  streams id st hst := by
    rcases h.streams id with heq | ⟨hid, hnew⟩
    · rw [heq] at hst
      exact (ho.streams id st hst).grows h.grows
    · obtain ⟨hclient, htx⟩ := hnew st hst
      rw [hclient]
      exact ⟨h.grows.issued id client hid, htx⟩
  conns b c hc := by
    by_cases hb : b = client
    · rw [hb] at hc ⊢
      exact h.own c hc
    · rw [h.others b hb] at hc
      exact (ho.conns b c hc).grows h.grows

/-- The entries of other connections are there as they were, and nothing
was handed to their receivers. -/
structure Isolated (client : String) (s s' : Exchanges) (ds : Deliveries) : Prop where
  pending : ∀ id req, s.pending.lookup id = some req → req.clientId ≠ client →
    s'.pending.lookup id = some req ∧ ∀ d ∈ ds, d.1 ≠ req.tx
  streams : ∀ id h, s.streams.lookup id = some h → h.clientId ≠ client →
    s'.streams.lookup id = some h ∧ ∀ d ∈ ds, d.1 ≠ h.tx

/-- A channel made for another connection is none this one was handed. -/
theorem Change.not_delivered {ds : Deliveries} (h : Change client s s' ds) {b : String}
    {tx : Chan} (htx : s.opened[tx]? = some b) (hb : b ≠ client) : ∀ d ∈ ds, d.1 ≠ tx := by
  intro d hd heq
  have hclient := h.deliveries d hd
  rw [heq, htx] at hclient
  exact hb (Option.some.inj hclient)

theorem Change.isolated {ds : Deliveries} (h : Change client s s' ds) (ho : s.Owned) :
    Isolated client s s' ds where
  pending id req hreq hne := by
    obtain ⟨hid, htx⟩ := ho.pending id req hreq
    refine ⟨?_, h.not_delivered htx hne⟩
    rcases h.pending id with heq | ⟨hmine, -⟩
    · rw [heq, hreq]
    · rw [hid] at hmine
      exact absurd (Option.some.inj hmine) hne
  streams id st hst hne := by
    obtain ⟨hid, htx⟩ := ho.streams id st hst
    refine ⟨?_, h.not_delivered htx hne⟩
    rcases h.streams id with heq | ⟨hmine, -⟩
    · rw [heq, hst]
    · rw [hid] at hmine
      exact absurd (Option.some.inj hmine) hne

/-! ## What the handlers change -/

theorem Exchanges.Grows.refl : s.Grows s := ⟨fun _ _ h => h, List.prefix_rfl⟩

theorem Change.refl (ho : s.Owned) : Change client s s [] where
  grows := .refl
  pending _ := .inl rfl
  streams _ := .inl rfl
  others _ _ := rfl
  own c hc := ho.conns client c hc
  deliveries d hd := by simp at hd

/-- The connection changes what it remembers, and what is charged. -/
theorem change_conn {c : Conn} {n : Nat} {ds : Deliveries} (hc : c.Own s client)
    (hds : ∀ d ∈ ds, s.opened[d.1]? = some client) :
    Change client s { s with conns := s.conns.insert client c, charged := n } ds where
  grows := ⟨fun _ _ h => h, List.prefix_rfl⟩
  pending _ := .inl rfl
  streams _ := .inl rfl
  others b hb := AList.lookup_insert_ne hb
  own c' hc' := by
    rw [AList.lookup_insert, Option.some.injEq] at hc'
    rw [← hc']
    exact ⟨hc.cache, hc.push, hc.drop⟩
  deliveries := hds

/-- As `change_conn`, and a stream goes that is its own or not there. -/
theorem change_erase {c : Conn} {n : Nat} {id : String} {ds : Deliveries} (hc : c.Own s client)
    (hid : s.issued.lookup id = some client ∨ s.streams.lookup id = none)
    (hds : ∀ d ∈ ds, s.opened[d.1]? = some client) :
    Change client s
      { s with streams := s.streams.erase id, conns := s.conns.insert client c, charged := n }
      ds where
  grows := ⟨fun _ _ h => h, List.prefix_rfl⟩
  pending _ := .inl rfl
  streams k := by
    by_cases hk : k = id
    · rw [hk, AList.lookup_erase]
      rcases hid with hmine | hnone
      · exact .inr ⟨hmine, by simp⟩
      · exact .inl hnone.symm
    · exact .inl (AList.lookup_erase_ne hk)
  others b hb := AList.lookup_insert_ne hb
  own c' hc' := by
    rw [AList.lookup_insert, Option.some.injEq] at hc'
    rw [← hc']
    exact ⟨hc.cache, hc.push, hc.drop⟩
  deliveries := hds

theorem Conn.Own.forget {c : Conn} (h : c.Own s client) (id : String) :
    Conn.Own s client { c with cache := c.cache.erase id } where
  cache k e he := by
    by_cases hk : k = id
    · rw [hk, AList.lookup_erase] at he
      exact absurd he (by simp)
    · rw [AList.lookup_erase_ne hk] at he
      exact h.cache k e he
  push := h.push
  drop := h.drop

theorem Conn.Own.remember {c : Conn} (h : c.Own s client) {id : String} {tx : Chan}
    (hb : s.Belongs client id tx) (n : Nat) :
    Conn.Own s client { c with cache := c.cache.insert id ⟨tx, n⟩ } where
  cache k e he := by
    by_cases hk : k = id
    · rw [hk, AList.lookup_insert, Option.some.injEq] at he
      rw [hk, ← he]
      exact hb
    · rw [AList.lookup_insert_ne hk] at he
      exact h.cache k e he
  push := h.push
  drop := h.drop

theorem Conn.Own.idle {c : Conn} (h : c.Own s client) : Conn.Own s client { c with rest := .idle } where
  cache := h.cache
  push id tx bytes hr := by simp at hr
  drop id account hr := by simp at hr

theorem Conn.Own.pushing {c : Conn} (h : c.Own s client) {id : String} {tx : Chan}
    (hb : s.Belongs client id tx) (bytes : List UInt8) :
    Conn.Own s client { c with rest := .push id tx bytes } where
  cache := h.cache
  push k tx' bytes' hr := by
    simp only [Rest.push.injEq] at hr
    rw [← hr.1, ← hr.2.1]
    exact hb
  drop id account hr := by simp at hr

theorem Conn.Own.dropping {c : Conn} (h : c.Own s client) {id : String}
    (hid : s.issued.lookup id = some client) (account : Bool) :
    Conn.Own s client { c with rest := .drop id account } where
  cache := h.cache
  push id tx bytes hr := by simp at hr
  drop k account' hr := by
    simp only [Rest.drop.injEq] at hr
    rw [← hr.1]
    exact hid

theorem delivered_opened {heard : Bool} {tx : Chan} {item : Item}
    (h : s.opened[tx]? = some client) :
    ∀ d ∈ Exchanges.delivered heard tx item, s.opened[d.1]? = some client := by
  intro d hd
  unfold Exchanges.delivered at hd
  split at hd
  · rw [List.mem_singleton.mp hd]
    exact h
  · exact absurd hd List.not_mem_nil

theorem deliverResponseChunk_change (ho : s.Owned) (id : String) (bytes : List UInt8) :
    Change client s (s.deliverResponseChunk client id bytes) [] := by
  have hown := ho.conn client
  simp only [Exchanges.deliverResponseChunk]
  split
  · rename_i e he
    exact change_conn (hown.pushing (hown.cache id e he) bytes) (by simp)
  · split
    · rename_i h hst
      split
      · rename_i hclient
        have hb := ho.streams id h hst
        rw [hclient] at hb
        exact change_conn ((hown.remember hb 0).pushing hb bytes) (by simp)
      · exact .refl ho
    · exact .refl ho

theorem pushChunk_change (ho : s.Owned) {id : String} {tx : Chan} {bytes : List UInt8}
    (hrest : (s.conn client).rest = .push id tx bytes) (heard : Bool) :
    Change client s (s.pushChunk client id bytes heard)
      (Exchanges.delivered heard tx (.data bytes)) := by
  have hown := ho.conn client
  have hb := hown.push id tx bytes hrest
  have hds := @delivered_opened s client heard tx (.data bytes) hb.2
  simp only [Exchanges.pushChunk]
  split
  · split
    · rename_i e he
      split
      · exact change_conn (hown.remember (hown.cache id e he) 0).idle hds
      · exact change_conn (hown.remember (hown.cache id e he) _).idle hds
    · exact change_conn hown.idle hds
  · exact change_conn (hown.dropping hb.1 true) hds

theorem dropStream_change (ho : s.Owned) {id : String} {account : Bool}
    (hrest : (s.conn client).rest = .drop id account) :
    Change client s (s.dropStream client id account) [] := by
  have hown := ho.conn client
  have hid := hown.drop id account hrest
  cases account with
  | true =>
      have heq : s.dropStream client id true =
          { s with
            streams := s.streams.erase id
            conns := s.conns.insert client
              { cache := (s.conn client).cache.erase id, rest := .idle }
            charged := s.charged +
              (((s.conn client).cache.lookup id).map (·.unreported)).getD 0 } := by
        simp [Exchanges.dropStream, Exchanges.finishStreamAccounting, Exchanges.conn,
          Exchanges.setConn]
      rw [heq]
      exact change_erase (hown.forget id).idle (.inl hid) (by simp)
  | false => exact change_erase hown.idle (.inl hid) (by simp)

theorem onResponse_change (ho : s.Owned) (id : String) (r : TunnelResponse) (heard : Bool) :
    Change client s (s.onResponse client id r heard).1 (s.onResponse client id r heard).2 := by
  unfold Exchanges.onResponse
  split
  · rename_i req hreq
    split
    · rename_i hclient
      have hb := ho.pending id req hreq
      rw [hclient] at hb
      refine ⟨⟨fun _ _ h => h, List.prefix_rfl⟩, ?_, fun _ => .inl rfl, fun _ _ => rfl, ?_,
        delivered_opened hb.2⟩
      · intro k
        by_cases hk : k = id
        · rw [hk]
          exact .inr ⟨hb.1, AList.lookup_erase _ _⟩
        · exact .inl (AList.lookup_erase_ne hk)
      · intro c hc
        exact (ho.conns client c hc).grows ⟨fun _ _ h => h, List.prefix_rfl⟩
    · exact .refl ho
  · exact .refl ho

theorem finishStreamAccounting_change (ho : s.Owned) (id : String) :
    Change client s (s.finishStreamAccounting client id) [] :=
  change_conn ((ho.conn client).forget id) (by simp)

theorem closeStream_change (ho : s.Owned) (id : String) (last : Option Item) (heard : Bool) :
    Change client s (s.closeStream client id last heard).1
      (s.closeStream client id last heard).2 := by
  have hown := ho.conn client
  unfold Exchanges.closeStream Exchanges.takeOwnedStream
  cases hst : s.streams.lookup id with
  | none => exact finishStreamAccounting_change ho id
  | some h =>
      by_cases hclient : h.clientId = client
      · have hb := ho.streams id h hst
        rw [hclient] at hb
        simp only [hclient, if_true]
        refine change_erase (hown.forget id) (.inl hb.1) ?_
        cases last with
        | none => simp
        | some item => exact delivered_opened hb.2
      · simp only [hclient, if_false]
        exact finishStreamAccounting_change ho id

/-- `on_response_start` registers the stream of a request of this
connection, and may leave it something to do. -/
theorem registered_change {id : String} {ds : Deliveries} {conns : AList fun _ : String => Conn}
    (hid : s.issued.lookup id = some client)
    (hothers : ∀ b, b ≠ client → conns.lookup b = s.conns.lookup b)
    (hown : ∀ c, conns.lookup client = some c → c.Own s client)
    (hds : ∀ d ∈ ds, s.opened[d.1]? = some client) :
    Change client s
      { s with
        pending := s.pending.erase id
        streams := s.streams.insert id ⟨s.opened.length, client⟩
        conns
        opened := s.opened ++ [client] } ds where
  grows := ⟨fun _ _ h => h, List.prefix_append _ _⟩
  pending k := by
    by_cases hk : k = id
    · rw [hk]
      exact .inr ⟨hid, AList.lookup_erase _ _⟩
    · exact .inl (AList.lookup_erase_ne hk)
  streams k := by
    by_cases hk : k = id
    · rw [hk]
      refine .inr ⟨hid, fun h hh => ?_⟩
      rw [AList.lookup_insert, Option.some.injEq] at hh
      rw [← hh]
      exact ⟨rfl, by simp⟩
    · exact .inl (AList.lookup_insert_ne hk)
  others := hothers
  own c hc := (hown c hc).grows ⟨fun _ _ h => h, List.prefix_append _ _⟩
  deliveries := hds

theorem onResponseStart_change (ho : s.Owned) (id : String) (status : Nat)
    (headers : List (String × String)) (timings : Option ClientTimings) (heard : Bool) :
    Change client s (s.onResponseStart client id status headers timings heard).1
      (s.onResponseStart client id status headers timings heard).2 := by
  unfold Exchanges.onResponseStart
  split
  · rename_i req hreq
    split
    · rename_i hclient
      have hb := ho.pending id req hreq
      rw [hclient] at hb
      have hds := @delivered_opened s client heard req.tx
        (.response { status, headers, streamRx := some s.opened.length, timings }) hb.2
      cases heard with
      | true => exact registered_change hb.1 (fun _ _ => rfl) (ho.conns client) hds
      | false =>
          refine registered_change hb.1 (fun b hb' => AList.lookup_insert_ne hb') ?_ hds
          intro c hc
          rw [AList.lookup_insert, Option.some.injEq] at hc
          rw [← hc]
          exact (ho.conn client).dropping hb.1 false
    · exact .refl ho
  · exact .refl ho

/-! ## One turn, and every run -/

/-- A chunk that does not decode, for a stream of another connection. -/
def Poisons (decode : String → Option (List UInt8)) (s : Exchanges) (client : String)
    (frame : Option Frame) : Prop :=
  ∃ id data h, frame = some (.responseChunk id data) ∧ decode data = none ∧
    s.streams.lookup id = some h ∧ h.clientId ≠ client

theorem onResponseChunk_change (ho : s.Owned) {id data : String}
    (h : ¬ Poisons decode s client (some (.responseChunk id data))) :
    Change client s (s.onResponseChunk client decode id data) [] := by
  unfold Exchanges.onResponseChunk
  cases hdec : decode data with
  | some bytes => exact deliverResponseChunk_change ho id bytes
  | none =>
      refine change_erase ((ho.conn client).forget id) ?_ (by simp)
      cases hst : s.streams.lookup id with
      | none => exact .inr rfl
      | some st =>
          have hclient : st.clientId = client := by
            by_contra hne
            exact h ⟨id, data, st, rfl, hdec, hst, hne⟩
          have hid := (ho.streams id st hst).1
          rw [hclient] at hid
          exact .inl hid

theorem turn_change (ho : s.Owned) (heard : Bool) {frame : Option Frame}
    (h : ¬ Poisons decode s client frame) :
    Change client s (s.turn client decode heard frame).1 (s.turn client decode heard frame).2 := by
  cases frame with
  | none =>
      simp only [Exchanges.turn, Exchanges.resume]
      split
      · exact .refl ho
      · rename_i hrest
        exact pushChunk_change ho hrest heard
      · rename_i hrest
        exact dropStream_change ho hrest
  | some f =>
      cases f with
      | response id r => exact onResponse_change ho id r heard
      | responseStart id status headers timings =>
          exact onResponseStart_change ho id status headers timings heard
      | responseChunk id data => exact onResponseChunk_change ho h
      | binaryChunk id payload => exact deliverResponseChunk_change ho id payload
      | responseEnd id trailers => exact closeStream_change ho id _ heard
      | responseAbort id => exact closeStream_change ho id _ heard

/-- Entries may go without asking anyone. -/
theorem Exchanges.Owned.erase_stream (ho : s.Owned) (id : String) :
    Exchanges.Owned { s with streams := s.streams.erase id } where
  pending := ho.pending
  streams k h hh := by
    by_cases hk : k = id
    · rw [hk, AList.lookup_erase] at hh
      exact absurd hh (by simp)
    · rw [AList.lookup_erase_ne hk] at hh
      exact ho.streams k h hh
  conns client c hc := (ho.conns client c hc).grows ⟨fun _ _ h => h, List.prefix_rfl⟩

theorem turn_owned (ho : s.Owned) (heard : Bool) (frame : Option Frame) :
    (s.turn client decode heard frame).1.Owned := by
  by_cases h : Poisons decode s client frame
  · obtain ⟨id, data, st, rfl, hdec, -, -⟩ := h
    have heq : (s.turn client decode heard (some (.responseChunk id data))).1 =
        Exchanges.finishStreamAccounting { s with streams := s.streams.erase id } client id := by
      simp only [Exchanges.turn, Exchanges.onFrame, Exchanges.onResponseChunk, hdec]
    rw [heq]
    have ho' := ho.erase_stream id
    exact (finishStreamAccounting_change ho' id).owned ho'
  · exact (turn_change ho heard h).owned ho

theorem dispatch_owned (ho : s.Owned) {id : String} (hfresh : s.issued.lookup id = none) :
    (s.dispatch client id).Owned := by
  have hgrows : s.Grows (s.dispatch client id) := by
    refine ⟨?_, List.prefix_append _ _⟩
    intro k c hk
    have hne : k ≠ id := by
      rintro rfl
      rw [hfresh] at hk
      exact absurd hk (by simp)
    exact (AList.lookup_insert_ne hne).trans hk
  refine ⟨?_, ?_, ?_⟩
  · intro k req hreq
    by_cases hk : k = id
    · rw [hk] at hreq ⊢
      rw [Exchanges.dispatch, AList.lookup_insert, Option.some.injEq] at hreq
      rw [← hreq]
      exact ⟨AList.lookup_insert _, by simp [Exchanges.dispatch]⟩
    · rw [Exchanges.dispatch, AList.lookup_insert_ne hk] at hreq
      exact (ho.pending k req hreq).grows hgrows
  · intro k h hh
    exact (ho.streams k h hh).grows hgrows
  · intro b c hc
    exact (ho.conns b c hc).grows hgrows

/-- **Every run.** In every reachable state each entry, each remembered
sender and each unfinished handler is about ids drawn for its own
connection. -/
theorem reachable_owned (hs : (exchanges decode).Reachable s) : s.Owned := by
  refine hs.invariant ?_ ?_
  · rintro s rfl
    exact ⟨by simp, by simp, by simp⟩
  · intro s a s' _ ho hstep
    cases a with
    | dispatch id client =>
        obtain ⟨hfresh, rfl⟩ := hstep
        exact dispatch_owned ho hfresh
    | forgetPending id =>
        obtain rfl := hstep
        refine ⟨?_, ho.streams, fun b c hc => (ho.conns b c hc).grows ⟨fun _ _ h => h, List.prefix_rfl⟩⟩
        intro k req hreq
        by_cases hk : k = id
        · rw [hk, AList.lookup_erase] at hreq
          exact absurd hreq (by simp)
        · rw [AList.lookup_erase_ne hk] at hreq
          exact ho.pending k req hreq
    | sweepStream id =>
        obtain ⟨-, rfl⟩ := hstep
        exact ho.erase_stream id
    | connect client =>
        obtain ⟨-, rfl⟩ := hstep
        exact (@change_conn s client {} s.charged [] Conn.own_empty (by simp)).owned ho
    | disconnect client =>
        obtain rfl := hstep
        refine ⟨ho.pending, ho.streams, ?_⟩
        intro b c hc
        by_cases hb : b = client
        · rw [hb, Exchanges.disconnect, AList.lookup_erase] at hc
          exact absurd hc (by simp)
        · rw [Exchanges.disconnect, AList.lookup_erase_ne hb] at hc
          exact (ho.conns b c hc).grows ⟨fun _ _ h => h, List.prefix_rfl⟩
    | turn client heard frame =>
        obtain ⟨-, rfl⟩ := hstep
        exact turn_owned ho heard frame

/-- **Isolation.** In every reachable state, a turn of a connection leaves
the entries of all others as they were and hands nothing to their
receivers, exactly when the frame it handles is not a chunk that fails to
decode for another connection's stream. -/
theorem turn_isolated_iff (hs : (exchanges decode).Reachable s) (client : String) (heard : Bool)
    (frame : Option Frame) :
    Isolated client s (s.turn client decode heard frame).1 (s.turn client decode heard frame).2 ↔
      ∀ id data h, frame = some (.responseChunk id data) → decode data = none →
        s.streams.lookup id = some h → h.clientId = client := by
  have ho := reachable_owned hs
  constructor
  · rintro hiso id data h rfl hdec hst
    by_contra hne
    have hkept := (hiso.streams id h hst hne).1
    simp [Exchanges.turn, Exchanges.onFrame, Exchanges.onResponseChunk, hdec,
      Exchanges.finishStreamAccounting, Exchanges.setConn] at hkept
  · intro hcond
    refine (turn_change ho heard ?_).isolated ho
    rintro ⟨id, data, h, hframe, hdec, hst, hne⟩
    exact hne (hcond id data h hframe hdec hst)

end Ownership

/-- A decoder that knows one payload: the exclamation mark is in no base64
alphabet. -/
def decodesAllBut (bad : String) (data : String) : Option (List UInt8) :=
  if data = bad then none else some []

/-- Two connections are there and the second one has a request to answer. -/
def asked : Exchanges :=
  ((({} : Exchanges).setConn "a" {}).setConn "b" {}).dispatch "b" "r1"

/-- It streams the answer. -/
def streaming : Exchanges :=
  (asked.turn "b" (decodesAllBut "!") true (some (.responseStart "r1" 200 [] none))).1

theorem streaming_reachable : (exchanges (decodesAllBut "!")).Reachable streaming := by
  have ha : (exchanges (decodesAllBut "!")).Reachable (({} : Exchanges).setConn "a" {}) :=
    .step (a := ExchangeAct.connect "a") (.init rfl) ⟨rfl, rfl⟩
  have hb : (exchanges (decodesAllBut "!")).Reachable
      ((({} : Exchanges).setConn "a" {}).setConn "b" {}) :=
    .step (a := ExchangeAct.connect "b") ha ⟨rfl, rfl⟩
  have hr : (exchanges (decodesAllBut "!")).Reachable asked :=
    .step (a := ExchangeAct.dispatch "r1" "b") hb ⟨rfl, rfl⟩
  exact .step (a := ExchangeAct.turn "b" true (some (.responseStart "r1" 200 [] none))) hr
    ⟨⟨{}, rfl, by simp⟩, rfl⟩

/-- The first connection names the stream of the second one in a chunk that
does not decode, and the stream is gone. -/
theorem poisoned_chunk_ends_stream :
    (exchanges (decodesAllBut "!")).Reachable streaming ∧
      ¬ Isolated "a" streaming
        (streaming.turn "a" (decodesAllBut "!") true (some (.responseChunk "r1" "!"))).1
        (streaming.turn "a" (decodesAllBut "!") true (some (.responseChunk "r1" "!"))).2 := by
  refine ⟨streaming_reachable, ?_⟩
  intro h
  have hkept := (h.streams "r1" ⟨1, "b"⟩ rfl (by decide)).1
  exact absurd hkept (by decide)

/-- A chunk that decodes is only ignored. -/
theorem decoded_chunk_isolated :
    Isolated "a" streaming
      (streaming.turn "a" (decodesAllBut "!") true (some (.responseChunk "r1" "AA=="))).1
      (streaming.turn "a" (decodesAllBut "!") true (some (.responseChunk "r1" "AA=="))).2 := by
  refine (turn_isolated_iff streaming_reachable "a" true _).mpr ?_
  rintro id data h heq hdec -
  obtain ⟨rfl, rfl⟩ : "r1" = id ∧ "AA==" = data := by simpa using heq
  exact absurd hdec (by decide)

end Aperio
