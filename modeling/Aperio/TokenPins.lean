import Aperio.Pick
import Aperio.Server
import Aperio.TokenStore

/-!
# Token pinning over time

`security.token_pinning`, on: a connection that presents a dynamic token is
held to the device key the token was first used with. The connection is in
the map from the upgrade on (`handle_socket`), its declarations are applied in
one lock region of `on_ping`, and the token store is asked in a later one.

`Waiting` is the time between: a connection of a dynamic token about which
the store has not been asked, or has said no.
-/

namespace Aperio

/-! ## A heartbeat in two regions -/

/-- The region of `on_ping` that holds the clients: whether the connection
goes on to its pin, and the clients afterwards. -/
def declareRegion (env : Env) (now : Nat) (clients : Clients) (id : String) (p : Ping) :
    Bool × Clients :=
  if !p.wellSized then (false, clients)
  else
    match clients.lookup id with
    | none => (true, clients)
    | some h =>
      match matchDeclarations h.services p.names with
      | .error _ => (false, clients)
      | .ok matched =>
        let declared := clients.insert id (declareHandle env now p matched h)
        let overCeiling := serviceConnectionOverCeiling declared id h.instanceGroup p.clientId
          (h.perms.connectionCeiling h.serverMaxConnections)
        (!overCeiling, settle env.cfg declared id)

/-- What the store answers a heartbeat with. -/
def pinAnswer : Except NotWritten Pinning → PinOutcome
  | .ok .pinned => .pinned
  | .ok .isMatch => .matched
  | .ok .mismatch => .mismatch
  | .error .notPersisted => .notPersisted
  | .error .noSuchRecord => .noSuchRecord

/-- The region that holds the tokens, for the token that was deferred to it:
whether the connection stays, and the tokens afterwards. -/
def pinRegion (tokens : TokenTable) (saved : Bool) (deferred key : Option String) :
    Bool × TokenTable :=
  match deferred with
  | none => (true, tokens)
  | some tokenId =>
    match key with
    | none => (false, tokens)
    | some key =>
      let out := tokens.pinKey saved tokenId key
      (match pinAnswer out.1 with
        | .mismatch => false
        | .notPersisted => false
        | _ => true, out.2)

/-! ## Connections and requests -/

inductive PinStage where
  | connected
  | declared
  | admitted
  | refused
deriving Repr, DecidableEq

/-- A connection, with the key of its last heartbeat and the token whose pin
that deferred (`Deferred::pin`). -/
structure PinConn where
  presented : Option String := none
  stage : PinStage := .connected
  deferred : Option String := none
deriving Repr, DecidableEq

/-- A request that was sent down a connection of a dynamic token, and the key
the token was pinned to at the time. -/
structure PinnedDispatch where
  client : String
  presented : Option String
  pinned : Option String
deriving Repr, DecidableEq

structure PinState where
  clients : Clients := ∅
  tokens : TokenTable
  conns : String → PinConn := fun _ => {}
  dispatched : List PinnedDispatch := []

/-- What a request is routed by. -/
structure PinRequest where
  path : String
  host : Option String := none
  now : Nat := 0
  downThreshold : Nat := 45
  args : PickArgs := {}

inductive PinAct where
  | connect (env : Env) (now : Nat) (id : String) (c : Connect)
  | declare (env : Env) (now : Nat) (id : String) (p : Ping)
  | pin (id : String) (saved : Bool)
  | leave (id : String)
  | request (r : PinRequest)

namespace PinState

variable (s : PinState)

def setConn (id : String) (conn : PinConn) : PinState :=
  { s with conns := Function.update s.conns id conn }

/-- The key a token is pinned to. -/
def pinnedKey (tokenId : String) : Option String :=
  (s.tokens.memory.get tokenId).bind (·.pinnedKey)

/-- The dispatch a request is remembered as. A connection without a dynamic
token is not pinned. -/
def dispatches (r : PinRequest) : List PinnedDispatch :=
  match pickProxyClient s.clients r.path r.host r.now r.downThreshold r.args with
  | .selected sel =>
    (((s.clients.lookup sel.id).bind (·.perms.tokenId)).map fun tokenId =>
      { client := sel.id
        presented := (s.conns sel.id).presented
        pinned := s.pinnedKey tokenId }).toList
  | _ => []

/-- A connection handles its heartbeats one after the other, and no more after
one that was refused. -/
def next : PinAct → Option PinState
  | .connect env now id c =>
    if id ∈ s.clients then none
    else some { s.setConn id {} with clients := s.clients.insert id (newHandle env.cfg now c) }
  | .declare env now id p =>
    if (s.conns id).stage = .connected ∨ (s.conns id).stage = .admitted then
      let out := declareRegion env now s.clients id p
      let deferred := (s.clients.lookup id).bind (·.perms.tokenId)
      some { s.setConn id ⟨p.clientKey, if out.1 then .declared else .refused, deferred⟩ with
        clients := out.2 }
    else none
  | .pin id saved =>
    if (s.conns id).stage = .declared then
      let out := pinRegion s.tokens saved (s.conns id).deferred (s.conns id).presented
      let stage := if out.1 then PinStage.admitted else .refused
      some { s.setConn id { s.conns id with stage } with tokens := out.2 }
    else none
  | .leave id => some { s with clients := s.clients.erase id }
  | .request r => some { s with dispatched := s.dispatched ++ s.dispatches r }

end PinState

/-- A server that starts without connections, over any tokens. -/
def pinSys : Sys PinState PinAct where
  init s := s.clients = ∅ ∧ s.dispatched = []
  step s a s' := s.next a = some s'

/-- The connection had presented a key, and its token is pinned to no other. -/
def PinnedDispatch.Honest (d : PinnedDispatch) : Prop :=
  ∃ key, d.presented = some key ∧ ∀ pinned, d.pinned = some pinned → pinned = key

def PinState.Held (s : PinState) : Prop :=
  ∀ d ∈ s.dispatched, d.Honest

/-- A connection of a dynamic token that the store has not let in. -/
def PinState.Waiting (s : PinState) (id : String) : Prop :=
  (∃ h, s.clients.lookup id = some h ∧ h.perms.tokenId.isSome = true) ∧
    (s.conns id).stage ≠ .admitted

/-- A request comes while nobody in the pool of its route is waiting. -/
def settledPool (s : PinState) (a : PinAct) (_ : PinState) : Prop :=
  match a with
  | .request r => ∀ pool key,
      selectClientPool s.clients r.path r.host r.now r.downThreshold = some (pool, key) →
        ∀ ref ∈ pool, ¬s.Waiting ref.client
  | _ => True

/-! ## The token store -/

theorem Tokens.get_modify (tokens : Tokens) (id id' : String) {f : ApiToken → ApiToken}
    (hf : ∀ token, (f token).id = token.id) : (tokens.modify id f).get id' =
      (tokens.get id').map fun token => if id' = id then f token else token := by
  induction tokens with
  | nil => rfl
  | cons token rest ih =>
      by_cases htoken : (token.id == id) = true
      · rw [modify, if_pos htoken]
        have hid : token.id = id := by simpa using htoken
        by_cases heq : id' = id
        · simp [get, hid, heq, hf]
        · have hne : ¬id = id' := fun h => heq h.symm
          simp [get, hid, heq, hne, hf]
      · rw [modify, if_neg htoken]
        have hid : ¬token.id = id := by simpa using htoken
        by_cases heq : token.id = id'
        · have hne : ¬id' = id := fun h => hid (heq.trans h)
          simp [get, heq, hne]
        · simpa [get, heq] using ih

/-- Pinning finds no record, reads a pin that is there, or writes a new one or
fails to. -/
theorem TokenTable.pinKey_cases (tokens : TokenTable) (saved : Bool) (id key : String) :
    (tokens.memory.get id = none ∧ tokens.pinKey saved id key = (.error .noSuchRecord, tokens)) ∨
    (∃ token existing, tokens.memory.get id = some token ∧ token.pinnedKey = some existing ∧
      tokens.pinKey saved id key =
        (.ok (if existing = key then .isMatch else .mismatch), tokens)) ∨
    ∃ token, tokens.memory.get id = some token ∧ token.pinnedKey = none ∧
      (tokens.pinKey saved id key = (.error .notPersisted, tokens) ∨
        tokens.pinKey saved id key = (.ok .pinned, Table.load
          (tokens.memory.modify id fun token => { token with pinnedKey := some key }))) := by
  rw [pinKey]
  cases hget : tokens.memory.get id with
  | none => exact .inl ⟨rfl, rfl⟩
  | some token =>
      cases hpin : token.pinnedKey with
      | some existing => exact .inr (.inl ⟨token, existing, rfl, hpin, by simp only [hpin]⟩)
      | none =>
          refine .inr (.inr ⟨token, rfl, hpin, ?_⟩)
          simp only [hpin]
          cases saved with
          | false => exact .inl rfl
          | true => exact .inr rfl

section Pinned

variable {tokens : TokenTable} {saved : Bool} {deferred key : Option String}

variable (tokens saved deferred key) in
/-- A record that is missing stays so, and a pin that is there stays. -/
theorem pinRegion_keeps (tokenId : String) :
    (tokens.memory.get tokenId = none →
        (pinRegion tokens saved deferred key).2.memory.get tokenId = none) ∧
      ∀ pinned, (tokens.memory.get tokenId).bind (·.pinnedKey) = some pinned →
        ((pinRegion tokens saved deferred key).2.memory.get tokenId).bind (·.pinnedKey) =
          some pinned := by
  simp only [pinRegion]
  cases deferred with
  | none => exact ⟨fun h => h, fun _ h => h⟩
  | some id =>
      cases key with
      | none => exact ⟨fun h => h, fun _ h => h⟩
      | some key =>
          dsimp only
          rcases tokens.pinKey_cases saved id key with
            ⟨-, hc⟩ | ⟨token, existing, -, -, hc⟩ | ⟨token, hget, hpin, hc | hc⟩
          · rw [hc]
            exact ⟨fun h => h, fun _ h => h⟩
          · rw [hc]
            exact ⟨fun h => h, fun _ h => h⟩
          · rw [hc]
            exact ⟨fun h => h, fun _ h => h⟩
          · have hafter : (Table.load (tokens.memory.modify id fun token =>
                { token with pinnedKey := some key })).memory.get tokenId =
                  (tokens.memory.get tokenId).map fun token =>
                    if tokenId = id then { token with pinnedKey := some key } else token :=
              Tokens.get_modify tokens.memory id tokenId fun _ => rfl
            rw [hc]
            simp only [hafter]
            refine ⟨fun h => by rw [h]; rfl, fun pinned h => ?_⟩
            by_cases heq : tokenId = id
            · rw [heq, hget, Option.bind_some, hpin] at h
              cases h
            · simpa [heq] using h

/-- A connection that is let in had a key, and the token is pinned to it or
gone. -/
theorem pinRegion_admits {tokenId : String} (htoken : deferred = some tokenId)
    (h : (pinRegion tokens saved deferred key).1 = true) : ∃ k, key = some k ∧
      ((pinRegion tokens saved deferred key).2.memory.get tokenId = none ∨
        ((pinRegion tokens saved deferred key).2.memory.get tokenId).bind (·.pinnedKey) = some k) := by
  simp only [pinRegion, htoken] at h ⊢
  cases key with
  | none => cases h
  | some key =>
      refine ⟨key, rfl, ?_⟩
      simp only at h ⊢
      rcases tokens.pinKey_cases saved tokenId key with
        ⟨hget, hc⟩ | ⟨token, existing, hget, hpin, hc⟩ | ⟨token, hget, hpin, hc | hc⟩
      · rw [hc]
        exact .inl hget
      · rw [hc] at h ⊢
        by_cases heq : existing = key
        · right
          rw [hget, Option.bind_some, hpin, heq]
        · rw [if_neg heq] at h
          cases h
      · rw [hc] at h
        cases h
      · rw [hc]
        right
        have hafter := Tokens.get_modify tokens.memory tokenId tokenId
          (f := fun token => { token with pinnedKey := some key }) fun _ => rfl
        rw [Table.load, hafter, hget, Option.map_some, Option.bind_some, if_pos rfl]

end Pinned

/-! ## Every state -/

theorem declareRegion_lookup {env : Env} {now : Nat} {clients : Clients} {id k : String} {p : Ping}
    {h : ClientHandle} (hk : (declareRegion env now clients id p).2.lookup k = some h) :
    ∃ h', clients.lookup k = some h' ∧ h'.perms = h.perms := by
  simp only [declareRegion] at hk
  split at hk
  · exact ⟨h, hk, rfl⟩
  · cases hid : clients.lookup id with
    | none =>
        rw [hid] at hk
        exact ⟨h, hk, rfl⟩
    | some own =>
        simp only [hid] at hk
        split at hk
        · exact ⟨h, hk, rfl⟩
        · rename_i matched _
          have hins : (clients.insert id (declareHandle env now p matched own)).lookup id =
              some (declareHandle env now p matched own) := AList.lookup_insert _
          by_cases heq : k = id
          · rw [heq] at hk ⊢
            rw [settle_lookup_self hins] at hk
            cases hk
            exact ⟨own, hid, rfl⟩
          · rw [settle_lookup_ne heq, AList.lookup_insert_ne heq] at hk
            exact ⟨h, hk, rfl⟩

/-- The store agrees with the key of every connection it has let in. -/
def PinState.Agrees (s : PinState) : Prop :=
  ∀ id h tokenId, s.clients.lookup id = some h → h.perms.tokenId = some tokenId →
    (s.conns id).stage = .admitted → ∃ key, (s.conns id).presented = some key ∧
      (s.tokens.memory.get tokenId = none ∨ s.pinnedKey tokenId = some key)

/-- The token that is deferred is the connection's own. -/
def PinState.Defers (s : PinState) : Prop :=
  ∀ id h, s.clients.lookup id = some h → (s.conns id).stage = .declared →
    (s.conns id).deferred = h.perms.tokenId

theorem PinState.Agrees.dispatches_honest {s : PinState} {r : PinRequest} (h : s.Agrees)
    (hsettled : ∀ pool key,
      selectClientPool s.clients r.path r.host r.now r.downThreshold = some (pool, key) →
        ∀ ref ∈ pool, ¬s.Waiting ref.client) : ∀ d ∈ s.dispatches r, d.Honest := by
  intro d hd
  simp only [dispatches] at hd
  split at hd
  · rename_i sel hsel
    obtain ⟨tokenId, htoken, rfl⟩ := Option.map_eq_some_iff.mp (Option.mem_toList.mp hd)
    obtain ⟨handle, hlook, hperms⟩ := Option.bind_eq_some_iff.mp htoken
    obtain ⟨pool, key, hpool, ref, href, hid⟩ := pickProxyClient_mem hsel
    have hadmitted : (s.conns sel.id).stage = .admitted := by
      by_contra hne
      refine hsettled pool key hpool ref href ⟨⟨handle, ?_, ?_⟩, ?_⟩
      · rw [hid]
        exact hlook
      · rw [hperms]
        rfl
      · rw [hid]
        exact hne
    obtain ⟨k, hpresented, hstore⟩ := h sel.id handle tokenId hlook hperms hadmitted
    refine ⟨k, hpresented, fun pinned hpinned => ?_⟩
    rcases hstore with hgone | hpin
    · simp [pinnedKey, hgone] at hpinned
    · exact Option.some.inj (hpinned.symm.trans hpin)
  · cases hd

/-- What a step leaves of a connection that is there afterwards: it is new, it
has declared, the store was asked about it, or it is as it was. -/
inductive PinState.After (s : PinState) (a : PinAct) (s' : PinState) (k : String)
    (h : ClientHandle) : Prop
  | opened (stage : (s'.conns k).stage = .connected)
  | declared (stage : (s'.conns k).stage ≠ .admitted)
      (own : (s'.conns k).deferred = h.perms.tokenId)
  | asked {saved : Bool} (act : a = .pin k saved) (before : s.clients.lookup k = some h)
      (stage : (s.conns k).stage = .declared)
  | kept {old : ClientHandle} (before : s.clients.lookup k = some old)
      (perms : h.perms = old.perms) (conn : s'.conns k = s.conns k)

section Step

variable {s s' : PinState} {a : PinAct}

theorem PinState.next_after (hnext : s.next a = some s') {k : String} {h : ClientHandle}
    (hlook : s'.clients.lookup k = some h) : s.After a s' k h := by
  cases a with
  | request r =>
      obtain rfl := Option.some.inj hnext
      exact .kept hlook rfl rfl
  | leave id =>
      obtain rfl := Option.some.inj hnext
      by_cases hk : k = id
      · rw [hk, show (s.clients.erase id).lookup id = none from AList.lookup_erase _ _] at hlook
        cases hlook
      · rw [show (s.clients.erase id).lookup k = _ from AList.lookup_erase_ne hk] at hlook
        exact .kept hlook rfl rfl
  | connect env now id c =>
      obtain ⟨-, heq⟩ := Option.ite_none_left_eq_some.mp hnext
      obtain rfl := Option.some.inj heq
      by_cases hk : k = id
      · exact .opened (by simp [setConn, hk])
      · rw [AList.lookup_insert_ne hk] at hlook
        exact .kept hlook rfl (Function.update_of_ne hk ..)
  | declare env now id p =>
      obtain ⟨-, rfl⟩ := Sys.guarded_eq_some hnext
      obtain ⟨old, hold, hperms⟩ := declareRegion_lookup hlook
      by_cases hk : k = id
      · subst hk
        refine .declared ?_ ?_
        · simp only [setConn, Function.update_self]
          split <;> simp
        · simp only [setConn, Function.update_self, hold, Option.bind_some, hperms]
      · exact .kept hold hperms.symm (Function.update_of_ne hk ..)
  | pin id saved =>
      obtain ⟨hdeclared, rfl⟩ := Sys.guarded_eq_some hnext
      by_cases hk : k = id
      · subst hk
        exact .asked rfl hlook hdeclared
      · exact .kept hlook rfl (Function.update_of_ne hk ..)

/-- A record that is missing stays so, a pin that is there stays, and only a
request is dispatched. -/
theorem PinState.next_frame (hnext : s.next a = some s') :
    (∀ tokenId, (s.tokens.memory.get tokenId = none → s'.tokens.memory.get tokenId = none) ∧
      ∀ key, s.pinnedKey tokenId = some key → s'.pinnedKey tokenId = some key) ∧
    (s'.dispatched = s.dispatched ∨
      ∃ r, a = .request r ∧ s'.dispatched = s.dispatched ++ s.dispatches r) := by
  cases a with
  | request r =>
      obtain rfl := Option.some.inj hnext
      exact ⟨fun _ => ⟨id, fun _ => id⟩, .inr ⟨r, rfl, rfl⟩⟩
  | leave id =>
      obtain rfl := Option.some.inj hnext
      exact ⟨fun _ => ⟨fun h => h, fun _ h => h⟩, .inl rfl⟩
  | connect env now id c =>
      obtain ⟨-, heq⟩ := Option.ite_none_left_eq_some.mp hnext
      obtain rfl := Option.some.inj heq
      exact ⟨fun _ => ⟨fun h => h, fun _ h => h⟩, .inl rfl⟩
  | declare env now id p =>
      obtain ⟨-, rfl⟩ := Sys.guarded_eq_some hnext
      exact ⟨fun _ => ⟨fun h => h, fun _ h => h⟩, .inl rfl⟩
  | pin id saved =>
      obtain ⟨-, rfl⟩ := Sys.guarded_eq_some hnext
      exact ⟨pinRegion_keeps s.tokens saved (s.conns id).deferred (s.conns id).presented, .inl rfl⟩

theorem PinState.Defers.next (h : s.Defers) (hnext : s.next a = some s') : s'.Defers := by
  intro k handle hlook hstage
  cases next_after hnext hlook with
  | opened hopened =>
      rw [hopened] at hstage
      cases hstage
  | declared _ own => exact own
  | asked act before _ =>
      subst act
      obtain ⟨-, rfl⟩ := Sys.guarded_eq_some hnext
      simp only [setConn, Function.update_self] at hstage
      split at hstage <;> cases hstage
  | kept before perms conn =>
      rw [conn] at hstage ⊢
      rw [perms]
      exact h k _ before hstage

theorem PinState.Agrees.next (h : s.Agrees) (hdefers : s.Defers) (hnext : s.next a = some s') :
    s'.Agrees := by
  intro k handle tokenId hlook htoken hstage
  cases next_after hnext hlook with
  | opened hopened =>
      rw [hopened] at hstage
      cases hstage
  | declared hother _ => exact absurd hstage hother
  | asked act before hdeclared =>
      subst act
      obtain ⟨-, rfl⟩ := Sys.guarded_eq_some hnext
      simp only [setConn, Function.update_self] at hstage ⊢
      refine pinRegion_admits ((hdefers k handle before hdeclared).trans htoken) ?_
      by_contra hno
      rw [if_neg hno] at hstage
      cases hstage
  | kept before perms conn =>
      rw [conn] at hstage ⊢
      obtain ⟨key, hpresented, hstore⟩ := h k _ tokenId before (perms ▸ htoken) hstage
      obtain ⟨hgone, hpinned⟩ := (next_frame hnext).1 tokenId
      exact ⟨key, hpresented, hstore.imp hgone (hpinned key)⟩

end Step

/-- **A request is only sent to the device its token is pinned to**, in every
run whose requests find nobody waiting. -/
theorem pins_held {s : PinState} (hs : (pinSys.restrict settledPool).Reachable s) : s.Held := by
  refine (hs.invariant (P := fun s => s.Defers ∧ s.Agrees ∧ s.Held) ?_ ?_).2.2
  · rintro s ⟨hclients, hdispatched⟩
    refine ⟨?_, ?_, ?_⟩
    · intro id h hlook
      rw [hclients, AList.lookup_empty] at hlook
      cases hlook
    · intro id h tokenId hlook
      rw [hclients, AList.lookup_empty] at hlook
      cases hlook
    · intro d hd
      rw [hdispatched] at hd
      cases hd
  · rintro s a s' - ⟨hdefers, hagrees, hheld⟩ ⟨hnext, hsettled⟩
    refine ⟨hdefers.next hnext, hagrees.next hdefers hnext, ?_⟩
    rcases (PinState.next_frame hnext).2 with hsame | ⟨r, rfl, hmore⟩
    · exact fun d hd => hheld d (hsame ▸ hd)
    · intro d hd
      rw [hmore] at hd
      rcases List.mem_append.mp hd with hd | hd
      · exact hheld d hd
      · exact hagrees.dispatches_honest hsettled d hd

/-! ## A token that is taken elsewhere -/

/-- What the token may serve. -/
def shopToken : ClientPerms :=
  { ClientPerms.ofMaster with
    master := false
    hostnames := ["shop.acme.com"]
    tokenName := some "shop"
    tokenId := some "t-1" }

/-- The token, pinned to the device of the shop. -/
def shopRecord : ApiToken where
  id := "t-1"
  name := "shop"
  tokenHash := "h-1"
  tokenPrefix := "ap_1"
  hostnames := ["shop.acme.com"]
  paths := []
  createdAt := 0
  expiresAt := none
  pinnedKey := some "k-1"

/-- Nobody is connected. -/
def shopClosed : PinState where
  tokens := Table.load [shopRecord]

def opens : PinAct := .connect plainEnv 0 "c-1" { perms := shopToken }

/-- The first heartbeat, with a key. -/
def declares (key : String) : PinAct :=
  .declare plainEnv 0 "c-1" { services := [{ http := true }], clientKey := some key }

def visit : PinAct := .request { path := "/", host := some "shop.acme.com" }

def PinState.after (s : PinState) (a : PinAct) : PinState :=
  (s.next a).getD s

/-- The shop's own device is let in. -/
def shopOpen : PinState :=
  ((shopClosed.after opens).after (declares "k-1")).after (.pin "c-1" true)

theorem reachable_shopOpen : (pinSys.restrict settledPool).Reachable shopOpen := by
  have h₀ : (pinSys.restrict settledPool).Reachable shopClosed := .init ⟨rfl, rfl⟩
  have h₁ : (pinSys.restrict settledPool).Reachable (shopClosed.after opens) :=
    h₀.step (a := opens) ⟨rfl, trivial⟩
  have h₂ : (pinSys.restrict settledPool).Reachable
      ((shopClosed.after opens).after (declares "k-1")) :=
    h₁.step (a := declares "k-1") ⟨rfl, trivial⟩
  exact h₂.step (a := .pin "c-1" true) ⟨rfl, trivial⟩

/-- A visit goes to the shop's own device. -/
theorem pins_held_shop : ∃ s, (pinSys.restrict settledPool).Reachable s ∧
    s.dispatched = [⟨"c-1", some "k-1", some "k-1"⟩] ∧ s.Held := by
  have hpool : selectClientPool shopOpen.clients "/" (some "shop.acme.com") 0 45 =
      some ([⟨"c-1", 0⟩], (some "shop.acme.com", none)) := by
    decide
  have hsettled : settledPool shopOpen visit (shopOpen.after visit) := by
    intro pool key h
    rw [hpool] at h
    cases h
    intro ref href
    obtain rfl := List.mem_singleton.mp href
    rintro ⟨-, hstage⟩
    exact hstage rfl
  have hs := reachable_shopOpen.step (a := visit) ⟨rfl, hsettled⟩
  exact ⟨_, hs, by decide, pins_held hs⟩

/-- The token is used from another device, whose heartbeat has not come. A
visit goes there. -/
theorem dispatched_before_pin : ∃ s, pinSys.Reachable s ∧
    s.dispatched = [⟨"c-1", none, some "k-1"⟩] ∧ ¬s.Held := by
  have h₀ : pinSys.Reachable shopClosed := .init ⟨rfl, rfl⟩
  have h₁ : pinSys.Reachable (shopClosed.after opens) := h₀.step (a := opens) rfl
  have h₂ : pinSys.Reachable ((shopClosed.after opens).after visit) := h₁.step (a := visit) rfl
  have hsent : ((shopClosed.after opens).after visit).dispatched =
      [⟨"c-1", none, some "k-1"⟩] := by
    decide
  refine ⟨_, h₂, hsent, fun h => ?_⟩
  obtain ⟨key, hkey, -⟩ := h _ (by rw [hsent]; exact List.mem_singleton_self _)
  cases hkey

end Aperio
