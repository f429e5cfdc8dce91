import Aperio.Canary
import Aperio.Firewall
import Aperio.Limits

/-!
# The two fronts of a route

A visitor's request is taken by `proxy_http_request`, or, when its headers ask
for a WebSocket, by `handle_ws_proxy`. Both are sequences of checks over one
server; here each is run on a server that stands still, up to the moment it
hands the request on: waits end without anybody having come back.

The upgrade has a slot, a gate and a pick of its own, and asks neither the
sites' firewall nor their rate limits, nor the limits of the token and the
organization it is served by. `noWayRound_iff` says exactly when that is seen.
-/

namespace Aperio

/-! ## The request -/

/-- What arrives at the handler: the URI is without the gate's own query
parameter. -/
structure FrontRequest where
  method : String := "GET"
  host : Option String := none
  path : String
  query : Option String := none
  headers : InboundHeaders := []
  visitor : Visitor
  callerIp : IpAddr

def isWebsocketUpgrade (method : String) (headers : InboundHeaders) : Bool :=
  method == "GET" &&
    ((headers.get "upgrade").any (eqIgnoreAsciiCase · "websocket") &&
      (headers.get "connection").any fun v => containsText (toAsciiLowercase v) "upgrade")

/-- The headers of a WebSocket handshake. -/
def upgradeHeader (name : String) : Bool :=
  name == "upgrade" || name == "connection" || name.startsWith "sec-websocket-"

namespace FrontRequest

def uri (r : FrontRequest) : String :=
  match r.query with
  | none => r.path
  | some query => r.path ++ "?" ++ query

/-- The same request without its upgrade headers. -/
def plain (r : FrontRequest) : FrontRequest :=
  { r with headers := r.headers.filter fun h => !upgradeHeader h.name }

end FrontRequest

/-! ## The server -/

/-- The server as a request finds it. What a `forward` endpoint answers may
depend on any header, `socketUrl` is the address of a server-side target, and
`reads` says that a connection's sender is still there. -/
structure FrontServer (R : Type) where
  gate : GateState
  ask : InboundHeaders → ForwardConfig → Visitor → Option String → String → Verdict :=
    fun _ => gate.ask
  tunnelAnswer :
      InboundHeaders → ForwardConfig → Visitor → Option String → String → String → Verdict :=
    fun _ => gate.tunnelAnswer
  isMatch : R → String → Bool
  firewall : Firewall R := []
  canaries : List (Site × Option CanaryRule) := []
  limits : LimitSettings
  budgets : Budgets := {}
  clock : ℚ := 0
  strategy : LbStrategy := .roundRobin
  cursor : Nat := 0
  scalingEnabled : Bool := false
  gatewayTimeout : Nat := 30
  connected : Bool := false
  lastDisconnect : Option Nat := none
  maxConcurrentRequests : Nat
  activeProxiedRequests : Nat := 0
  maxWsConnections : Nat
  activeWsConnections : Nat := 0
  socketUrl : String → String → Option String := fun _ _ => none
  reads : String → Bool := fun _ => true

/-- How a front ends with a request. -/
inductive FrontAnswer where
  | limited (limit : Limit)
  | blocked
  | gated (resp : Refusal)
  | unavailable
  | unserved
  | elsewhere (redirect : String)
  | unreachable
  | tunnel (client : SelectedClient)
  | serverSide (client : SelectedClient) (address : String)
deriving Repr, DecidableEq

namespace FrontAnswer

/-- The request is on its way to a client or to a target served for one. -/
def dispatched : FrontAnswer → Bool
  | .tunnel _ => true
  | .serverSide _ _ => true
  | _ => false

/-- Refused for a site's rule or limit, or for a limit of whoever serves. -/
def byRule : FrontAnswer → Bool
  | .blocked => true
  | .limited .route => true
  | .limited .tokenRate => true
  | .limited .tokenQuota => true
  | .limited .orgQuota => true
  | _ => false

end FrontAnswer

namespace FrontServer

variable {R : Type} (S : FrontServer R) (r : FrontRequest)

def gateFor (headers : InboundHeaders) : GateState :=
  { S.gate with ask := S.ask headers, tunnelAnswer := S.tunnelAnswer headers }

/-! ## Selection -/

/-- `route_exists`. -/
def routeExists : Bool :=
  match selectClientPool S.gate.clients r.path r.host S.gate.now S.gate.downThreshold with
  | none => false
  | some (pool, _) =>
    match filterPoolByIp pool S.gate.clients (some r.callerIp) with
    | .inr _ => true
    | .inl pool => !(applyLbStrategy pool S.gate.clients S.strategy).isEmpty

/-- `route_declaration_pending`. -/
def declarationPending : Bool :=
  S.gate.clients.entries.any fun e =>
    e.2.awaitingDeclaration && e.2.isHealthy S.gate.now S.gate.downThreshold

def worthWaitingForRoute : Bool :=
  S.scalingEnabled || S.declarationPending ||
    S.lastDisconnect.any fun t => S.gate.now - t ≤ S.gatewayTimeout

/-- The request is held for the route, and nothing that holds it changes. -/
def expires (undeclared : Bool) : Bool :=
  ((!S.routeExists r && S.worthWaitingForRoute) || (undeclared && S.declarationPending)) &&
    !(S.routeExists r && (!S.declarationPending || S.scalingEnabled))

def canarySide : Option (String × Side) :=
  (canaryFor S.canaries r.host r.path).map fun rule =>
    (rule.service, rule.sideFor (rule.header.bind r.headers.get) (some r.callerIp))

/-- What a front picks with; an identity that came over the tunnel pins its
connection. -/
def pickArgs (identity : Option VisitorIdentity) (canary : Option (String × Side)) : PickArgs where
  strategy := S.strategy
  requirement := (identity.bind (·.forwardClientId)).map .client
  affinity := if S.strategy = .sticky then r.visitor.cookieValue "aperio_affinity" else none
  visitorIp := some r.callerIp
  canary := canary
  cursor := S.cursor

def pick (identity : Option VisitorIdentity) (canary : Option (String × Side)) : PickOutcome :=
  pickProxyClient S.gate.clients r.path r.host S.gate.now S.gate.downThreshold
    (S.pickArgs r identity canary)

/-- The token a connection was opened with. -/
def tokenId (client : SelectedClient) : Option String :=
  (S.gate.clients.lookup client.id).bind (·.perms.tokenId)

def orgId (client : SelectedClient) : Option String :=
  (S.gate.clients.lookup client.id).bind (·.perms.orgId)

/-- The service a pick chooses, before it is read. -/
def chosenBy (args : PickArgs) : Option ServiceRef :=
  match selectClientPool S.gate.clients r.path r.host S.gate.now S.gate.downThreshold with
  | none => none
  | some (pool, _) =>
    match filterPoolByIp pool S.gate.clients args.visitorIp with
    | .inr _ => none
    | .inl pool =>
      let pool := requireClient (applyLbStrategy pool S.gate.clients args.strategy) args.requirement
      choose (requireProcess (splitPool pool S.gate.clients args.canary) S.gate.clients
        args.requirement) S.gate.clients args

/-- The target of the service that is chosen, when it is served from here. -/
def serverSideTarget (args : PickArgs) : Option String :=
  ((S.chosenBy r args).bind (·.get S.gate.clients)).bind (·.serverSideTarget)

/-- Hands an upgrade to whoever was picked. -/
def handOn (args : PickArgs) (client : SelectedClient) : FrontAnswer :=
  match S.serverSideTarget r args with
  | some target =>
    match S.socketUrl target r.uri with
    | some address => .serverSide client address
    | none => .unreachable
  | none => if S.reads client.id then .tunnel client else .unreachable

/-! ## `proxy_http_request` -/

/-- A pick that found nobody. -/
def unpicked : Option String → FrontAnswer
  | some redirect => .elsewhere redirect
  | none => .unserved

/-- The limits of whoever serves the request. -/
def afterPick (b : Budgets) (client : SelectedClient) : FrontAnswer × Budgets :=
  let token := b.checkTokenLimits S.limits (S.tokenId client) S.clock
  match token.1 with
  | some limit => (.limited limit, token.2)
  | none =>
    if token.2.orgOverMonthBytes S.limits (S.orgId client) then (.limited .orgQuota, token.2)
    else (.tunnel client, token.2)

/-- A request the gate let in, with the route there or not worth a wait. -/
def afterGate (b : Budgets) (identity : Option VisitorIdentity) : FrontAnswer × Budgets :=
  if S.maxConcurrentRequests ≤ S.activeProxiedRequests then (.limited .serverConcurrency, b)
  else if S.firewall.hasWaf &&
      (S.firewall.wafDeny S.isMatch r.host r.method r.path r.headers).isSome then (.blocked, b)
  else
    let route := b.checkRouteRateLimit S.limits r.host r.path r.method S.clock
    if !route.1 then (.limited .route, route.2)
    else
      match S.pick r identity (S.canarySide r) with
      | .selected client => S.afterPick route.2 client
      | .denied redirect => (unpicked redirect, route.2)
      | .noRoute => (.unserved, route.2)

/-- Up to the dispatch. A route nothing declares is asked about once more
when the hold is over, and answers what it answered. -/
def proxyHttpRequest : FrontAnswer × Budgets :=
  let ip := S.budgets.checkRateLimit S.limits r.callerIp S.clock
  if !ip.1 then (.limited .ip, ip.2)
  else
    match checkVisitorGate (S.gateFor r.headers) r.visitor r.host r.path with
    | .deny resp => (.gated resp, ip.2)
    | .undeclared resp => if S.expires r true then (.unserved, ip.2) else (.gated resp, ip.2)
    | .allow identity =>
      if S.expires r false then (.unserved, ip.2) else S.afterGate r ip.2 identity

/-! ## `handle_ws_proxy` -/

/-- An upgrade is never a navigation, and its pick knows no canary. -/
def handleWsProxy : FrontAnswer × Budgets :=
  let ip := S.budgets.checkRateLimit S.limits r.callerIp S.clock
  if !ip.1 then (.limited .ip, ip.2)
  else if S.maxWsConnections ≤ S.activeWsConnections then (.unavailable, ip.2)
  else
    match checkVisitorGate (S.gateFor r.headers) { r.visitor with navigation := false }
      r.host r.path with
    | .deny resp => (.gated resp, ip.2)
    | .undeclared resp => (.gated resp, ip.2)
    | .allow identity =>
      if !S.connected then (.unserved, ip.2)
      else
        match S.pick r identity none with
        | .selected client => (S.handOn r (S.pickArgs r identity none) client, ip.2)
        | .denied redirect => (unpicked redirect, ip.2)
        | .noRoute => (.unserved, ip.2)

/-! ## What each front asks -/

/-- The visitor's address has a request left. -/
def IpAdmits : Prop :=
  (S.budgets.checkRateLimit S.limits r.callerIp S.clock).1 = true

/-- A rule or a limit of the route, or of whoever would serve the request, is
against it. -/
def RuledOut (identity : Option VisitorIdentity) : Prop :=
  (S.firewall.hasWaf &&
      (S.firewall.wafDeny S.isMatch r.host r.method r.path r.headers).isSome) = true ∨
    (S.budgets.checkRouteRateLimit S.limits r.host r.path r.method S.clock).1 = false ∨
    ∃ client, S.pick r identity (S.canarySide r) = .selected client ∧
      ((S.budgets.checkTokenLimits S.limits (S.tokenId client) S.clock).1.isSome = true ∨
        S.budgets.orgOverMonthBytes S.limits (S.orgId client) = true)

/-- The request comes as far as the rules, and one of them is against it. -/
def RefusedByRule : Prop :=
  S.activeProxiedRequests < S.maxConcurrentRequests ∧
    ∃ identity, checkVisitorGate (S.gateFor r.headers) r.visitor r.host r.path = .allow identity ∧
      S.RuledOut r identity

/-- A slot, the gate, a connected client, and somebody who can be handed the
upgrade. -/
def TakesUpgrade : Prop :=
  S.activeWsConnections < S.maxWsConnections ∧ S.connected = true ∧
    ∃ identity, checkVisitorGate (S.gateFor r.headers) { r.visitor with navigation := false }
        r.host r.path = .allow identity ∧
      ∃ client, S.pick r identity none = .selected client ∧
        (S.handOn r (S.pickArgs r identity none) client).dispatched = true

variable {S r} {client : SelectedClient} {identity : Option VisitorIdentity}

theorem afterPick_byRule {b : Budgets} (hrate : b.tokenRate = S.budgets.tokenRate)
    (hdaily : b.tokenDailyBytes = S.budgets.tokenDailyBytes)
    (horg : b.orgPeriods = S.budgets.orgPeriods) :
    (S.afterPick b client).1.byRule = true ↔
      (S.budgets.checkTokenLimits S.limits (S.tokenId client) S.clock).1.isSome = true ∨
        S.budgets.orgOverMonthBytes S.limits (S.orgId client) = true := by
  have hover : (b.checkTokenLimits S.limits (S.tokenId client) S.clock).2.orgOverMonthBytes
      S.limits (S.orgId client) = S.budgets.orgOverMonthBytes S.limits (S.orgId client) :=
    Budgets.orgOverMonthBytes_congr ((Budgets.checkTokenLimits_orgPeriods _ _).trans horg)
  simp only [afterPick, ← Budgets.checkTokenLimits_congr hrate hdaily, hover]
  cases htoken : (b.checkTokenLimits S.limits (S.tokenId client) S.clock).1 with
  | some limit =>
      rcases Budgets.checkTokenLimits_some htoken with rfl | rfl
      · simp [FrontAnswer.byRule]
      · simp [FrontAnswer.byRule]
  | none =>
      cases S.budgets.orgOverMonthBytes S.limits (S.orgId client) with
      | true => simp [FrontAnswer.byRule]
      | false => simp [FrontAnswer.byRule]

theorem unpicked_byRule (redirect : Option String) : (unpicked redirect).byRule = false := by
  cases redirect with
  | none => rfl
  | some url => rfl

theorem unpicked_dispatched (redirect : Option String) :
    (unpicked redirect).dispatched = false := by
  cases redirect with
  | none => rfl
  | some url => rfl

/-- The slot is the first thing asked after the gate, and the rules are all
that is asked before the dispatch. -/
theorem afterGate_byRule :
    (S.afterGate r (S.budgets.checkRateLimit S.limits r.callerIp S.clock).2 identity).1.byRule =
        true ↔
      S.activeProxiedRequests < S.maxConcurrentRequests ∧ S.RuledOut r identity := by
  simp only [afterGate, RuledOut]
  by_cases hslot : S.maxConcurrentRequests ≤ S.activeProxiedRequests
  · rw [if_pos hslot]
    simp only [FrontAnswer.byRule, Bool.false_eq_true, false_iff, not_and]
    intro hlt
    omega
  rw [if_neg hslot, and_iff_right (Nat.lt_of_not_le hslot)]
  by_cases hwaf : (S.firewall.hasWaf &&
      (S.firewall.wafDeny S.isMatch r.host r.method r.path r.headers).isSome) = true
  · rw [if_pos hwaf]
    exact iff_of_true rfl (.inl hwaf)
  rw [if_neg hwaf, or_iff_right hwaf, Budgets.checkRouteRateLimit_frame]
  have hroute : ((S.budgets.checkRateLimit S.limits r.callerIp S.clock).2.checkRouteRateLimit
      S.limits r.host r.path r.method S.clock).1 =
        (S.budgets.checkRouteRateLimit S.limits r.host r.path r.method S.clock).1 :=
    Budgets.checkRouteRateLimit_congr rfl
  rw [hroute]
  cases (S.budgets.checkRouteRateLimit S.limits r.host r.path r.method S.clock).1 with
  | false => exact iff_of_true rfl (.inl rfl)
  | true =>
      simp only [Bool.not_true, Bool.false_eq_true, if_false, Bool.true_eq_false, false_or]
      cases S.pick r identity (S.canarySide r) with
      | selected client =>
          simp only [PickOutcome.selected.injEq, exists_eq_left']
          exact afterPick_byRule rfl rfl rfl
      | noRoute => simp [FrontAnswer.byRule]
      | denied redirect => simp [unpicked_byRule]

/-- Somebody who is picked was chosen out of what the strategy left. -/
theorem routeExists_of_selected {canary : Option (String × Side)}
    (h : S.pick r identity canary = .selected client) : S.routeExists r = true := by
  obtain ⟨pool, key, allowed, chosen, handle, svc, hpool, hallowed, hmem, -⟩ :=
    pickProxyClient_selected h
  have hip : filterPoolByIp pool S.gate.clients (some r.callerIp) = .inl allowed := hallowed
  have hleft : chosen ∈ applyLbStrategy allowed S.gate.clients S.strategy :=
    mem_requireClient (mem_splitPool (mem_requireProcess hmem))
  simp only [routeExists, hpool, hip]
  rw [List.isEmpty_eq_false_iff_exists_mem.mpr ⟨chosen, hleft⟩]
  rfl

theorem expires_of_routeExists (h : S.routeExists r = true) : S.expires r false = false := by
  simp only [expires, h, Bool.not_true, Bool.false_and, Bool.or_self]

theorem proxyHttpRequest_byRule :
    (S.proxyHttpRequest r).1.byRule = true ↔
      S.IpAdmits r ∧ S.activeProxiedRequests < S.maxConcurrentRequests ∧
        ∃ identity, checkVisitorGate (S.gateFor r.headers) r.visitor r.host r.path =
            .allow identity ∧
          S.expires r false = false ∧ S.RuledOut r identity := by
  simp only [proxyHttpRequest, IpAdmits]
  cases (S.budgets.checkRateLimit S.limits r.callerIp S.clock).1 with
  | false => simp [FrontAnswer.byRule]
  | true =>
      cases hgate : checkVisitorGate (S.gateFor r.headers) r.visitor r.host r.path with
      | deny resp => simp [FrontAnswer.byRule]
      | undeclared resp =>
          cases S.expires r true with
          | true => simp [FrontAnswer.byRule]
          | false => simp [FrontAnswer.byRule]
      | allow identity =>
          cases S.expires r false with
          | true => simp [FrontAnswer.byRule]
          | false => simpa using afterGate_byRule

theorem handleWsProxy_dispatched :
    (S.handleWsProxy r).1.dispatched = true ↔ S.IpAdmits r ∧ S.TakesUpgrade r := by
  simp only [handleWsProxy, IpAdmits, TakesUpgrade]
  cases (S.budgets.checkRateLimit S.limits r.callerIp S.clock).1 with
  | false => simp [FrontAnswer.dispatched]
  | true =>
      by_cases hslot : S.maxWsConnections ≤ S.activeWsConnections
      · simp [FrontAnswer.dispatched, hslot]
      simp only [Bool.not_true, Bool.false_eq_true, if_false, if_neg hslot, true_and,
        and_iff_right (Nat.lt_of_not_le hslot)]
      cases checkVisitorGate (S.gateFor r.headers) { r.visitor with navigation := false }
          r.host r.path with
      | deny resp => simp [FrontAnswer.dispatched]
      | undeclared resp => simp [FrontAnswer.dispatched]
      | allow identity =>
          cases S.connected with
          | false => simp [FrontAnswer.dispatched]
          | true =>
              simp only [Bool.not_true, Bool.false_eq_true, if_false, true_and,
                VisitorGate.allow.injEq, exists_eq_left']
              cases S.pick r identity none with
              | selected client => simp
              | noRoute => simp [FrontAnswer.dispatched]
              | denied redirect => simp [unpicked_dispatched]

end FrontServer

/-! ## No way round -/

/-- A request whose headers ask for a WebSocket. -/
structure UpgradeRequest extends FrontRequest where
  upgrade : isWebsocketUpgrade method headers = true

/-- What the plain request is refused for by a rule, the upgrade is not
dispatched either. -/
def NoWayRound {R : Type} (S : FrontServer R) (u : UpgradeRequest) : Prop :=
  (S.proxyHttpRequest u.plain).1.byRule = true →
    (S.handleWsProxy u.toFrontRequest).1.dispatched = false

/-- **The two fronts agree on a refusal only where the upgrade is not taken
anyway.** Nothing the upgrade asks is about a rule of the route or a limit of
whoever serves it. -/
theorem noWayRound_iff {R : Type} (S : FrontServer R) (u : UpgradeRequest) :
    NoWayRound S u ↔
      ¬ (S.IpAdmits u.toFrontRequest ∧ S.TakesUpgrade u.toFrontRequest ∧
          S.RefusedByRule u.plain) := by
  rw [NoWayRound, ← Bool.not_eq_true, FrontServer.handleWsProxy_dispatched,
    FrontServer.proxyHttpRequest_byRule]
  constructor
  · rintro h ⟨hip, htakes, hslot, identity, hgate, hruled⟩
    have ⟨_, _, picked, _, client, hpick, _⟩ := htakes
    have hup : S.routeExists u.plain = true :=
      FrontServer.routeExists_of_selected hpick
    exact h ⟨hip, hslot, identity, hgate, FrontServer.expires_of_routeExists hup, hruled⟩
      ⟨hip, htakes⟩
  · rintro h ⟨hip, hslot, identity, hgate, -, hruled⟩ ⟨-, htakes⟩
    exact h ⟨hip, htakes, hslot, identity, hgate, hruled⟩

/-! ## A path nobody may ask for -/

/-- One connected service, and a site that denies `/admin` to everybody. -/
def guardedServer : FrontServer String where
  gate :=
    { clients := (∅ : Clients).insert "a" (carries "app")
      downThreshold := 5
      cfg := { defaultAccess := .allow } }
  isMatch := sameText
  firewall :=
    [({ hostname := "*", path := none, access := none, path_normal := Site.noPath_normal },
      [{ path := some "/admin" }])]
  limits := { ipLimitMax := 10, ipLimitRefill := 1 }
  connected := true
  maxConcurrentRequests := 8
  maxWsConnections := 8

/-- A handshake on the denied path. -/
def adminSocket : UpgradeRequest where
  path := "/admin"
  headers :=
    [⟨"upgrade", some "websocket", by decide⟩, ⟨"connection", some "Upgrade", by decide⟩]
  visitor := {}
  callerIp := .v4 0x7f000001#32
  upgrade := by decide

/-- The page is blocked and the socket goes through. -/
theorem socket_passes_firewall : ¬NoWayRound guardedServer adminSocket := by
  intro h
  have hpage : (guardedServer.proxyHttpRequest adminSocket.plain).1 = .blocked := by
    decide +kernel
  have hsocket : (guardedServer.handleWsProxy adminSocket.toFrontRequest).1.dispatched = true := by
    decide +kernel
  rw [h (by rw [hpage]; rfl)] at hsocket
  cases hsocket

end Aperio
