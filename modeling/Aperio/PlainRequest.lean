import Aperio.Scaling
import Aperio.SiteAnswers
import Aperio.Upgrade

/-!
# What the proxy does with one request

`proxy_handler` and the gates of `proxy_http_request` behind it, each with the
answer it gives: the checks of `FrontServer` with what stands before them
(maintenance, a site's own answer, the preview's robots file, a fresh
install) and after them (the cache, the fallback). As there, the server stands
still: a wait ends without anybody having come.

A request that is held while scale-to-zero is on asks for a cold start, and
`Handled.coldStart` is the record `cold_start_wait` chose for it.
-/

namespace Aperio

/-! ## The server -/

structure MaintenanceFlag where
  org : Option String := none
  reason : Option String := none
  untilSecs : Option Nat := none
  since : Nat := 0
  actor : String
deriving Repr, DecidableEq

def MaintenanceFlag.expired (f : MaintenanceFlag) (nowSecs : Nat) : Bool :=
  f.untilSecs.any (· ≤ nowSecs)

/-- A record with what a cold start reads of it. -/
structure ColdStartRecord extends ScalingRecord where
  path : Option String := none
  coldStartSecs : Nat := 0
  owners : List String := []
deriving DecidableEq

namespace ColdStartRecord

def coldStartEnabled (r : ColdStartRecord) : Bool :=
  r.min == 0 && decide (0 < r.coldStartSecs)

/-- The record is about this bind: its path, or something under it. -/
def onRoute (r : ColdStartRecord) (hostname path : String) : Bool :=
  r.hostname == hostname && r.path.all fun p => path == p || startsWith path (p ++ "/")

/-- A record with a path wins over the hostname's. -/
def better (best : Option ColdStartRecord) (candidate : ColdStartRecord) :
    Option ColdStartRecord :=
  if best.all fun current => current.path.isNone && candidate.path.isSome then some candidate
  else best

end ColdStartRecord

/-- The server a request comes to, with its sites as they were compiled.
`tokenIps` is the token store's `allowed_ips`. -/
structure SiteServer (R : Type) extends FrontServer R where
  sites : CompiledSites R
  gate_sites : gate.cfg.sites = sites.map (·.toSite)
  firewall_sites : firewall = sites.map fun s => (s.toSite, s.waf)
  canaries_sites : canaries = sites.map fun s => (s.toSite, s.canary)
  limits_sites : limits.rateLimits = sites.map fun s => (s.toSite, s.rateLimit)
  maintenance : List (String × MaintenanceFlag) := []
  previewNoindex : Bool := false
  randomSubdomainSuffix : Option String := none
  dashboardEnabled : Bool := true
  lifetimeRequests : Nat := 0
  cache : DeclaredCache := {}
  scaling : List ColdStartRecord := []
  tokenIps : List (String × List String) := []
  deniedIps : List String := []
  maxBodySize : Nat := 0
  maxStreamsPerIp : Nat := 0

/-- `host` could be what the pattern of a random subdomain has produced. -/
def hostMatchesRandomPattern (host pattern : String) : Bool :=
  let host := toAsciiLowercase ((split host ':').headD host)
  match splitOnce host '.', splitOnce pattern '.' with
  | some (hostLabel, hostRest), some (patLabel, patRest) =>
    if hostRest != patRest then false
    else
      match splitOnce patLabel '*' with
      | none => false
      | some (before, after) =>
        decide (before.utf8ByteSize + after.utf8ByteSize < hostLabel.utf8ByteSize) &&
          startsWith hostLabel before && endsWith hostLabel after
  | _, _ => false

/-! ## Answers -/

inductive PlainAnswer where
  | maintenance (flag : MaintenanceFlag)
  | site (resp : SiteResponse)
  | robots
  /-- A fresh install: on to the dashboard. -/
  | dashboard
  | socket (answer : FrontAnswer)
  | limited (limit : Limit)
  | gated (resp : Refusal)
  /-- Nothing declares the route: the 504 of an unclaimed hostname. -/
  | undeclared
  /-- The wait for the route is over. -/
  | expired
  | stale (hit : CacheHit)
  | blocked (reason : String)
  /-- The page of a service that turns the visitor's address away. -/
  | elsewhere (redirect : String)
  | fallback (resp : SiteResponse)
  | unserved
  | cached (client : SelectedClient) (hit : CacheHit)
  | dispatched (client : SelectedClient)
deriving Repr, DecidableEq

structure Handled where
  answer : PlainAnswer
  coldStart : Option ColdStartRecord := none
deriving DecidableEq

namespace SiteServer

variable {R : Type} (S : SiteServer R)

/-! ## Maintenance -/

/-- A flag set on the pattern covers the hostname. -/
def flagCovers (pattern : String) (host : Option String) : Bool :=
  pattern == "*" || host.any fun h =>
    pattern == h || (pattern.toList.contains '*' && patternMatchesHost pattern h)

/-- A window that runs is looked for first; an expired flag does not match. -/
def maintenanceFor (host : Option String) : Option MaintenanceFlag :=
  let window :=
    if S.sites.hasMaintenance then S.sites.maintenanceFor host S.gate.nowSecs else none
  match window with
  | some (w, stop) =>
    some
      { reason := w.reason
        untilSecs := some stop
        since := S.gate.nowSecs
        actor := "schedule" }
  | none =>
    ((S.maintenance.filter fun e => !e.2.expired S.gate.nowSecs).find? fun e =>
      flagCovers e.1 host).map (·.2)

/-! ## Cold starts -/

/-- With no client there is no service whose list could turn the visitor away,
so the tokens of the record's owners do. -/
def visitorAllowed (record : ColdStartRecord) (ip : IpAddr) : Bool :=
  let lists := record.owners.filterMap fun owner => S.tokenIps.lookup owner
  lists.isEmpty || lists.any fun ips => ips.isEmpty || ipAllowed ip ips

/-- The record `cold_start_wait` asks for capacity with. -/
def coldStartRecord (host : Option String) (path : String) (ip : IpAddr) :
    Option ColdStartRecord :=
  match host with
  | none => none
  | some hostname =>
    if (S.maintenanceFor host).isSome then none
    else
      (((S.scaling.filter (·.onRoute hostname path)).foldl ColdStartRecord.better none).filter
        (·.coldStartEnabled)).filter (S.visitorAllowed · ip)

variable (r : FrontRequest)

/-- A wait that does not end at once asks for a cold start at its end. -/
def waits (undeclared : Bool) : Bool :=
  ((!S.routeExists r && S.worthWaitingForRoute) || (undeclared && S.declarationPending)) &&
    !(S.routeExists r && !S.declarationPending)

def coldStartOf (held : Bool) : Option ColdStartRecord :=
  if S.scalingEnabled && held then S.coldStartRecord r.host r.path r.callerIp else none

/-! ## `proxy_http_request` -/

/-- The request as the cache is asked about it. -/
def cachedRequest : CachedRequest where
  gate := S.gate
  visitor := r.visitor
  host := r.host
  path := r.path
  method := r.method
  headers := r.headers
  query := r.query
  callerIp := r.callerIp

/-- A resilient cached answer beats a 504. -/
def orStale (answer : PlainAnswer) : PlainAnswer :=
  match (staleCacheResponse (S.cachedRequest r) S.gate.now S.cache).1 with
  | some hit => .stale hit
  | none => answer

/-- Nobody serves the hostname: where its site sends visitors instead. -/
def orFallback : PlainAnswer :=
  match S.sites.fallbackFor r.host with
  | some rule => .fallback
      { status := rule.status
        location := (some (rule.location r.path r.query)).filter headerValueOk }
  | none => .unserved

/-- The copy a cacheable request of this service is answered with. -/
def cachedCopy (identity : Option VisitorIdentity) (client : SelectedClient) : PlainAnswer :=
  let svc := (S.chosenBy r (S.pickArgs r identity (S.canarySide r))).bind (·.get S.gate.clients)
  if S.gate.cfg.cacheEnabled && svc.any (·.cache) &&
      (identity.bind (·.forwardClientId)).isNone && requestCacheable r.method r.headers then
    match (S.cache.lookup (S.cachedRequest r).key S.gate.cfg.cacheMaxStale S.gate.now).1 with
    | .fresh hit => .cached client hit
    | .staleRevalidate hit _ => .cached client hit
    | .miss => .dispatched client
  else .dispatched client

/-- The limits of whoever serves the request. -/
def afterChosen (b : Budgets) (identity : Option VisitorIdentity) (client : SelectedClient) :
    PlainAnswer :=
  let token := b.checkTokenLimits S.limits (S.tokenId client) S.clock
  match token.1 with
  | some limit => .limited limit
  | none =>
    if token.2.orgOverMonthBytes S.limits (S.orgId client) then .limited .orgQuota
    else S.cachedCopy r identity client

/-- Past the rules of the route. A visitor every candidate turns away is told
nothing, and an answer a client vouched for is not replaced by a copy. -/
def afterRules (b : Budgets) (identity : Option VisitorIdentity) : PlainAnswer :=
  match S.pick r identity (S.canarySide r) with
  | .selected client => S.afterChosen r b identity client
  | .denied (some redirect) => .elsewhere redirect
  | .denied none => .unserved
  | .noRoute =>
    if (identity.bind (·.forwardClientId)).isSome then S.orFallback r
    else S.orStale r (S.orFallback r)

/-- A request the gate let in, with the route there or not worth a wait. -/
def afterAdmitted (b : Budgets) (identity : Option VisitorIdentity) : Handled :=
  if S.maxConcurrentRequests ≤ S.activeProxiedRequests then
    { answer := .limited .serverConcurrency }
  else
    let denied :=
      if S.firewall.hasWaf then S.firewall.wafDeny S.isMatch r.host r.method r.path r.headers
      else none
    match denied with
    | some reason => { answer := .blocked reason }
    | none =>
      let route := b.checkRouteRateLimit S.limits r.host r.path r.method S.clock
      if !route.1 then { answer := .limited .route }
      else
        { answer := S.afterRules r route.2 identity
          coldStart := S.coldStartOf r (!S.routeExists r) }

/-- Up to the dispatch. -/
def proxyHttpRequest : Handled :=
  let ip := S.budgets.checkRateLimit S.limits r.callerIp S.clock
  if !ip.1 then { answer := .limited .ip }
  else
    match checkVisitorGate (S.gateFor r.headers) r.visitor r.host r.path with
    | .deny resp => { answer := .gated resp }
    | .undeclared _ =>
      { answer := S.orStale r (if S.expires r true then .expired else .undeclared)
        coldStart := S.coldStartOf r (S.waits r true) }
    | .allow identity =>
      if S.expires r false then
        { answer := S.orStale r .expired, coldStart := S.coldStartOf r (S.waits r false) }
      else S.afterAdmitted r ip.2 identity

/-! ## `proxy_handler` -/

/-- Nobody has connected and nothing was ever asked for. -/
def firstRun : Bool :=
  S.dashboardEnabled && r.method == "GET" && r.path == "/" &&
    S.gate.clients.entries.isEmpty && S.lifetimeRequests == 0

/-- The robots file of a random-subdomain host. -/
def noindex (host : Option String) (path : String) : Bool :=
  S.previewNoindex && path == "/robots.txt" &&
    S.randomSubdomainSuffix.any fun pattern => host.any (hostMatchesRandomPattern · pattern)

def proxyHandler : Handled :=
  match S.maintenanceFor r.host with
  | some flag => { answer := .maintenance flag }
  | none =>
    match S.sites.answer r.host r.path r.query with
    | some resp => { answer := .site resp }
    | none =>
      if S.noindex r.host r.path then { answer := .robots }
      else if S.firstRun r then { answer := .dashboard }
      else if isWebsocketUpgrade r.method r.headers then
        { answer := .socket (S.handleWsProxy r).1 }
      else S.proxyHttpRequest r

end SiteServer

end Aperio
