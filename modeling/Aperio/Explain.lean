import Aperio.PlainRequest

/-!
# Explaining a request

`api/explain.rs`: a walk through the proxy's decisions for a request nobody
sends. Each stage reports what it saw, and the first that decides is the
outcome; those behind it still report.

The sentences are left out. What a sentence interpolates is in the parameters
of its step, and the code beside them names the message.
-/

namespace Aperio

/-! ## The report -/

/-- The stages, and the outcomes that name one: `client` is the request that
reaches a client. -/
inductive ExplainStage where
  | deniedIps
  | maintenance
  | staticRoute
  | previewNoindex
  | waf
  | routeRateLimit
  | rateLimitIp
  | visitorGate
  | serverConcurrency
  | routing
  | coldStart
  | fallback
  | noClient
  | allowedIps
  | bodyLimit
  | clientConcurrency
  | cache
  | tokenQuota
  | orgQuota
  | streamsPerIp
  | client
deriving Repr, DecidableEq

inductive ExplainVerdict where
  | decides
  | passes
  | skipped
deriving Repr, DecidableEq

/-- The connections that share a name. `label` is `org@name`, or `none` for
somebody the caller may not be told about, whose ids are left out too. -/
structure Named where
  label : Option String
  count : Nat
  ids : List String
deriving Repr, DecidableEq

inductive ExplainParams where
  | entries (count : Nat)
  | flag (actor : String) (reason : Option String) (untilSecs : Option Nat)
  | answer (status : Nat) (location : Option String)
  | reason (reason : String)
  | rate (rps burst : ℚ) (methods : Option String)
  | bucket (max refill : ℚ)
  | slots (inFlight : Option Nat) (max : Nat)
  | clients (count : Option Nat) (clients : List Named)
  | ineligible (count : Nat) (ineligible : List (Named × Option String))
  | redirect (status : Nat) (url : String)
  | body (effective server : Nat) (service : Option Nat)
  | ceiling (max : Nat)
  | method (method : String)
deriving Repr, DecidableEq

structure ExplainStep where
  stage : ExplainStage
  verdict : ExplainVerdict
  code : String
  params : Option ExplainParams := none
  setting : Option String := none
  settingCode : Option String := none
deriving Repr, DecidableEq

structure ExplainDecision where
  stage : ExplainStage
  code : String
  params : Option ExplainParams := none
deriving Repr, DecidableEq

structure Explanation where
  hostname : String
  path : String
  method : String
  outcome : ExplainStage
  summaryCode : String
  summaryParams : Option ExplainParams
  steps : List ExplainStep
deriving Repr, DecidableEq

/-- What one stage adds to the report. -/
structure ExplainPart where
  steps : List ExplainStep
  decision : Option ExplainDecision := none
deriving Repr, DecidableEq

/-- A stage that only looked. -/
def ExplainPart.saw (step : ExplainStep) : ExplainPart :=
  ⟨[step], none⟩

/-- A stage that decides: the summary is its own message. -/
def ExplainPart.decides (stage : ExplainStage) (code : String) (params : Option ExplainParams)
    (setting settingCode : Option String) : ExplainPart where
  steps := [⟨stage, .decides, code, params, setting, settingCode⟩]
  decision := some ⟨stage, code, params⟩

/-! ## The question -/

structure ExplainQuery where
  hostname : String
  path : Option String := none
  method : Option String := none
deriving Repr, DecidableEq

def toAsciiUppercase (s : String) : String :=
  String.ofList (s.toList.map Char.toUpper)

/-- A hostname, and the path of a full URL. -/
def splitTarget (raw : String) : String × Option String :=
  let trimmed := trim raw
  let withoutScheme :=
    ((stripPrefix trimmed "https://").or (stripPrefix trimmed "http://")).getD trimmed
  match splitOnce withoutScheme '/' with
  | some (host, rest) => (host, some ((split ("/" ++ rest) '?').headD ("/" ++ rest)))
  | none => (withoutScheme, none)

namespace ExplainQuery

variable (q : ExplainQuery)

def explainedPath : String :=
  (((q.path.or (splitTarget q.hostname).2).map trim).filter (startsWith · "/")).getD "/"

def explainedMethod : String :=
  toAsciiUppercase (trim (q.method.getD "GET"))

end ExplainQuery

inductive ExplainRefusal where
  | unauthenticated
  | notOperator
  | invalidHostname (raw : String)
  | foreignHostname
deriving Repr, DecidableEq

def ExplainRefusal.answer : ExplainRefusal → Nat × String
  | .unauthenticated => (401, "Authentication required")
  | .notOperator => (403, "Operator role required")
  | .invalidHostname raw => (400, "Invalid hostname: " ++ raw)
  | .foreignHostname => (403, "that hostname is not served by your organization")

/-! ## Naming the clients -/

/-- One connection, as far as the report is concerned. -/
structure ExplainConn where
  id : String
  name : Option String
  org : Option String
deriving Repr, DecidableEq

/-- The master organization is spelled out. -/
def orgLabel (orgId : Option String) (orgs : List Organization) : String :=
  ((orgId.bind fun id => orgs.find? (·.id == id)).map (·.name)).getD "master"

/-- The name of a connection, for whoever may see it. -/
def ExplainConn.label (conn : ExplainConn) (viewer : Option String) (orgs : List Organization) :
    Option String :=
  if viewer.isNone || viewer == conn.org then
    some (orgLabel conn.org orgs ++ "@" ++ conn.name.getD conn.id)
  else none

/-- Collapses the connections into the names a person would count. -/
def groupConns (entries : List ExplainConn) (viewer : Option String) (orgs : List Organization) :
    List Named :=
  entries.foldl (fun out conn =>
    let label := conn.label viewer orgs
    let ids := if label.isSome then [conn.id] else []
    let i := out.findIdx (·.label == label)
    if i < out.length then
      out.modify i fun n => { n with count := n.count + 1, ids := n.ids ++ ids }
    else out ++ [⟨label, 1, ids⟩]) []

/-- The same, with the reason of a connection that would not take the
request. A foreign one is counted without it. -/
def groupIneligible (entries : List (ExplainConn × String)) (viewer : Option String)
    (orgs : List Organization) : List (Named × Option String) :=
  entries.foldl (fun out entry =>
    let label := entry.1.label viewer orgs
    let ids := if label.isSome then [entry.1.id] else []
    let reason := if label.isSome then some entry.2 else none
    let i := out.findIdx fun e => e.1.label == label && e.2 == reason
    if i < out.length then
      out.modify i fun e => ({ e.1 with count := e.1.count + 1, ids := e.1.ids ++ ids }, e.2)
    else out ++ [(⟨label, 1, ids⟩, reason)]) []

/-- The limits of whoever would serve the request. -/
structure Serving where
  maxConcurrent : Option Nat
  cache : Bool
  restrictsSourceIps : Bool
  maxRequestBody : Option Nat
deriving Repr, DecidableEq

def effectiveBodyLimit (server : Nat) (declared : Option Nat) : Nat :=
  match declared with
  | some limit => min limit server
  | none => server

/-- Why a service of the hostname would not take the request, the first reason
that applies. -/
def ineligibleCode (handle : ClientHandle) (service : ServiceState) (now downThreshold : Nat) :
    String :=
  if !service.adminEnabled then "ineligible.disabled"
  else if handle.draining then "ineligible.draining"
  else if !service.backendHealthy then "ineligible.backend_unhealthy"
  else if !handle.isHealthy now downThreshold then "ineligible.missed_heartbeats"
  else if service.policyConflict.isSome then "ineligible.policy_conflict"
  else if service.serverSideRefused.isSome then "ineligible.server_side_refused"
  else "ineligible.path_mismatch"

namespace SiteServer

variable {R : Type} (S : SiteServer R)

/-- `route_exists`, with the visitor's address or without one. -/
def routeServed (path : String) (host : Option String) (ip : Option IpAddr) : Bool :=
  match selectClientPool S.gate.clients path host S.gate.now S.gate.downThreshold with
  | none => false
  | some (pool, _) =>
    match filterPoolByIp pool S.gate.clients ip with
    | .inr _ => true
    | .inl pool => !(applyLbStrategy pool S.gate.clients S.strategy).isEmpty

/-! ## The stages -/

section Stages

variable (hostname path method : String)

def explainDenied : ExplainPart :=
  if S.deniedIps.isEmpty then .saw ⟨.deniedIps, .skipped, "denied_ips.none", none, none, none⟩
  else .saw ⟨.deniedIps, .passes, "denied_ips.configured", some (.entries S.deniedIps.length),
    some "denied_ips:", none⟩

def explainMaintenance : ExplainPart :=
  match S.maintenanceFor (some hostname) with
  | some flag =>
    let code :=
      match flag.reason, flag.untilSecs with
      | some _, some _ => "maintenance.flagged_reason_until"
      | some _, none => "maintenance.flagged_reason"
      | none, some _ => "maintenance.flagged_until"
      | none, none => "maintenance.flagged"
    .decides .maintenance code (some (.flag flag.actor flag.reason flag.untilSecs))
      (some "maintenance mode") (some "setting.maintenance_mode")
  | none => .saw ⟨.maintenance, .passes, "maintenance.none", none, none, none⟩

def explainSite : ExplainPart :=
  if S.sites.isEmpty then
    .saw ⟨.staticRoute, .skipped, "static_route.none_configured", none, none, none⟩
  else
    match S.sites.answer (some hostname) path none with
    | some resp =>
      let target := resp.location.bind headerToStr
      .decides .staticRoute
        (if target.isSome then "static_route.answers_location" else "static_route.answers")
        (some (.answer resp.status target)) (some "sites") none
    | none => .saw ⟨.staticRoute, .passes, "static_route.no_match", none, none, none⟩

def explainNoindex : ExplainPart :=
  if S.noindex (some hostname) path then
    .decides .previewNoindex "preview_noindex.robots" none (some "preview_noindex") none
  else ⟨[], none⟩

/-- The deny rules, of a request without headers. -/
def explainWaf : ExplainPart :=
  if !S.firewall.hasWaf then .saw ⟨.waf, .skipped, "waf.none_configured", none, none, none⟩
  else
    match S.firewall.wafDeny S.isMatch (some hostname) method path [] with
    | some reason => .decides .waf "waf.denied" (some (.reason reason)) (some "sites") none
    | none => .saw ⟨.waf, .passes, "waf.no_match", none, some "sites", none⟩

/-- The rule of the route, whatever methods it counts. -/
def explainRouteRate : ExplainPart :=
  match S.limits.rateLimitFor (some hostname) path none with
  | some rule =>
    .saw ⟨.routeRateLimit, .passes,
      if rule.methods.isSome then "route_rate_limit.covered_methods"
      else "route_rate_limit.covered",
      some (.rate rule.rps rule.burst (rule.methods.map fun m => join m "/")), some "sites", none⟩
  | none =>
    .saw ⟨.routeRateLimit, .skipped, "route_rate_limit.none", none, some Limit.route.setting,
      none⟩

def explainIpRate : ExplainPart :=
  .saw ⟨.rateLimitIp, .passes, "rate_limit_ip.configured",
    some (.bucket S.limits.ipLimitMax S.limits.ipLimitRefill), some Limit.ip.setting, none⟩

/-- Some gate is up for the hostname, its clients' or the server's. -/
def gateReported : Bool :=
  hostHasVisitorAuth S.gate (some hostname) || S.gate.cfg.visitorAuth.gates

/-- The closed posture refuses the route, which somebody would serve. -/
def undeclaredReported : Bool :=
  S.gate.cfg.defaultAccess == .deny && !routeIsPublic S.gate path (some hostname) &&
    S.routeServed path (some hostname) none

def gateUp : ExplainPart :=
  let clientAperio := (routeVisitorPolicy S.gate path (some hostname)).any (·.hasAperio)
  let clientGate := hostHasVisitorAuth S.gate (some hostname)
  let step (code setting settingCode : String) : ExplainPart :=
    .saw ⟨.visitorGate, .passes, code, none, some setting, some settingCode⟩
  if clientAperio then
    step "visitor_gate.aperio_login" "access: {method: aperio} on the service"
      "setting.service_auth"
  else if S.gate.cfg.visitorAuth.hasAperio && !clientGate then
    step "visitor_gate.aperio_login" "access" "setting.server_auth"
  else if clientGate then
    step "visitor_gate.client_password" "access: on the service" "setting.service_auth"
  else if S.gate.cfg.visitorAuth.hasSso then
    step "visitor_gate.sso" "access" "setting.server_auth"
  else step "visitor_gate.server_password" "access" "setting.server_auth"

/-- A site's word first, then a gate that is up, then the posture. What a gate
asks for is not judged. -/
def explainGate : ExplainPart :=
  match S.gate.cfg.sites.accessFor (some hostname) path with
  | some .isPublic =>
    .saw ⟨.visitorGate, .passes, "visitor_gate.site_public", none, some "sites", none⟩
  | some (.gate _) =>
    .saw ⟨.visitorGate, .passes, "visitor_gate.site", none, some "sites", none⟩
  | none =>
    if S.gateReported hostname then S.gateUp hostname path
    else if S.undeclaredReported hostname path then
      .decides .visitorGate "visitor_gate.undeclared" none (some "access")
        (some "setting.default_access")
    else .saw ⟨.visitorGate, .skipped, "visitor_gate.open", none, none, none⟩

/-- The live count is for a caller who is not scoped to an organization. -/
def explainSlots (admin : Bool) : ExplainPart :=
  if admin then
    .saw ⟨.serverConcurrency, .passes, "server_concurrency.headroom",
      some (.slots (some S.activeProxiedRequests) S.maxConcurrentRequests),
      some Limit.serverConcurrency.setting, none⟩
  else
    .saw ⟨.serverConcurrency, .passes, "server_concurrency.ceiling",
      some (.slots none S.maxConcurrentRequests), some Limit.serverConcurrency.setting, none⟩

/-! ## Routing -/

def explainPool : List ServiceRef :=
  ((selectClientPool S.gate.clients path (some hostname) S.gate.now S.gate.downThreshold).map
    (·.1)).getD []

/-- The name is the service's, the organization the connection's. -/
def explainConns : List ExplainConn :=
  (S.explainPool hostname path).map fun r =>
    { id := r.client
      name := (r.get S.gate.clients).bind (·.displayName)
      org := (S.gate.clients.lookup r.client).bind (·.perms.orgId) }

/-- The connections that serve the hostname and would not take the request. -/
def ineligibleConns : List (ExplainConn × String) :=
  S.gate.clients.entries.filterMap fun e =>
    if (S.explainPool hostname path).any (·.client == e.1) then none
    else
      (e.2.services.find? (·.matchesHost hostname)).map fun s =>
        (⟨e.1, s.displayName, e.2.perms.orgId⟩,
          ineligibleCode e.2 s S.gate.now S.gate.downThreshold)

/-- The first candidate stands for the pool, by its service of the
hostname. -/
def explainServing : Option Serving :=
  (S.explainPool hostname path).head?.bind fun r =>
    (S.gate.clients.lookup r.client).bind fun handle =>
      (handle.services.find? (·.matchesHost hostname)).map fun s =>
        { maxConcurrent := s.maxConcurrent
          cache := s.cache
          restrictsSourceIps := !s.allowedIps.isEmpty
          maxRequestBody := s.maxRequestBody }

/-- A record for this bind, as the report matches one. -/
def coldStartArmed : Bool :=
  S.scaling.any fun r => r.hostname == hostname && r.path.all (startsWith path ·)

/-- What answers instead of a client. -/
def explainUnserved : ExplainPart :=
  match S.sites.fallbackFor (some hostname) with
  | some rule =>
    .decides .fallback "fallback.redirect" (some (.redirect rule.status rule.url)) (some "sites")
      none
  | none => .decides .noClient "no_client.504" none none none

def explainRouting (viewer : Option String) : ExplainPart :=
  let conns := S.explainConns hostname path
  let candidates := groupConns conns viewer S.gate.orgs
  let ineligible := S.ineligibleConns hostname path
  if !conns.isEmpty then
    { steps :=
        [⟨.routing, .passes, "routing.candidates", some (.clients (some conns.length) candidates),
          some "hostname/path binds", some "setting.host_path_binds"⟩]
      decision := some ⟨.client, "client.reached", some (.clients none candidates)⟩ }
  else
    let instead := S.explainUnserved hostname
    { steps :=
        [⟨.routing, .passes,
          if ineligible.isEmpty then "routing.none" else "routing.none_ineligible",
          some (.ineligible ineligible.length (groupIneligible ineligible viewer S.gate.orgs)),
          some "hostname/path binds", some "setting.host_path_binds"⟩] ++
        (if S.scalingEnabled && S.coldStartArmed hostname path then
          [⟨.coldStart, .passes, "cold_start.armed", none, some "scaling:", none⟩]
        else []) ++ instead.steps
      decision := instead.decision }

/-! ## Whoever would serve it -/

def explainCache (serving : Serving) : ExplainStep :=
  if !S.gate.cfg.cacheEnabled then ⟨.cache, .skipped, "cache.off", none, none, none⟩
  else if !serving.cache then ⟨.cache, .skipped, "cache.not_opted_in", none, none, none⟩
  else if method != "GET" then
    ⟨.cache, .skipped, "cache.method", some (.method method), some "cache", none⟩
  else ⟨.cache, .passes, "cache.eligible", none, some "cache", none⟩

def servingSteps (serving : Serving) : List ExplainStep :=
  (if serving.restrictsSourceIps then
    [⟨.allowedIps, .passes, "allowed_ips.restricted", none, some "allowed_ips", none⟩]
  else []) ++
  [⟨.bodyLimit, .passes, "body_limit.effective",
    some (.body (effectiveBodyLimit S.maxBodySize serving.maxRequestBody) S.maxBodySize
      serving.maxRequestBody), some "max_body_size", none⟩,
   match serving.maxConcurrent with
   | some max => ⟨.clientConcurrency, .passes, "client_concurrency.declared", some (.ceiling max),
      some Limit.clientConcurrency.setting, none⟩
   | none => ⟨.clientConcurrency, .skipped, "client_concurrency.unlimited", none,
      some Limit.clientConcurrency.setting, none⟩,
   S.explainCache method serving]

def explainServed : ExplainPart :=
  ⟨((S.explainServing hostname path).map (S.servingSteps method)).getD [], none⟩

/-- Which token a request would be served under is not known here. -/
def explainTokenQuota : ExplainPart :=
  ⟨[⟨.tokenQuota, .skipped, "token_quota.depends_on_token", none, some Limit.tokenRate.setting,
      none⟩,
    ⟨.tokenQuota, .skipped, "token_quota.daily", none, some Limit.tokenQuota.setting, none⟩], none⟩

/-- The quota of the organization the caller is acting in. -/
def explainOrgQuota (org : Option String) : ExplainPart :=
  match org with
  | some id =>
    if S.budgets.orgOverMonthBytes S.limits (some id) then
      .decides .orgQuota "org_quota.exhausted" none (some Limit.orgQuota.setting) none
    else
      .saw ⟨.orgQuota, .passes, "org_quota.within", none, some Limit.orgQuota.setting, none⟩
  | none =>
    .saw ⟨.orgQuota, .skipped, "org_quota.master", none, some Limit.orgQuota.setting, none⟩

def explainStreams : ExplainPart :=
  if S.maxStreamsPerIp == 0 then
    .saw ⟨.streamsPerIp, .skipped, "streams_per_ip.unlimited", none,
      some Limit.streamsPerIp.setting, none⟩
  else
    .saw ⟨.streamsPerIp, .passes, "streams_per_ip.capped", some (.ceiling S.maxStreamsPerIp),
      some Limit.streamsPerIp.setting, none⟩

/-! ## The walk -/

/-- The stages, in the order the report asks them. -/
def explainParts (org : Option String) (admin : Bool) : List ExplainPart :=
  [S.explainDenied, S.explainMaintenance hostname, S.explainSite hostname path,
    S.explainNoindex hostname path, S.explainWaf hostname path method,
    S.explainRouteRate hostname path, S.explainIpRate, S.explainGate hostname path,
    S.explainSlots admin, S.explainRouting hostname path org,
    S.explainServed hostname path method, explainTokenQuota, S.explainOrgQuota org,
    S.explainStreams]

/-- The first decision is the outcome. -/
def explanation (org : Option String) (admin : Bool) : Explanation :=
  let parts := S.explainParts hostname path method org admin
  let decision := (parts.findSome? (·.decision)).getD ⟨.client, "client.reached", none⟩
  { hostname := hostname
    path := path
    method := method
    outcome := decision.stage
    summaryCode := decision.code
    summaryParams := decision.params
    steps := parts.flatMap (·.steps) }

end Stages

/-- An operator may ask about the hostnames of the organization they are
acting in. -/
def explainHandler (v : Presented) (q : ExplainQuery) : Except ExplainRefusal Explanation :=
  let caller := resolveCaller S.gate.toAuthState v
  match caller.bind fun c => c.roleIn c.effectiveOrg with
  | none => .error .unauthenticated
  | some role =>
    if role.rank < Role.operator.rank then .error .notOperator
    else
      let rawHost := (splitTarget q.hostname).1
      match normalizeHostnameBind rawHost with
      | none => .error (.invalidHostname rawHost)
      | some hostname =>
        let org := caller.bind (·.effectiveOrg)
        if !orgMayClaimHostname S.gate.orgs S.gate.clients org hostname then
          .error .foreignHostname
        else
          .ok (S.explanation hostname q.explainedPath q.explainedMethod org
            (caller.any (·.isServerAdmin)))

end SiteServer

end Aperio
