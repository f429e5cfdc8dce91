import Aperio.Ip
import Aperio.Sites
import Aperio.Client

/-!
# Applying one declaration

`tunnel/ws/declare.rs`: what one entry of a heartbeat's list does to the
service it is about. Each field of the service is written by a small
function of the declaration, the token and, where the source reads it, the
service as it was; the notices the client is sent are collected beside it
in the order the source sends them. The log lines are left out.

Three fields stand out. `declared_path`, `declared_hostname` and
`declared_hostnames` are written only when the declaration names a value
that is admitted (the list: when it names any hostname at all), so they are
the ones an earlier declaration can leave behind.
-/

namespace Aperio

/-! ## What the function reads beside the declaration -/

inductive DefaultAccess where
  | deny
  | allow
deriving Repr, DecidableEq

inductive OutboundPattern where
  | host (h : String)
  | suffix (s : String)
  | cidr (base : IpAddr) (bits : Nat)
deriving DecidableEq

/-- The settings the modelled functions read. -/
structure ServerConfig where
  sites : Sites := []
  visitorAuth : Policy := ⟨[]⟩
  defaultAccess : DefaultAccess := .deny
  cacheEnabled : Bool := false
  cacheMaxStale : Nat := 0
  serverSideTargets : List OutboundPattern := []
  tokenPinning : Bool := false
  connectionsPerService : Nat := 32
deriving DecidableEq

/-- What the token store answers when a device key is pinned. -/
inductive PinOutcome where
  | pinned
  | matched
  | mismatch
  | notPersisted
  | noSuchRecord
deriving Repr, DecidableEq

/-- The application state a heartbeat is handled in. `urlParse` is
`url::Url::parse`: the host of a URL that parses, or the error's text. -/
structure Env where
  cfg : ServerConfig := {}
  panelHostnames : List String := []
  urlParse : String → Except String (Option String)
  pinKey : String → String → PinOutcome := fun _ _ => .pinned

namespace Env

def isPanelHostname (env : Env) (host : String) : Bool :=
  env.panelHostnames.any (· == host)

end Env

/-- One entry of a heartbeat's `services` list. -/
structure ServiceDecl where
  service : Option String := none
  serviceCustomName : Option String := none
  pathBind : Option String := none
  hostnameBind : Option String := none
  hostnameBinds : List String := []
  http : Bool := false
  maxConcurrent : Option Nat := none
  tcp : Bool := false
  backendHealthy : Bool := true
  backendProbed : Bool := true
  priority : Nat := 0
  bandwidthBps : Option Nat := none
  serverSideTarget : Option String := none
  isPublic : Bool := false
  visitorAuth : Option String := none
  visitorAuthMethods : Option (List AuthMethodSpec) := none
  allowedIps : List String := []
  tunnels : List TunnelDecl := []
  cache : Bool := false
  resilience : Bool := false
  noCapture : Bool := false
  maxRequestBody : Option Nat := none
  responseTimeout : Option Nat := none
  webhookInbox : Bool := false
  denied : Option String := none
  connections : Option Nat := none
  connectionsMin : Option Nat := none
  connectionsMax : Option Nat := none
  configNotes : List ConfigNote := []
  metricsLabels : List (String × String) := []
deriving DecidableEq

/-! ## Binds -/

def isStar (h : String) : Bool :=
  trim h == "*"

namespace ServiceDecl

def wantsCatchAll (d : ServiceDecl) : Bool :=
  d.hostnameBind.any isStar || d.hostnameBinds.any isStar

/-- `*` is taken off the binds before they are normalized. -/
def namedHostname (d : ServiceDecl) : Option String :=
  d.hostnameBind.filter (!isStar ·)

def namedHostnames (d : ServiceDecl) : List String :=
  d.hostnameBinds.filter (!isStar ·)

end ServiceDecl

/-- Only a token that may bind any hostname may ask for all of them. -/
def declaredCatchAll (perms : ClientPerms) (d : ServiceDecl) : Bool :=
  d.wantsCatchAll && perms.hostnameAllowed "*"

/-- The path the declaration names, when the token permits it. -/
def admittedPath (perms : ClientPerms) (d : ServiceDecl) : Option String :=
  (d.pathBind.bind normalizePathBind).filter perms.pathAllowed

/-- A hostname a client may be served on: no dashboard panel, and permitted
by its token. -/
def hostnameAdmitted (env : Env) (perms : ClientPerms) (h : String) : Bool :=
  !env.isPanelHostname h && perms.hostnameAllowed h

def admittedHostname (env : Env) (perms : ClientPerms) (d : ServiceDecl) : Option String :=
  (d.namedHostname.bind normalizeHostnameBind).filter (hostnameAdmitted env perms)

def admittedHostnames (env : Env) (perms : ClientPerms) (d : ServiceDecl) : List String :=
  ((d.namedHostnames.filterMap normalizeHostnameBind).filter (hostnameAdmitted env perms)).foldl
    ServiceState.pushNew []

/-! ## Limits and labels -/

/-- The announced concurrency limit: the enforced number, the ceiling it may
climb back to and the permits left free. The first announcement sets the
ceiling; a later one moves below it, and takes away only permits that are
free. -/
def announceLimit (s : ServiceState) (d : ServiceDecl) : Option Nat × Option Nat × Option Nat :=
  let unchanged := (s.maxConcurrent, s.maxConcurrentCeiling, s.inflightLimiter)
  match d.maxConcurrent with
  | none => unchanged
  | some n =>
    if n = 0 then unchanged
    else
      match s.inflightLimiter, s.maxConcurrentCeiling with
      | none, _ => (some n, some n, some n)
      | some free, some ceiling =>
        let enforced := s.maxConcurrent.getD ceiling
        let want := min n ceiling
        if want < enforced then
          let taken := min (enforced - want) free
          (if taken = 0 then s.maxConcurrent else some (enforced - taken), some ceiling,
            some (free - taken))
        else if enforced < want then
          (some want, some ceiling, some (free + (want - enforced)))
        else unchanged
      | some _, none => unchanged

def maxLabels : Nat := 8

def maxLabelName : Nat := 32

def maxLabelValue : Nat := 64

def reservedLabels : List String :=
  ["client_id", "job", "instance", "token", "hostname", "limit", "service"]

def validLabelName (name : String) : Bool :=
  if name = "" ∨ maxLabelName < name.utf8ByteSize ∨ startsWith name "__" = true then false
  else
    match name.toList with
    | [] => false
    | first :: rest =>
      ((isAsciiAlphanumeric first && !isAsciiDigit first) || first == '_') &&
        rest.all fun c => isAsciiAlphanumeric c || c == '_'

/-- `metrics_labels::sanitize`: the first eight usable labels, in name
order. -/
def sanitizeLabels (raw : List (String × String)) : List (String × String) :=
  ((raw.map fun (name, value) => (trim name, trim value)).filter fun (name, value) =>
    validLabelName name && value != "" && decide (value.utf8ByteSize ≤ maxLabelValue) &&
      !reservedLabels.contains name).take maxLabels

/-- A denied-visitor redirect has to be an absolute http(s) URL. -/
def declaredDenied (env : Env) (d : ServiceDecl) : Option String :=
  (d.denied.filter fun u => startsWith u "http://" || startsWith u "https://").filter fun u =>
    (env.urlParse u).isOk

/-! ## Served from the server -/

/-- Whether one pattern of `server_side_targets` admits a target's host. -/
def outboundPatternAdmits (host : String) (literalIp : Option IpAddr) :
    OutboundPattern → Bool
  | .host h => h == host
  | .suffix s =>
    let hb := utf8Bytes host
    let sb := utf8Bytes s
    sb.length + 1 < hb.length && endsWith host s && hb[hb.length - sb.length - 1]? == some 0x2E
  | .cidr base bits => literalIp.any fun ip => cidrContains base bits ip

/-- `server_side_allows`: the refusal's text, or `none` when the target is
permitted. -/
def serverSideRefusal (env : Env) (target : String) : Option String :=
  if env.cfg.serverSideTargets = [] then
    some "no server_side_targets are configured, so this server reaches nothing on a client's behalf (set security.server_side_targets)"
  else
    match env.urlParse target with
    | .error e => some ("invalid target url: " ++ e)
    | .ok none => some "the target has no host"
    | .ok (some rawHost) =>
      let host := toAsciiLowercase (trimEndMatches rawHost '.')
      let bare := trimEndMatches (trimStartMatches host '[') ']'
      if env.cfg.serverSideTargets.any (outboundPatternAdmits host (parseIpAddr bare)) then none
      else some ("target " ++ host ++
        " is not on server_side_targets, so this server will not reach it on a client's behalf")

/-- Why a declared target is not served from here, if it is not. -/
def declaredRefusal (env : Env) (perms : ClientPerms) (d : ServiceDecl) : Option String :=
  d.serverSideTarget.bind fun target =>
    if perms.allowServerSide then serverSideRefusal env target
    else some "its token does not allow being served from the server (allow_server_side)"

def declaredTarget (env : Env) (perms : ClientPerms) (d : ServiceDecl) : Option String :=
  if (declaredRefusal env perms d).isNone then d.serverSideTarget else none

/-! ## The visitor gate -/

/-- `user:password`, neither side empty. -/
def validVisitorCreds (creds : String) : Bool :=
  match splitOnce creds ':' with
  | some (user, pass) => user != "" && pass != ""
  | none => false

def requestedAuth (d : ServiceDecl) : Option String :=
  (d.visitorAuth.map trim).filter (· != "")

def declaredAuth (perms : ClientPerms) (d : ServiceDecl) : Option String :=
  (requestedAuth d).filter fun creds => perms.allowPublic && validVisitorCreds creds

def clientDeclarableMethods : List String :=
  ["none", "basic", "bearer", "jwt", "aperio", "forward"]

def isDeclarable (spec : AuthMethodSpec) : Bool :=
  clientDeclarableMethods.contains (toAsciiLowercase (trim spec.method))

def declaredPolicy (perms : ClientPerms) (d : ServiceDecl) : Option Policy :=
  d.visitorAuthMethods.bind fun specs =>
    let usable := specs.filter isDeclarable
    if perms.allowPublic = true ∧ usable ≠ [] then
      (some (Policy.compileFrom (.any usable) true)).filter fun p => p.gates || p.admitsEveryone
    else none

def declaredPublic (perms : ClientPerms) (d : ServiceDecl) : Bool :=
  d.isPublic && perms.allowPublic

/-! ## Addresses -/

def trimmedIps (d : ServiceDecl) : List String :=
  (d.allowedIps.map trim).filter (· != "")

def declaredIps (d : ServiceDecl) : List String :=
  (trimmedIps d).filter validIpEntry

def droppedIps (d : ServiceDecl) : List String :=
  (trimmedIps d).filter (!validIpEntry ·)

/-! ## The service afterwards -/

/-- Whether this declaration trips one of the warnings that share the
visitor-gate flag: the scalar, then the policy. -/
def scalarTrips (perms : ClientPerms) (d : ServiceDecl) : Bool :=
  (requestedAuth d).any fun creds => !perms.allowPublic || !validVisitorCreds creds

def policyTrips (perms : ClientPerms) (d : ServiceDecl) : Bool :=
  d.visitorAuthMethods.any fun specs => !perms.allowPublic || !specs.all isDeclarable

/-- What the token and the server make of a hostname `*` nobody granted, or
of a web service nothing routes to. -/
def routeNotice (perms : ClientPerms) (d : ServiceDecl) (s : ServiceState) : Option String :=
  if d.wantsCatchAll && !declaredCatchAll perms d then
    some "`hostname: \"*\"` was not applied: this client's token is limited to particular hostnames, and every hostname is more than it may claim"
  else if s.servesHttp && !s.catchAll && s.effectiveHostnames.isEmpty then
    some "nothing routes to this service: it names no hostname and none was granted. Write `hostname: \"*\"` to serve every hostname no other service claims, or a hostname of its own"
  else none

/-- The first declared hostname whose `access` a site decides. -/
def siteHost (env : Env) (s : ServiceState) : Option String :=
  (s.declaredHostname.toList ++ s.declaredHostnames).find? fun h =>
    (env.cfg.sites.accessFor (some h) (s.declaredPath.getD "/")).isSome

def declaresAccess (s : ServiceState) : Bool :=
  s.visitorAuth.isSome || s.visitorAuthPolicy.isSome || s.isPublic

/-- The service with everything the declaration says written to it, before
the warn-once flags that look at the result. -/
def writeDeclared (env : Env) (perms : ClientPerms) (d : ServiceDecl) (s : ServiceState) :
    ServiceState :=
  { s with
    catchAll := declaredCatchAll perms d
    servesHttp := d.http
    declaredPath := (admittedPath perms d).or s.declaredPath
    declaredHostname := (admittedHostname env perms d).or s.declaredHostname
    declaredHostnames :=
      if d.namedHostnames.isEmpty then s.declaredHostnames else admittedHostnames env perms d
    maxConcurrent := (announceLimit s d).1
    maxConcurrentCeiling := (announceLimit s d).2.1
    inflightLimiter := (announceLimit s d).2.2
    tcpEnabled := d.tcp
    cache := d.cache
    cacheIgnoredWarned := s.cacheIgnoredWarned || (d.cache && !env.cfg.cacheEnabled)
    maxRequestBody := d.maxRequestBody
    responseTimeout := d.responseTimeout
    denied := declaredDenied env d
    connections := d.connections
    connectionsMin := d.connectionsMin
    connectionsMax := d.connectionsMax
    capture := !d.noCapture
    configNotes := d.configNotes
    metricsLabels := sanitizeLabels d.metricsLabels
    webhookInbox := d.webhookInbox
    resilience := d.resilience
    tunnels := d.tunnels
    backendProbed := d.backendProbed
    backendHealthy := d.backendHealthy
    priority := d.priority
    serviceName := d.service.or s.serviceName
    serviceCustomName := if d.service.isSome then d.serviceCustomName else s.serviceCustomName
    publicDeniedWarned := s.publicDeniedWarned || (d.isPublic && !perms.allowPublic)
    isPublic := declaredPublic perms d
    serverSideTarget := declaredTarget env perms d
    serverSideRefused := declaredRefusal env perms d
    visitorAuth := declaredAuth perms d
    visitorAuthPolicy := declaredPolicy perms d
    visitorAuthDeniedWarned :=
      s.visitorAuthDeniedWarned || scalarTrips perms d || policyTrips perms d
    allowedIps := declaredIps d
    allowedIpsInvalidWarned := s.allowedIpsInvalidWarned || !(droppedIps d).isEmpty }

/-- The two flags set from what the service now says: `route_noticed`, and
`ungated_warned`, which a site's decision trips first. -/
def flagRoute (env : Env) (perms : ClientPerms) (d : ServiceDecl) (s : ServiceState) :
    ServiceState :=
  { s with
    routeNoticed := s.routeNoticed || (routeNotice perms d s).isSome
    ungatedWarned := s.ungatedWarned || (siteHost env s).isSome ||
      (!declaresAccess s && !env.cfg.visitorAuth.gates) }

/-! ## Notices -/

/-- A notice to the client: sent once for each text, or whenever it
arises. -/
inductive Notice where
  | once (message : String)
  | always (message : String)
deriving Repr, DecidableEq

def panelRefusal (host : String) : String :=
  "`hostname: " ++ host ++
    "` is not served: it is a dashboard panel, which serves the dashboard and nothing else"

def hostnameRefusal (host : String) : String :=
  "`hostname: " ++ host ++
    "` was not applied: this client's token does not permit that hostname"

def gateRefusal : String :=
  "`access:` was not applied: this client's token does not permit controlling the visitor gate, so the server's own gate applies"

/-- What is said about one normalized hostname bind. -/
def hostnameNotice (env : Env) (perms : ClientPerms) (h : String) : Option Notice :=
  if env.isPanelHostname h then some (.once (panelRefusal h))
  else if perms.hostnameAllowed h then none
  else some (.once (hostnameRefusal h))

def bindNotices (env : Env) (perms : ClientPerms) (d : ServiceDecl) : List Notice :=
  ((d.pathBind.bind normalizePathBind).filter (!perms.pathAllowed ·)).toList.map
      (fun p => .once ("`path: " ++ p ++
        "` was not applied: this client's token does not permit that path")) ++
    (d.namedHostname.bind normalizeHostnameBind).toList.filterMap (hostnameNotice env perms) ++
    (d.namedHostnames.filterMap normalizeHostnameBind).filterMap (hostnameNotice env perms)

def cacheNotices (env : Env) (d : ServiceDecl) (s : ServiceState) : List Notice :=
  (if d.cache && !env.cfg.cacheEnabled && !s.cacheIgnoredWarned then
    [.once "`cache:` is not applied: this server's response cache is off (`cache.enabled`), so nothing of this service is cached"]
   else []) ++
  (if d.resilience && (!env.cfg.cacheEnabled || env.cfg.cacheMaxStale == 0) then
    [.once (if env.cfg.cacheEnabled then
      "`cache.offline` is not applied: this server keeps no stale copy to serve (`cache.max_stale` is 0)"
     else
      "`cache.offline` is not applied: this server's response cache is off (`cache.enabled`), so there is no copy to serve while the backend is down")]
   else [])

def accessNotices (env : Env) (perms : ClientPerms) (d : ServiceDecl) (s : ServiceState) :
    List Notice :=
  (if d.isPublic && !perms.allowPublic && !s.publicDeniedWarned then
    [.always "`access: public` was not applied: this client's token does not permit publishing public services, so the server's visitor gate stays on"]
   else []) ++
  (match d.serverSideTarget, declaredRefusal env perms d with
   | some target, some why =>
     [.once ("`server_side` is refused for " ++ target ++ ": " ++ why ++
       ". The service is not routed until that changes or `server_side` is taken off it")]
   | _, _ => []) ++
  (if (requestedAuth d).isSome && !perms.allowPublic && !s.visitorAuthDeniedWarned then
    [.always gateRefusal]
   else []) ++
  (match d.visitorAuthMethods with
   | none => []
   | some specs =>
     if s.visitorAuthDeniedWarned || scalarTrips perms d then []
     else if !perms.allowPublic then [.always gateRefusal]
     else if specs.all isDeclarable then []
     else
       [.always ("`access:` method(s) not applied: " ++
         ", ".intercalate ((specs.filter (!isDeclarable ·)).map (trim ·.method)) ++
         " cannot be declared by a client on this server; the other methods stay in force")])

/-- The notices that look at the service as written. -/
def routeNotices (env : Env) (perms : ClientPerms) (d : ServiceDecl) (s : ServiceState) :
    List Notice :=
  (if s.routeNoticed then [] else (routeNotice perms d s).toList.map .always) ++
  (if s.ungatedWarned then []
   else
     match siteHost env s with
     | some host =>
       if declaresAccess s then
         [.always ("`access:` is not what decides who reaches " ++ host ++
           ": the server's site for it sets `access`, which wins over what a client declares")]
       else []
     | none =>
       if !declaresAccess s && !env.cfg.visitorAuth.gates &&
           env.cfg.defaultAccess == .deny then
         [.always "visitors are refused: this service declares no `access:` and the server is closed by default (its `access` is `deny`), so it answers as an unclaimed hostname does. Write `access: public` if it is meant to be reachable by anyone, or an `access:` method."]
       else [])

def ipNotices (d : ServiceDecl) (s : ServiceState) : List Notice :=
  if !(droppedIps d).isEmpty && !s.allowedIpsInvalidWarned then
    [.once ("`allowed_ips` entries " ++ ", ".intercalate (droppedIps d) ++
      " are not addresses or CIDRs and were dropped; the others stay in force")]
  else []

/-- Everything one declaration has to say, in order. -/
def declarationNotices (env : Env) (perms : ClientPerms) (d : ServiceDecl) (s : ServiceState) :
    List Notice :=
  bindNotices env perms d ++ cacheNotices env d s ++ accessNotices env perms d s ++
    routeNotices env perms d (writeDeclared env perms d s) ++ ipNotices d s

/-- Sends notices in order: a once-only text already sent is dropped, and
one that goes out is remembered. -/
def sendNotices : List Notice → List String → List String × List String
  | [], sent => ([], sent)
  | .always m :: rest, sent =>
    let (out, sent') := sendNotices rest sent
    (m :: out, sent')
  | .once m :: rest, sent =>
    if m ∈ sent then sendNotices rest sent
    else
      let (out, sent') := sendNotices rest (sent ++ [m])
      (m :: out, sent')

/-- The service a declaration leaves behind. -/
def applyDeclaration (env : Env) (perms : ClientPerms) (d : ServiceDecl) (s : ServiceState) :
    ServiceState :=
  { flagRoute env perms d (writeDeclared env perms d s) with
    noticesSent := (sendNotices (declarationNotices env perms d s) s.noticesSent).2 }

/-! ## What routing sees of it -/

section RoutingFields

variable (env : Env) (perms : ClientPerms) (d : ServiceDecl) (s : ServiceState)

@[simp] theorem applyDeclaration_declaredPath :
    (applyDeclaration env perms d s).declaredPath =
      (admittedPath perms d).or s.declaredPath := rfl

@[simp] theorem applyDeclaration_assignedPath :
    (applyDeclaration env perms d s).assignedPath = s.assignedPath := rfl

theorem applyDeclaration_effectivePathBind :
    (applyDeclaration env perms d s).effectivePathBind =
      (admittedPath perms d).or s.effectivePathBind := by
  simp [ServiceState.effectivePathBind, Option.or_assoc]

end RoutingFields

end Aperio
