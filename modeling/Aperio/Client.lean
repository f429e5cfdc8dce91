import Mathlib.Data.List.AList
import Aperio.Binds
import Aperio.VisitorAuth

/-!
# Connections and the services they carry

The data model of `state/client.rs`: what a token permits, one service of a
connection, the connection itself, and the matching that decides which
existing service each entry of a heartbeat's list is about.

An instant is a number of seconds on a clock the caller supplies. The
counters and queues of the request path that no function here reads
(`request_count`, `recent_failures`) are left out, and the bandwidth cell,
which every service of a connection shares, sits on the connection, as does
the server's ceiling read when the socket opened.
-/

namespace Aperio

/-! ## What a token permits -/

structure ClientPerms where
  master : Bool
  hostnames : List String
  paths : List String
  tokenName : Option String
  tokenId : Option String
  allowPublic : Bool
  allowServerSide : Bool
  allowBind : Bool
  orgId : Option String
  orgHostnames : List String
  maxConnections : Option Nat
deriving DecidableEq

namespace ClientPerms

/-- The permissions of the server's own token. -/
def ofMaster : ClientPerms where
  master := true
  hostnames := []
  paths := []
  tokenName := none
  tokenId := none
  allowPublic := true
  allowServerSide := true
  allowBind := true
  orgId := none
  orgHostnames := []
  maxConnections := none

/-- The ceiling on one service's parallel connections. -/
def connectionCeiling (perms : ClientPerms) (serverMax : Nat) : Nat :=
  match perms.maxConnections with
  | some tokenMax => max (min tokenMax serverMax) 1
  | none => max serverMax 1

def orgHostnameAllowed (perms : ClientPerms) (host : String) : Bool :=
  perms.master || hostnameInOrgAllowlist host perms.orgHostnames

/-- Both fences must admit the bind: the organization's allowlist, and the
token's own list. -/
def hostnameAllowed (perms : ClientPerms) (host : String) : Bool :=
  perms.orgHostnameAllowed host &&
    (perms.master || perms.hostnames.isEmpty || perms.hostnames.any fun h => h == "*" || h == host)

def pathAllowed (perms : ClientPerms) (path : String) : Bool :=
  perms.master || perms.paths.isEmpty || perms.paths.any fun p => p == "*" || p == path

def grantedHostnames (perms : ClientPerms) : List String :=
  perms.hostnames.filter fun h => h != "*" && perms.orgHostnameAllowed h

def grantedPath (perms : ClientPerms) : Option String :=
  perms.paths.find? (· != "*")

/-- A token fenced to particular paths: a dynamic token whose list is not
empty and does not hold the wildcard. -/
structure PathFenced (perms : ClientPerms) : Prop where
  not_master : perms.master = false
  nonempty : perms.paths ≠ []
  no_star : "*" ∉ perms.paths

theorem PathFenced.pathAllowed_iff {perms : ClientPerms} (hf : perms.PathFenced) {p : String} :
    perms.pathAllowed p = true ↔ p ∈ perms.paths := by
  have hne := hf.nonempty
  simp only [pathAllowed, hf.not_master, Bool.false_or, Bool.or_eq_true, List.isEmpty_iff,
    List.any_eq_true, beq_iff_eq]
  constructor
  · rintro (h | ⟨q, hq, rfl | rfl⟩)
    · exact absurd h hne
    · exact absurd hq hf.no_star
    · exact hq
  · intro h
    exact Or.inr ⟨p, h, Or.inr rfl⟩

/-- The connect-time assignment of a fenced token is one of its paths. -/
theorem PathFenced.grantedPath_mem {perms : ClientPerms} (hf : perms.PathFenced) :
    ∃ p ∈ perms.paths, perms.grantedPath = some p := by
  obtain ⟨p, hp⟩ : ∃ p, perms.grantedPath = some p := by
    rw [← Option.isSome_iff_exists, grantedPath, List.find?_isSome]
    obtain ⟨q, hq⟩ := List.exists_mem_of_ne_nil _ hf.nonempty
    refine ⟨q, hq, ?_⟩
    simp only [bne_iff_ne, ne_eq]
    rintro rfl
    exact hf.no_star hq
  exact ⟨p, List.mem_of_find?_eq_some hp, hp⟩

end ClientPerms

/-! ## One service -/

structure ConfigNote where
  field : String
  declared : String
  effective : String
  reason : String
deriving DecidableEq

structure TunnelDecl where
  name : Option String
  customName : Option String
  target : String
  protocol : String
  encrypt : Bool
  idleTimeout : Option Nat
deriving DecidableEq

/-- One service carried by a connection. `inflightLimiter` is the number of
permits free on its semaphore. -/
structure ServiceState where
  declaredPath : Option String := none
  assignedPath : Option String := none
  declaredHostname : Option String := none
  declaredHostnames : List String := []
  assignedHostnames : List String := []
  randomHostname : Option String := none
  maxConcurrent : Option Nat := none
  maxConcurrentCeiling : Option Nat := none
  inflightLimiter : Option Nat := none
  adminEnabled : Bool := true
  serverSideTarget : Option String := none
  serverSideRefused : Option String := none
  policyConflict : Option String := none
  catchAll : Bool := false
  servesHttp : Bool := false
  routeNoticed : Bool := false
  capture : Bool := true
  connections : Option Nat := none
  connectionsMin : Option Nat := none
  connectionsMax : Option Nat := none
  configNotes : List ConfigNote := []
  metricsLabels : List (String × String) := []
  tcpEnabled : Bool := false
  backendHealthy : Bool := true
  backendProbed : Bool := true
  priority : Nat := 0
  serviceName : Option String := none
  serviceCustomName : Option String := none
  isPublic : Bool := false
  publicDeniedWarned : Bool := false
  visitorAuth : Option String := none
  allowedIps : List String := []
  visitorAuthPolicy : Option Policy := none
  visitorAuthDeniedWarned : Bool := false
  ungatedWarned : Bool := false
  allowedIpsInvalidWarned : Bool := false
  tunnels : List TunnelDecl := []
  cache : Bool := false
  cacheIgnoredWarned : Bool := false
  noticesSent : List String := []
  resilience : Bool := false
  maxRequestBody : Option Nat := none
  responseTimeout : Option Nat := none
  webhookInbox : Bool := false
  denied : Option String := none
  ejectedUntil : Option Nat := none
deriving DecidableEq

namespace ServiceState

/-- A service this connection has just been told it carries: enabled,
presumed healthy, captured, and empty otherwise. -/
def newlyDeclared : ServiceState := {}

def isEjected (s : ServiceState) (now : Nat) : Bool :=
  s.ejectedUntil.any (now < ·)

/-- Path bind used for routing: the declared value wins over the
token-granted one. -/
def effectivePathBind (s : ServiceState) : Option String :=
  s.declaredPath.or s.assignedPath

/-- Appends a hostname the list does not hold yet. -/
def pushNew (set : List String) (h : String) : List String :=
  if h ∈ set then set else set ++ [h]

/-- Hostnames used for routing: what the token granted and what the client
declared, together. -/
def effectiveHostnames (s : ServiceState) : List String :=
  s.declaredHostnames.foldl pushNew (s.declaredHostname.toList.foldl pushNew s.assignedHostnames)

def matchesHost (s : ServiceState) (host : String) : Bool :=
  s.effectiveHostnames.any (· == host)

def displayName (s : ServiceState) : Option String :=
  s.serviceCustomName.or s.serviceName

theorem matchesHost_iff {s : ServiceState} {host : String} :
    s.matchesHost host = true ↔ host ∈ s.effectiveHostnames := by
  simp [matchesHost]

end ServiceState

/-! ## Matching a heartbeat's list with the services it is about -/

/-- The first existing service nothing has claimed yet that meets `p`. -/
def claimService (existing : List ServiceState) (p : ServiceState → Bool) (taken : List Nat) :
    Option Nat :=
  (List.range existing.length).find? fun i => !taken.contains i && existing[i]?.any p

/-- The first name a list of declarations holds twice. -/
def repeatedName : List (Option String) → List String → Option String
  | [], _ => none
  | none :: rest, seen => repeatedName rest seen
  | some n :: rest, seen => if n ∈ seen then some n else repeatedName rest (seen ++ [n])

/-- The named pass: each named declaration claims the service of its name. -/
def matchNamed (existing : List ServiceState) :
    List (Option String) → List Nat → List (Option Nat) × List Nat
  | [], taken => ([], taken)
  | name :: rest, taken =>
    let found := name.bind fun n => claimService existing (·.serviceName == some n) taken
    let (out, taken') := matchNamed existing rest (found.toList ++ taken)
    (found :: out, taken')

/-- The adoption pass: everything still unmatched, named or not, takes the
nameless services nobody has claimed, in order. -/
def adoptNameless (existing : List ServiceState) :
    List (Option Nat) → List Nat → List (Option Nat)
  | [], _ => []
  | some i :: rest, taken => some i :: adoptNameless existing rest taken
  | none :: rest, taken =>
    let found := claimService existing (·.serviceName.isNone) taken
    found :: adoptNameless existing rest (found.toList ++ taken)

/-- One slot per declaration: the existing service it updates, or `none` for
one this connection does not carry yet. An error names the declaration
that repeats. -/
def matchDeclarations (existing : List ServiceState) (declaredNames : List (Option String)) :
    Except String (List (Option Nat)) :=
  match repeatedName declaredNames [] with
  | some n => .error n
  | none =>
    let (out, taken) := matchNamed existing declaredNames []
    .ok (adoptNameless existing out taken)

/-! ## The connection -/

structure ClientHandle where
  connectedAt : Nat
  clientIp : String
  lastPingAt : Option Nat := none
  perms : ClientPerms
  draining : Bool := false
  declaredClientId : Option String := none
  declaredName : Option String := none
  drainSecs : Option Nat := none
  clientVersion : Option String := none
  clientProtocol : Option Nat := none
  reportedInstanceId : Option String := none
  instanceGroup : Option String := none
  serverMaxConnections : Nat := 32
  bandwidthBps : Nat := 0
  services : List ServiceState
deriving DecidableEq

namespace ClientHandle

/-- A connection that has not sent its first Ping. -/
def awaitingDeclaration (h : ClientHandle) : Bool :=
  h.lastPingAt.isNone

def isHealthy (h : ClientHandle) (now downThreshold : Nat) : Bool :=
  now - h.lastPingAt.getD h.connectedAt < downThreshold

def processName (h : ClientHandle) : Option String :=
  match h.services.filterMap (·.displayName) with
  | [] => none
  | names => some (", ".intercalate names)

end ClientHandle

/-- The connected clients by connection id. The list order stands for the
iteration order of the map, which nothing may depend on. -/
abbrev Clients := AList fun _ : String => ClientHandle

end Aperio
