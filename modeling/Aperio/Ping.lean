import Aperio.Agree

/-!
# Connecting and heartbeats

A connection starts with one placeholder service that carries what the
token granted (`tunnel/ws.rs`). From then on each `Ping` describes
everything the connection serves (`tunnel/ws/ping.rs`): the list is matched
against the services the connection has, the connection is rebuilt to carry
exactly what was declared, every declaration is applied, and the result is
settled against the other connections.

What arming an autoscaling record does after that, and the figures of the
client's own health that are only displayed, are left out.
-/

namespace Aperio

/-! ## The upgrade -/

/-- What the handshake settles before the first Ping. -/
structure Connect where
  perms : ClientPerms
  randomHostname : Option String := none
  instanceGroup : Option String := none
  clientIp : String := ""
deriving DecidableEq

/-- The one service a connection starts with: the token's grants and the
random subdomain the server handed out. -/
def placeholderService (c : Connect) : ServiceState :=
  { assignedPath := c.perms.grantedPath
    assignedHostnames := c.perms.grantedHostnames ++ c.randomHostname.toList
    randomHostname := c.randomHostname }

def newHandle (cfg : ServerConfig) (now : Nat) (c : Connect) : ClientHandle :=
  { connectedAt := now
    clientIp := c.clientIp
    perms := c.perms
    instanceGroup := c.instanceGroup
    serverMaxConnections := cfg.connectionsPerService
    services := [placeholderService c] }

/-! ## The ceiling on parallel connections -/

/-- The service a declared id belongs to: the id without the `-c<N>` that
numbers the connections of one service. -/
def serviceOf (declaredId : String) : String :=
  let r := declaredId.toList.reverse
  match r.takeWhile isAsciiDigit, r.dropWhile isAsciiDigit with
  | _ :: _, 'c' :: '-' :: base => String.ofList base.reverse
  | _, _ => declaredId

/-- Whether this connection is one too many for its service. -/
def serviceConnectionOverCeiling (clients : Clients) (ownId : String)
    (instanceGroup : Option String) (declaredId : String) (ceiling : Nat) : Bool :=
  ceiling ≤ (clients.entries.filter fun e =>
    e.1 != ownId && e.2.instanceGroup == instanceGroup &&
      e.2.declaredClientId.any fun other => serviceOf other == serviceOf declaredId).length

/-! ## The heartbeat -/

structure Ping where
  services : List ServiceDecl
  clientId : String := ""
  name : Option String := none
  version : Option String := none
  protocol : Option Nat := none
  clientKey : Option String := none
  drainSecs : Option Nat := none
deriving DecidableEq

def maxDeclaredServices : Nat := 256

/-- A service the connection has just gained: fresh, with the hostnames that
were assigned to the connection. -/
def gainedService (old : List ServiceState) : ServiceState :=
  { ServiceState.newlyDeclared with
    assignedHostnames := (old.head?.map (·.assignedHostnames)).getD []
    randomHostname := old.head?.bind (·.randomHostname) }

/-- Takes the matched services out of the old list one slot at a time; a
slot that names none starts fresh. -/
def takeMatched (fresh : ServiceState) :
    List (Option Nat) → List (Option ServiceState) → List ServiceState
  | [], _ => []
  | m :: rest, old =>
    let carried := m.bind fun i => old[i]?.join
    let old' := (m.map fun i => old.set i none).getD old
    carried.getD fresh :: takeMatched fresh rest old'

/-- The connection ends up carrying exactly what the Ping declared, in the
order it declared it. -/
def reconcile (services : List ServiceState) (matched : List (Option Nat)) :
    List ServiceState :=
  takeMatched (gainedService services) matched (services.map some)

/-- The handle after a Ping's list has been matched and applied. -/
def declareHandle (env : Env) (now : Nat) (p : Ping) (matched : List (Option Nat))
    (h : ClientHandle) : ClientHandle :=
  { h with
    services :=
      List.zipWith (applyDeclaration env h.perms) p.services (reconcile h.services matched)
    declaredClientId := some p.clientId
    declaredName := (p.name.map trim).filter validName
    drainSecs := p.drainSecs
    reportedInstanceId :=
      if h.reportedInstanceId.isNone && p.clientId != "" then some p.clientId
      else h.reportedInstanceId
    clientVersion := p.version.or h.clientVersion
    lastPingAt := some now
    bandwidthBps := (p.services.getLast?.map fun d => d.bandwidthBps.getD 0).getD h.bandwidthBps
    clientProtocol := p.protocol.or h.clientProtocol }

/-- Token pinning, asked after the declarations: a token that is a record
keeps to the device key it was first used with. -/
def pinAdmits (env : Env) (perms : ClientPerms) (clientKey : Option String) : Bool :=
  !env.cfg.tokenPinning ||
    match perms.tokenId with
    | none => true
    | some tokenId =>
      match clientKey with
      | none => false
      | some key =>
        match env.pinKey tokenId key with
        | .mismatch => false
        | .notPersisted => false
        | _ => true

/-- The names a Ping declares, which say what each entry is about. -/
def Ping.names (p : Ping) : List (Option String) :=
  p.services.map (·.service)

/-- A Ping's list is one the server works on: not empty, and within the
ceiling. -/
def Ping.wellSized (p : Ping) : Bool :=
  !p.services.isEmpty && decide (p.services.length ≤ maxDeclaredServices)

/-- Handles one Ping: whether the connection stays open, and the clients
afterwards. A Ping for a connection no longer in the map changes nothing. -/
def onPing (env : Env) (now : Nat) (clients : Clients) (id : String) (p : Ping) :
    Bool × Clients :=
  if !p.wellSized then (false, clients)
  else
    match clients.lookup id with
    | none => (true, clients)
    | some h =>
      match matchDeclarations h.services p.names with
      | .error _ => (false, clients)
      | .ok matched =>
        let declared := clients.insert id (declareHandle env now p matched h)
        let overCeiling := serviceConnectionOverCeiling declared id h.instanceGroup p.clientId
          (h.perms.connectionCeiling h.serverMaxConnections)
        (!overCeiling && pinAdmits env h.perms p.clientKey, settle env.cfg declared id)

end Aperio
