import Aperio.Caller
import Aperio.Select

/-!
# The visitor gate

`proxy/gate.rs`, with the questions it asks of the route
(`routing/route.rs`) and of a share link (`share.rs`).

What the source keeps outside this server is a parameter of the state the
gate is asked in: the signature checks of share links and tokens, and the
answers of `forward` endpoints, dialed from here or asked of a connection
over the tunnel.

`routeGate` says who decides a path without a traversal segment, and
`checkVisitorGate_eq` that the gate is that decision's answer and nothing
else. Every result about the gate goes through the two.
-/

namespace Aperio

/-! ## The request -/

/-- What a visitor's request carries. The secret of a bearer header is
trimmed and not empty; a navigation is a browser's page load. -/
structure Visitor extends Presented where
  bearer : Option String := none
  queryToken : Option String := none
  shareQuery : Option String := none
  cookies : List (String × String) := []
  navigation : Bool := false
deriving Repr, DecidableEq

def Visitor.cookieValue (v : Visitor) (name : String) : Option String :=
  (v.cookies.find? (·.1 == name)).map (·.2)

structure ShareClaims where
  host : String
  path : Option String
deriving Repr, DecidableEq

inductive Verdict where
  | allow (carried : List (String × String))
  | deny (answer : String)
deriving Repr, DecidableEq

/-- The state the gate is asked in. `ask` is a `forward` endpoint's answer
about this visitor on a host and a path, `tunnelAnswer` the answer of one
connection, and `tunnelPick` the connection the balancer picks to be
asked. -/
structure GateState extends AuthState where
  cfg : ServerConfig := {}
  now : Nat := 0
  downThreshold : Nat := 0
  verifyShareToken : String → Option ShareClaims := fun _ => none
  verifyJwt : JwtConfig → String → Option (Option String) := fun _ _ => none
  ask : ForwardConfig → Visitor → Option String → String → Verdict := fun _ _ _ _ => .deny ""
  tunnelPick : ForwardConfig → Visitor → Option String → String → Option String :=
    fun _ _ _ _ => none
  tunnelAnswer : ForwardConfig → Visitor → Option String → String → String → Verdict :=
    fun _ _ _ _ _ => .deny ""

/-! ## Answers -/

inductive Admission where
  | session
  | bearer
  | jwt
  | sso
  | forward
  | share
deriving Repr, DecidableEq

structure VisitorIdentity where
  how : Admission
  who : Option String := none
  extraHeaders : List (String × String) := []
  consumedAuthorization : Bool := false
  forwardClientId : Option String := none
deriving Repr, DecidableEq

inductive Refusal where
  | loginRedirect (loginPath : String)
  | unauthorized (challenge : Option String) (body : String)
  | cookieRedirect (host : String) (scope : Option String)
  | shareRedirect (claims : ShareClaims)
  | delegated (answer : String)
  | notPublished
deriving Repr, DecidableEq

inductive VisitorGate where
  | allow (identity : Option VisitorIdentity)
  | deny (resp : Refusal)
  | undeclared (resp : Refusal)
deriving Repr, DecidableEq

def VisitorGate.isAllow : VisitorGate → Bool
  | .allow _ => true
  | _ => false

/-! ## The route -/

/-- The services of the pool for a route; a path with a traversal segment
has none to ask. -/
def routePool (G : GateState) (path : String) (host : Option String) :
    List (Option ServiceState) :=
  if requestPathHasTraversal path then []
  else
    match selectClientPool G.clients path host G.now G.downThreshold with
    | some (pool, _) => pool.map (·.get G.clients)
    | none => []

/-- What a whole pool declares: the walk stops at the first member that
declares nothing or something else. -/
def agreed {α : Type} [DecidableEq α] : Option α → List (Option α) → Option α
  | acc, [] => acc
  | none, some c :: rest => agreed (some c) rest
  | some existing, some c :: rest => if existing = c then agreed (some existing) rest else none
  | _, none :: _ => none

def routeVisitorAuth (G : GateState) (path : String) (host : Option String) : Option String :=
  agreed none ((routePool G path host).map (·.bind (·.visitorAuth)))

def routeVisitorPolicy (G : GateState) (path : String) (host : Option String) : Option Policy :=
  agreed none ((routePool G path host).map (·.bind (·.visitorAuthPolicy)))

def routeIsPublic (G : GateState) (path : String) (host : Option String) : Bool :=
  !(routePool G path host).isEmpty && (routePool G path host).all (·.any (·.isPublic))

/-- The scope a route's own gate speaks for: the bind its pool shares. -/
def routePathBind (G : GateState) (path : String) (host : Option String) : Option String :=
  (routePool G path host).head?.join.bind (·.effectivePathBind)

/-- A gate of either shape. -/
def ServiceState.declaresGate (s : ServiceState) : Bool :=
  s.visitorAuth.isSome || s.visitorAuthPolicy.any (·.gates)

def ServiceState.couldServe (s : ServiceState) : Option String → Bool
  | some h => s.matchesHost h || s.catchAll
  | none => s.catchAll

/-- Some connected service that could serve this host declares a gate. -/
def hostHasVisitorAuth (G : GateState) (host : Option String) : Bool :=
  G.clients.entries.any fun e => e.2.services.any fun s => s.declaresGate && s.couldServe host

/-! ## Share links -/

def ShareClaims.cover (claims : ShareClaims) (host : Option String) (uriPath : String) : Bool :=
  !requestPathHasTraversal uriPath && host == some claims.host &&
    claims.path.all (pathMatchesBind uriPath)

/-- A link's first click is sent on to the clean address with a cookie; the
cookie opens the route from then on. -/
def checkShareAccess (G : GateState) (v : Visitor) (host : Option String) (path : String) :
    Option (Option Refusal) :=
  match (v.shareQuery.bind G.verifyShareToken).filter (·.cover host path) with
  | some claims => some (some (.shareRedirect claims))
  | none =>
    match ((v.cookieValue "aperio_share").bind G.verifyShareToken).filter (·.cover host path) with
    | some _ => some none
    | none => none

/-! ## The methods that live on the request -/

/-- The secret and whether the URL carried it. The header is preferred
whatever the query says. -/
def presentedSecret (v : Visitor) (p : Policy) : Option (String × Bool) :=
  match v.bearer with
  | some secret => some (secret, false)
  | none => if p.acceptsQueryToken then v.queryToken.map fun t => (t, true) else none

def jwtTokenFromRequest (v : Visitor) (cfg : JwtConfig) : Option String :=
  match cfg.cookie with
  | some name => v.cookieValue name
  | none => v.bearer

def applyJwtMethods (G : GateState) (v : Visitor) (p : Policy) : Option VisitorGate :=
  p.jwtMethods.findSome? fun cfg =>
    (jwtTokenFromRequest v cfg).bind fun token =>
      (G.verifyJwt cfg token).map fun who =>
        .allow (some { how := .jwt, who := who, consumedAuthorization := cfg.cookie.isNone })

def applyRequestMethods (G : GateState) (v : Visitor) (p : Policy) (host : Option String)
    (path : String) : Option VisitorGate :=
  match (presentedSecret v p).filter fun s => p.admitsBearer s.1 s.2 with
  | some (_, fromQuery) =>
    match host with
    | some h =>
      if fromQuery && v.navigation then
        some (.deny (.cookieRedirect h (routePathBind G path host)))
      else some (.allow (some { how := .bearer, consumedAuthorization := !fromQuery }))
    | none => some (.allow (some { how := .bearer, consumedAuthorization := !fromQuery }))
  | none => applyJwtMethods G v p

/-! ## Delegation -/

/-- Asks the connection the balancer picks, and names it. -/
def askOverTunnel (G : GateState) (v : Visitor) (host : Option String) (path : String)
    (cfg : ForwardConfig) : Verdict × Option String :=
  match G.tunnelPick cfg v host path with
  | some client => (G.tunnelAnswer cfg v host path client, some client)
  | none => (.deny "", none)

def askForward (G : GateState) (v : Visitor) (host : Option String) (path : String)
    (cfg : ForwardConfig) : Verdict × Option String :=
  if cfg.viaClient then askOverTunnel G v host path cfg else (G.ask cfg v host path, none)

def forwardIdentity (carried : List (String × String)) (asked : Option String) :
    VisitorIdentity where
  how := .forward
  who := (carried.find? fun kv => eqIgnoreAsciiCase kv.1 "x-auth-user").map (·.2)
  extraHeaders := carried
  forwardClientId := asked

/-- Asks each endpoint in turn. The first that admits decides; a refusal is
held, and the last one is what is left. -/
def askEach (ask : ForwardConfig → Verdict × Option String) :
    List ForwardConfig → Option String → VisitorIdentity ⊕ Option String
  | [], held => .inr held
  | cfg :: rest, _ =>
    match ask cfg with
    | (.allow carried, asked) => .inl (forwardIdentity carried asked)
    | (.deny answer, _) => askEach ask rest (some answer)

/-! ## Refusing -/

/-- A refusal in the shape its caller can act on. -/
def refuseVisitor (p : Policy) (navigation : Bool) (loginPath : String) : Refusal :=
  if p.hasSso && navigation then .loginRedirect "/aperio/sso/login"
  else if p.hasSso && p.ssoOnly then
    .unauthorized none "401 Unauthorized - this route asks for a single sign-on in a browser"
  else
    match p.challenge.filter fun _ => !navigation && p.hasDirectMethod with
    | some scheme => .unauthorized (some scheme) ""
    | none =>
      if !navigation && p.hasAperio then
        .unauthorized none "401 Unauthorized - this route asks for an Aperio sign-in"
      else .loginRedirect loginPath

/-- What is left when no method admitted: a share link, else the endpoint's
own refusal, else the generic one. -/
def shareOrRefuse (G : GateState) (v : Visitor) (host : Option String) (path : String)
    (held : Option String) (refusal : Refusal) : VisitorGate :=
  match checkShareAccess G v host path with
  | some (some redirect) => .deny redirect
  | some none => .allow (some { how := .share })
  | none => .deny ((held.map Refusal.delegated).getD refusal)

/-! ## The gate -/

/-- Who is behind a session the gate has already accepted. -/
def gateSessionIdentity (G : GateState) (v : Visitor) : Option VisitorIdentity :=
  some
    { how := .session
      who := (v.sessionCookie.bind G.sessions.lookup).bind fun s =>
        if s.expiresAt ≤ G.nowSecs then none else s.username }

def ssoAdmits (G : GateState) (v : Visitor) (p : Policy) (host : Option String) :
    Option String :=
  if p.hasSso then
    ((ssoIdentity G.toAuthState v.toPresented host).filter fun id =>
      p.ssoMethods.any fun m => m.issuer == id.1 && m.admitsEmail id.2).map (·.2)
  else none

/-- Lets a visitor through a gate the operator wrote, a site's or the
server's own. -/
def admitByPolicy (G : GateState) (v : Visitor) (host : Option String) (path : String)
    (p : Policy) (site : Bool) : VisitorGate :=
  match ssoAdmits G v p host with
  | some email => .allow (some { how := .sso, who := some email })
  | none =>
    let sessionOk :=
      if p.aperioOnly || p.ssoOnly then adminSessionReaches G.toAuthState v.toPresented host
      else if site then validateSessionForHost G.toAuthState v.toPresented host
      else validateSessionForVisitor G.toAuthState v.toPresented host
    if sessionOk then .allow (gateSessionIdentity G v)
    else
      match applyRequestMethods G v p host path with
      | some decided => decided
      | none =>
        match askEach (askForward G v host path) p.forwardMethods none with
        | .inl identity => .allow (some identity)
        | .inr held =>
          shareOrRefuse G v host path held (refuseVisitor p v.navigation "/aperio/auth")

/-- Lets a visitor through a policy the clients of the route declare. Its
`forward` is always asked over the tunnel. -/
def admitByDeclared (G : GateState) (v : Visitor) (host : Option String) (path : String)
    (p : Policy) : VisitorGate :=
  if p.admitsEveryone then .allow none
  else
    let sessionOk :=
      if p.aperioOnly then adminSessionReaches G.toAuthState v.toPresented host
      else validateSessionForHost G.toAuthState v.toPresented host
    if sessionOk then .allow (gateSessionIdentity G v)
    else
      match applyRequestMethods G v p host path with
      | some decided => decided
      | none =>
        match askEach (askOverTunnel G v host path) p.forwardMethods none with
        | .inl identity => .allow (some identity)
        | .inr held =>
          shareOrRefuse G v host path held (refuseVisitor p v.navigation "/aperio/auth")

/-- A password the clients of the route declare. -/
def admitByPassword (G : GateState) (v : Visitor) (host : Option String) (path : String) :
    VisitorGate :=
  if validateSessionForHost G.toAuthState v.toPresented host then .allow (gateSessionIdentity G v)
  else shareOrRefuse G v host path none (.loginRedirect "/aperio/auth")

/-- Nothing declares the route: open, or held back from everybody but this
server's own users. -/
def admitByPosture (G : GateState) (v : Visitor) (host : Option String) : VisitorGate :=
  if G.cfg.defaultAccess = .deny then
    if validateSessionForVisitor G.toAuthState v.toPresented host then
      .allow (gateSessionIdentity G v)
    else .undeclared .notPublished
  else .allow none

/-- Some gate could apply on this hostname. -/
def gatedOnHost (G : GateState) (host : Option String) : Bool :=
  G.cfg.visitorAuth.gates || G.cfg.sites.gatesOnHost host || hostHasVisitorAuth G host

/-- A path with a traversal segment: no scope is trusted, and wherever a gate
could apply a global session is asked for. -/
def checkTraversal (G : GateState) (v : Visitor) (host : Option String) : VisitorGate :=
  if gatedOnHost G host then
    if validateSessionForVisitor G.toAuthState v.toPresented host then
      .allow (gateSessionIdentity G v)
    else .deny (.loginRedirect "/aperio/auth")
  else if G.cfg.sites.publicOnHost host then .allow none
  else admitByPosture G v host

/-- The server's own gate, where no client's gate stands. -/
def checkServerGate (G : GateState) (v : Visitor) (host : Option String) (path : String) :
    VisitorGate :=
  if routeIsPublic G path host then .allow none
  else if G.cfg.visitorAuth.gates then admitByPolicy G v host path G.cfg.visitorAuth false
  else admitByPosture G v host

def checkVisitorGate (G : GateState) (v : Visitor) (host : Option String) (path : String) :
    VisitorGate :=
  if requestPathHasTraversal path then checkTraversal G v host
  else
    match G.cfg.sites.accessFor host path with
    | some .isPublic => .allow none
    | some (.gate policy) => admitByPolicy G v host path policy.toPolicy true
    | none =>
      match routeVisitorPolicy G path host with
      | some declared => admitByDeclared G v host path declared
      | none =>
        if (routeVisitorAuth G path host).isSome then admitByPassword G v host path
        else checkServerGate G v host path

end Aperio
