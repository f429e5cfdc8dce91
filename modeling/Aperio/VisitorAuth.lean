import Aperio.Text

/-!
# The compiled visitor gate

What `access:` becomes once it is in force (`visitor_auth.rs`, with the
configuration grammar of `aperio-config/src/auth.rs`). A policy is a list of
methods and admits on the first that admits; a list with no method and a
list with the open method stand between nobody and the route.
-/

namespace Aperio

/-! ## What the configuration says -/

/-- One entry of an `access` policy. A value "one or a list" is a list
here. -/
structure AuthMethodSpec where
  method : String
  users : Option (List String) := none
  secret : Option (List String) := none
  query : Option Bool := none
  jwksUrl : Option String := none
  hmacSecret : Option String := none
  issuer : Option String := none
  clientId : Option String := none
  clientSecret : Option String := none
  allowedEmails : Option (List String) := none
  scopes : Option String := none
  audience : Option (List String) := none
  claims : Option (List (String × String)) := none
  cookie : Option String := none
  url : Option String := none
  requestHeaders : Option (List String) := none
  responseHeaders : Option (List String) := none
  timeout : Option Nat := none
  cache : Option Nat := none
  via : Option String := none
deriving Repr, DecidableEq

inductive AuthSetting where
  | credentials (creds : String)
  | one (spec : AuthMethodSpec)
  | any (specs : List AuthMethodSpec)
deriving Repr, DecidableEq

/-- The policy as a list of entries, whichever way it was written. The
scalar spelling is one `basic` method with that one credential. -/
def AuthSetting.methods : AuthSetting → List AuthMethodSpec
  | .credentials creds => [{ method := "basic", users := some [creds] }]
  | .one spec => [spec]
  | .any specs => specs

/-- Whether an entry is a `forward` asked over the tunnel. -/
def forwardViaClient (spec : AuthMethodSpec) : Bool :=
  eqIgnoreAsciiCase (trim spec.method) "forward" &&
    spec.via.any fun v => eqIgnoreAsciiCase (trim v) "client"

/-! ## What the request path consults -/

structure JwtConfig where
  jwksUrl : Option String
  hmacSecret : Option String
  issuer : Option String
  audience : List String
  claims : List (String × String)
  cookie : Option String
  declaredByClient : Bool
deriving Repr, DecidableEq

structure ForwardConfig where
  url : String
  requestHeaders : List String
  responseHeaders : List String
  timeout : Nat
  cache : Nat
  viaClient : Bool
deriving Repr, DecidableEq

structure SsoConfig where
  issuer : String
  clientId : String
  clientSecret : String
  allowedEmails : List String
  scopes : String
deriving Repr, DecidableEq

/-- One gate, compiled. -/
inductive Method where
  | openGate
  | basic (users : List String)
  | bearer (secrets : List String) (query : Bool)
  | jwt (cfg : JwtConfig)
  | forward (cfg : ForwardConfig)
  | aperio
  | sso (cfg : SsoConfig)
deriving Repr, DecidableEq

/-- A route's visitor gate: the methods that may admit a visitor, in the
order they were written. -/
structure Policy where
  methods : List Method
deriving Repr, DecidableEq

namespace Method

def isOpen : Method → Bool
  | .openGate => true
  | _ => false

def isAperio : Method → Bool
  | .aperio => true
  | _ => false

def isSso : Method → Bool
  | .sso _ => true
  | _ => false

def isBasic : Method → Bool
  | .basic _ => true
  | _ => false

/-- A method that is satisfied by the request itself, or asked about it. -/
def onRequest : Method → Bool
  | .bearer _ _ => true
  | .jwt _ => true
  | .forward _ => true
  | _ => false

/-- What one entry compiles to. A method that cannot be read is dropped; a
client never declares `sso`, and a client's `forward` is always asked of
that client. -/
def compileSpec (declaredByClient : Bool) (spec : AuthMethodSpec) : Option Method :=
  let name := toAsciiLowercase (trim spec.method)
  if name = "none" then some .openGate
  else if name = "aperio" then some .aperio
  else if name = "sso" ∧ declaredByClient = false then
    some (.sso
      { issuer := trim (spec.issuer.getD "")
        clientId := spec.clientId.getD ""
        clientSecret := spec.clientSecret.getD ""
        allowedEmails := spec.allowedEmails.getD []
        scopes := (spec.scopes.filter (trim · != "")).getD "openid email" })
  else if name = "basic" then some (.basic (spec.users.getD []))
  else if name = "forward" then
    let viaClient := declaredByClient || forwardViaClient spec
    some (.forward
      { url := spec.url.getD ""
        requestHeaders := spec.requestHeaders.getD []
        responseHeaders := spec.responseHeaders.getD []
        timeout := max (spec.timeout.getD 5) 1
        cache := spec.cache.getD (if viaClient then 30 else 0)
        viaClient := viaClient })
  else if name = "jwt" then
    some (.jwt
      { jwksUrl := spec.jwksUrl
        hmacSecret := spec.hmacSecret
        issuer := spec.issuer
        audience := spec.audience.getD []
        claims := spec.claims.getD []
        cookie := spec.cookie
        declaredByClient := declaredByClient })
  else if name = "bearer" then some (.bearer (spec.secret.getD []) (spec.query.getD false))
  else none

end Method

/-- Whether a list of email patterns lets an address in: `*`, `*@domain`, or
the address itself. -/
def emailAllowed (email : String) (patterns : List String) : Bool :=
  let email := toAsciiLowercase (trim email)
  email != "" && patterns.any fun p =>
    if p = "*" then true
    else
      match stripPrefix p "*@" with
      | some domain => (rsplitOnce email '@').any (·.2 == domain)
      | none => p == email

def SsoConfig.admitsEmail (cfg : SsoConfig) (email : String) : Bool :=
  emailAllowed email cfg.allowedEmails

namespace Policy

def compileFrom (setting : AuthSetting) (declaredByClient : Bool) : Policy :=
  ⟨setting.methods.filterMap (Method.compileSpec declaredByClient)⟩

def compile (setting : AuthSetting) : Policy :=
  compileFrom setting false

/-- Nothing here stands between a visitor and the route. -/
def admitsEveryone (p : Policy) : Bool :=
  p.methods.isEmpty || p.methods.any Method.isOpen

def gates (p : Policy) : Bool :=
  !p.admitsEveryone

def admitsCredential (p : Policy) (presented : String) : Bool :=
  p.methods.any fun
    | .basic users => users.any (presented == ·)
    | _ => false

/-- Whether a presented bearer secret opens this gate. A secret from the URL
is compared only with the methods that opted into that. -/
def admitsBearer (p : Policy) (presented : String) (fromQuery : Bool) : Bool :=
  p.methods.any fun
    | .bearer secrets query => !(fromQuery && !query) && secrets.any (presented == ·)
    | _ => false

def acceptsQueryToken (p : Policy) : Bool :=
  p.methods.any fun
    | .bearer _ query => query
    | _ => false

def jwtMethods (p : Policy) : List JwtConfig :=
  p.methods.filterMap fun
    | .jwt cfg => some cfg
    | _ => none

def forwardMethods (p : Policy) : List ForwardConfig :=
  p.methods.filterMap fun
    | .forward cfg => some cfg
    | _ => none

def ssoMethods (p : Policy) : List SsoConfig :=
  p.methods.filterMap fun
    | .sso cfg => some cfg
    | _ => none

/-- The `aperio` method is the only one: then the site's own visitor
password, which mints a session too, does not count. -/
def aperioOnly (p : Policy) : Bool :=
  !p.methods.isEmpty && p.methods.all Method.isAperio

/-- Single sign-on is the only way through. -/
def ssoOnly (p : Policy) : Bool :=
  !p.methods.isEmpty && p.methods.all Method.isSso

def hasDirectMethod (p : Policy) : Bool :=
  p.methods.any fun
    | .bearer _ _ => true
    | .jwt _ => true
    | _ => false

def hasAperio (p : Policy) : Bool :=
  p.methods.any Method.isAperio

def hasSso (p : Policy) : Bool :=
  p.methods.any Method.isSso

/-- The scheme a refusal names in `WWW-Authenticate`. -/
def challenge (p : Policy) : Option String :=
  p.methods.findSome? fun
    | .bearer _ _ => some "Bearer"
    | .jwt _ => some "Bearer"
    | _ => none

end Policy

end Aperio
