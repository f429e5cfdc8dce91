import Aperio.Orgs
import Aperio.Users

/-!
# Who is calling, and what they hold

Sessions (`store/sessions.rs`), the resolution of a request's credential
into an identity with grants (`auth/caller.rs`), and the session questions
the visitor gate asks (`auth/scope.rs`).

A session stores a name and a flat role. The name is looked up on every
request; a name with no row at all is read as a sign-in at the server's own
identity provider, which holds the flat role in master.
-/

namespace Aperio

/-! ## Sessions -/

inductive Plane where
  | admin
  | visitor
deriving Repr, DecidableEq

structure SessionInfo where
  expiresAt : Nat
  plane : Plane
  scopeHost : Option String := none
  username : Option String := none
  role : Role
  selectedOrg : Option String := none
  boundOrg : Option String := none
  loginHost : Option String := none
  ssoIssuer : Option String := none
deriving Repr, DecidableEq

abbrev Sessions := AList fun _ : String => SessionInfo

/-- Under the fenced-login setting a session is used only on the hostname it
was minted on. -/
def SessionInfo.usableOn (s : SessionInfo) (fenced : Bool) (host : Option String) : Bool :=
  !fenced || s.loginHost.isNone || s.loginHost == host

structure AdminKey where
  name : String
  role : Role
  scope : GrantOrg
deriving Repr, DecidableEq

/-- What a request presents: the session cookie this deployment reads, the
token of an `Authorization` or `x-auth-token` header, and the hostname it
names. -/
structure Presented where
  sessionCookie : Option String := none
  token : Option String := none
  requestHost : Option String := none
deriving Repr, DecidableEq

/-- The state credentials are resolved in. `isUuid` is `Uuid::parse_str`,
`adminKey` the admin key store's answer to a presented token. -/
structure AuthState where
  fencedLogin : Bool := false
  nowSecs : Nat := 0
  sessions : Sessions := ∅
  users : Users := []
  orgs : List Organization := []
  clients : Clients := ∅
  isUuid : String → Bool := fun _ => true
  adminKey : String → Option AdminKey := fun _ => none

/-! ## The caller -/

inductive Identity where
  | builtIn (role : Role)
  | named (username : String) (grants : List Grant)
  | oidc (email : String) (boundOrg : Option String) (role : Role)
  | key (name : String) (role : Role) (scope : GrantOrg)
deriving Repr, DecidableEq

structure Caller where
  identity : Identity
  selected : Option String
deriving Repr, DecidableEq

namespace Caller

/-- What this caller holds, per organization. -/
def grants (c : Caller) : List Grant :=
  match c.identity with
  | .builtIn role => Grants.legacyGrants role none
  | .named _ grants => grants
  | .oidc _ (some org) role => [{ org := .child org, role := role }]
  | .oidc _ none role => Grants.legacyGrants role none
  | .key _ role scope => [{ org := scope, role := role }]

def roleIn (c : Caller) (org : Option String) : Option Role :=
  Grants.roleIn c.grants org

def isServerAdmin (c : Caller) : Bool :=
  Grants.isServerAdmin c.grants

def mayGrant (c : Caller) (grant : Grant) : Bool :=
  Grants.mayGrant c.grants grant

/-- Where a session lands before it selects anything: master when a grant
reaches it, else the first child organization granted, by id. -/
def defaultOrg (c : Caller) : Option String :=
  if (c.roleIn none).isSome then none
  else
    let children := c.grants.filterMap fun g =>
      match g.org with
      | .child id => some id
      | _ => none
    (children.insertionSort (· ≤ ·)).head?

/-- The organization the caller is acting in. -/
def effectiveOrg (c : Caller) : Option String :=
  match c.identity with
  | .key _ _ (.child id) => some id
  | .key _ _ _ => none
  | .oidc _ (some org) _ => some org
  | _ =>
    match c.selected with
    | some sel => if (c.roleIn (some sel)).isSome then some sel else c.defaultOrg
    | none => c.defaultOrg

end Caller

/-- A session that carries an identity at all: not expired, not fixed to a
hostname, on the admin plane, and usable where it is presented. -/
def SessionInfo.carriesIdentity (s : SessionInfo) (A : AuthState) (v : Presented) : Bool :=
  decide (A.nowSecs < s.expiresAt) && s.scopeHost.isNone && s.plane == .admin &&
    s.usableOn A.fencedLogin v.requestHost

/-- The identity behind a session's name, in the rows as they are now. A
session fixed to an organization reads the row for its role there and
nothing else; a disabled row stands for nobody; no row at all is an identity
provider's login. -/
def sessionIdentity (users : Users) (s : SessionInfo) : Option Identity :=
  match s.boundOrg with
  | some org =>
    match s.username.bind users.findByUsername with
    | some user =>
      some (.named user.username
        ((user.roleIn (some org)).map fun role => { org := .child org, role := role }).toList)
    | none =>
      if s.username.any users.isDisabledUsername then none
      else some (.oidc (s.username.getD "") (some org) s.role)
  | none =>
    match s.username with
    | none => some (.builtIn s.role)
    | some name =>
      match users.findByUsername name with
      | some user => some (.named user.username user.grants)
      | none =>
        if users.isDisabledUsername name then none else some (.oidc name none s.role)

/-- What a presented session resolves to. -/
def sessionCaller (A : AuthState) (v : Presented) : Option Caller :=
  ((v.sessionCookie.bind A.sessions.lookup).filter (·.carriesIdentity A v)).bind fun s =>
    (sessionIdentity A.users s).map fun identity => ⟨identity, s.selectedOrg⟩

/-- The request's credential: a session first, then an admin key. -/
def resolveCaller (A : AuthState) (v : Presented) : Option Caller :=
  (sessionCaller A v).or
    ((v.token.bind A.adminKey).map fun key => ⟨.key key.name key.role key.scope, none⟩)

/-! ## What a session opens -/

/-- A named session of a disabled account is nobody's. -/
def namedUserActive (users : Users) (username : Option String) : Bool :=
  username.all (!users.isDisabledUsername ·)

/-- A session that stands for a sign-in here: the hostname it is fixed to,
or `none` inside for a global one. A session an `sso` gate minted is not
one. -/
def sessionScope (A : AuthState) (v : Presented) : Option (Option String) :=
  (v.sessionCookie.filter A.isUuid).bind fun token =>
    (A.sessions.lookup token).bind fun s =>
      if !s.usableOn A.fencedLogin v.requestHost then none
      else if A.nowSecs < s.expiresAt then
        if s.ssoIssuer.isSome then none
        else if namedUserActive A.users s.username then some s.scopeHost
        else none
      else none

def validateSession (A : AuthState) (v : Presented) : Bool :=
  sessionScope A v == some none

/-- Whether one of the caller's organizations reaches the hostname. -/
def callerReaches (A : AuthState) (c : Caller) (host : Option String) : Bool :=
  match host with
  | none => (c.roleIn none).isSome
  | some h =>
    c.grants.any fun g =>
      match g.org with
      | .all => true
      | .master => orgMayActOnHostname A.orgs A.clients none h
      | .child id => orgMayActOnHostname A.orgs A.clients (some id) h

/-- A global session that reaches the hostname; one that resolves to nobody
is a visitor's, made by the server's own visitor password, and is admitted
everywhere. -/
def validateSessionForVisitor (A : AuthState) (v : Presented) (host : Option String) : Bool :=
  validateSession A v &&
    match resolveCaller A v with
    | none => true
    | some c => callerReaches A c host

def adminSessionReaches (A : AuthState) (v : Presented) (host : Option String) : Bool :=
  validateSession A v && (resolveCaller A v).any fun c => callerReaches A c host

def validateSessionForHost (A : AuthState) (v : Presented) (host : Option String) : Bool :=
  match sessionScope A v with
  | some none => validateSessionForVisitor A v host
  | some (some scope) => host == some scope
  | none => false

/-- The provider and the email behind a session an `sso` gate minted for
this hostname. -/
def ssoIdentity (A : AuthState) (v : Presented) (host : Option String) :
    Option (String × String) :=
  host.bind fun h =>
    (v.sessionCookie.filter A.isUuid).bind fun token =>
      (A.sessions.lookup token).bind fun s =>
        if A.nowSecs < s.expiresAt ∧ s.usableOn A.fencedLogin (some h) = true ∧
            s.plane = .visitor ∧ s.scopeHost = some h then
          s.ssoIssuer.bind fun issuer => s.username.map fun email => (issuer, email)
        else none

/-- The name behind a live dashboard session, as the self-service endpoints
read it: neither the organization it is fixed to nor the hostname it was
minted on is asked. -/
def dashboardUsername (A : AuthState) (v : Presented) : Option String :=
  (v.sessionCookie.bind A.sessions.lookup).bind fun s =>
    if A.nowSecs < s.expiresAt ∧ s.scopeHost = none ∧ s.plane = .admin then
      s.username.filter fun name => namedUserActive A.users (some name)
    else none

/-! ## How the session questions relate -/

variable {A : AuthState} {v : Presented} {host : Option String}

theorem validateSessionForHost_of_visitor (h : validateSessionForVisitor A v host = true) :
    validateSessionForHost A v host = true := by
  have hs : sessionScope A v = some none := by
    simp only [validateSessionForVisitor, validateSession, Bool.and_eq_true, beq_iff_eq] at h
    exact h.1
  simp only [validateSessionForHost, hs]
  exact h

/-- The two readings of a global session differ on exactly one kind: the one
that resolves to nobody. -/
theorem adminSessionReaches_iff :
    adminSessionReaches A v host = true ↔
      validateSessionForVisitor A v host = true ∧ (resolveCaller A v).isSome = true := by
  simp only [adminSessionReaches, validateSessionForVisitor, Bool.and_eq_true]
  cases resolveCaller A v <;> simp

/-- A global session is no single sign-on. -/
theorem ssoIdentity_of_validateSession (h : validateSession A v = true) :
    ssoIdentity A v host = none := by
  simp only [validateSession, sessionScope, beq_iff_eq] at h
  cases host with
  | none =>
      rfl
  | some x =>
      cases hc : v.sessionCookie.filter A.isUuid with
      | none =>
          rw [hc] at h
          cases h
      | some token =>
          rw [hc] at h
          cases hl : A.sessions.lookup token with
          | none =>
              simp [hl] at h
          | some s =>
              have hscope : s.scopeHost = none := by
                simp only [hl, Option.bind_some] at h
                split at h
                · cases h
                · split at h
                  · split at h
                    · cases h
                    · split at h
                      · exact Option.some.inj h
                      · cases h
                  · cases h
              simp [ssoIdentity, hc, hl, hscope]

end Aperio
