import Aperio.Run
import Aperio.Traversal

/-!
# What a visitor's password opens

`auth_login_handler` and the gates that take its sessions. The form is
pointed at a route by the visitor's own `redirect`, compares the password
with the gate of that route, and mints a session for the whole hostname; a
gate asks a session for its hostname and nothing more. So a password opens
every gate of a hostname as soon as it opens one of them, and the server's
own password opens every gate there is.
-/

namespace Aperio

/-! ## The hostname, three ways -/

/-- The hostname the login form reads off a `Host` header. -/
def loginHost (raw : Option String) : Option String :=
  (raw.map fun h => toAsciiLowercase (trim ((split h ':').headD h))).filter (· != "")

def extractRequestHost (raw : Option String) : Option String :=
  (raw.map fun h =>
    let trimmed := toAsciiLowercase (trim h)
    match stripPrefix trimmed "[" with
    | some stripped => (split stripped ']').headD ""
    | none => (split trimmed ':').headD "").filter (· != "")

/-- `panel::request_host`, which a session remembers its login by. -/
def panelRequestHost (raw : Option String) : Option String :=
  (raw.map fun h =>
    let host :=
      match (rsplitOnce h ':').filter fun (name, port) =>
          name != "" && port.toList.all isAsciiDigit with
      | some (name, _) => name
      | none => h
    toAsciiLowercase (trimEndMatches (trim host) '.')).filter (· != "")

/-! ## The form -/

def safeRedirectPath (uri : String) : String :=
  if startsWith uri "/" ∧ ¬ startsWith uri "//" ∧ ¬ startsWith uri "/\\" then uri else "/"

/-- What a login is checked against. `passwordOk` compares a password with
a hash, `loginAdmits` is the panel's own rule for a named user. -/
structure LoginForm where
  gate : GateState
  masterToken : String
  passwordOk : String → String → Bool := fun _ _ => false
  loginAdmits : Option String → List Grant → Bool := fun _ _ => true
  uuid : String
  uuid_ok : gate.isUuid uuid = true

/-- One use of the form: the `Host` header, the `redirect` parameter and
what the second factor is worth, if one is presented. -/
structure LoginUse where
  rawHost : Option String := none
  redirect : Option String := none
  totp : Option Bool := none
deriving Repr, DecidableEq

def LoginUse.host (u : LoginUse) : Option String := loginHost u.rawHost

def LoginUse.redirectPath (u : LoginUse) : String := (u.redirect.map safeRedirectPath).getD "/"

namespace LoginForm

variable (F : LoginForm)

/-- The gate of a site that covers the route the visitor was heading to. -/
def sitePolicy (u : LoginUse) : Option Policy :=
  if startsWith u.redirectPath "/aperio" then none
  else
    match F.gate.cfg.sites.accessFor u.host ((split u.redirectPath '?').headD "/") with
    | some (.gate p) => some p.toPolicy
    | _ => none

def customCreds (u : LoginUse) : Option String :=
  if startsWith u.redirectPath "/aperio" ∨ (F.sitePolicy u).isSome then none
  else routeVisitorAuth F.gate u.redirectPath u.host

def customPolicy (u : LoginUse) : Option Policy :=
  if startsWith u.redirectPath "/aperio" then none
  else
    match F.sitePolicy u with
    | some p => some p
    | none => routeVisitorPolicy F.gate u.redirectPath u.host

/-- The gate the form was pointed at lists the password. -/
def formLists (u : LoginUse) (c : String) : Bool :=
  match F.customPolicy u, F.customCreds u with
  | some p, _ => p.admitsCredential c
  | none, some creds => c == creds
  | none, none => false

/-- The form was pointed at no gate of its own, and the server's lists the
password. -/
def serverLists (u : LoginUse) (c : String) : Bool :=
  (F.customCreds u).isNone && (F.customPolicy u).isNone && F.gate.cfg.visitorAuth.admitsCredential c

def verifiedUser (adminHost : Option String) (c : String) : Option User :=
  (splitOnce c ':').bind fun (username, password) =>
    (F.gate.users.verify (F.passwordOk password) username).filter fun u =>
      F.loginAdmits adminHost u.grants

/-- What a login as one of the server's own comes to: refused for want of a
code, let in, or no such login. -/
inductive OwnLogin where
  | needsCode
  | granted (username : Option String) (role : Role)
  | no

def ownLogin (u : LoginUse) (c : String) : OwnLogin :=
  if c = "aperio:" ++ F.masterToken then .granted none .admin
  else
    match F.verifiedUser (panelRequestHost u.rawHost) c with
    | none => .no
    | some user =>
      match user.totpSecret, u.totp with
      | none, _ => .granted (some user.username) user.role
      | some _, none => .needsCode
      | some _, some true => .granted (some user.username) user.role
      | some _, some false => .no

def session (nowSecs : Nat) (u : LoginUse) (plane : Plane) (scope username : Option String)
    (role : Role) : SessionInfo where
  expiresAt := nowSecs + 86400
  plane := plane
  scopeHost := scope
  username := username
  role := role
  loginHost := panelRequestHost u.rawHost

/-- The session a credential gets at the form. -/
def login (nowSecs : Nat) (u : LoginUse) (c : String) : Option SessionInfo :=
  match F.ownLogin u c with
  | .needsCode => none
  | .granted username role => some (session nowSecs u .admin none username role)
  | .no =>
    if u.host.isSome && F.formLists u c then some (session nowSecs u .visitor u.host none .admin)
    else if F.serverLists u c then some (session nowSecs u .visitor none none .admin)
    else none

/-- The master token's credential, or one of a dashboard user. -/
def isOwnCredential (c : String) : Prop :=
  c = "aperio:" ++ F.masterToken ∨
    ∃ username password user, splitOnce c ':' = some (username, password) ∧
      F.gate.users.verify (F.passwordOk password) username = some user

/-! ## The visitor's runs -/

end LoginForm

/-- The sessions, and those the visitor was given. -/
structure PasswordState where
  sessions : Sessions := ∅
  mine : List String := []
  nowSecs : Nat := 0

inductive PasswordAct where
  | login (use : LoginUse) (token : String)
  | others (token : String) (info : SessionInfo)
  | drop (token : String)
  | tick (nowSecs : Nat)

namespace LoginForm

variable (F : LoginForm) (c : String)

/-- A visitor who only ever logs in with `c`, among everybody else. Tokens
are drawn, so a new one is nobody's. -/
def visits : Sys PasswordState PasswordAct where
  init s := s.mine = []
  step s a s' :=
    match a with
    | .login use token =>
      ∃ info, F.login s.nowSecs use c = some info ∧ s.sessions.lookup token = none ∧
        s' = { s with sessions := s.sessions.insert token info, mine := token :: s.mine }
    | .others token info =>
      token ∉ s.mine ∧ s' = { s with sessions := s.sessions.insert token info }
    | .drop token => s' = { s with sessions := s.sessions.erase token }
    | .tick nowSecs => s.nowSecs ≤ nowSecs ∧ s' = { s with nowSecs := nowSecs }

def gateAt (s : PasswordState) : GateState :=
  { F.gate with sessions := s.sessions, nowSecs := s.nowSecs }

end LoginForm

/-- What the visitor presents: a session of their own, or none, and no share
link. -/
structure PasswordState.Presents (s : PasswordState) (v : Visitor) (rawHost : Option String) :
    Prop where
  session : ∀ t, v.sessionCookie = some t → t ∈ s.mine
  shareQuery : v.shareQuery = none
  shareCookie : v.cookieValue "aperio_share" = none
  host : v.requestHost = panelRequestHost rawHost

/-- A gate of a site or of the route's clients that asks for a password and
nothing else. -/
def RouteGate.ownBasic : RouteGate → Bool
  | .policy .server _ => false
  | .policy _ p => p.methods.all Method.isBasic
  | .password => true
  | _ => false

/-- The gate of a path lists the password. -/
def gateLists (G : GateState) (host : Option String) (path c : String) : Bool :=
  match routeGate G host path with
  | .policy _ p => p.admitsCredential c
  | .password => routeVisitorAuth G path host == some c
  | _ => false

namespace LoginForm

variable (F : LoginForm) (c : String)

/-- Where such a gate answers the visitor at all, it lists their password. -/
def opensOnlyListed (s : PasswordState) : Prop :=
  ∀ v rawHost path, s.Presents v rawHost →
    (routeGate F.gate (extractRequestHost rawHost) path).ownBasic = true →
    (checkVisitorGate (F.gateAt s) v (extractRequestHost rawHost) path).isAllow = true →
    gateLists F.gate (extractRequestHost rawHost) path c = true ∨ F.isOwnCredential c

/-! ## When it does -/

variable {F c}

/-- A session of this use of the form counts under that `Host` header. -/
def usableUnder (F : LoginForm) (u : LoginUse) (rawHost : Option String) : Prop :=
  F.gate.fencedLogin = true → panelRequestHost u.rawHost = none ∨
    panelRequestHost u.rawHost = panelRequestHost rawHost

/-- A use of the form that gives the password no gate it is not listed at:
where the gate it points at lists it, so does every password gate of that
hostname; where the server's own does, so does every password gate. -/
structure SafeUse (F : LoginForm) (c : String) (u : LoginUse) : Prop where
  form : u.host.isSome = true → F.formLists u c = true → ∀ rawHost path,
    extractRequestHost rawHost = u.host → F.usableUnder u rawHost →
    requestPathHasTraversal path = false →
    (routeGate F.gate (extractRequestHost rawHost) path).ownBasic = true →
    gateLists F.gate (extractRequestHost rawHost) path c = true
  server : F.serverLists u c = true → ∀ rawHost path, F.usableUnder u rawHost →
    (routeGate F.gate (extractRequestHost rawHost) path).ownBasic = true →
    gateLists F.gate (extractRequestHost rawHost) path c = true

/-- What a session of the form was made for. -/
theorem login_eq_some {nowSecs : Nat} {u : LoginUse} {info : SessionInfo}
    (h : F.login nowSecs u c = some info) :
    F.isOwnCredential c ∨
      (u.host.isSome = true ∧ F.formLists u c = true ∧
        info = session nowSecs u .visitor u.host none .admin) ∨
      (F.serverLists u c = true ∧ info = session nowSecs u .visitor none none .admin) := by
  unfold login at h
  cases hown : F.ownLogin u c with
  | needsCode =>
      rw [hown] at h
      exact absurd h (by simp)
  | granted username role =>
      refine .inl ?_
      unfold ownLogin at hown
      split at hown
      · rename_i hmaster
        exact .inl hmaster
      · split at hown
        · exact absurd hown (by simp)
        · rename_i user huser
          obtain ⟨⟨name, password⟩, hsplit, hver⟩ := Option.bind_eq_some_iff.mp huser
          exact .inr ⟨name, password, user, hsplit, (Option.filter_eq_some_iff.mp hver).1⟩
  | no =>
      simp only [hown] at h
      split at h
      · rename_i hform
        obtain ⟨hhost, hlists⟩ := Bool.and_eq_true_iff.mp hform
        exact .inr (.inl ⟨hhost, hlists, (Option.some.inj h).symm⟩)
      · split at h
        · rename_i hserver
          exact .inr (.inr ⟨hserver, (Option.some.inj h).symm⟩)
        · exact absurd h (by simp)

/-- A credential that is none of the server's own goes to the gates. -/
theorem ownLogin_eq_no (h : ¬ F.isOwnCredential c) (u : LoginUse) : F.ownLogin u c = .no := by
  unfold ownLogin
  rw [if_neg fun hmaster => h (.inl hmaster)]
  have hnone : F.verifiedUser (panelRequestHost u.rawHost) c = none := by
    by_contra hsome
    obtain ⟨user, huser⟩ := Option.ne_none_iff_exists'.mp hsome
    obtain ⟨⟨name, password⟩, hsplit, hver⟩ := Option.bind_eq_some_iff.mp huser
    exact h (.inr ⟨name, password, user, hsplit, (Option.filter_eq_some_iff.mp hver).1⟩)
  rw [hnone]

end LoginForm

section Gates

variable {G : GateState} {v : Visitor} {host : Option String} {path : String}

theorem usersOnly_of_ownBasic {gate : RouteGate} (h : gate.ownBasic = true) :
    gate.usersOnly = false := by
  have hbasic {p : Policy} (hall : p.methods.all Method.isBasic = true) :
      p.aperioOnly = false ∧ p.ssoOnly = false := by
    cases hm : p.methods with
    | nil => simp [Policy.aperioOnly, Policy.ssoOnly, hm]
    | cons m ms =>
        rw [hm, List.all_cons, Bool.and_eq_true] at hall
        cases m <;> simp_all [Policy.aperioOnly, Policy.ssoOnly, Method.isAperio, Method.isSso,
          Method.isBasic]
  cases gate with
  | policy origin p =>
      cases origin with
      | server => simp [RouteGate.ownBasic] at h
      | site => simp [RouteGate.usersOnly, (hbasic h).1, (hbasic h).2]
      | client => simp [RouteGate.usersOnly, (hbasic h).1]
  | _ => rfl

theorem sessionOpens_of_ownBasic {gate : RouteGate} (h : gate.ownBasic = true) :
    sessionOpens G v host gate = validateSessionForHost G.toAuthState v.toPresented host := by
  have hu := usersOnly_of_ownBasic h
  cases gate with
  | policy origin p =>
      cases origin with
      | server => simp [RouteGate.ownBasic] at h
      | site => simp [sessionOpens, hu]
      | client => simp [sessionOpens, hu]
  | password => simp [sessionOpens, hu]
  | opened => simp [RouteGate.ownBasic] at h
  | closed => simp [RouteGate.ownBasic] at h

/-- A gate that asks for passwords answers a visitor without a share link
by their session alone. -/
theorem answer_of_ownBasic {gate : RouteGate} (h : gate.ownBasic = true)
    (hshare : checkShareAccess G v host path = none) :
    (answer G v host path gate).isAllow =
      validateSessionForHost G.toAuthState v.toPresented host := by
  rw [Bool.eq_iff_iff]
  cases gate with
  | policy origin p =>
      have hall : ∀ m ∈ p.methods, m.isBasic = true := by
        cases origin with
        | server => simp [RouteGate.ownBasic] at h
        | site => exact List.all_eq_true.mp h
        | client => exact List.all_eq_true.mp h
      obtain ⟨hreq, hfwd⟩ := @no_request_methods G v host path p (by
        intro m hm
        have hkind := hall m hm
        cases m <;> simp_all [Method.isBasic, Method.onRequest])
      have hsso : p.hasSso = false := by
        rw [Policy.hasSso, List.any_eq_false]
        intro m hm
        have hkind := hall m hm
        cases m <;> simp_all [Method.isBasic, Method.isSso]
      have hsign : signOnFor G v host origin p = none := by
        simp [signOnFor, ssoAdmits, hsso]
      have hno : ¬ forwardAdmits G v host path origin p := by
        rintro ⟨cfg, hcfg, -⟩
        rw [hfwd] at hcfg
        exact absurd hcfg List.not_mem_nil
      rw [answer, admitBy_isAllow, sessionOpens_of_ownBasic h]
      simp [hsign, hreq, hno, hshare]
  | password =>
      rw [answer, admitByPassword_isAllow]
      simp [hshare]
  | opened => simp [RouteGate.ownBasic] at h
  | closed => simp [RouteGate.ownBasic] at h

/-- And so does the whole gate, which asks for a global session behind a
traversal segment. -/
theorem checkVisitorGate_of_ownBasic (h : (routeGate G host path).ownBasic = true)
    (hshare : checkShareAccess G v host path = none) :
    (checkVisitorGate G v host path).isAllow =
      if requestPathHasTraversal path then
        validateSessionForVisitor G.toAuthState v.toPresented host
      else validateSessionForHost G.toAuthState v.toPresented host := by
  by_cases htrav : requestPathHasTraversal path = true
  · have hgated : gatedOnHost G host = true := by
      by_contra hun
      rcases @routeGate_of_ungated G host path (by simpa using hun) with hr | ⟨hr, -, -⟩
      · simp [hr, RouteGate.ownBasic] at h
      · simp [hr, RouteGate.ownBasic] at h
    rw [Bool.eq_iff_iff, if_pos htrav, ← checkTraversal_of_gated hgated]
    simp [checkVisitorGate, htrav]
  · rw [checkVisitorGate_eq (by simpa using htrav), if_neg htrav]
    exact answer_of_ownBasic h hshare

end Gates

theorem sessionScope_eq_some {A : AuthState} {v : Presented} {scope : Option String}
    (h : sessionScope A v = some scope) :
    ∃ t info, v.sessionCookie = some t ∧ A.sessions.lookup t = some info ∧
      info.usableOn A.fencedLogin v.requestHost = true ∧ info.scopeHost = scope := by
  unfold sessionScope at h
  obtain ⟨t, ht, h⟩ := Option.bind_eq_some_iff.mp h
  obtain ⟨info, hinfo, h⟩ := Option.bind_eq_some_iff.mp h
  refine ⟨t, info, (Option.filter_eq_some_iff.mp ht).1, hinfo, ?_⟩
  split at h
  · exact absurd h (by simp)
  · rename_i husable
    refine ⟨by simpa using husable, ?_⟩
    split at h
    · split at h
      · exact absurd h (by simp)
      · split at h
        · exact Option.some.inj h
        · exact absurd h (by simp)
    · exact absurd h (by simp)

namespace LoginForm

variable {F : LoginForm} {c : String} {s : PasswordState}

/-- Each session of the visitor's comes from a safe use of the form. -/
def fromSafeUses (F : LoginForm) (c : String) (s : PasswordState) : Prop :=
  ∀ t ∈ s.mine, ∀ info, s.sessions.lookup t = some info →
    ∃ nowSecs u, F.SafeUse c u ∧ F.login nowSecs u c = some info

/-- The runs in which every login of the visitor's is a safe one. -/
def safeVisits (F : LoginForm) (c : String) : Sys PasswordState PasswordAct :=
  (F.visits c).restrict fun _ a _ => ∀ u token, a = .login u token → F.SafeUse c u

theorem reachable_fromSafeUses (hs : (F.safeVisits c).Reachable s) : F.fromSafeUses c s := by
  refine hs.invariant ?_ ?_
  · intro s hinit t ht
    rw [show s.mine = [] from hinit] at ht
    exact absurd ht List.not_mem_nil
  · intro s a s' _ ih ⟨hstep, hsafe⟩
    cases a with
    | login u token =>
        obtain ⟨info, hlogin, hfresh, rfl⟩ := hstep
        intro t ht info' hinfo'
        by_cases hne : t = token
        · rw [hne, AList.lookup_insert, Option.some.injEq] at hinfo'
          rw [← hinfo']
          exact ⟨s.nowSecs, u, hsafe u token rfl, hlogin⟩
        · rw [AList.lookup_insert_ne hne] at hinfo'
          rcases List.mem_cons.mp ht with h | h
          · exact absurd h hne
          · exact ih t h info' hinfo'
    | others token info =>
        obtain ⟨hnot, rfl⟩ := hstep
        intro t ht info' hinfo'
        have hne : t ≠ token := fun h => hnot (h ▸ ht)
        rw [AList.lookup_insert_ne hne] at hinfo'
        exact ih t ht info' hinfo'
    | drop token =>
        obtain rfl := hstep
        intro t ht info' hinfo'
        by_cases hne : t = token
        · rw [hne, AList.lookup_erase] at hinfo'
          exact absurd hinfo' (by simp)
        · rw [AList.lookup_erase_ne hne] at hinfo'
          exact ih t ht info' hinfo'
    | tick nowSecs =>
        obtain ⟨-, rfl⟩ := hstep
        exact ih

/-- Who is logged in does not move the gates, so in every state a password
gate takes the sessions it takes. -/
theorem checkVisitorGate_gateAt {v : Visitor} {host : Option String} {path : String}
    (hown : (routeGate F.gate host path).ownBasic = true)
    (hshare : checkShareAccess (F.gateAt s) v host path = none) :
    (checkVisitorGate (F.gateAt s) v host path).isAllow =
      if requestPathHasTraversal path then
        validateSessionForVisitor (F.gateAt s).toAuthState v.toPresented host
      else validateSessionForHost (F.gateAt s).toAuthState v.toPresented host := by
  have hsame : routeGate (F.gateAt s) host path = routeGate F.gate host path := rfl
  rw [← hsame] at hown
  exact checkVisitorGate_of_ownBasic hown hshare

/-- A global session of the visitor's, or one of the hostname, is all a
password gate takes. -/
theorem session_of_isAllow {v : Visitor} {rawHost : Option String} {path : String}
    (hv : s.Presents v rawHost)
    (hown : (routeGate F.gate (extractRequestHost rawHost) path).ownBasic = true)
    (hallow : (checkVisitorGate (F.gateAt s) v (extractRequestHost rawHost) path).isAllow = true) :
    ∃ t ∈ s.mine, ∃ info, s.sessions.lookup t = some info ∧
      info.usableOn F.gate.fencedLogin (panelRequestHost rawHost) = true ∧
      (info.scopeHost = none ∨ requestPathHasTraversal path = false ∧
        info.scopeHost.isSome = true ∧ info.scopeHost = extractRequestHost rawHost) := by
  have hshare : checkShareAccess (F.gateAt s) v (extractRequestHost rawHost) path = none := by
    simp [checkShareAccess, hv.shareQuery, hv.shareCookie]
  rw [checkVisitorGate_gateAt hown hshare] at hallow
  have hfound {scope : Option String}
      (hscope : sessionScope (F.gateAt s).toAuthState v.toPresented = some scope) :
      ∃ t ∈ s.mine, ∃ info, s.sessions.lookup t = some info ∧
        info.usableOn F.gate.fencedLogin (panelRequestHost rawHost) = true ∧
        info.scopeHost = scope := by
    obtain ⟨t, info, ht, hinfo, husable, hsc⟩ := sessionScope_eq_some hscope
    rw [hv.host] at husable
    exact ⟨t, hv.session t ht, info, hinfo, husable, hsc⟩
  have hglobal (h : validateSessionForVisitor (F.gateAt s).toAuthState v.toPresented
      (extractRequestHost rawHost) = true) :
      sessionScope (F.gateAt s).toAuthState v.toPresented = some none := by
    simp only [validateSessionForVisitor, validateSession, Bool.and_eq_true, beq_iff_eq] at h
    exact h.1
  split at hallow
  · obtain ⟨t, ht, info, hinfo, husable, hsc⟩ := hfound (hglobal hallow)
    exact ⟨t, ht, info, hinfo, husable, .inl hsc⟩
  · rename_i htrav
    unfold validateSessionForHost at hallow
    split at hallow
    · rename_i hscope
      obtain ⟨t, ht, info, hinfo, husable, hsc⟩ := hfound hscope
      exact ⟨t, ht, info, hinfo, husable, .inl hsc⟩
    · rename_i scope hscope
      obtain ⟨t, ht, info, hinfo, husable, hsc⟩ := hfound hscope
      refine ⟨t, ht, info, hinfo, husable, .inr ⟨by simpa using htrav, by rw [hsc]; rfl, ?_⟩⟩
      rw [hsc]
      exact (beq_iff_eq.mp hallow).symm
    · exact absurd hallow (by simp)

theorem usableUnder_of_usableOn {nowSecs : Nat} {u : LoginUse} {plane : Plane}
    {scope username rawHost : Option String} {role : Role} :
    (session nowSecs u plane scope username role).usableOn F.gate.fencedLogin
      (panelRequestHost rawHost) = true ↔ F.usableUnder u rawHost := by
  unfold SessionInfo.usableOn usableUnder session
  cases F.gate.fencedLogin <;> simp [Option.isNone_iff_eq_none]

/-- In every run whose logins are safe, a password opens only the gates
that list it. -/
theorem safeVisits_opensOnlyListed (hs : (F.safeVisits c).Reachable s) :
    F.opensOnlyListed c s := by
  intro v rawHost path hv hown hallow
  obtain ⟨t, ht, info, hinfo, husable, hscope⟩ := session_of_isAllow hv hown hallow
  obtain ⟨nowSecs, u, hsafe, hlogin⟩ := reachable_fromSafeUses hs t ht info hinfo
  rcases login_eq_some hlogin with hmine | ⟨hhost, hlists, rfl⟩ | ⟨hlists, rfl⟩
  · exact .inr hmine
  · have hunder := usableUnder_of_usableOn.mp husable
    rcases hscope with hnone | ⟨htrav, -, heq⟩
    · rw [show u.host = none from hnone] at hhost
      exact absurd hhost (by simp)
    · exact .inl (hsafe.form hhost hlists rawHost path heq.symm hunder htrav hown)
  · exact .inl (hsafe.server hlists rawHost path (usableUnder_of_usableOn.mp husable) hown)

/-! ## And when it does not -/

/-- The visitor has logged in once. -/
def loggedIn (F : LoginForm) (info : SessionInfo) : PasswordState where
  sessions := (∅ : Sessions).insert F.uuid info
  mine := [F.uuid]

/-- The request that presents the session, and nothing else. -/
def revisit (F : LoginForm) (rawHost : Option String) : Visitor where
  sessionCookie := some F.uuid
  requestHost := panelRequestHost rawHost

theorem loggedIn_reachable {u : LoginUse} {info : SessionInfo} (h : F.login 0 u c = some info) :
    (F.visits c).Reachable (F.loggedIn info) := by
  have hinit : (F.visits c).Reachable {} := .init rfl
  exact .step (a := PasswordAct.login u F.uuid) hinit ⟨info, h, rfl, rfl⟩

theorem loggedIn_presents (info : SessionInfo) (rawHost : Option String) :
    (F.loggedIn info).Presents (F.revisit rawHost) rawHost where
  session t ht := by
    have hid : F.uuid = t := Option.some.inj ht
    rw [← hid]
    exact List.mem_singleton_self _
  shareQuery := rfl
  shareCookie := rfl
  host := rfl

theorem loggedIn_sessionScope {u : LoginUse} {rawHost : Option String}
    (hunder : F.usableUnder u rawHost) (scope : Option String) :
    sessionScope (F.gateAt (F.loggedIn (session 0 u .visitor scope none .admin))).toAuthState
      (F.revisit rawHost).toPresented = some scope := by
  have husable : (session 0 u .visitor scope none .admin).usableOn F.gate.fencedLogin
      (panelRequestHost rawHost) = true := usableUnder_of_usableOn.mpr hunder
  have hlookup : (F.loggedIn (session 0 u .visitor scope none .admin)).sessions.lookup F.uuid =
      some (session 0 u .visitor scope none .admin) := AList.lookup_insert _
  simp only [sessionScope, gateAt, revisit, Option.filter_some, F.uuid_ok, if_true,
    Option.bind_some, hlookup, husable]
  simp [session, loggedIn, namedUserActive]

theorem loggedIn_visitor {u : LoginUse} {rawHost : Option String}
    (hunder : F.usableUnder u rawHost) (host : Option String) :
    validateSessionForVisitor
      (F.gateAt (F.loggedIn (session 0 u .visitor none none .admin))).toAuthState
      (F.revisit rawHost).toPresented host = true := by
  have hscope := loggedIn_sessionScope hunder none
  have hlookup : (F.loggedIn (session 0 u .visitor none none .admin)).sessions.lookup F.uuid =
      some (session 0 u .visitor none none .admin) := AList.lookup_insert _
  have hcaller : resolveCaller
      (F.gateAt (F.loggedIn (session 0 u .visitor none none .admin))).toAuthState
      (F.revisit rawHost).toPresented = none := by
    have hplane (A : AuthState) (v : Presented) :
        (session 0 u .visitor none none .admin).carriesIdentity A v = false := by
      simp [SessionInfo.carriesIdentity, session]
    simp only [resolveCaller, sessionCaller, revisit, Option.bind_some, gateAt, hlookup,
      Option.filter_some, hplane]
    rfl
  simp [validateSessionForVisitor, validateSession, hscope, hcaller]

/-- If a password opens only the gates that list it in every state, then
every use of the form is safe. -/
theorem safeUse_of_opensOnlyListed (hc : ¬ F.isOwnCredential c)
    (h : ∀ s, (F.visits c).Reachable s → F.opensOnlyListed c s) (u : LoginUse) :
    F.SafeUse c u := by
  have hno := ownLogin_eq_no hc u
  have hshare (info : SessionInfo) (rawHost : Option String) (path : String) :
      checkShareAccess (F.gateAt (F.loggedIn info)) (F.revisit rawHost)
        (extractRequestHost rawHost) path = none := by
    simp [checkShareAccess, revisit, Visitor.cookieValue]
  constructor
  · intro hhost hlists rawHost path heq hunder htrav hown
    have hlogin : F.login 0 u c = some (session 0 u .visitor u.host none .admin) := by
      simp [login, hno, hhost, hlists]
    refine Or.resolve_right
      (h _ (loggedIn_reachable hlogin) _ rawHost path (loggedIn_presents _ _) hown ?_) hc
    rw [checkVisitorGate_gateAt hown (hshare _ _ _), if_neg (by simp [htrav])]
    obtain ⟨host, hhost⟩ := Option.isSome_iff_exists.mp hhost
    have hscope := loggedIn_sessionScope hunder u.host
    rw [hhost] at hscope heq
    rw [hhost, validateSessionForHost, hscope, heq]
    simp
  · intro hlists rawHost path hunder hown
    have hform : F.formLists u c = false := by
      simp only [serverLists, Bool.and_eq_true, Option.isNone_iff_eq_none] at hlists
      simp [formLists, hlists.1.1, hlists.1.2]
    have hlogin : F.login 0 u c = some (session 0 u .visitor none none .admin) := by
      simp [login, hno, hform, hlists]
    refine Or.resolve_right
      (h _ (loggedIn_reachable hlogin) _ rawHost path (loggedIn_presents _ _) hown ?_) hc
    have hvisitor := loggedIn_visitor hunder (extractRequestHost rawHost)
    rw [checkVisitorGate_gateAt hown (hshare _ _ _)]
    split
    · exact hvisitor
    · exact validateSessionForHost_of_visitor hvisitor

/-- **Passwords.** Whatever the gates are and however often a visitor logs
in: a password opens only the password gates of sites and clients that list
it, in every state of every run, exactly when it is one of the server's own
or no use of the form is unsafe for it. -/
theorem opensOnlyListed_iff (F : LoginForm) (c : String) :
    (∀ s, (F.visits c).Reachable s → F.opensOnlyListed c s) ↔
      F.isOwnCredential c ∨ ∀ u, F.SafeUse c u := by
  constructor
  · intro h
    by_cases hc : F.isOwnCredential c
    · exact .inl hc
    · exact .inr (safeUse_of_opensOnlyListed hc h)
  · rintro (hc | hsafe) s hs
    · exact fun _ _ _ _ _ _ => .inr hc
    · refine safeVisits_opensOnlyListed ?_
      induction hs with
      | init h => exact .init h
      | step _ hst ih => exact .step ih ⟨hst, fun u _ _ => hsafe u⟩

end LoginForm

/-! ## A client's password at the operator's door -/

/-- The operator gates `/admin` of a hostname. -/
def operatorSite : Site where
  hostname := "app.test"
  path := some "/admin"
  access := some (SiteAccess.ofPolicy ⟨[.basic ["op:secret"]]⟩)
  path_normal := usersPath_normal

/-- A tenant's client serves `/blog` of it, behind a password of its own. -/
def blogConnection : Clients :=
  (∅ : Clients).insert "blog"
    { newHandle {} 0 { perms := ClientPerms.ofMaster } with
      lastPingAt := some 0
      services :=
        [{ declaredHostname := some "app.test", declaredPath := some "/blog",
           visitorAuth := some "bob:pw" }] }

def blogForm : LoginForm where
  gate := { cfg := { sites := [operatorSite] }, clients := blogConnection, downThreshold := 15 }
  masterToken := "master"
  uuid := "u1"
  uuid_ok := rfl

/-- One login for `/blog` opens `/admin`. -/
theorem blog_password_opens_admin :
    ¬ ∀ s, (blogForm.visits "bob:pw").Reachable s → blogForm.opensOnlyListed "bob:pw" s := by
  intro h
  have hown : ¬ blogForm.isOwnCredential "bob:pw" := by
    rintro (hmaster | ⟨username, password, user, -, hver⟩)
    · exact absurd hmaster (by decide)
    · simp [blogForm, Users.verify, Users.findByUsername] at hver
  have hsafe := LoginForm.safeUse_of_opensOnlyListed hown h
    { rawHost := some "app.test", redirect := some "/blog" }
  have hlists := hsafe.form (by decide) (by decide) (some "app.test") "/admin" (by decide)
    (fun _ => .inr rfl) (by decide) (by decide)
  exact absurd hlists (by decide)

end Aperio
