import Aperio.Confine

/-!
# A tenant's identity provider

An organization `o` runs its own provider, which may assert any email and
any groups. Accounts are matched by email across all organizations, so what
keeps the provider to its tenant is the session: it is bound to `o`, and the
resolver of callers reads the bound. The self-service endpoints read the
session by another function, which does not.
-/

namespace Aperio

/-! ## Creating an account -/

structure UserCreateRequest where
  username : String
  password : Option (String × String) := none
  role : Option String := none
  grants : Option (List GrantRequest) := none
deriving Repr, DecidableEq

def createGrants (orgs : List Organization) (org : Option String) (req : UserCreateRequest) :
    Except HttpError (List Grant) :=
  match req.grants, req.role.bind Role.parse with
  | some raw, _ => parseGrants orgs org raw
  | none, some role => .ok [{ org := .ofOrgId org, role := role }]
  | none, none => .error ⟨400, "role must be viewer, operator, or admin"⟩

/-- The first half of `users_create_handler`: whose organization the account
will live in and what it will hold. -/
def planCreate (orgs : List Organization) (caller : Caller) (req : UserCreateRequest) :
    Except HttpError (Option String × List Grant) := do
  let grants ← createGrants orgs caller.effectiveOrg req
  checkGranter caller grants
  .ok (caller.effectiveOrg, grants)

/-- The second half: with a password, or for the identity provider only. -/
def createUser (users : Users) (saved : Bool) (newId : String) (req : UserCreateRequest)
    (orgId : Option String) (grants : List Grant) : Except UserError User × Users :=
  match req.password with
  | some (password, hash) =>
    users.createWithGrants saved newId req.username password hash orgId grants
  | none => users.createSso saved newId req.username orgId grants

/-! ## The steps -/

/-- A login the provider has vouched for, with the organization table as it
was then. -/
structure OidcLogin where
  cfg : OrgOidc
  email : String
  groups : List String
  orgs : List Organization

/-- An account creation that has been let through. -/
structure Creation where
  request : UserCreateRequest
  orgId : Option String
  grants : List Grant

/-- Besides the tables: what is between two regions, the sessions the
provider's logins were given, and, which no handler reads, the account table
before and after each step that was the tenant's. -/
structure TenantState where
  auth : AuthState := {}
  logins : List OidcLogin := []
  settled : List (String × Role) := []
  minted : List String := []
  pending : String → Option Progress := fun _ => none
  creations : List Creation := []
  names : List String := []
  selves : List String := []
  effects : List (Users × Users) := []

inductive TenantAct where
  | others (w : UserWrite) (saved : Bool)
  | orgWrite (w : OrgWrite) (saved : Bool)
  | elsewhere (A : AuthState)
  | callback (cfg : OrgOidc) (email : String) (groups : List String)
  | settle (login : OidcLogin) (newId : String) (saved grantsSaved : Bool)
  | mint (email : String) (role : Role) (token : String) (loginHost : Option String)
  | start (rid token : String) (host : Option String) (target : String) (job : ManageJob)
  | advance (rid : String)
  | write (rid : String) (saved grantsSaved : Bool)
  | plan (token : String) (host : Option String) (request : UserCreateRequest)
  | create (creation : Creation) (newId : String) (saved : Bool)
  | selfName (token : String)
  | selfFind (name : String)
  | selfWrite (id : String) (w : CredentialWrite) (saved : Bool)

/-- A request with a session and no other credential. -/
def withSession (token : String) (host : Option String) : Presented where
  sessionCookie := some token
  requestHost := host

/-- The account table after a step of the tenant. -/
def TenantState.wrote (s : TenantState) (users : Users) : TenantState :=
  { s with auth := { s.auth with users := users }, effects := (s.auth.users, users) :: s.effects }

/-- The session of a settled login, and that it is one. -/
def TenantState.signIn (s : TenantState) (token : String) (info : SessionInfo) : TenantState :=
  { s with
    auth := { s.auth with sessions := s.auth.sessions.insert token info }
    minted := token :: s.minted }

def TenantState.setPending (s : TenantState) (rid : String) (q : Option Progress) :
    TenantState :=
  { s with pending := Function.update s.pending rid q }

/-- `others` is anybody's write to an account: nobody but the provider's own
logins puts the provider's mark on a grant. `elsewhere` is everything that
touches no account and no organization: sessions of other people, sign-outs,
the clock, and the organization a session selects. A creation is planned
with the organization table of some moment, not necessarily this one. -/
inductive TenantStep (o : OrgId) : TenantState → TenantAct → TenantState → Prop
  | others {s : TenantState} {w : UserWrite} {saved : Bool}
      (hnew : ∀ id, w.newId = some id → s.auth.users.get id = none)
      (hmark : ∀ g ∈ w.grants, g.sourceOrg = some o.id → g.org = .child o.id) :
      TenantStep o s (.others w saved)
        { s with auth := { s.auth with users := w.run saved s.auth.users } }
  | orgWrite {s : TenantState} {w : OrgWrite} {saved : Bool} :
      TenantStep o s (.orgWrite w saved)
        { s with auth := { s.auth with orgs := w.run saved s.auth.orgs } }
  | elsewhere {s : TenantState} {A : AuthState} (husers : A.users = s.auth.users)
      (horgs : A.orgs = s.auth.orgs)
      (hsessions : ∀ token ∈ s.minted, ∀ info, A.sessions.lookup token = some info →
        ∃ info₀, s.auth.sessions.lookup token = some info₀ ∧
          info = { info₀ with selectedOrg := info.selectedOrg }) :
      TenantStep o s (.elsewhere A) { s with auth := A }
  | callback {s : TenantState} {cfg : OrgOidc} {email : String} {groups : List String}
      (hallowed : emailAllowed email cfg.allowedEmails = true) :
      TenantStep o s (.callback cfg email groups)
        { s with logins := ⟨cfg, email, groups, s.auth.orgs⟩ :: s.logins }
  | settle {s : TenantState} {login : OidcLogin} {newId : String} {saved grantsSaved : Bool}
      {answer : Except HttpError User} {users : Users} (hl : login ∈ s.logins)
      (hnew : s.auth.users.get newId = none)
      (hout : settleRecord login.orgs s.auth.users saved grantsSaved newId
        (login.cfg.policy o.id) login.email (some o.id) login.groups = (answer, users)) :
      TenantStep o s (.settle login newId saved grantsSaved)
        { s.wrote users with
          settled := (answer.toOption.map fun u =>
            (login.email, (u.roleIn u.orgId).getD .viewer)).toList ++ s.settled }
  | mint {s : TenantState} {email : String} {role : Role} {token : String}
      {loginHost : Option String} (hs : (email, role) ∈ s.settled)
      (hnew : s.auth.sessions.lookup token = none) :
      TenantStep o s (.mint email role token loginHost)
        (s.signIn token (oidcSession s.auth.nowSecs email role (some o.id) loginHost))
  | start {s : TenantState} {rid token : String} {host : Option String} {target : String}
      {job : ManageJob} (hnew : s.pending rid = none) (ht : token ∈ s.minted) :
      TenantStep o s (.start rid token host target job)
        (s.setPending rid (some { request := ⟨withSession token host, target, job⟩ }))
  | advance {s : TenantState} {rid : String} {p : Progress} (hp : s.pending rid = some p) :
      TenantStep o s (.advance rid)
        (s.setPending rid (p.advance s.auth).toOption)
  | write {s : TenantState} {rid : String} {p : Progress} {plan : ManagePlan}
      {saved grantsSaved : Bool} (hp : s.pending rid = some p) (hready : p.stage = .ready plan) :
      TenantStep o s (.write rid saved grantsSaved)
        ((s.wrote ((plan.toWrite p.request.target grantsSaved).run saved s.auth.users)).setPending
          rid none)
  | plan {s : TenantState} {token : String} {host : Option String} {request : UserCreateRequest}
      {orgs : List Organization} {c : Caller} {orgId : Option String} {grants : List Grant}
      (ht : token ∈ s.minted) (hc : resolveCaller s.auth (withSession token host) = some c)
      (hplan : planCreate orgs c request = .ok (orgId, grants)) :
      TenantStep o s (.plan token host request)
        { s with creations := ⟨request, orgId, grants⟩ :: s.creations }
  | create {s : TenantState} {creation : Creation} {newId : String} {saved : Bool}
      (hc : creation ∈ s.creations) (hnew : s.auth.users.get newId = none) :
      TenantStep o s (.create creation newId saved)
        (s.wrote (createUser s.auth.users saved newId creation.request creation.orgId
          creation.grants).2)
  | selfName {s : TenantState} {token name : String} (ht : token ∈ s.minted)
      (hname : dashboardUsername s.auth (withSession token none) = some name) :
      TenantStep o s (.selfName token) { s with names := name :: s.names }
  | selfFind {s : TenantState} {name : String} {u : User} (hn : name ∈ s.names)
      (hu : s.auth.users.findByUsername name = some u) :
      TenantStep o s (.selfFind name) { s with selves := u.id :: s.selves }
  | selfWrite {s : TenantState} {id : String} {w : CredentialWrite} {saved : Bool}
      (hid : id ∈ s.selves) :
      TenantStep o s (.selfWrite id w saved) (s.wrote (w.run saved id s.auth.users))

/-- The tenant's logins and what their sessions ask for, one region at a
time, among whatever anybody else does. -/
def tenantSys (o : OrgId) : Sys TenantState TenantAct where
  init s := UsersKept o.id s.auth.users ∧ HandlesKept s.auth.orgs ∧ s.logins = [] ∧
    s.settled = [] ∧ s.minted = [] ∧ (∀ rid, s.pending rid = none) ∧ s.creations = [] ∧
    s.names = [] ∧ s.selves = [] ∧ s.effects = []
  step := TenantStep o

/-- The provider speaks for its tenant only: no step of the tenant touched a
grant outside or the credentials of an account that holds one, whoever can
sign in with credentials it set reaches nothing outside, and its sessions
stand for callers who hold nothing outside. -/
def speaksForTenant (o : OrgId) (s : TenantState) : Prop :=
  (∀ e ∈ s.effects, Within o.id e.1 e.2 ∧
    ∀ id u', e.2.get id = some u' →
      (∀ u, e.1.get id = some u → u.credentials ≠ u'.credentials) → Inside o.id u'.grants) ∧
  ∀ token ∈ s.minted, ∀ host c,
    resolveCaller s.auth (withSession token host) = some c → Inside o.id c.grants

/-- The tenant writes only to accounts that hold nothing outside: at the
write, and where a request planned it, at each of the request's looks. -/
def insideOnly (o : OrgId) (s : TenantState) (a : TenantAct) (_ : TenantState) : Prop :=
  match a with
  | .selfWrite id _ _ => Inside o.id (s.auth.users.grantsOf id)
  | .write rid _ _ => ∀ p, s.pending rid = some p →
    Inside o.id (s.auth.users.grantsOf p.request.target) ∧ ∀ gs ∈ p.seen, Inside o.id gs
  | _ => True

/-! ## A bound session -/

/-- Whoever a bound session stands for, in whatever rows, holds a role in
that organization or nothing. -/
theorem sessionIdentity_inside {users : Users} {info : SessionInfo} {o : String} {c : Caller}
    (hbound : info.boundOrg = some o) (h : sessionIdentity users info = some c.identity) :
    Inside o c.grants := by
  simp only [sessionIdentity, hbound] at h
  split at h
  · rename_i user _
    rw [Caller.grants, ← Option.some.inj h]
    intro g hg
    obtain ⟨role, -, rfl⟩ := Option.map_eq_some_iff.mp (Option.mem_toList.mp hg)
    rfl
  · split at h
    · cases h
    · rw [Caller.grants, ← Option.some.inj h]
      intro g hg
      rw [List.mem_singleton.mp hg]

theorem resolveCaller_inside {A : AuthState} {o token : String} {host : Option String} {c : Caller}
    (hbound : ∀ info, A.sessions.lookup token = some info → info.boundOrg = some o)
    (h : resolveCaller A (withSession token host) = some c) : Inside o c.grants := by
  simp only [resolveCaller, withSession, Option.bind_none, Option.map_none, Option.or_none,
    sessionCaller, Option.bind_some] at h
  obtain ⟨info, hinfo, hid⟩ := Option.bind_eq_some_iff.mp h
  obtain ⟨identity, hidentity, rfl⟩ := Option.map_eq_some_iff.mp hid
  exact sessionIdentity_inside (hbound info (Option.filter_eq_some_iff.mp hinfo).1) hidentity

/-! ## What the tenant's requests may write -/

/-- A request of the tenant: it came with one of the tenant's sessions, and
so every authority it asked is one inside. -/
structure Progress.Confined (o : String) (minted : List String) (p : Progress) : Prop where
  sound : p.Sound
  session : ∃ token ∈ minted, ∃ host, p.request.presented = withSession token host
  callers : ∀ c ∈ p.callers, Inside o c.grants

theorem Progress.Confined.advance {o : String} {minted : List String} {p p' : Progress}
    {A : AuthState} (hp : p.Confined o minted)
    (hbound : ∀ token ∈ minted, ∀ info, A.sessions.lookup token = some info →
      info.boundOrg = some o) (h : p.advance A = .ok p') : p'.Confined o minted := by
  obtain ⟨token, ht, host, hpresented⟩ := hp.session
  obtain ⟨hreq, hcallers⟩ := (Progress.advance_cases h).callers
  refine ⟨(Progress.advance_cases h).sound hp.sound, ⟨token, ht, host, by rw [hreq, hpresented]⟩, ?_⟩
  intro c hc
  rcases hcallers c hc with hc | hc
  · exact hp.callers c hc
  · rw [hpresented] at hc
    exact resolveCaller_inside (hbound token ht) hc

/-- What a request of the tenant plans to put in place is inside, when what
it read is. -/
theorem Progress.Confined.planned {o : String} {minted : List String} {p : Progress}
    (hp : p.Confined o minted) (hseen : ∀ gs ∈ p.seen, Inside o gs) {enabled : Option Bool}
    {password : Option (String × String)} {next : List Grant}
    (hready : p.stage = .ready (.edit enabled password (some next))) : Inside o next := by
  have hsound := hp.sound
  simp only [Sound, hready] at hsound
  obtain ⟨-, c, hc, gs, hgs, hadds⟩ := hsound
  intro g hg
  by_cases hin : g ∈ gs
  · exact hseen gs hgs g hin
  · exact (hp.callers c hc).org_of_mayGrant
      (hadds g (List.mem_filter.mpr ⟨hg, by simpa using hin⟩))

theorem ManagePlan.within {o : String} {users : Users} {plan : ManagePlan} {target : String}
    {saved grantsSaved : Bool} (h : Inside o (users.grantsOf target))
    (hnext : ∀ enabled password next, plan = .edit enabled password (some next) → Inside o next) :
    Within o users ((plan.toWrite target grantsSaved).run saved users) := by
  cases plan with
  | edit enabled password grants =>
      refine Within.edit h ?_
      rintro next rfl
      exact hnext enabled password next rfl
  | delete => exact Within.delete h
  | totpDisable => exact @Within.credentialWrite o users target .totpDisable saved h

/-- And the table it leaves is one the provider's marks are right in. -/
theorem ManagePlan.usersKept {o : String} {users : Users} {plan : ManagePlan} {target : String}
    {saved grantsSaved : Bool} (h : UsersKept o users)
    (hnext : ∀ enabled password next, plan = .edit enabled password (some next) → Inside o next) :
    UsersKept o ((plan.toWrite target grantsSaved).run saved users) := by
  refine h.write ?_ ?_
  · intro id hid
    cases plan <;> cases hid
  · intro g hg _
    cases plan with
    | edit enabled password grants =>
        cases grants with
        | none => cases hg
        | some next => exact hnext enabled password next rfl g hg
    | delete => cases hg
    | totpDisable => cases hg

theorem planCreate_inside {orgs : List Organization} {o : String} {c : Caller}
    {req : UserCreateRequest} {orgId : Option String} {grants : List Grant}
    (hc : Inside o c.grants) (h : planCreate orgs c req = .ok (orgId, grants)) :
    Inside o grants := by
  simp only [planCreate, bind, Except.bind] at h
  split at h
  · cases h
  · split at h
    · cases h
    · rename_i hcheck
      cases h
      exact fun g hg => hc.org_of_mayGrant (checkGranter_ok hcheck g hg)

theorem createUser_within {o : String} {users : Users} {saved : Bool} {newId : String}
    {req : UserCreateRequest} {orgId : Option String} {grants : List Grant}
    (hnew : users.get newId = none) (h : Inside o grants) :
    Within o users (createUser users saved newId req orgId grants).2 := by
  simp only [createUser]
  split
  · exact Within.createWithGrants hnew h
  · exact Within.createSso hnew h

theorem createUser_kept {o : String} {users : Users} {saved : Bool} {newId : String}
    {req : UserCreateRequest} {orgId : Option String} {grants : List Grant}
    (hs : UsersKept o users) (hnew : users.get newId = none) (h : Inside o grants) :
    UsersKept o (createUser users saved newId req orgId grants).2 := by
  cases hpw : req.password with
  | none =>
      have hw := @UsersKept.write o users (.createSso newId req.username orgId grants) saved hs
        (fun id hid => Option.some.inj hid ▸ hnew) (fun g hg _ => h g hg)
      simpa only [createUser, hpw, UserWrite.run] using hw
  | some password =>
      have hw := @UsersKept.write o users (.create newId req.username password.1 password.2
        orgId grants) saved hs (fun id hid => Option.some.inj hid ▸ hnew) (fun g hg _ => h g hg)
      simpa only [createUser, hpw, UserWrite.run] using hw

/-! ## Every run -/

structure TenantState.Kept (o : OrgId) (s : TenantState) : Prop where
  users : UsersKept o.id s.auth.users
  handles : HandlesKept s.auth.orgs
  snapshots : ∀ login ∈ s.logins, HandlesKept login.orgs
  bound : ∀ token ∈ s.minted, ∀ info, s.auth.sessions.lookup token = some info →
    info.boundOrg = some o.id
  pending : ∀ rid p, s.pending rid = some p → p.Confined o.id s.minted
  creations : ∀ creation ∈ s.creations, Inside o.id creation.grants
  effects : ∀ e ∈ s.effects, Within o.id e.1 e.2

namespace TenantState.Kept

variable {o : OrgId} {s : TenantState}

theorem wrote {users : Users} (hs : s.Kept o) (hwithin : Within o.id s.auth.users users)
    (hkept : UsersKept o.id users) : (s.wrote users).Kept o := by
  refine { hs with users := hkept, effects := ?_ }
  intro e he
  rcases List.mem_cons.mp he with rfl | he
  · exact hwithin
  · exact hs.effects e he

theorem setPending {rid : String} {q : Option Progress} (hs : s.Kept o)
    (hq : ∀ p, q = some p → p.Confined o.id s.minted) : (s.setPending rid q).Kept o :=
  { hs with pending := pending_update hs.pending hq }

theorem signIn {token : String} {info : SessionInfo} (hs : s.Kept o)
    (hbound : info.boundOrg = some o.id) : (s.signIn token info).Kept o := by
  refine { hs with bound := ?_, pending := ?_ }
  · intro token' ht info' hinfo
    simp only [TenantState.signIn] at hinfo ht
    by_cases heq : token' = token
    · subst heq
      rw [AList.lookup_insert] at hinfo
      rw [← Option.some.inj hinfo]
      exact hbound
    · rw [AList.lookup_insert_ne heq] at hinfo
      exact hs.bound token' (List.mem_of_ne_of_mem heq ht) info' hinfo
  · intro rid p hp
    have hconf := hs.pending rid p hp
    obtain ⟨t, ht, hpresented⟩ := hconf.session
    exact ⟨hconf.sound, ⟨t, List.mem_cons_of_mem _ ht, hpresented⟩, hconf.callers⟩

end TenantState.Kept

/-- **Step lemma.** -/
theorem TenantStep.kept {o : OrgId} {s s' : TenantState} {a : TenantAct}
    (hstep : TenantStep o s a s') (hcond : insideOnly o s a s') (hs : s.Kept o) : s'.Kept o := by
  cases hstep with
  | others hnew hmark => exact { hs with users := hs.users.write hnew hmark }
  | orgWrite => exact { hs with handles := OrgWrite.run_handles hs.handles }
  | elsewhere husers horgs hsessions =>
      refine { hs with users := ?_, handles := ?_, bound := ?_ }
      · rw [husers]
        exact hs.users
      · rw [horgs]
        exact hs.handles
      · intro token ht info hinfo
        obtain ⟨info₀, hinfo₀, heq⟩ := hsessions token ht info hinfo
        rw [heq]
        exact hs.bound token ht info₀ hinfo₀
  | callback hallowed =>
      refine { hs with snapshots := ?_ }
      intro login hlogin
      rcases List.mem_cons.mp hlogin with rfl | hlogin
      · exact hs.handles
      · exact hs.snapshots login hlogin
  | @settle login newId saved grantsSaved answer users hl hnew hout =>
      obtain ⟨hwithin, hkept⟩ := @settleRecord_within o login.orgs s.auth.users saved grantsSaved
        newId login.email login.cfg login.groups (hs.snapshots login hl) hs.users hnew
      rw [hout] at hwithin hkept
      exact { hs.wrote hwithin hkept with }
  | mint hsettled hnew => exact hs.signIn rfl
  | @start rid token host target job hnew ht =>
      refine hs.setPending ?_
      rintro p ⟨⟩
      exact ⟨trivial, ⟨token, ht, host, rfl⟩, fun c hc => by cases hc⟩
  | @advance rid p hp =>
      refine hs.setPending ?_
      intro p' hp'
      cases hadv : p.advance s.auth with
      | error e =>
          rw [hadv] at hp'
          cases hp'
      | ok p'' =>
          rw [hadv] at hp'
          obtain rfl := Option.some.inj hp'
          exact (hs.pending rid p hp).advance hs.bound hadv
  | @write rid p plan saved grantsSaved hp hready =>
      obtain ⟨htarget, hseen⟩ := hcond p hp
      have hconf := hs.pending rid p hp
      have hnext : ∀ enabled password next, plan = .edit enabled password (some next) →
          Inside o.id next := by
        rintro enabled password next rfl
        exact hconf.planned hseen hready
      refine TenantState.Kept.setPending ?_ (by rintro p ⟨⟩)
      exact hs.wrote (ManagePlan.within htarget hnext) (ManagePlan.usersKept hs.users hnext)
  | @plan token host request orgs c orgId grants ht hc hplan =>
      refine { hs with creations := ?_ }
      intro creation hcreation
      rcases List.mem_cons.mp hcreation with rfl | hcreation
      · exact planCreate_inside (resolveCaller_inside (hs.bound token ht) hc) hplan
      · exact hs.creations creation hcreation
  | @create creation newId saved hc hnew =>
      have hin := hs.creations creation hc
      exact hs.wrote (createUser_within hnew hin) (createUser_kept hs.users hnew hin)
  | selfName ht hname => exact { hs with }
  | selfFind hn hu => exact { hs with }
  | @selfWrite id w saved hid =>
      refine hs.wrote (Within.credentialWrite hcond) ?_
      exact @UsersKept.write o.id s.auth.users (.credential id w) saved hs.users
        (fun id hid => by cases hid) (fun g hg _ => by cases hg)

/-- An organization whose provider admits any email and maps nothing. -/
def acmeOrg : OrgId := ⟨"acme-1", by decide, by decide⟩

def openProvider : OrgOidc where
  allowedEmails := ["*"]

/-- One account, which holds one grant. -/
def soleAccount (g : Grant) : User where
  id := "u1"
  username := "root@corp"
  passwordHash := "h1"
  role := .admin
  orgId := match g.org with
    | .child id => some id
    | _ => none
  grants := [g]

def corpLogin : OidcLogin := ⟨openProvider, "root@corp", [], []⟩

def tenantSession : SessionInfo := oidcSession 0 "root@corp" .admin (some "acme-1") none

/-- The provider has asserted the account's email, and the session it was
given is about to be used to enroll a passkey. -/
def atAccount (g : Grant) : TenantState where
  auth := { users := [soleAccount g], sessions := (∅ : Sessions).insert "t1" tenantSession }
  logins := [corpLogin]
  settled := [("root@corp", .admin)]
  minted := ["t1"]
  names := ["root@corp"]
  selves := ["u1"]
  effects := [([soleAccount g], [soleAccount g])]

/-- Where the account reaches the organization, the login gets that far. -/
theorem atAccount_reachable {g : Grant} (hkept : Stored "acme-1" [g])
    (hsettle : settleRecord [] [soleAccount g] true true "u2" (openProvider.policy "acme-1")
      "root@corp" (some "acme-1") [] = (.ok (soleAccount g), [soleAccount g]))
    (hrole : ((soleAccount g).roleIn (soleAccount g).orgId).getD .viewer = .admin)
    (hname : dashboardUsername (atAccount g).auth (withSession "t1" none) = some "root@corp")
    (hfind : Users.findByUsername [soleAccount g] "root@corp" = some (soleAccount g)) :
    ((tenantSys acmeOrg).restrict (insideOnly acmeOrg)).Reachable (atAccount g) := by
  have husers : UsersKept "acme-1" [soleAccount g] := by
    refine ⟨⟨List.nodup_singleton _, List.nodup_singleton _, ?_⟩, ?_⟩
    · intro a ha
      rw [List.mem_singleton.mp ha]
      show trim "root@corp" = "root@corp"
      decide
    · intro u hu
      rw [List.mem_singleton.mp hu]
      exact hkept
  have h0 : ((tenantSys acmeOrg).restrict (insideOnly acmeOrg)).Reachable
      { auth := { users := [soleAccount g] } } :=
    .init ⟨husers, (fun org horg => by cases horg), rfl, rfl, rfl, fun _ => rfl, rfl, rfl, rfl, rfl⟩
  have h1 := h0.step ⟨@TenantStep.callback acmeOrg _ openProvider "root@corp" [] (by decide),
    trivial⟩
  have h2 := h1.step ⟨@TenantStep.settle acmeOrg _ corpLogin "u2" true true _ _ List.mem_cons_self
    (by simp [Users.get, soleAccount]) hsettle, trivial⟩
  simp only [Except.toOption, Option.map_some, hrole, Option.toList_some] at h2
  have h3 := h2.step ⟨@TenantStep.mint acmeOrg _ "root@corp" .admin "t1" none
    List.mem_cons_self rfl, trivial⟩
  have h4 := h3.step ⟨@TenantStep.selfName acmeOrg _ "t1" "root@corp" List.mem_cons_self hname,
    trivial⟩
  exact h4.step ⟨@TenantStep.selfFind acmeOrg _ "root@corp" (soleAccount g)
    List.mem_cons_self hfind, trivial⟩

/-- The account with the tenant's passkey on it. -/
def enrolledAt (g : Grant) : TenantState :=
  (atAccount g).wrote
    ((CredentialWrite.addPasskey { id := "p1", name := "passkey", credential := "key" }).run true
      "u1" [soleAccount g])

end Aperio
