import Aperio.Accounts
import Aperio.Caller
import Aperio.Run

/-!
# Managing other people's accounts

`users_update_handler`, `users_delete_handler` and
`totp_admin_reset_handler` (`api/users.rs`), region by region: each of them
resolves its caller, looks at the target under the table's lock, lets go,
and comes back to write. The authority that was checked is the authority at
the look; the write asks for none.
-/

namespace Aperio

/-! ## The handlers' questions -/

/-- An answer that is not a success. -/
structure HttpError where
  status : Nat
  body : String
deriving Repr, DecidableEq

structure GrantRequest where
  org : String
  role : String
deriving Repr, DecidableEq

structure UserUpdateRequest where
  role : Option String := none
  enabled : Option Bool := none
  password : Option (String × String) := none
  grants : Option (List GrantRequest) := none
deriving Repr, DecidableEq

/-- Inside an organization a grant names that organization and no other. -/
def parseGrant (orgs : List Organization) (effective : Option String) (entry : GrantRequest) :
    Except HttpError Grant :=
  match Role.parse entry.role with
  | none => .error ⟨400, "role must be viewer, operator, or admin"⟩
  | some role =>
    let org := GrantOrg.parse entry.org
    let unknown := match org with
      | .child id => !orgs.any (·.id == id)
      | _ => false
    if unknown then .error ⟨400, "unknown organization " ++ org.asStr⟩
    else if effective.any fun here => org != .child here then
      .error ⟨400, "a user created inside an organization is granted that organization only; " ++
        "a user reaching several organizations is created and managed from master"⟩
    else .ok { org := org, role := role }

def parseGrants (orgs : List Organization) (effective : Option String)
    (raw : List GrantRequest) : Except HttpError (List Grant) :=
  (raw.mapM (parseGrant orgs effective)).bind fun out =>
    (Grants.normalize out).mapError fun m => ⟨400, m⟩

/-- Giving or taking away a grant is bounded by the granter's own. -/
def checkGranter (caller : Caller) (changed : List Grant) : Except HttpError Unit :=
  match changed.find? fun g => !caller.mayGrant g with
  | none => .ok ()
  | some g => .error ⟨403, "you cannot grant or revoke " ++ g.label ++
      ": this requires Admin in that organization, and `*` takes the server admin"⟩

/-- The account has to live in the caller's organization and to hold nothing
the caller could not grant. What is answered here is the row that was looked
at. -/
def manageableUser (users : Users) (caller : Caller) (id notFound : String) :
    Except HttpError User :=
  match users.find? fun u => u.id == id && u.orgId == caller.effectiveOrg with
  | none => .error ⟨404, notFound⟩
  | some user =>
    match user.grants.find? fun g => !caller.mayGrant g with
    | none => .ok user
    | some above => .error ⟨403, "you cannot manage " ++ user.username ++ ": it holds " ++
        above.label ++ ", which you cannot grant"⟩

/-- The role rewritten for the organization the caller is acting in. -/
def withRole (current : List Grant) (here : GrantOrg) (role : Role) : List Grant :=
  let grant := (current.find? (·.org == here)).getD { org := here, role := role }
  (current.filter (·.org != here)) ++ [{ grant with role := role }]

/-- The grants an update asks for: the whole list when one is sent, else the
one role, else none. -/
def wantedGrants (orgs : List Organization) (caller : Caller) (req : UserUpdateRequest)
    (current : List Grant) : Except HttpError (Option (List Grant)) :=
  match req.grants, req.role.bind Role.parse with
  | some raw, _ => (parseGrants orgs caller.effectiveOrg raw).map some
  | none, some role => .ok (some (withRole current (.ofOrgId caller.effectiveOrg) role))
  | none, none => .ok none

/-- What a request is about to write. -/
inductive ManagePlan where
  | edit (enabled : Option Bool) (password : Option (String × String))
      (grants : Option (List Grant))
  | delete
  | totpDisable

def ManagePlan.toWrite (plan : ManagePlan) (target : String) (grantsSaved : Bool) : UserWrite :=
  match plan with
  | .edit enabled password grants => .edit grantsSaved target enabled password grants
  | .delete => .delete target
  | .totpDisable => .credential target .totpDisable

/-- The change an update makes, held against the granter: the grants are
replaced as a whole, and only where they differ from what was read. -/
def planUpdate (orgs : List Organization) (caller : Caller) (req : UserUpdateRequest)
    (current : List Grant) : Except HttpError ManagePlan := do
  let wanted ← wantedGrants orgs caller req current
  let changed := (wanted.map (Grants.diff current)).getD ([], [])
  checkGranter caller changed.1
  checkGranter caller changed.2
  .ok (.edit req.enabled req.password
    (if changed.1.isEmpty && changed.2.isEmpty then none else wanted))

/-! ## The regions -/

inductive ManageJob where
  | update (req : UserUpdateRequest)
  | delete
  | totpReset

structure ManageRequest where
  presented : Presented
  target : String
  job : ManageJob

inductive Stage where
  | arrived
  | resolved (caller : Caller)
  | managing (first : Option Caller) (caller : Caller)
  | checked (first : Option Caller)
  | located (org : Option String)
  | read (caller : Caller) (current : List Grant)
  | ready (plan : ManagePlan)

/-- A request between two of its regions. `callers` and `seen` remember whom
its regions resolved and which grants of the target they read; the handlers
do not. -/
structure Progress where
  request : ManageRequest
  stage : Stage := .arrived
  callers : List Caller := []
  seen : List (List Grant) := []

def ManageJob.notFound : ManageJob → String
  | .totpReset => "Unknown user"
  | _ => "unknown user id"

/-- The first half of `manageable_user`: whose authority is asked. -/
def Progress.manage (p : Progress) (A : AuthState) (first : Option Caller) :
    Except HttpError Progress :=
  match resolveCaller A p.request.presented with
  | none => .error ⟨404, p.request.job.notFound⟩
  | some c => .ok { p with stage := .managing first c, callers := c :: p.callers }

/-- The next region of a request that does not write. -/
def Progress.advance (p : Progress) (A : AuthState) : Except HttpError Progress :=
  match p.stage, p.request.job with
  | .arrived, .update req =>
    match resolveCaller A p.request.presented with
    | none => .error ⟨401, "Authentication required"⟩
    | some c =>
      if req.role.any fun raw => (Role.parse raw).isNone then
        .error ⟨400, "role must be viewer, operator, or admin"⟩
      else .ok { p with stage := .resolved c, callers := c :: p.callers }
  | .arrived, _ => p.manage A none
  | .resolved c, _ => p.manage A (some c)
  | .managing first c, job =>
    (manageableUser A.users c p.request.target job.notFound).map fun u =>
      { p with
        stage := match job with
          | .totpReset => .ready .totpDisable
          | _ => .checked first
        seen := u.grants :: p.seen }
  | .checked (some c), .update _ =>
    match A.users.get p.request.target with
    | none => .error ⟨404, "unknown user id"⟩
    | some u => .ok { p with stage := .read c u.grants, seen := u.grants :: p.seen }
  | .read c current, .update req =>
    (planUpdate A.orgs c req current).map fun plan => { p with stage := .ready plan }
  | .checked _, .delete =>
    .ok { p with
      stage := .located ((resolveCaller A p.request.presented).bind (·.effectiveOrg)) }
  | .located org, .delete =>
    if A.users.any fun u => u.id == p.request.target && u.orgId == org then
      .ok { p with stage := .ready .delete }
    else .error ⟨404, "unknown user id"⟩
  | _, _ => .error ⟨404, p.request.job.notFound⟩

/-! ## Every interleaving -/

/-- A write to an account: who the caller is in the state it is applied to,
what the account holds there and what it holds after. -/
structure AccountWrite where
  caller : Option Caller
  before : List Grant
  after : Option (List Grant)

structure ManageState where
  auth : AuthState := {}
  pending : String → Option Progress := fun _ => none
  writes : List AccountWrite := []

inductive ManageAct where
  | others (auth : AuthState)
  | start (rid : String) (request : ManageRequest)
  | advance (rid : String)
  | write (rid : String) (saved grantsSaved : Bool)

/-- The record of a write that finds its account. -/
def recordWrite (A : AuthState) (p : Progress) (users' : Users) : List AccountWrite :=
  ((A.users.get p.request.target).map fun u =>
    { caller := resolveCaller A p.request.presented
      before := u.grants
      after := (users'.get p.request.target).map (·.grants) : AccountWrite }).toList

inductive ManageStep : ManageState → ManageAct → ManageState → Prop
  | others {s : ManageState} {A : AuthState} : ManageStep s (.others A) { s with auth := A }
  | start {s : ManageState} {rid : String} {request : ManageRequest}
      (hnew : s.pending rid = none) :
      ManageStep s (.start rid request)
        { s with pending := Function.update s.pending rid (some { request := request }) }
  | advance {s : ManageState} {rid : String} {p : Progress} (hp : s.pending rid = some p) :
      ManageStep s (.advance rid)
        { s with pending := Function.update s.pending rid (p.advance s.auth).toOption }
  | write {s : ManageState} {rid : String} {p : Progress} {plan : ManagePlan}
      {saved grantsSaved : Bool} (hp : s.pending rid = some p) (hready : p.stage = .ready plan) :
      ManageStep s (.write rid saved grantsSaved)
        { auth := { s.auth with users :=
            (plan.toWrite p.request.target grantsSaved).run saved s.auth.users }
          pending := Function.update s.pending rid none
          writes := recordWrite s.auth p
            ((plan.toWrite p.request.target grantsSaved).run saved s.auth.users) ++ s.writes }

/-- Any number of requests, one region at a time, among whatever else happens
to accounts, sessions and organizations. -/
def manageSys : Sys ManageState ManageAct where
  init s := (∀ rid, s.pending rid = none) ∧ s.writes = []
  step := ManageStep

/-- The caller may grant everything the account holds and everything the
write adds or removes. -/
def AccountWrite.bounded (w : AccountWrite) : Prop :=
  ∃ c, w.caller = some c ∧ (∀ g ∈ w.before, c.mayGrant g = true) ∧
    ∀ after, w.after = some after →
      (∀ g ∈ (Grants.diff w.before after).1, c.mayGrant g = true) ∧
        ∀ g ∈ (Grants.diff w.before after).2, c.mayGrant g = true

def writesBounded (s : ManageState) : Prop :=
  ∀ w ∈ s.writes, w.bounded

/-- When a request writes, its caller holds what each of its regions found it
to hold, and so does its target. -/
def undisturbed (s : ManageState) (a : ManageAct) (_ : ManageState) : Prop :=
  ∀ rid saved grantsSaved, a = .write rid saved grantsSaved → ∀ p, s.pending rid = some p →
    (∀ c ∈ p.callers, ∃ c', resolveCaller s.auth p.request.presented = some c' ∧
      c'.grants = c.grants) ∧
    ∀ u, s.auth.users.get p.request.target = some u → ∀ gs ∈ p.seen, gs = u.grants

/-! ## What a region has found out -/

theorem Caller.mayGrant_congr {c c' : Caller} (h : c'.grants = c.grants) (g : Grant) :
    c'.mayGrant g = c.mayGrant g := by
  rw [mayGrant, mayGrant, h]

theorem checkGranter_ok {caller : Caller} {changed : List Grant}
    (h : checkGranter caller changed = .ok ()) : ∀ g ∈ changed, caller.mayGrant g = true := by
  simp only [checkGranter] at h
  split at h
  · rename_i hnone
    intro g hg
    have := List.find?_eq_none.mp hnone g hg
    simpa using this
  · cases h

theorem manageableUser_ok {users : Users} {caller : Caller} {id notFound : String} {u : User}
    (h : manageableUser users caller id notFound = .ok u) :
    ∀ g ∈ u.grants, caller.mayGrant g = true := by
  simp only [manageableUser] at h
  split at h
  · cases h
  · split at h
    · rename_i hnone
      cases h
      intro g hg
      have := List.find?_eq_none.mp hnone g hg
      simpa using this
    · cases h

/-- A planned update replaces grants only by ones whose difference from what
was read the caller may grant. -/
theorem planUpdate_ok {orgs : List Organization} {caller : Caller} {req : UserUpdateRequest}
    {current : List Grant} {plan : ManagePlan} (h : planUpdate orgs caller req current = .ok plan) :
    ∃ grants, plan = .edit req.enabled req.password grants ∧ ∀ next, grants = some next →
      ∀ g ∈ (Grants.diff current next).1, caller.mayGrant g = true := by
  simp only [planUpdate, bind, Except.bind] at h
  cases hw : wantedGrants orgs caller req current with
  | error e =>
      rw [hw] at h
      cases h
  | ok wanted =>
      simp only [hw] at h
      split at h
      · cases h
      · rename_i hadded
        split at h
        · cases h
        · cases h
          refine ⟨_, rfl, ?_⟩
          intro next hnext
          obtain rfl : wanted = some next := by
            split at hnext
            · cases hnext
            · exact hnext
          exact checkGranter_ok hadded

/-- Some region found everything the account then held within the caller's
reach. -/
def Progress.Checked (p : Progress) : Prop :=
  ∃ c ∈ p.callers, ∃ gs ∈ p.seen, ∀ g ∈ gs, c.mayGrant g = true

/-- The grants a plan puts in place add to what some region read only what
the caller may grant. -/
def Progress.Planned (p : Progress) : ManagePlan → Prop
  | .edit _ _ (some next) =>
    ∃ c ∈ p.callers, ∃ gs ∈ p.seen, ∀ g ∈ (Grants.diff gs next).1, c.mayGrant g = true
  | _ => True

def Progress.Sound (p : Progress) : Prop :=
  match p.stage with
  | .arrived => True
  | .resolved c => c ∈ p.callers
  | .managing first c => (∀ c' ∈ first, c' ∈ p.callers) ∧ c ∈ p.callers
  | .checked first => (∀ c' ∈ first, c' ∈ p.callers) ∧ p.Checked
  | .located _ => p.Checked
  | .read c current => p.Checked ∧ c ∈ p.callers ∧ current ∈ p.seen
  | .ready plan => p.Checked ∧ p.Planned plan

/-- What a region that does not write can do: resolve the caller, look at
the target, plan, or find the target where the caller is acting. -/
inductive Progress.Advanced (A : AuthState) (p : Progress) : Progress → Prop
  | resolved (c : Caller) (hc : resolveCaller A p.request.presented = some c) :
      Advanced A p { p with stage := .resolved c, callers := c :: p.callers }
  | managing (first : Option Caller) (c : Caller)
      (hstage : first = none ∨ ∃ c₀, p.stage = .resolved c₀ ∧ first = some c₀)
      (hc : resolveCaller A p.request.presented = some c) :
      Advanced A p { p with stage := .managing first c, callers := c :: p.callers }
  | checked (first : Option Caller) (c : Caller) (u : User) (stage : Stage)
      (hstage : p.stage = .managing first c) (hu : ∀ g ∈ u.grants, c.mayGrant g = true)
      (hnext : stage = .checked first ∨ stage = .ready .totpDisable) :
      Advanced A p { p with stage := stage, seen := u.grants :: p.seen }
  | read (c : Caller) (u : User) (hstage : p.stage = .checked (some c)) :
      Advanced A p { p with stage := .read c u.grants, seen := u.grants :: p.seen }
  | planned (c : Caller) (current : List Grant) (req : UserUpdateRequest) (plan : ManagePlan)
      (hstage : p.stage = .read c current) (hplan : planUpdate A.orgs c req current = .ok plan) :
      Advanced A p { p with stage := .ready plan }
  | located (first : Option Caller) (org : Option String) (hstage : p.stage = .checked first) :
      Advanced A p { p with stage := .located org }
  | found (org : Option String) (hstage : p.stage = .located org) :
      Advanced A p { p with stage := .ready .delete }

theorem Progress.manage_cases {p p' : Progress} {A : AuthState} {first : Option Caller}
    (hstage : first = none ∨ ∃ c₀, p.stage = .resolved c₀ ∧ first = some c₀)
    (h : p.manage A first = .ok p') : p.Advanced A p' := by
  simp only [manage] at h
  split at h
  · cases h
  · rename_i c hc
    cases h
    exact .managing first c hstage hc

theorem Progress.advance_cases {p p' : Progress} {A : AuthState} (h : p.advance A = .ok p') :
    p.Advanced A p' := by
  unfold advance at h
  split at h
  · split at h
    · cases h
    · rename_i c hc
      split at h
      · cases h
      · cases h
        exact .resolved c hc
  · exact manage_cases (Or.inl rfl) h
  · rename_i c hstage
    exact manage_cases (Or.inr ⟨c, hstage, rfl⟩) h
  · rename_i first c hstage
    cases hu : manageableUser A.users c p.request.target p.request.job.notFound with
    | error e =>
        rw [hu] at h
        cases h
    | ok u =>
        rw [hu] at h
        cases h
        refine .checked first c u _ hstage (manageableUser_ok hu) ?_
        cases p.request.job with
        | totpReset => exact Or.inr rfl
        | update req => exact Or.inl rfl
        | delete => exact Or.inl rfl
  · rename_i c req hstage hjob
    split at h
    · cases h
    · rename_i u hu
      cases h
      exact .read c u hstage
  · rename_i c current req hstage hjob
    cases hplan : planUpdate A.orgs c req current with
    | error e =>
        rw [hplan] at h
        cases h
    | ok plan =>
        rw [hplan] at h
        cases h
        exact .planned c current req plan hstage hplan
  · rename_i first hstage hjob
    cases h
    exact .located first _ hstage
  · rename_i org hstage hjob
    split at h
    · cases h
      exact .found org hstage
    · cases h
  · cases h

/-- **Region lemma.** What a request has found out stays found out. -/
theorem Progress.Advanced.sound {p p' : Progress} {A : AuthState} (h : p.Advanced A p')
    (hs : p.Sound) : p'.Sound := by
  unfold Sound at hs
  cases h with
  | resolved c hc => exact List.mem_cons_self
  | managing first c hstage hc =>
      refine ⟨?_, List.mem_cons_self⟩
      rcases hstage with rfl | ⟨c₀, hstage, rfl⟩
      · rintro c' ⟨⟩
      · rw [hstage] at hs
        rintro c' ⟨⟩
        exact List.mem_cons_of_mem _ hs
  | checked first c u stage hstage hu hnext =>
      rw [hstage] at hs
      have hchecked : ∃ c ∈ p.callers, ∃ gs ∈ u.grants :: p.seen, ∀ g ∈ gs,
          c.mayGrant g = true := ⟨c, hs.2, u.grants, List.mem_cons_self, hu⟩
      rcases hnext with rfl | rfl
      · exact ⟨hs.1, hchecked⟩
      · exact ⟨hchecked, trivial⟩
  | read c u hstage =>
      rw [hstage] at hs
      obtain ⟨hfirst, c', hc', gs, hgs, hmay⟩ := hs
      exact ⟨⟨c', hc', gs, List.mem_cons_of_mem _ hgs, hmay⟩, hfirst c rfl, List.mem_cons_self⟩
  | planned c current req plan hstage hplan =>
      rw [hstage] at hs
      obtain ⟨grants, rfl, hadds⟩ := planUpdate_ok hplan
      refine ⟨hs.1, ?_⟩
      cases grants with
      | none => trivial
      | some next => exact ⟨c, hs.2.1, current, hs.2.2, hadds next rfl⟩
  | located first org hstage =>
      rw [hstage] at hs
      exact hs.2
  | found org hstage =>
      rw [hstage] at hs
      exact ⟨hs, trivial⟩

/-- A region asks nobody's authority but that of the credential the request
came with. -/
theorem Progress.Advanced.callers {p p' : Progress} {A : AuthState} (h : p.Advanced A p') :
    p'.request = p.request ∧
      ∀ c ∈ p'.callers, c ∈ p.callers ∨ resolveCaller A p.request.presented = some c := by
  have hpush : ∀ {c : Caller}, resolveCaller A p.request.presented = some c →
      ∀ c' ∈ c :: p.callers, c' ∈ p.callers ∨ resolveCaller A p.request.presented = some c' := by
    intro c hc c' hc'
    rcases List.mem_cons.mp hc' with rfl | hc'
    · exact Or.inr hc
    · exact Or.inl hc'
  cases h with
  | resolved c hc => exact ⟨rfl, hpush hc⟩
  | managing first c hstage hc => exact ⟨rfl, hpush hc⟩
  | checked first c u stage hstage hu hnext => exact ⟨rfl, fun c hc => Or.inl hc⟩
  | read c u hstage => exact ⟨rfl, fun c hc => Or.inl hc⟩
  | planned c current req plan hstage hplan => exact ⟨rfl, fun c hc => Or.inl hc⟩
  | located first org hstage => exact ⟨rfl, fun c hc => Or.inl hc⟩
  | found org hstage => exact ⟨rfl, fun c hc => Or.inl hc⟩

/-! ## What a write changes -/

namespace Users

variable {users : Users} {id : String} {u : User}

theorem update_grants {saved : Bool} {enabled : Option Bool} {password : Option (String × String)}
    (hu : users.get id = some u) :
    ∃ u', get (users.update saved id enabled password).2 id = some u' ∧ u'.grants = u.grants := by
  rcases get_commit_changeRow (·.updated enabled password) hu
    (fun u' out h => (User.updated_ok h).1) with h | ⟨u', out, hf, h⟩
  · exact ⟨u, h, rfl⟩
  · exact ⟨u', h, (User.updated_ok hf).2.2⟩

theorem setGrants_grants {saved : Bool} {next : List Grant} (hu : users.get id = some u) :
    ∃ u', get (users.setGrants saved id next).2 id = some u' ∧
      (u'.grants = u.grants ∨ Grants.normalize next = .ok u'.grants) := by
  cases hn : Grants.normalize next with
  | error e =>
      exact ⟨u, by simpa [setGrants, normalizeOr, hn, Except.mapError] using hu, Or.inl rfl⟩
  | ok out =>
      have hset : users.setGrants saved id next = users.setGrantsRaw saved id out := by
        simp [setGrants, normalizeOr, hn, Except.mapError]
      rw [hset]
      rcases get_commit_changeRow (fun u => .ok (u.withGrants out, u.withGrants out)) hu
        (fun u' o h => by cases h; rfl) with h | ⟨u', o, hf, h⟩
      · exact ⟨u, h, Or.inl rfl⟩
      · cases hf
        exact ⟨_, h, Or.inr rfl⟩

end Users

/-- What a planned write leaves of the account: the same grants, or the ones
it was to put in place, in stored form. -/
theorem ManagePlan.after_grants {plan : ManagePlan} {users : Users} {target : String}
    {saved grantsSaved : Bool} {u u' : User} (hu : users.get target = some u)
    (hu' : Users.get ((plan.toWrite target grantsSaved).run saved users) target = some u') :
    u'.grants = u.grants ∨ ∃ enabled password next, plan = .edit enabled password (some next) ∧
      Grants.normalize next = .ok u'.grants := by
  cases plan with
  | edit enabled password grants =>
      simp only [toWrite, UserWrite.run, Users.edit] at hu'
      obtain ⟨v, hv, hgrants⟩ := @Users.update_grants users target u saved enabled password hu
      split at hu'
      · rename_i next _
        obtain ⟨w, hw, hcase⟩ := @Users.setGrants_grants _ target v grantsSaved next hv
        obtain rfl := Option.some.inj (hw.symm.trans hu')
        rcases hcase with h | h
        · exact Or.inl (h.trans hgrants)
        · exact Or.inr ⟨enabled, password, next, rfl, h⟩
      · obtain rfl := Option.some.inj (hv.symm.trans hu')
        exact Or.inl hgrants
  | delete =>
      left
      simp only [toWrite, UserWrite.run, Users.delete] at hu'
      split at hu'
      · cases saved with
        | true =>
            obtain ⟨hmem, hid⟩ := Users.mem_of_get hu'
            have := (List.mem_filter.mp hmem).2
            simp [hid] at this
        | false =>
            obtain rfl := Option.some.inj (hu.symm.trans hu')
            rfl
      · obtain rfl := Option.some.inj (hu.symm.trans hu')
        rfl
  | totpDisable =>
      left
      simp only [toWrite, UserWrite.run] at hu'
      rcases CredentialWrite.totpDisable.run_cases saved target users with
        h | ⟨w, w', hget, hid, -, hgrants, h⟩
      · rw [h] at hu'
        rw [Option.some.inj (hu.symm.trans hu')]
      · obtain rfl : w = u := Option.some.inj (hget.symm.trans hu)
        rw [h, Users.get_modify hget (hid.trans (Users.mem_of_get hget).2)] at hu'
        rw [← Option.some.inj hu', hgrants]

/-! ## Every run -/

/-- **Write lemma.** A write of a request nobody disturbed is bounded by its
caller. -/
theorem recordWrite_bounded {A : AuthState} {p : Progress} {plan : ManagePlan}
    {saved grantsSaved : Bool} (hs : p.Sound) (hready : p.stage = .ready plan)
    (hcallers : ∀ c ∈ p.callers, ∃ c', resolveCaller A p.request.presented = some c' ∧
      c'.grants = c.grants)
    (hseen : ∀ u, A.users.get p.request.target = some u → ∀ gs ∈ p.seen, gs = u.grants) :
    ∀ w ∈ recordWrite A p ((plan.toWrite p.request.target grantsSaved).run saved A.users),
      w.bounded := by
  intro w hw
  simp only [Progress.Sound, hready] at hs
  obtain ⟨⟨c, hc, gs, hgs, hheld⟩, hplanned⟩ := hs
  simp only [recordWrite, Option.mem_toList, Option.map_eq_some_iff] at hw
  obtain ⟨u, hu, rfl⟩ := hw
  obtain ⟨c', hc', hgrants⟩ := hcallers c hc
  have hbefore : ∀ g ∈ u.grants, c'.mayGrant g = true := by
    intro g hg
    rw [Caller.mayGrant_congr hgrants]
    exact hheld g (hseen u hu gs hgs ▸ hg)
  refine ⟨c', hc', hbefore, ?_⟩
  intro after hafter
  obtain ⟨u', hu', rfl⟩ := Option.map_eq_some_iff.mp hafter
  refine ⟨?_, fun g hg => hbefore g (List.mem_filter.mp hg).1⟩
  rcases ManagePlan.after_grants hu hu' with hsame | ⟨enabled, password, next, rfl, hnorm⟩
  · intro g hg
    rw [hsame, Grants.diff_self] at hg
    cases hg
  · intro g hg
    obtain ⟨c₁, hc₁, gs₁, hgs₁, hadds⟩ := hplanned
    obtain ⟨c₁', hc₁', hgrants₁⟩ := hcallers c₁ hc₁
    obtain rfl : c' = c₁' := Option.some.inj (hc'.symm.trans hc₁')
    obtain ⟨hin, hout⟩ := List.mem_filter.mp hg
    rw [Caller.mayGrant_congr hgrants₁]
    refine hadds g (List.mem_filter.mpr ⟨Grants.mem_of_normalize hnorm hin, ?_⟩)
    rw [hseen u hu gs₁ hgs₁]
    exact hout

/-- Every pending request is sound and every write so far is bounded. -/
def ManageState.Kept (s : ManageState) : Prop :=
  (∀ rid p, s.pending rid = some p → p.Sound) ∧ writesBounded s

theorem pending_update {P : Progress → Prop} {pending : String → Option Progress} {rid : String}
    {q : Option Progress} (h : ∀ rid p, pending rid = some p → P p)
    (hq : ∀ p, q = some p → P p) :
    ∀ rid' p, Function.update pending rid q rid' = some p → P p := by
  intro rid' p hp
  by_cases heq : rid' = rid
  · subst heq
    rw [Function.update_self] at hp
    exact hq p hp
  · rw [Function.update_of_ne heq] at hp
    exact h rid' p hp

/-- **Step lemma.** -/
theorem ManageStep.kept {s s' : ManageState} {a : ManageAct} (hstep : ManageStep s a s')
    (hquiet : undisturbed s a s') (hs : s.Kept) : s'.Kept := by
  cases hstep with
  | others => exact hs
  | start hnew =>
      refine ⟨pending_update hs.1 ?_, hs.2⟩
      rintro p ⟨⟩
      trivial
  | @advance rid p hp =>
      refine ⟨pending_update hs.1 ?_, hs.2⟩
      intro p' hp'
      cases hadv : p.advance s.auth with
      | error e =>
          rw [hadv] at hp'
          cases hp'
      | ok p'' =>
          rw [hadv] at hp'
          obtain rfl := Option.some.inj hp'
          exact (Progress.advance_cases hadv).sound (hs.1 rid p hp)
  | @write rid p plan saved grantsSaved hp hready =>
      obtain ⟨hcallers, hseen⟩ := hquiet rid saved grantsSaved rfl p hp
      refine ⟨pending_update hs.1 (by rintro p ⟨⟩), ?_⟩
      intro w hw
      rcases List.mem_append.mp hw with hw | hw
      · exact recordWrite_bounded (hs.1 rid p hp) hready hcallers hseen w hw
      · exact hs.2 w hw

/-- **Account control is bounded by the granter**, in every run in which, at
each write, neither the caller's grants nor the target's have changed since
the request first looked. -/
theorem account_writes_bounded {s : ManageState}
    (h : (manageSys.restrict undisturbed).Reachable s) : writesBounded s := by
  have hkept : s.Kept := by
    refine h.invariant ?_ ?_
    · rintro s ⟨hpending, hwrites⟩
      refine ⟨?_, ?_⟩
      · intro rid p hp
        rw [hpending] at hp
        cases hp
      · intro w hw
        rw [hwrites] at hw
        cases hw
    · intro s a s' _ hs hstep
      exact hstep.1.kept hstep.2 hs
  exact hkept.2

/-! ## A promotion between the look and the write -/

/-- One request is pending and nothing else is. -/
def onlyPending (A : AuthState) (p : Progress) : ManageState where
  auth := A
  pending := Function.update (fun _ => none) "r1" (some p)

theorem onlyPending_advance {cond : ManageState → ManageAct → ManageState → Prop}
    (hcond : ∀ s rid s', cond s (.advance rid) s') {A : AuthState} {p p' : Progress}
    (h : (manageSys.restrict cond).Reachable (onlyPending A p)) (hadv : p.advance A = .ok p') :
    (manageSys.restrict cond).Reachable (onlyPending A p') := by
  have hstep := h.step ⟨@ManageStep.advance _ "r1" p (by simp [onlyPending]), hcond _ _ _⟩
  simpa [onlyPending, hadv, Except.toOption] using hstep

/-- A master admin and a master viewer. -/
def masterAccounts : AuthState where
  sessions := (∅ : Sessions).insert "s1"
    { expiresAt := 100, plane := .admin, username := some "alice", role := .admin }
  users :=
    [{ id := "u1", username := "alice", passwordHash := "h1", role := .admin
       grants := [{ org := .master, role := .admin }] },
     { id := "u2", username := "bob", passwordHash := "h2"
       grants := [{ org := .master, role := .viewer }] }]

/-- Alice sets Bob's password. -/
def aliceSetsPassword : ManageRequest where
  presented := { sessionCookie := some "s1" }
  target := "u2"
  job := .update { password := some ("new password", "h3") }

/-- Alice as every region of the request finds her. -/
def aliceCaller : Caller := ⟨.named "alice" [{ org := .master, role := .admin }], none⟩

/-- Her request, about to write. -/
def aliceReady : Progress where
  request := aliceSetsPassword
  stage := .ready (.edit none (some ("new password", "h3")) none)
  callers := [aliceCaller, aliceCaller]
  seen := [[{ org := .master, role := .viewer }], [{ org := .master, role := .viewer }]]

theorem aliceReady_reachable {cond : ManageState → ManageAct → ManageState → Prop}
    (hcond : ∀ s rid s', cond s (.advance rid) s') (hstart : ∀ s rid r s', cond s (.start rid r) s') :
    (manageSys.restrict cond).Reachable (onlyPending masterAccounts aliceReady) := by
  have h0 : (manageSys.restrict cond).Reachable { auth := masterAccounts } :=
    .init ⟨fun _ => rfl, rfl⟩
  have h1 : (manageSys.restrict cond).Reachable
      (onlyPending masterAccounts { request := aliceSetsPassword }) :=
    h0.step ⟨.start rfl, hstart _ _ _ _⟩
  have h2 := onlyPending_advance hcond h1 rfl
  have h3 := onlyPending_advance hcond h2 rfl
  have h4 := onlyPending_advance hcond h3 rfl
  have h5 := onlyPending_advance hcond h4 rfl
  exact onlyPending_advance hcond h5 rfl

def bobsNewPassword : UserWrite := .edit true "u2" none (some ("new password", "h3")) none

/-- The state after Alice's write in the accounts of the moment. -/
def aliceWrote (A : AuthState) : ManageState where
  auth := { A with users := bobsNewPassword.run true A.users }
  writes := recordWrite A aliceReady (bobsNewPassword.run true A.users)

theorem aliceWrote_reachable {cond : ManageState → ManageAct → ManageState → Prop} {A : AuthState}
    (h : (manageSys.restrict cond).Reachable (onlyPending A aliceReady))
    (hcond : cond (onlyPending A aliceReady) (.write "r1" true true) (aliceWrote A)) :
    (manageSys.restrict cond).Reachable (aliceWrote A) := by
  have hstep : ManageStep (onlyPending A aliceReady) (.write "r1" true true) (aliceWrote A) := by
    have := @ManageStep.write (onlyPending A aliceReady) "r1" aliceReady _ true true
      (by simp [onlyPending]) rfl
    simpa [onlyPending, aliceWrote, bobsNewPassword, ManagePlan.toWrite, aliceReady,
      aliceSetsPassword] using this
  exact h.step ⟨hstep, hcond⟩

/-- Nobody disturbs her. -/
theorem account_writes_bounded_alice :
    (aliceWrote masterAccounts).writes ≠ [] ∧ writesBounded (aliceWrote masterAccounts) := by
  refine ⟨by decide, account_writes_bounded (aliceWrote_reachable
    (aliceReady_reachable ?_ ?_) ?_)⟩
  · intro s rid s' rid' b b' h
    cases h
  · intro s rid r s' rid' b b' h
    cases h
  · rintro rid b b' ⟨⟩ p hp
    obtain rfl : aliceReady = p := by simpa [onlyPending] using hp
    refine ⟨?_, ?_⟩
    · intro c hc
      refine ⟨aliceCaller, rfl, ?_⟩
      simp only [aliceReady, List.mem_cons, List.not_mem_nil, or_false, or_self] at hc
      rw [hc]
    · intro u hu gs hgs
      simp only [aliceReady, List.mem_cons, List.not_mem_nil, or_false, or_self] at hgs
      rw [hgs, ← Option.some.inj hu]

def bobsPromotion : UserWrite := .edit true "u2" none none (some Grants.allAdmin)

/-- Bob is made the server admin by somebody who may. -/
def bobPromoted : AuthState :=
  { masterAccounts with users := bobsPromotion.run true masterAccounts.users }

/-- Bob is promoted after Alice's request looked and before it writes: a
master admin has set the server admin's password. -/
theorem promoted_account_taken_over :
    ∃ s, manageSys.Reachable s ∧ ¬ writesBounded s := by
  have hready := @aliceReady_reachable (fun _ _ _ => True) (fun _ _ _ => trivial)
    (fun _ _ _ _ => trivial)
  have hpromoted : (manageSys.restrict fun _ _ _ => True).Reachable
      (onlyPending bobPromoted aliceReady) := hready.step ⟨.others, trivial⟩
  refine ⟨_, (aliceWrote_reachable hpromoted trivial).of_restrict, ?_⟩
  intro h
  obtain ⟨c, hc, hheld, -⟩ := h _ List.mem_cons_self
  obtain rfl : aliceCaller = c := Option.some.inj hc
  have := hheld { org := .all, role := .admin } (by decide)
  exact absurd this (by decide)

end Aperio
