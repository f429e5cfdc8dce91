import Mathlib.Logic.Function.Basic
import Aperio.Oidc
import Aperio.Run
import Aperio.TunnelNames

/-!
# The provider of an organization

`resolve_org_oidc`, `orgs_oidc_handler` and `orgs_delete_handler`, over the
organization store and the cache of built runtimes, each behind a lock of its
own. A login looks in the cache, reads the configuration, builds a runtime
over the network and caches it; the handlers write the store and then take
the entry out. A call can go away between any two of these, with the
connection it answers.

An entry put in after its configuration changed is never looked at again.
`Undisturbed` is what keeps it out.
-/

namespace Aperio

/-! ## Building a runtime -/

structure OrgOidcConfig extends OrgOidc where
  issuer : String
  clientId : String
  clientSecret : String
deriving Repr, DecidableEq

structure DiscoveryDoc where
  authorizationEndpoint : String
  tokenEndpoint : String
  userinfoEndpoint : Option String
deriving Repr, DecidableEq

structure OidcRuntime where
  authorizationEndpoint : String
  tokenEndpoint : String
  userinfoEndpoint : String
  clientId : String
  clientSecret : String
  scopes : String
  allowedEmails : List String
  redirectUrlOverride : Option String
  grants : OidcGrantPolicy
deriving Repr, DecidableEq

/-- `fetched` is what the issuer answered for its discovery document. -/
def buildRuntime (fetched : Except String DiscoveryDoc) (issuer clientId clientSecret : String)
    (allowedEmails : List String) (scopes : String) (redirectUrlOverride : Option String)
    (grants : OidcGrantPolicy) : Except String OidcRuntime := do
  refuseIf (trimEndMatches (trim issuer) '/' == "") "OIDC issuer is empty"
  refuseIf (trim clientId == "" || trim clientSecret == "")
    "OIDC client id / client secret are missing"
  refuseIf allowedEmails.isEmpty
    ("OIDC allowed emails must be set (comma separated; supports user@x.com, " ++
      "*@x.com, *)")
  let doc ← fetched
  match doc.userinfoEndpoint with
  | none => .error "OIDC issuer does not advertise a userinfo_endpoint"
  | some userinfoEndpoint =>
    pure { authorizationEndpoint := doc.authorizationEndpoint, tokenEndpoint := doc.tokenEndpoint,
           userinfoEndpoint, clientId, clientSecret, scopes, allowedEmails, redirectUrlOverride,
           grants }

/-- The runtime of an organization's own provider. -/
def OrgOidcConfig.build (cfg : OrgOidcConfig) (orgId : String)
    (fetched : Except String DiscoveryDoc) : Except String OidcRuntime :=
  buildRuntime fetched cfg.issuer cfg.clientId cfg.clientSecret cfg.allowedEmails
    "openid email profile" none (cfg.policy orgId)

/-! ## Setting the provider -/

structure OrgOidcRequest where
  issuer : String := ""
  clientId : String := ""
  clientSecret : String := ""
  allowedEmails : List String := []
  defaultRole : Option String := none
  groupGrants : List String := []
deriving Repr, DecidableEq

/-- Why a payload is answered 400. -/
inductive OidcRefusal where
  | credentials
  | allowedEmails
  | defaultRole
  | groupGrants (entry : String)
deriving Repr, DecidableEq

def orgOidcDefaultRole (raw : Option String) : Except OidcRefusal (Option Role) :=
  match raw.map trim with
  | none => .ok (some .admin)
  | some raw =>
    if raw = "" ∨ raw = "admin" then .ok (some .admin)
    else if raw = "none" then .ok none
    else
      match Role.parse raw with
      | some role => .ok (some role)
      | none => .error .defaultRole

/-- The entries, trimmed and without the empty ones, or the first that does
not name a role here. -/
def orgOidcGroupGrants (id : String) : List String → Except OidcRefusal (List String)
  | [] => .ok []
  | entry :: rest =>
    let entry := trim entry
    if entry = "" then orgOidcGroupGrants id rest
    else
      match splitOnce entry '=' with
      | none => .error (.groupGrants entry)
      | some (group, role) =>
        if trim group = "" ∨ (Grant.parseInOrg id role).isNone then .error (.groupGrants entry)
        else (orgOidcGroupGrants id rest).map (entry :: ·)

/-- What a payload asks to store, `previous` being what is stored: an empty
secret keeps the one of the same client at the same issuer. -/
def orgOidcOf (id : String) (payload : OrgOidcRequest) (previous : Option OrgOidcConfig) :
    Except OidcRefusal (Option OrgOidcConfig) :=
  let clientSecret :=
    if payload.clientSecret = "" then
      ((previous.filter fun o =>
        o.issuer == trim payload.issuer && o.clientId == trim payload.clientId).map
          (·.clientSecret)).getD ""
    else payload.clientSecret
  if trim payload.issuer = "" then .ok none
  else
    let allowedEmails :=
      (payload.allowedEmails.map fun e => toAsciiLowercase (trim e)).filter (· != "")
    if trim payload.clientId = "" ∨ trim clientSecret = "" then .error .credentials
    else if allowedEmails = [] then .error .allowedEmails
    else do
      let defaultRole ← orgOidcDefaultRole payload.defaultRole
      let groupGrants ← orgOidcGroupGrants id payload.groupGrants
      pure (some { issuer := trim payload.issuer, clientId := trim payload.clientId, clientSecret,
                   allowedEmails, defaultRole, groupGrants })

/-! ## Calls -/

/-- Where a call is: a login after it missed the cache, after it read the
configuration and after the runtime was built; a handler before it reads or
writes the store, and before it takes the entry out of the cache. -/
inductive OidcTask where
  | resolving (org : String)
  | building (org : String) (cfg : OrgOidcConfig)
  | built (org : String) (cfg : OrgOidcConfig) (rt : OidcRuntime)
  | configuring (org : String) (payload : OrgOidcRequest)
  | prepared (org : String) (oidc : Option OrgOidcConfig)
  | deleting (org : String)
  | removing (org : String)
deriving DecidableEq

/-- The organizations with their providers, and the cached runtimes with what
each was built from. `answers` are the runtimes logins went on with. -/
structure OidcState where
  orgs : String → Option (Option OrgOidcConfig)
  cache : String → Option (OrgOidcConfig × OidcRuntime) := fun _ => none
  tasks : Nat → Option OidcTask := fun _ => none
  answers : List (String × OidcRuntime) := []

inductive OidcAct where
  | lookup (r : Nat) (org : String)
  | read (r : Nat)
  | build (r : Nat) (fetched : Except String DiscoveryDoc)
  | insert (r : Nat)
  | configure (r : Nat) (org : String) (payload : OrgOidcRequest)
  | prepare (r : Nat)
  | write (r : Nat) (saved : Bool)
  | delete (r : Nat) (org : String)
  | erase (r : Nat) (saved : Bool)
  | remove (r : Nat)
  /-- The call goes away. -/
  | drop (r : Nat)

namespace OidcState

variable (s : OidcState)

def setTask (r : Nat) (task : Option OidcTask) : OidcState :=
  { s with tasks := Function.update s.tasks r task }

/-- `set_oidc`: an organization that is there, and a save that works. -/
def setOidc (org : String) (oidc : Option OrgOidcConfig) (saved : Bool) : OidcState :=
  if (s.orgs org).isSome && saved then { s with orgs := Function.update s.orgs org (some oidc) }
  else s

def act : OidcAct → Option OidcState
  | .lookup r org =>
    match s.tasks r, s.cache org with
    | some _, _ => none
    | none, some (_, rt) => some { s with answers := (org, rt) :: s.answers }
    | none, none => some (s.setTask r (some (.resolving org)))
  | .read r =>
    match s.tasks r with
    | some (.resolving org) =>
      some (s.setTask r (((s.orgs org).bind id).map (.building org)))
    | _ => none
  | .build r fetched =>
    match s.tasks r with
    | some (.building org cfg) =>
      some (s.setTask r
        (match cfg.build org fetched with
        | .ok rt => some (.built org cfg rt)
        | .error _ => none))
    | _ => none
  | .insert r =>
    match s.tasks r with
    | some (.built org cfg rt) =>
      some { s.setTask r none with
        cache := Function.update s.cache org (some (cfg, rt))
        answers := (org, rt) :: s.answers }
    | _ => none
  | .configure r org payload =>
    match s.tasks r with
    | none => some (s.setTask r (some (.configuring org payload)))
    | some _ => none
  | .prepare r =>
    match s.tasks r with
    | some (.configuring org payload) =>
      some (s.setTask r
        (match orgOidcOf org payload ((s.orgs org).bind id) with
        | .ok oidc => some (.prepared org oidc)
        | .error _ => none))
    | _ => none
  | .write r saved =>
    match s.tasks r with
    | some (.prepared org oidc) => some ((s.setOidc org oidc saved).setTask r (some (.removing org)))
    | _ => none
  | .delete r org =>
    match s.tasks r with
    | none => some (s.setTask r (some (.deleting org)))
    | some _ => none
  | .erase r saved =>
    match s.tasks r with
    | some (.deleting org) =>
      if (s.orgs org).isSome && saved then
        some { s.setTask r (some (.removing org)) with orgs := Function.update s.orgs org none }
      else some (s.setTask r none)
    | _ => none
  | .remove r =>
    match s.tasks r with
    | some (.removing org) =>
      some { s.setTask r none with cache := Function.update s.cache org none }
    | _ => none
  | .drop r =>
    match s.tasks r with
    | some _ => some (s.setTask r none)
    | none => none

/-- What the cache is for: what is in it was built from what the organization
has now. -/
def Current : Prop :=
  ∀ org cfg rt, s.cache org = some (cfg, rt) →
    s.orgs org = some (some cfg) ∧ ∃ fetched, cfg.build org fetched = .ok rt

/-- A handler is about to take the organization's entry out. -/
def Removing (org : String) : Prop :=
  ∃ r, s.tasks r = some (.removing org)

/-- What the steps of a run must meet.

A runtime is cached only while the organization still has the configuration
it was built from, or a handler is still to take the entry out. And a handler
goes away before it took the entry out only where the entry is what the
organization has, or another handler is still to take it out. -/
def Undisturbed (s : OidcState) (a : OidcAct) (_ : OidcState) : Prop :=
  match a with
  | .insert r => ∀ org cfg rt, s.tasks r = some (.built org cfg rt) →
      s.orgs org = some (some cfg) ∨ s.Removing org
  | .drop r => ∀ org, s.tasks r = some (.removing org) → ∀ cfg rt, s.cache org = some (cfg, rt) →
      s.orgs org = some (some cfg) ∨ ∃ r', r' ≠ r ∧ s.tasks r' = some (.removing org)
  | _ => True

end OidcState

/-- The process starts with whatever is stored, and an empty cache. -/
def oidcSys : Sys OidcState OidcAct where
  init s := ∃ orgs, s = { orgs := orgs }
  step s a s' := s.act a = some s'

/-! ## Every step -/

namespace OidcState

variable {s s' : OidcState} {a : OidcAct} {r r' : Nat} {org : String} {task : OidcTask}
  {new : Option OidcTask}

/-- What every undisturbed run keeps. -/
structure Kept (s : OidcState) : Prop where
  built : ∀ r org cfg rt, s.tasks r = some (.built org cfg rt) →
    ∃ fetched, cfg.build org fetched = .ok rt
  cached : ∀ org cfg rt, s.cache org = some (cfg, rt) → ∃ fetched, cfg.build org fetched = .ok rt
  fresh : ∀ org cfg rt, s.cache org = some (cfg, rt) →
    s.orgs org = some (some cfg) ∨ s.Removing org

theorem setTask_self : (s.setTask r new).tasks r = new :=
  Function.update_self ..

theorem setTask_other (h : r' ≠ r) : (s.setTask r new).tasks r' = s.tasks r' :=
  Function.update_of_ne h ..

/-- A handler that is about to remove still is, unless it was the one that
moved. -/
theorem Removing.setTask (h : s.Removing org) (hold : s.tasks r ≠ some (.removing org)) :
    (s.setTask r new).Removing org := by
  obtain ⟨r', hr'⟩ := h
  refine ⟨r', ?_⟩
  rw [setTask_other, hr']
  rintro rfl
  exact hold hr'

theorem built_setTask (h : s.Kept)
    (hnew : ∀ org cfg rt, new = some (.built org cfg rt) →
      ∃ fetched, cfg.build org fetched = .ok rt) :
    ∀ r' org cfg rt, (s.setTask r new).tasks r' = some (.built org cfg rt) →
      ∃ fetched, cfg.build org fetched = .ok rt := by
  intro r' org cfg rt hr'
  by_cases heq : r' = r
  · rw [heq, setTask_self] at hr'
    exact hnew org cfg rt hr'
  · rw [setTask_other heq] at hr'
    exact h.built r' org cfg rt hr'

/-- **Frame rule.** A call that was not about to remove goes on. -/
theorem Kept.setTask (h : s.Kept) (hold : ∀ org, s.tasks r ≠ some (.removing org))
    (hnew : ∀ org cfg rt, new = some (.built org cfg rt) →
      ∃ fetched, cfg.build org fetched = .ok rt) : (s.setTask r new).Kept :=
  ⟨built_setTask h hnew, h.cached, fun org cfg rt hcache =>
    (h.fresh org cfg rt hcache).imp_right fun hremoving => hremoving.setTask (hold org)⟩

/-- The store changes for one organization, and the call that changed it goes
on to remove its entry. -/
theorem Kept.changed (h : s.Kept) {orgs : String → Option (Option OrgOidcConfig)}
    (hold : ∀ org, s.tasks r ≠ some (.removing org))
    (horgs : ∀ other, other ≠ org → orgs other = s.orgs other) :
    ({ s.setTask r (some (.removing org)) with orgs := orgs } : OidcState).Kept := by
  refine ⟨built_setTask h fun _ _ _ heq => (by cases heq), h.cached, ?_⟩
  intro other cfg rt hcache
  by_cases heq : other = org
  · refine Or.inr ⟨r, ?_⟩
    rw [heq]
    exact setTask_self
  · refine (h.fresh other cfg rt hcache).imp (fun hsame => ?_) fun hremoving =>
      hremoving.setTask (hold other)
    exact (horgs other heq).trans hsame

theorem Kept.inserted (h : s.Kept) {cfg : OrgOidcConfig} {rt : OidcRuntime}
    (htask : s.tasks r = some (.built org cfg rt))
    (hcurrent : s.orgs org = some (some cfg) ∨ s.Removing org) :
    ({ s.setTask r none with
      cache := Function.update s.cache org (some (cfg, rt))
      answers := (org, rt) :: s.answers } : OidcState).Kept := by
  have hmoved : ∀ org', s.tasks r ≠ some (.removing org') :=
    fun _ heq => by cases htask.symm.trans heq
  refine ⟨built_setTask h fun _ _ _ heq => (by cases heq), ?_, ?_⟩
  · intro org' cfg' rt' hcache
    by_cases heq : org' = org
    · subst heq
      simp only [Function.update_self] at hcache
      obtain ⟨rfl, rfl⟩ := Prod.mk.inj (Option.some.inj hcache)
      exact h.built r _ _ _ htask
    · simp only [Function.update_of_ne heq] at hcache
      exact h.cached org' cfg' rt' hcache
  · intro org' cfg' rt' hcache
    by_cases heq : org' = org
    · subst heq
      simp only [Function.update_self] at hcache
      obtain ⟨rfl, rfl⟩ := Prod.mk.inj (Option.some.inj hcache)
      exact hcurrent.imp_right fun hremoving => hremoving.setTask (hmoved _)
    · simp only [Function.update_of_ne heq] at hcache
      exact (h.fresh org' cfg' rt' hcache).imp_right fun hremoving =>
        hremoving.setTask (hmoved org')

theorem Kept.removed (h : s.Kept) (htask : s.tasks r = some (.removing org)) :
    ({ s.setTask r none with cache := Function.update s.cache org none } : OidcState).Kept := by
  have hother : ∀ org' cfg rt, Function.update s.cache org none org' = some (cfg, rt) →
      org' ≠ org ∧ s.cache org' = some (cfg, rt) := by
    intro org' cfg rt hcache
    by_cases heq : org' = org
    · rw [heq, Function.update_self] at hcache
      cases hcache
    · rw [Function.update_of_ne heq] at hcache
      exact ⟨heq, hcache⟩
  refine ⟨built_setTask h fun _ _ _ heq => (by cases heq), ?_, ?_⟩
  · exact fun org' cfg rt hcache => h.cached org' cfg rt (hother org' cfg rt hcache).2
  · intro org' cfg rt hcache
    obtain ⟨hne, hbefore⟩ := hother org' cfg rt hcache
    refine (h.fresh org' cfg rt hbefore).imp_right fun hremoving => hremoving.setTask ?_
    intro heq
    exact hne (OidcTask.removing.inj (Option.some.inj (heq.symm.trans htask)))

theorem Kept.dropped (h : s.Kept) (hundisturbed : s.Undisturbed (.drop r) s') :
    (s.setTask r none).Kept := by
  refine ⟨built_setTask h fun _ _ _ heq => (by cases heq), h.cached, ?_⟩
  intro org cfg rt hcache
  by_cases hremoves : s.tasks r = some (.removing org)
  · refine (hundisturbed org hremoves cfg rt hcache).imp_right ?_
    rintro ⟨r', hne, hr'⟩
    exact ⟨r', (setTask_other hne).trans hr'⟩
  · exact (h.fresh org cfg rt hcache).imp_right fun hremoving => hremoving.setTask hremoves

theorem Kept.step (h : s.Kept) (hundisturbed : s.Undisturbed a s') (hstep : s.act a = some s') :
    s'.Kept := by
  cases a with
  | lookup r org =>
      simp only [act] at hstep
      split at hstep
      · cases hstep
      · obtain rfl := Option.some.inj hstep
        exact ⟨h.built, h.cached, h.fresh⟩
      · rename_i hfree _
        obtain rfl := Option.some.inj hstep
        exact h.setTask (fun _ heq => by cases hfree.symm.trans heq) fun _ _ _ heq => by cases heq
  | read r =>
      simp only [act] at hstep
      split at hstep
      · rename_i org htask
        obtain rfl := Option.some.inj hstep
        refine h.setTask (fun _ heq => by cases htask.symm.trans heq) ?_
        intro org' cfg rt heq
        obtain ⟨cfg', -, hbuilding⟩ := Option.map_eq_some_iff.mp heq
        cases hbuilding
      · cases hstep
  | build r fetched =>
      simp only [act] at hstep
      split at hstep
      · rename_i org cfg htask
        obtain rfl := Option.some.inj hstep
        refine h.setTask (fun _ heq => by cases htask.symm.trans heq) ?_
        intro org' cfg' rt heq
        split at heq
        · rename_i rt' hbuild
          obtain ⟨rfl, rfl, rfl⟩ := OidcTask.built.inj (Option.some.inj heq)
          exact ⟨fetched, hbuild⟩
        · cases heq
      · cases hstep
  | insert r =>
      simp only [act] at hstep
      split at hstep
      · rename_i org cfg rt htask
        obtain rfl := Option.some.inj hstep
        exact h.inserted htask (hundisturbed _ _ _ htask)
      · cases hstep
  | configure r org payload =>
      simp only [act] at hstep
      split at hstep
      · rename_i hfree
        obtain rfl := Option.some.inj hstep
        exact h.setTask (fun _ heq => by cases hfree.symm.trans heq) fun _ _ _ heq => by cases heq
      · cases hstep
  | prepare r =>
      simp only [act] at hstep
      split at hstep
      · rename_i org payload htask
        obtain rfl := Option.some.inj hstep
        refine h.setTask (fun _ heq => by cases htask.symm.trans heq) ?_
        intro org' cfg rt heq
        split at heq
        · cases heq
        · cases heq
      · cases hstep
  | write r saved =>
      simp only [act] at hstep
      split at hstep
      · rename_i org oidc htask
        obtain rfl := Option.some.inj hstep
        have hmoved : ∀ org', s.tasks r ≠ some (.removing org') :=
          fun _ heq => by cases htask.symm.trans heq
        unfold setOidc
        split
        · exact h.changed hmoved fun other hne => Function.update_of_ne hne ..
        · exact h.changed hmoved fun _ _ => rfl
      · cases hstep
  | delete r org =>
      simp only [act] at hstep
      split at hstep
      · rename_i hfree
        obtain rfl := Option.some.inj hstep
        exact h.setTask (fun _ heq => by cases hfree.symm.trans heq) fun _ _ _ heq => by cases heq
      · cases hstep
  | erase r saved =>
      simp only [act] at hstep
      split at hstep
      · rename_i org htask
        have hmoved : ∀ org', s.tasks r ≠ some (.removing org') :=
          fun _ heq => by cases htask.symm.trans heq
        split at hstep
        · obtain rfl := Option.some.inj hstep
          exact h.changed hmoved fun other hne => Function.update_of_ne hne ..
        · obtain rfl := Option.some.inj hstep
          exact h.setTask hmoved fun _ _ _ heq => by cases heq
      · cases hstep
  | remove r =>
      simp only [act] at hstep
      split at hstep
      · rename_i org htask
        obtain rfl := Option.some.inj hstep
        exact h.removed htask
      · cases hstep
  | drop r =>
      simp only [act] at hstep
      split at hstep
      · obtain rfl := Option.some.inj hstep
        exact h.dropped hundisturbed
      · cases hstep

end OidcState

/-- **A login uses the organization's current provider**, in every
undisturbed run and whenever no call is under way. -/
theorem provider_current {s : OidcState}
    (h : (oidcSys.restrict OidcState.Undisturbed).Reachable s) (hidle : ∀ r, s.tasks r = none) :
    s.Current := by
  have hkept : s.Kept := by
    refine h.invariant ?_ fun s a s' _ hkept hstep => hkept.step hstep.2 hstep.1
    rintro s ⟨orgs, rfl⟩
    exact ⟨fun r org cfg rt htask => (by cases htask), fun org cfg rt hcache => (by cases hcache),
      fun org cfg rt hcache => by cases hcache⟩
  intro org cfg rt hcache
  refine ⟨(hkept.fresh org cfg rt hcache).resolve_right ?_, hkept.cached org cfg rt hcache⟩
  rintro ⟨r, hr⟩
  cases (hidle r).symm.trans hr

/-! ## A login, and a change during one -/

namespace OidcState

/-- A provider that admits the addresses. -/
def acmeOidc (allowedEmails : List String) : OrgOidcConfig :=
  { issuer := "https://login.acme.test", clientId := "panel", clientSecret := "s3cret",
    allowedEmails := allowedEmails, defaultRole := some .viewer }

def acmeDoc : DiscoveryDoc :=
  ⟨"https://login.acme.test/auth", "https://login.acme.test/token",
    some "https://login.acme.test/userinfo"⟩

def acmeRuntime (allowedEmails : List String) : OidcRuntime where
  authorizationEndpoint := "https://login.acme.test/auth"
  tokenEndpoint := "https://login.acme.test/token"
  userinfoEndpoint := "https://login.acme.test/userinfo"
  clientId := "panel"
  clientSecret := "s3cret"
  scopes := "openid email profile"
  allowedEmails := allowedEmails
  redirectUrlOverride := none
  grants := (acmeOidc allowedEmails).policy "acme"

theorem acmeOidc_build {allowedEmails : List String} (h : allowedEmails ≠ []) :
    (acmeOidc allowedEmails).build "acme" (.ok acmeDoc) = .ok (acmeRuntime allowedEmails) := by
  have hissuer : (trimEndMatches (trim "https://login.acme.test") '/' == "") = false := by
    decide +kernel
  have hclient : (trim "panel" == "" || trim "s3cret" == "") = false := by decide +kernel
  have hemails : allowedEmails.isEmpty = false := List.isEmpty_eq_false_iff.mpr h
  simp only [OrgOidcConfig.build, buildRuntime, show (acmeOidc allowedEmails).issuer =
    "https://login.acme.test" from rfl, show (acmeOidc allowedEmails).clientId = "panel" from rfl,
    show (acmeOidc allowedEmails).clientSecret = "s3cret" from rfl,
    show (acmeOidc allowedEmails).allowedEmails = allowedEmails from rfl, hissuer, hclient, hemails]
  rfl

/-- Everybody may sign in at `acme`. -/
def acmeOpen : OidcState where
  orgs := Function.update (fun _ => none) "acme" (some (some (acmeOidc ["*"])))

/-- A login has read the configuration and built the runtime. -/
def acmeBuilt : OidcState :=
  acmeOpen.setTask 0 (some (.built "acme" (acmeOidc ["*"]) (acmeRuntime ["*"])))

theorem acmeBuilt_reachable {c : OidcState → OidcAct → OidcState → Prop}
    (hc : ∀ s a s', Undisturbed s a s' → c s a s') : (oidcSys.restrict c).Reachable acmeBuilt := by
  have h₀ : (oidcSys.restrict c).Reachable acmeOpen := .init ⟨_, rfl⟩
  have h₁ := h₀.step ⟨show act _ (.lookup 0 "acme") = some _ from rfl, hc _ _ _ trivial⟩
  have h₂ := h₁.step ⟨show act _ (.read 0) = some _ from rfl, hc _ _ _ trivial⟩
  have hbuild : ∀ s : OidcState, s.tasks 0 = some (.building "acme" (acmeOidc ["*"])) →
      s.act (.build 0 (.ok acmeDoc)) =
        some (s.setTask 0 (some (.built "acme" (acmeOidc ["*"]) (acmeRuntime ["*"])))) := by
    intro s hs
    simp only [act, hs, acmeOidc_build (List.cons_ne_nil "*" [])]
  have h₃ := h₂.step ⟨hbuild _ rfl, hc _ _ _ trivial⟩
  simpa [acmeBuilt, setTask, Function.update_idem] using h₃

theorem not_running {s : OidcState} (hs : s.tasks = fun _ => none) (r : Nat) :
    s.tasks r = none :=
  congrFun hs r

theorem acmeBuilt_tasks {new : Option OidcTask} :
    (acmeBuilt.setTask 0 new).tasks = Function.update (fun _ => none) 0 new :=
  Function.update_idem ..

/-- What the handler is sent: one address instead of everybody. -/
def acmeRequest : OrgOidcRequest where
  issuer := "https://login.acme.test"
  clientId := "panel"
  allowedEmails := ["ops@acme.test"]
  defaultRole := some "viewer"

theorem acmeRequest_config :
    orgOidcOf "acme" acmeRequest (some (acmeOidc ["*"])) =
      .ok (some (acmeOidc ["ops@acme.test"])) := by
  decide +kernel

theorem prepare_acme {s : OidcState} (htask : s.tasks 1 = some (.configuring "acme" acmeRequest))
    (horg : s.orgs "acme" = some (some (acmeOidc ["*"]))) :
    s.act (.prepare 1) =
      some (s.setTask 1 (some (.prepared "acme" (some (acmeOidc ["ops@acme.test"]))))) := by
  simp only [act, htask, horg, Option.bind_some, id, acmeRequest_config]

end OidcState

/-- A login, and its runtime in the cache. -/
theorem provider_current_one : ∃ s : OidcState,
    s.cache "acme" = some (OidcState.acmeOidc ["*"], OidcState.acmeRuntime ["*"]) ∧ s.Current := by
  have h₀ := OidcState.acmeBuilt_reachable (c := OidcState.Undisturbed) fun _ _ _ => id
  have h₁ := h₀.step ⟨show OidcState.act _ (.insert 0) = some _ from rfl, by
    intro org cfg rt htask
    obtain ⟨rfl, rfl, rfl⟩ := OidcTask.built.inj (Option.some.inj htask)
    exact Or.inl rfl⟩
  refine ⟨_, rfl, provider_current h₁ (OidcState.not_running ?_)⟩
  exact OidcState.acmeBuilt_tasks.trans (Function.update_eq_self 0 _)

/-- A change, or a deletion, that lands while a login is building leaves the
old runtime in the cache. -/
theorem stale_provider_cached :
    (∃ s, oidcSys.Reachable s ∧ (∀ r, s.tasks r = none) ∧
      s.orgs "acme" = some (some (OidcState.acmeOidc ["ops@acme.test"])) ∧
      s.cache "acme" = some (OidcState.acmeOidc ["*"], OidcState.acmeRuntime ["*"]) ∧
      ¬s.Current) ∧
    ∃ s, oidcSys.Reachable s ∧ (∀ r, s.tasks r = none) ∧ s.orgs "acme" = none ∧
      s.cache "acme" = some (OidcState.acmeOidc ["*"], OidcState.acmeRuntime ["*"]) ∧
      ¬s.Current := by
  have h₀ := (OidcState.acmeBuilt_reachable (c := fun _ _ _ => True) fun _ _ _ _ =>
    trivial).of_restrict
  constructor
  · have h₁ := h₀.step (show OidcState.act _ (.configure 1 "acme" OidcState.acmeRequest) = some _
      from rfl)
    have h₂ := h₁.step (OidcState.prepare_acme rfl rfl)
    have h₃ := h₂.step (show OidcState.act _ (.write 1 true) = some _ from rfl)
    have h₄ := h₃.step (show OidcState.act _ (.remove 1) = some _ from rfl)
    have h₅ := h₄.step (show OidcState.act _ (.insert 0) = some _ from rfl)
    refine ⟨_, h₅, ?_, rfl, rfl, fun hcurrent => ?_⟩
    · rintro (_ | _ | r)
      · rfl
      · rfl
      · rfl
    · have hsame := (hcurrent "acme" _ _ rfl).1
      have hconfig := Option.some.inj (Option.some.inj hsame)
      have hallowed : ["ops@acme.test"] = ["*"] := congrArg (·.allowedEmails) hconfig
      exact absurd hallowed (by decide)
  · have h₁ := h₀.step (show OidcState.act _ (.delete 1 "acme") = some _ from rfl)
    have h₂ := h₁.step (show OidcState.act _ (.erase 1 true) = some _ from rfl)
    have h₃ := h₂.step (show OidcState.act _ (.remove 1) = some _ from rfl)
    have h₄ := h₃.step (show OidcState.act _ (.insert 0) = some _ from rfl)
    refine ⟨_, h₄, ?_, rfl, rfl, fun hcurrent => ?_⟩
    · rintro (_ | _ | r)
      · rfl
      · rfl
      · rfl
    · cases (hcurrent "acme" _ _ rfl).1

end Aperio
