import Aperio.Manage

/-!
# Signing in through an identity provider

`auth/oidc_flow.rs` and `oidc.rs`: what a provider's groups are worth, and
how a login settles the account behind an email. Accounts are matched by
email whatever organization they live in; a tenant's provider writes grants
of the tenant, and the mark on a mapped grant says whose provider wrote it.
-/

namespace Aperio

/-! ## What a login is granted -/

/-- `Grant::parse`: `<org>:<role>`, the role behind the last colon. Its one
caller here drops the message of a refusal. -/
def Grant.parse (raw : String) : Option Grant :=
  (rsplitOnce (trim raw) ':').bind fun (org, role) =>
    if (splitOnce role '+').isSome then none
    else
      (Role.parse role).bind fun role =>
        if trim org = "" then none else some { org := .parse org, role := role }

/-- A role in a given organization. The text may not name another one. -/
def Grant.parseInOrg (org raw : String) : Option Grant :=
  (Grant.parse (org ++ ":" ++ trim raw)).filter (·.org == .parse org)

structure OidcGrantPolicy where
  defaultGrants : List Grant := []
  groupGrants : List (String × Grant) := []
deriving Repr, DecidableEq

/-- The grants the claimed groups map to. -/
def OidcGrantPolicy.mapped (policy : OidcGrantPolicy) (groups : List String) : List Grant :=
  (policy.groupGrants.filter fun e => groups.any (· == e.1)).map fun e =>
    { org := e.2.org, role := e.2.role, source := some e.1 }

/-- What an organization configures about its own provider. -/
structure OrgOidc where
  allowedEmails : List String := []
  defaultRole : Option Role := none
  groupGrants : List String := []
deriving Repr, DecidableEq

/-- `resolve_org_oidc`: every grant names the organization, whatever the
entries say. An entry that does not read is left out. -/
def OrgOidc.policy (cfg : OrgOidc) (orgId : String) : OidcGrantPolicy where
  defaultGrants := (cfg.defaultRole.map fun role =>
    ({ org := .child orgId, role := role } : Grant)).toList
  groupGrants := cfg.groupGrants.filterMap fun entry =>
    (splitOnce entry '=').bind fun (group, role) =>
      let role := ((splitOnce role '+').map (·.1)).getD role
      (Grant.parseInOrg orgId role).map fun grant => (trim group, grant)

/-- A configured grant may name an organization by its handle. -/
def resolveGrant (orgs : List Organization) (g : Grant) : Grant :=
  match g.org with
  | .child name =>
    match orgs.find? fun o => o.id == name || eqIgnoreAsciiCase o.name name with
    | some o => { g with org := .child o.id }
    | none => g
  | _ => g

/-! ## The record behind a login -/

def UserError.http : UserError → HttpError
  | .notSaved => ⟨500, "The change could not be saved to the store and was rolled back; " ++
      "see the server log"⟩
  | .noSuchUser => ⟨404, "unknown user id"⟩
  | .invalid m => ⟨400, m⟩

/-- The row the email stands for, and whether this login made it. -/
def loginRow (users : Users) (saved : Bool) (newId email : String) (boundOrg : Option String)
    (defaults : List Grant) : Except HttpError (User × Bool) × Users :=
  match users.findByUsername email with
  | some user => (.ok (user, false), users)
  | none =>
    if users.isDisabledUsername email then
      (.error ⟨403, "403 Forbidden - This account is disabled"⟩, users)
    else
      let out := users.createSso saved newId email boundOrg defaults
      ((out.1.map fun user => (user, true)).mapError UserError.http, out.2)

/-- The grants a login leaves a row with: the map owns what it produces, and
with no map the record is what an admin wrote. -/
def OidcGrantPolicy.next (policy : OidcGrantPolicy) (mapped : List Grant)
    (boundOrg : Option String) (row : User) (created : Bool) : List Grant :=
  if policy.groupGrants.isEmpty && !created then row.grants
  else Grants.applyGroupMap row.grants mapped boundOrg

/-- Brings a row in step with what the groups map to. -/
def stepGrants (users : Users) (saved : Bool) (row : User) (next : List Grant) :
    Except HttpError User × Users :=
  -- the row was found, or made, in this very table
  if next = row.grants then (.ok ((users.get row.id).getD row), users)
  else
    let out := users.setGrantsFromLogin saved row.id next
    (out.1.mapError UserError.http, out.2)

/-- What the session may act in: one organization for a login of that
organization's provider, the whole record otherwise. -/
def User.reaches (user : User) : Option String → Bool
  | some org => (user.roleIn (some org)).isSome
  | none => !user.grants.isEmpty

/-- `settle_record`. Only the answer depends on whether the record reaches
anything; what was written stays written. -/
def settleRecord (orgs : List Organization) (users : Users) (saved grantsSaved : Bool)
    (newId : String) (policy : OidcGrantPolicy) (email : String) (boundOrg : Option String)
    (groups : List String) : Except HttpError User × Users :=
  let mapped := (policy.mapped groups).map (resolveGrant orgs)
  let defaults := policy.defaultGrants.map (resolveGrant orgs)
  match loginRow users saved newId email boundOrg defaults with
  | (.error e, users) => (.error e, users)
  | (.ok (row, created), users) =>
    match stepGrants users grantsSaved row (policy.next mapped boundOrg row created) with
    | (.error e, users) => (.error e, users)
    | (.ok user, users) =>
      if user.reaches boundOrg then (.ok user, users)
      else (.error ⟨403, "403 Forbidden - Your identity was verified, but no organization has " ++
        "been granted to this account yet. Ask an Aperio administrator to grant one on the Users " ++
        "page."⟩, users)

/-- The dashboard session such a login is given. -/
def oidcSession (nowSecs : Nat) (email : String) (role : Role) (boundOrg : Option String)
    (loginHost : Option String) : SessionInfo where
  expiresAt := nowSecs + 86400
  plane := .admin
  username := some email
  role := role
  boundOrg := boundOrg
  loginHost := loginHost

/-! ## What a login writes -/

/-- A login finds its row, makes it, or is refused with nothing written. -/
theorem loginRow_cases (users : Users) (saved : Bool) (newId email : String)
    (boundOrg : Option String) (defaults : List Grant) :
    (∃ e, loginRow users saved newId email boundOrg defaults = (.error e, users)) ∨
    (∃ row ∈ users, loginRow users saved newId email boundOrg defaults =
      (.ok (row, false), users)) ∨
    ∃ row : User, row.id = newId ∧ Users.normalizeLogin defaults = .ok row.grants ∧
      (users.createSso saved newId email boundOrg defaults).2 = users ++ [row] ∧
      loginRow users saved newId email boundOrg defaults = (.ok (row, true), users ++ [row]) := by
  simp only [loginRow]
  split
  · rename_i row hfind
    exact Or.inr (Or.inl ⟨row, List.mem_of_find?_eq_some hfind, rfl⟩)
  · split
    · exact Or.inl ⟨_, rfl⟩
    · simp only [Users.createSso]
      cases hn : Users.normalizeLogin defaults with
      | error e =>
          exact Or.inl ⟨e.http, rfl⟩
      | ok out =>
          rcases @Users.createRecord_cases users newId saved email none boundOrg out with
            ⟨htable, e, he⟩ | ⟨row, hid, hgrants, -, -, h⟩
          · refine Or.inl ⟨e.http, ?_⟩
            simp only [he, htable]
            rfl
          · refine Or.inr (Or.inr ⟨row, hid, by rw [hgrants], ?_⟩)
            simp only [h]
            exact ⟨trivial, rfl⟩

theorem settleRecord_users (orgs : List Organization) (users : Users) (saved grantsSaved : Bool)
    (newId : String) (policy : OidcGrantPolicy) (email : String) (boundOrg : Option String)
    (groups : List String) :
    (settleRecord orgs users saved grantsSaved newId policy email boundOrg groups).2 =
      match loginRow users saved newId email boundOrg
          (policy.defaultGrants.map (resolveGrant orgs)) with
      | (.error _, users) => users
      | (.ok (row, created), users) => (stepGrants users grantsSaved row
          (policy.next ((policy.mapped groups).map (resolveGrant orgs)) boundOrg row created)).2 := by
  simp only [settleRecord]
  rcases loginRow users saved newId email boundOrg (policy.defaultGrants.map (resolveGrant orgs))
    with ⟨e | ⟨row, created⟩, table⟩
  · rfl
  · simp only
    split
    · rename_i hstep
      rw [hstep]
    · rename_i hstep
      rw [hstep]
      split <;> rfl

/-! ## A tenant's policy names the tenant -/

theorem GrantOrg.parse_id (o : OrgId) : GrantOrg.parse o.id = .child o.id := by
  have hne : ∀ t : String, '-' ∉ t.toList → o.id ≠ t := by
    rintro t ht rfl
    exact ht o.hyphenated
  have hmaster : eqIgnoreAsciiCase o.id "master" = false := by
    have h := @OrgId.ne_handle o "master" (by decide)
    rwa [eqIgnoreAsciiCase_comm] at h
  simp [parse, o.trimmed, hne "" (by decide), hne "*" (by decide), hmaster]

theorem Grant.parseInOrg_org {org raw : String} {g : Grant} (h : parseInOrg org raw = some g) :
    g.org = .parse org := by
  rw [parseInOrg, Option.filter_eq_some_iff] at h
  simpa using h.2

theorem resolveGrant_org {orgs : List Organization} {o : OrgId} {g : Grant}
    (horgs : HandlesKept orgs) (h : g.org = .child o.id) :
    (resolveGrant orgs g).org = .child o.id := by
  simp only [resolveGrant, h]
  split
  · rename_i org hfind
    have hprop := List.find?_some hfind
    have hhandle := o.ne_handle (horgs org (List.mem_of_find?_eq_some hfind))
    rw [hhandle, Bool.or_false, beq_iff_eq] at hprop
    simp [hprop]
  · exact h

/-- Whatever an organization writes into its provider's table, a login
through it is granted roles in that organization. -/
theorem OrgOidc.policy_orgs {cfg : OrgOidc} {orgs : List Organization} {o : OrgId}
    {groups : List String} (horgs : HandlesKept orgs) :
    (∀ g ∈ ((cfg.policy o.id).mapped groups).map (resolveGrant orgs), g.org = .child o.id) ∧
      ∀ g ∈ (cfg.policy o.id).defaultGrants.map (resolveGrant orgs), g.org = .child o.id := by
  constructor
  · intro g hg
    obtain ⟨m, hm, rfl⟩ := List.mem_map.mp hg
    refine resolveGrant_org horgs ?_
    obtain ⟨e, he, rfl⟩ := List.mem_map.mp hm
    obtain ⟨entry, -, hentry⟩ := List.mem_filterMap.mp (List.mem_filter.mp he).1
    obtain ⟨⟨group, role⟩, -, hgrant⟩ := Option.bind_eq_some_iff.mp hentry
    obtain ⟨grant, hparse, rfl⟩ := Option.map_eq_some_iff.mp hgrant
    exact (Grant.parseInOrg_org hparse).trans (GrantOrg.parse_id o)
  · intro g hg
    obtain ⟨d, hd, rfl⟩ := List.mem_map.mp hg
    refine resolveGrant_org horgs ?_
    obtain ⟨role, -, rfl⟩ := Option.map_eq_some_iff.mp (Option.mem_toList.mp hd)
    rfl

end Aperio
