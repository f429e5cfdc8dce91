import Aperio.OrgStore
import Aperio.Run
import Aperio.TokenStore
import Aperio.UserStore

/-!
# The stores over whole runs

The account, token and organization tables of one server under every sequence
of their operations, with the write of each succeeding or failing, and with
starts in between. `Table.Commits` is what an operation can do to its table;
`Users.Consistent` is what the accounts keep while nothing is imported.
-/

namespace Aperio

/-! ## Operations -/

inductive UserOp where
  | importRows (users : Users)
  | createWithGrants (id username password : String) (hash : Except String String)
      (orgId : Option String) (grants : List Grant)
  | createSso (id username : String) (orgId : Option String) (grants : List Grant)
  | setGrants (id : String) (grants : List Grant)
  | setGrantsFromLogin (id : String) (grants : List Grant)
  | removeOrgGrants (org : String)
  | update (id : String) (role : Option Role) (enabled : Option Bool)
      (password : Option (String × Except String String))
  | delete (id : String)
  | totpBegin (id secret : String)
  | totpEnable (id : String) (codeOk : String → Bool) (codes hashes : List String)
  | totpDisable (id : String)
  | totpTryAdvanceStep (id : String) (step : Int)
  | consumeRecovery (id hash : String)
  | addPasskey (id : String) (passkey : StoredPasskey)
  | removePasskey (id passkeyId : String)
  | updatePasskeyAfterAuth (id : String) (counted : String → Option String)

inductive TokenOp where
  | importRows (tokens : Tokens)
  | create (hash : String → String) (spec : TokenSpec) (id secret : String) (now : Nat)
  | update (id : String) (patch : TokenPatch) (now : Nat)
  | revoke (id : String)
  | pinKey (id key : String)
  | rotate (hash : String → String) (id secret : String) (graceSeconds now : Nat)
  | refresh (hash : String → String) (secret : String) (now : Nat)

inductive OrgOp where
  | importRows (orgs : OrgRows)
  | create (id : String) (nowSecs : Nat) (name : String) (hostnames : List String)
      (customName : Option String)
  | setCustomName (id : String) (customName : Option String)
  | delete (id : String)
  | setQuota (id : String) (maxClients maxTokens maxUsers maxBytesMonth : Option (Option Nat))
  | setPanelHostname (id : String) (hostname : Option String)
  | setHostnames (id : String) (hostnames : List String)
  | setOidc (id : String) (oidc : Option OrgOidcConfig)

/-- Whether an error is reported, and the table that is left. -/
def reported {σ ε R : Type} (out : Except ε R × Table σ) : Bool × Table σ :=
  (out.1.toOption.isNone, out.2)

/-- The two checks of a second factor answer yes or no. -/
def UserOp.run (op : UserOp) (t : UserTable) (saved : Bool) : Bool × UserTable :=
  match op with
  | .importRows users => reported (t.importRows saved users)
  | .createWithGrants id username password hash orgId grants =>
    reported (t.createWithGrants saved id username password hash orgId grants)
  | .createSso id username orgId grants => reported (t.createSso saved id username orgId grants)
  | .setGrants id grants => reported (t.setGrants saved id grants)
  | .setGrantsFromLogin id grants => reported (t.setGrantsFromLogin saved id grants)
  | .removeOrgGrants org => (false, (t.removeOrgGrants saved org).2)
  | .update id role enabled password => reported (t.update saved id role enabled password)
  | .delete id => reported (t.delete saved id)
  | .totpBegin id secret => reported (t.totpBegin saved id secret)
  | .totpEnable id codeOk codes hashes => reported (t.totpEnable saved id codeOk codes hashes)
  | .totpDisable id => reported (t.totpDisable saved id)
  | .totpTryAdvanceStep id step =>
    let out := t.totpTryAdvanceStep saved id step
    (!out.1, out.2)
  | .consumeRecovery id hash =>
    let out := t.consumeRecovery saved id hash
    (!out.1, out.2)
  | .addPasskey id passkey => reported (t.addPasskey saved id passkey)
  | .removePasskey id passkeyId => reported (t.removePasskey saved id passkeyId)
  | .updatePasskeyAfterAuth id counted => (false, t.updatePasskeyAfterAuth saved id counted)

/-! The rows in memory are what `Users` says of them. -/

namespace UserTable

variable {R : Type} (t : UserTable) (saved : Bool) (id : String)

end UserTable

/-- The operation a write to the credentials is. -/
def CredentialWrite.op (w : CredentialWrite) (id : String) : UserOp :=
  match w with
  | .totpBegin secret => .totpBegin id secret
  | .totpEnable codeOk codes hashes => .totpEnable id codeOk codes hashes
  | .totpDisable => .totpDisable id
  | .totpTryAdvanceStep step => .totpTryAdvanceStep id step
  | .consumeRecovery hash => .consumeRecovery id hash
  | .addPasskey passkey => .addPasskey id passkey
  | .removePasskey passkeyId => .removePasskey id passkeyId

/-- The operation a write to an account is. An edit of the grants is two. -/
def UserWrite.op : UserWrite → Option UserOp
  | .create id username password hash orgId grants =>
    some (.createWithGrants id username password (.ok hash) orgId grants)
  | .createSso id username orgId grants => some (.createSso id username orgId grants)
  | .edit _ id enabled password none =>
    some (.update id none enabled (password.map fun p => (p.1, .ok p.2)))
  | .edit _ _ _ _ (some _) => none
  | .setGrantsFromLogin id grants => some (.setGrantsFromLogin id grants)
  | .delete id => some (.delete id)
  | .credential id w => some (w.op id)

def TokenOp.run (op : TokenOp) (t : TokenTable) (saved : Bool) : Bool × TokenTable :=
  match op with
  | .importRows tokens => reported (t.importRows saved tokens)
  | .create hash spec id secret now => reported (TokenTable.create hash t saved id spec secret now)
  | .update id patch now => reported (t.update saved id patch now)
  | .revoke id => reported (t.revoke saved id)
  | .pinKey id key => reported (t.pinKey saved id key)
  | .rotate hash id secret graceSeconds now =>
    reported (TokenTable.rotate hash t saved id secret graceSeconds now)
  | .refresh hash secret now => reported (TokenTable.refresh hash t saved secret now)

def OrgOp.run (op : OrgOp) (t : OrgTable) (saved : Bool) : Bool × OrgTable :=
  match op with
  | .importRows orgs => reported (t.importRows saved orgs)
  | .create id nowSecs name hostnames customName =>
    reported (t.create saved id nowSecs name hostnames customName)
  | .setCustomName id customName => reported (t.setCustomName saved id customName)
  | .delete id => reported (t.delete saved id)
  | .setQuota id maxClients maxTokens maxUsers maxBytesMonth =>
    reported (t.setQuota saved id maxClients maxTokens maxUsers maxBytesMonth)
  | .setPanelHostname id hostname => reported (t.setPanelHostname saved id hostname)
  | .setHostnames id hostnames => reported (t.setHostnames saved id hostnames)
  | .setOidc id oidc => reported (t.setOidc saved id oidc)

structure Stores where
  users : UserTable
  tokens : TokenTable
  orgs : OrgTable

/-- A start of the server over what is on disk. -/
def Stores.load (users : Users) (tokens : Tokens) (orgs : OrgRows) (saved : Bool) : Stores where
  users := UserTable.load users saved
  tokens := Table.load tokens
  orgs := Table.load orgs

inductive StoreOp where
  | user (op : UserOp)
  | token (op : TokenOp)
  | org (op : OrgOp)

def Stores.run (s : Stores) (saved : Bool) : StoreOp → Bool × Stores
  | .user op => ((op.run s.users saved).1, { s with users := (op.run s.users saved).2 })
  | .token op => ((op.run s.tokens saved).1, { s with tokens := (op.run s.tokens saved).2 })
  | .org op => ((op.run s.orgs saved).1, { s with orgs := (op.run s.orgs saved).2 })

/-- Whether the accounts are replaced by a list from outside. -/
def StoreOp.importsUsers : StoreOp → Bool
  | .user (.importRows _) => true
  | _ => false

/-- The stores, as the last start left them, and whether accounts were
imported at any time. -/
structure StoreRun where
  stores : Stores
  loaded : Stores
  imported : Bool := false

inductive StoreAct where
  | start (saved : Bool)
  | op (op : StoreOp) (saved : Bool)

def StoreRun.next (s : StoreRun) : StoreAct → StoreRun
  | .start saved =>
    let stores := .load s.stores.users.disk s.stores.tokens.disk s.stores.orgs.disk saved
    { s with stores := stores, loaded := stores }
  | .op op saved =>
    { s with
      stores := (s.stores.run saved op).2
      imported := s.imported || op.importsUsers }

/-! ## What the accounts keep -/

/-- One grant for each organization, and the role is the one at home. -/
structure User.Synced (u : User) : Prop where
  distinct : Grants.Distinct u.grants
  role : u.role = (u.roleIn u.orgId).getD .viewer

def Users.NamesApart (users : Users) : Prop :=
  (users.map fun u => toAsciiLowercase u.username).Nodup

/-- No two names differ in letter case only, and every row is in step with its
grants. -/
structure Users.Consistent (users : Users) : Prop where
  names : users.NamesApart
  synced : ∀ u ∈ users, u.Synced

/-- The rows this release or an older one writes. -/
structure Users.Written (users : Users) : Prop where
  names : users.NamesApart
  rows : ∀ u ∈ users, u.isLegacyRow = true ∨ u.Synced

/-- Starts on what was written, and every sequence of operations after it. -/
def storeSys : Sys StoreRun StoreAct where
  init s := (∃ users tokens orgs saved, Users.Written users ∧
    s.stores = .load users tokens orgs saved) ∧ s.loaded = s.stores ∧ s.imported = false
  step s a s' := s' = s.next a

/-- Every list in memory is the one that was written last, or loaded; what is
reported as failed changed nothing; and the accounts are consistent until
somebody imports them. -/
structure StoreRun.Held (s : StoreRun) : Prop where
  users : s.stores.users.Matches s.loaded.users
  tokens : s.stores.tokens.Matches s.loaded.tokens
  orgs : s.stores.orgs.Matches s.loaded.orgs
  failed : ∀ op saved, (s.stores.run saved op).1 = true → (s.stores.run saved op).2 = s.stores
  accounts : s.imported = false → s.stores.users.memory.Consistent

/-! ## Accounts under one operation -/

theorem User.withGrants_synced {u : User} {grants : List Grant} (h : Grants.Distinct grants) :
    (u.withGrants grants).Synced :=
  ⟨h, rfl⟩

theorem legacyGrants_synced (u : User) :
    User.Synced { u with grants := Grants.legacyGrants u.role u.orgId } := by
  by_cases hmaster : u.role = .admin ∧ u.orgId = none
  · rw [Grants.legacyGrants, if_pos hmaster]
    refine ⟨by simp [Grants.Distinct, Grants.allAdmin], ?_⟩
    rw [hmaster.1]
    rfl
  · rw [Grants.legacyGrants, if_neg hmaster]
    refine ⟨by simp [Grants.Distinct], ?_⟩
    cases horg : u.orgId with
    | none => simp [User.roleIn, Grants.roleIn, GrantOrg.ofOrgId, GrantOrg.covers]
    | some org => simp [User.roleIn, Grants.roleIn, GrantOrg.ofOrgId, GrantOrg.covers]

namespace Users

variable {R : Type} {users users' : Users} {id : String} {out : R}

theorem namesApart_of_eq (h : users.NamesApart) (heq : users'.idNames = users.idNames) :
    users'.NamesApart := by
  have hnames (l : Users) : (l.map fun u => toAsciiLowercase u.username) =
      l.idNames.map fun a => toAsciiLowercase a.2 := by
    simp [idNames, Function.comp_def]
  rw [NamesApart, hnames] at h ⊢
  rwa [heq]

theorem Written.consistent (h : users.Written) : users.convertLegacyRows.Consistent where
  names := by
    refine namesApart_of_eq h.names ?_
    rw [idNames, idNames, convertLegacyRows, List.map_map]
    refine List.map_congr_left fun u _ => ?_
    rw [Function.comp_apply]
    split <;> rfl
  synced := by
    intro u hu
    obtain ⟨w, hw, rfl⟩ := List.mem_map.mp hu
    split
    · exact legacyGrants_synced w
    · rename_i hlegacy
      exact (h.rows w hw).resolve_left hlegacy

theorem Consistent.written (h : users.Consistent) : users.Written :=
  ⟨h.names, fun u hu => .inr (h.synced u hu)⟩

theorem Consistent.modify {u u' : User} (h : users.Consistent) (hget : users.get id = some u)
    (hid : u'.id = u.id) (hname : u'.username = u.username) (hsync : u'.Synced) :
    Consistent (users.modify id fun _ => u') where
  names := namesApart_of_eq h.names (idNames_modify hget hid hname)
  synced := by
    intro x hx
    rcases mem_modify hx with hx | rfl
    · exact h.synced x hx
    · exact hsync

theorem Consistent.append {u : User} (h : users.Consistent)
    (hfree : ∀ w ∈ users, toAsciiLowercase w.username ≠ toAsciiLowercase u.username)
    (hsync : u.Synced) : Consistent (users ++ [u]) where
  names := by
    rw [NamesApart, List.map_append, List.nodup_append]
    refine ⟨h.names, by simp, ?_⟩
    rintro _ hw _ hu rfl
    obtain ⟨w, hw, hwname⟩ := List.mem_map.mp hw
    rw [List.map_singleton, List.mem_singleton] at hu
    exact hfree w hw (hwname.trans hu)
  synced := by
    intro x hx
    rcases List.mem_append.mp hx with hx | hx
    · exact h.synced x hx
    · rwa [List.mem_singleton.mp hx]

theorem Consistent.filter (h : users.Consistent) (p : User → Bool) :
    Consistent (users.filter p) where
  names := List.Nodup.sublist (List.filter_sublist.map _) h.names
  synced := fun u hu => h.synced u (List.mem_filter.mp hu).1

end Users

/-- What an operation other than an import makes of the accounts. -/
def Users.Keeps (before after : Users) : Prop :=
  before.Consistent → after.Consistent

/-- Nothing the accounts are consistent by has changed. -/
def User.SameAccount (u u' : User) : Prop :=
  u'.id = u.id ∧ u'.username = u.username ∧ u'.orgId = u.orgId ∧ u'.grants = u.grants ∧
    u'.role = u.role

theorem User.SameAccount.synced {u u' : User} (h : u.SameAccount u') (hs : u.Synced) :
    u'.Synced := by
  obtain ⟨-, -, horg, hgrants, hrole⟩ := h
  refine ⟨hgrants ▸ hs.distinct, ?_⟩
  rw [hrole, hs.role, User.roleIn, User.roleIn, hgrants, horg]

namespace UserTable

open Table (Commits)

variable {R : Type} {t : UserTable} {saved : Bool} {id : String}

theorem commitRow_commits {f : User → Except UserError (User × R)}
    (hf : ∀ u u' out, f u = .ok (u', out) →
      u'.id = u.id ∧ u'.username = u.username ∧ (u.Synced → u'.Synced)) :
    Commits Users.Keeps t (t.commitRow saved id f).1.toOption.isNone
      (t.commitRow saved id f).2 := by
  rcases t.commitRow_cases saved id f with ⟨e, hc⟩ | ⟨u, u', out, -, hget, hfu, hc⟩
  · rw [hc]
    exact .kept _
  · rw [hc]
    obtain ⟨hid, hname, hsync⟩ := hf u u' out hfu
    refine .written _ fun hcons => ?_
    exact hcons.modify hget hid hname (hsync (hcons.synced u (Users.mem_of_get hget).1))

theorem commitRow_same {f : User → Except UserError (User × R)}
    (hf : ∀ u u' out, f u = .ok (u', out) → u.SameAccount u') :
    Commits Users.Keeps t (t.commitRow saved id f).1.toOption.isNone
      (t.commitRow saved id f).2 := by
  refine commitRow_commits fun u u' out h => ?_
  have hsame := hf u u' out h
  exact ⟨hsame.1, hsame.2.1, hsame.synced⟩

theorem createRecord_commits (username : String)
    (password : Option (String × Except String String)) (orgId : Option String)
    {grants : List Grant} (hgrants : Grants.Distinct grants) :
    Commits Users.Keeps t (t.createRecord saved id username password orgId grants).1.toOption.isNone
      (t.createRecord saved id username password orgId grants).2 := by
  simp only [createRecord]
  split
  · exact .kept _
  split
  · exact .kept _
  split
  · exact .kept _
  rename_i hfree
  split
  · exact .kept _
  split
  · exact .kept _
  · rename_i hash _
    refine Table.commits_commit ?_
    intro out hout hc
    have hrows := Users.whole_ok hout
    simp only [Except.ok.injEq, Prod.mk.injEq] at hrows
    rw [← hrows.1]
    refine hc.append ?_ (User.withGrants_synced (u := { id, username := trim username
                                                        passwordHash := hash, orgId }) hgrants)
    simpa [eqIgnoreAsciiCase, User.syncHomeRole] using hfree

theorem normalizeOr_distinct {grants out : List Grant} (h : Users.normalizeOr grants = .ok out) :
    Grants.Distinct out := by
  rw [Users.normalizeOr] at h
  cases hn : Grants.normalize grants with
  | error e =>
      rw [hn] at h
      cases h
  | ok normal =>
      rw [hn] at h
      cases h
      exact Grants.normalize_distinct hn

theorem normalizeLogin_distinct {grants out : List Grant}
    (h : Users.normalizeLogin grants = .ok out) : Grants.Distinct out := by
  rw [Users.normalizeLogin] at h
  split at h
  · cases h
    exact List.nodup_nil
  · exact normalizeOr_distinct h

theorem setGrantsRaw_commits {grants : List Grant} (hgrants : Grants.Distinct grants) :
    Commits Users.Keeps t (t.setGrantsRaw saved id grants).1.toOption.isNone
      (t.setGrantsRaw saved id grants).2 := by
  refine commitRow_commits ?_
  rintro u u' out ⟨⟩
  exact ⟨rfl, rfl, fun _ => User.withGrants_synced hgrants⟩

theorem removeOrgGrants_commits (org : String) :
    Commits Users.Keeps t false (t.removeOrgGrants saved org).2 := by
  simp only [removeOrgGrants]
  split
  · exact .kept _
  · rcases Table.commit_cases t saved UserError.notSaved fun users =>
      (.ok (), users.map fun u => if u.grants.any (·.org == .child org) then
        u.withGrants (u.grants.filter (·.org != .child org)) else u) with
      ⟨out, -, -, hc⟩ | ⟨e, hc⟩
    · rw [hc]
      refine .written _ fun hcons => ⟨?_, ?_⟩
      · refine Users.namesApart_of_eq hcons.names ?_
        rw [Users.idNames, Users.idNames, List.map_map]
        refine List.map_congr_left fun u _ => ?_
        rw [Function.comp_apply]
        split <;> rfl
      · intro u hu
        obtain ⟨w, hw, rfl⟩ := List.mem_map.mp hu
        split
        · exact User.withGrants_synced
            (List.Nodup.sublist (List.filter_sublist.map _) (hcons.synced w hw).distinct)
        · exact hcons.synced w hw
    · rw [hc]
      exact .kept _

/-- A role that is set keeps the row in step. -/
theorem updateRole_ok (u : User) (role : Option Role) (h : (u.updateRole role).1 = .ok ()) :
    (u.updateRole role).2.id = u.id ∧ (u.updateRole role).2.username = u.username ∧
      (u.Synced → (u.updateRole role).2.Synced) := by
  cases role with
  | none => exact ⟨rfl, rfl, fun hs => hs⟩
  | some r =>
      simp only [User.updateRole] at h ⊢
      split at h
      · rename_i grants hnormal
        exact ⟨rfl, rfl, fun _ => User.withGrants_synced (Grants.normalize_distinct hnormal)⟩
      · cases h

theorem updatePassword_same (u : User) (password : Option (String × Except String String)) :
    u.SameAccount (u.updatePassword password).2 := by
  cases password with
  | none => exact ⟨rfl, rfl, rfl, rfl, rfl⟩
  | some p =>
      simp only [User.updatePassword]
      split
      · exact ⟨rfl, rfl, rfl, rfl, rfl⟩
      · split
        · exact ⟨rfl, rfl, rfl, rfl, rfl⟩
        · exact ⟨rfl, rfl, rfl, rfl, rfl⟩

theorem update_ok {u out : User} {role : Option Role} {enabled : Option Bool}
    {password : Option (String × Except String String)}
    (h : (u.update role enabled password).1 = .ok out) :
    (u.update role enabled password).2.id = u.id ∧
      (u.update role enabled password).2.username = u.username ∧
        (u.Synced → (u.update role enabled password).2.Synced) := by
  rcases hrole : u.updateRole role with ⟨_ | ⟨⟩, w⟩
  · simp only [User.update, hrole] at h
    cases h
  · have hok := updateRole_ok u role (by rw [hrole])
    rw [hrole] at hok
    obtain ⟨hid, hname, hsync⟩ := hok
    have hsame := updatePassword_same { w with enabled := enabled.getD w.enabled } password
    simp only [User.update, hrole] at h ⊢
    rcases hpass : User.updatePassword { w with enabled := enabled.getD w.enabled } password with
      ⟨_ | ⟨⟩, x⟩
    · rw [hpass] at h
      cases h
    · rw [hpass] at hsame
      refine ⟨hsame.1.trans hid, hsame.2.1.trans hname, fun hs => ?_⟩
      have hw := hsync hs
      exact hsame.synced ⟨hw.distinct, hw.role⟩

theorem update_commits (role : Option Role) (enabled : Option Bool)
    (password : Option (String × Except String String)) :
    Commits Users.Keeps t (t.update saved id role enabled password).1.toOption.isNone
      (t.update saved id role enabled password).2 := by
  refine Table.commits_commit ?_
  intro out hout hc
  simp only [Users.changeAt] at hout ⊢
  cases hget : t.memory.get id with
  | none =>
      rw [hget] at hout
      cases hout
  | some u =>
      rw [hget] at hout
      obtain ⟨hid, hname, hsync⟩ := update_ok hout
      simp only [Users.modify_of_get hget]
      exact hc.modify hget hid hname (hsync (hc.synced u (Users.mem_of_get hget).1))

theorem delete_commits : Commits Users.Keeps t (t.delete saved id).1.toOption.isNone
    (t.delete saved id).2 := by
  simp only [delete]
  split
  · refine Table.commits_commit fun out _ hc => ?_
    exact hc.filter _
  · exact .kept _

theorem updatePasskeyAfterAuth_commits (counted : String → Option String) :
    Commits Users.Keeps t false (t.updatePasskeyAfterAuth saved id counted) := by
  simp only [updatePasskeyAfterAuth]
  cases hget : t.memory.get id with
  | none => exact .kept _
  | some u =>
      simp only
      have hrows := Users.modify_of_get (f := fun w => { w with
        passkeys := u.passkeys.map fun p =>
          { p with credential := (counted p.credential).getD p.credential } }) hget
      split
      · cases saved with
        | false => exact .kept _
        | true =>
            rw [hrows]
            refine .written _ fun hc => hc.modify hget rfl rfl ?_
            have hs := hc.synced u (Users.mem_of_get hget).1
            exact ⟨hs.distinct, hs.role⟩
      · exact .kept _

end UserTable

open Table (Commits)

/-! ## Every operation -/

theorem Table.Commits.mono {σ : Type} {P Q : σ → σ → Prop} {t t' : Table σ} {failed : Bool}
    (h : Commits P t failed t') (hPQ : ∀ before after, P before after → Q before after) :
    Commits Q t failed t' := by
  cases h with
  | kept => exact .kept _
  | written rows hrows => exact .written _ (hPQ _ _ hrows)

theorem UserOp.run_commits (op : UserOp) (t : UserTable) (saved : Bool) :
    Commits (fun before after => (StoreOp.user op).importsUsers = false →
      Users.Keeps before after) t (op.run t saved).1 (op.run t saved).2 := by
  cases op with
  | importRows users =>
      refine Table.commits_commit fun out _ himport => ?_
      cases himport
  | createWithGrants id username password hash orgId grants =>
      refine Commits.mono ?_ fun before after h _ => h
      simp only [run, reported, UserTable.createWithGrants]
      cases hn : Users.normalizeOr grants with
      | error e => exact .kept _
      | ok normal =>
          exact UserTable.createRecord_commits username _ orgId (UserTable.normalizeOr_distinct hn)
  | createSso id username orgId grants =>
      refine Commits.mono ?_ fun before after h _ => h
      simp only [run, reported, UserTable.createSso]
      cases hn : Users.normalizeLogin grants with
      | error e => exact .kept _
      | ok normal =>
          exact UserTable.createRecord_commits username none orgId
            (UserTable.normalizeLogin_distinct hn)
  | setGrants id grants =>
      refine Commits.mono ?_ fun before after h _ => h
      simp only [run, reported, UserTable.setGrants]
      cases hn : Users.normalizeOr grants with
      | error e => exact .kept _
      | ok normal => exact UserTable.setGrantsRaw_commits (UserTable.normalizeOr_distinct hn)
  | setGrantsFromLogin id grants =>
      refine Commits.mono ?_ fun before after h _ => h
      simp only [run, reported, UserTable.setGrantsFromLogin]
      cases hn : Users.normalizeLogin grants with
      | error e => exact .kept _
      | ok normal => exact UserTable.setGrantsRaw_commits (UserTable.normalizeLogin_distinct hn)
  | removeOrgGrants org =>
      exact (UserTable.removeOrgGrants_commits org).mono fun before after h _ => h
  | update id role enabled password =>
      exact (UserTable.update_commits role enabled password).mono fun before after h _ => h
  | delete id => exact UserTable.delete_commits.mono fun before after h _ => h
  | totpBegin id secret =>
      refine (UserTable.commitRow_same ?_).mono fun before after h _ => h
      rintro u u' out ⟨⟩
      exact ⟨rfl, rfl, rfl, rfl, rfl⟩
  | totpEnable id codeOk codes hashes =>
      refine (UserTable.commitRow_same ?_).mono fun before after h _ => h
      intro u u' out h
      split at h
      · cases h
      · split at h
        · cases h
          exact ⟨rfl, rfl, rfl, rfl, rfl⟩
        · cases h
  | totpDisable id =>
      refine (UserTable.commitRow_same ?_).mono fun before after h _ => h
      rintro u u' out ⟨⟩
      exact ⟨rfl, rfl, rfl, rfl, rfl⟩
  | totpTryAdvanceStep id step =>
      simp only [run, UserTable.totpTryAdvanceStep]
      cases t.memory.get id with
      | none => exact .kept _
      | some u =>
          simp only
          split
          · exact .kept _
          · rw [Option.not_isSome]
            refine (UserTable.commitRow_same ?_).mono fun before after h _ => h
            rintro u u' out ⟨⟩
            exact ⟨rfl, rfl, rfl, rfl, rfl⟩
  | consumeRecovery id hash =>
      simp only [run, UserTable.consumeRecovery]
      cases t.memory.get id with
      | none => exact .kept _
      | some u =>
          simp only
          split
          · rw [Option.not_isSome]
            refine (UserTable.commitRow_same ?_).mono fun before after h _ => h
            rintro u u' out ⟨⟩
            exact ⟨rfl, rfl, rfl, rfl, rfl⟩
          · exact .kept _
  | addPasskey id passkey =>
      refine (UserTable.commitRow_same ?_).mono fun before after h _ => h
      intro u u' out h
      split at h
      · cases h
      · cases h
        exact ⟨rfl, rfl, rfl, rfl, rfl⟩
  | removePasskey id passkeyId =>
      simp only [run, reported, UserTable.removePasskey]
      split
      · refine (UserTable.commitRow_same ?_).mono fun before after h _ => h
        rintro u u' out ⟨⟩
        exact ⟨rfl, rfl, rfl, rfl, rfl⟩
      · exact .kept _
  | updatePasskeyAfterAuth id counted =>
      exact (UserTable.updatePasskeyAfterAuth_commits counted).mono fun before after h _ => h

/-- An operation on a table whose rows keep nothing that is looked at. -/
abbrev Table.Writes {σ : Type} (t : Table σ) (out : Bool × Table σ) : Prop :=
  Commits (fun _ _ => True) t out.1 out.2

theorem writes_commit {σ ε R : Type} (t : Table σ) (saved : Bool) (notSaved : ε)
    (change : σ → Except ε R × σ) : t.Writes (reported (t.commit saved notSaved change)) :=
  Table.commits_commit fun _ _ => trivial

theorem TokenOp.run_writes (op : TokenOp) (t : TokenTable) (saved : Bool) :
    t.Writes (op.run t saved) := by
  cases op with
  | importRows tokens => exact writes_commit _ _ _ _
  | create hash spec id secret now => exact writes_commit _ _ _ _
  | update id patch now =>
      simp only [run, TokenTable.update]
      cases t.memory.get id with
      | none => exact .kept _
      | some token => exact writes_commit _ _ _ _
  | revoke id =>
      simp only [run, TokenTable.revoke]
      cases t.memory.findIdx? (·.id == id) with
      | none => exact .kept _
      | some pos => exact writes_commit _ _ _ _
  | pinKey id key =>
      simp only [run, TokenTable.pinKey]
      cases t.memory.get id with
      | none => exact .kept _
      | some token =>
          cases hpin : token.pinnedKey with
          | none =>
              simp only [hpin]
              exact writes_commit _ _ _ _
          | some existing =>
              simp only [hpin]
              exact .kept _
  | rotate hash id secret graceSeconds now =>
      simp only [run, TokenTable.rotate]
      cases t.memory.get id with
      | none => exact .kept _
      | some token => exact writes_commit _ _ _ _
  | refresh hash secret now =>
      simp only [run, TokenTable.refresh]
      split
      · split
        · exact .kept _
        · exact writes_commit _ _ _ _
      · exact .kept _

theorem OrgOp.run_writes (op : OrgOp) (t : OrgTable) (saved : Bool) :
    t.Writes (op.run t saved) := by
  cases op with
  | importRows orgs => exact writes_commit _ _ _ _
  | create id nowSecs name hostnames customName =>
      simp only [run, OrgTable.create]
      split
      · exact .kept _
      split
      · exact .kept _
      split
      · exact .kept _
      split
      · exact .kept _
      · exact writes_commit _ _ _ _
  | setCustomName id customName =>
      have hw := writes_commit t saved OrgError.notSaved
        (OrgRows.changeOrg id fun o => { o with customName := normalizeCustomName customName })
      simp only [run, reported, OrgTable.setCustomName] at hw ⊢
      cases hout : (t.commit saved OrgError.notSaved (OrgRows.changeOrg id fun o =>
        { o with customName := normalizeCustomName customName })).1 with
      | error e =>
          rw [hout] at hw
          exact hw
      | ok org =>
          rw [hout] at hw
          exact hw
  | delete id =>
      simp only [run, OrgTable.delete]
      split
      · exact writes_commit _ _ _ _
      · exact .kept _
  | setQuota id maxClients maxTokens maxUsers maxBytesMonth => exact writes_commit _ _ _ _
  | setPanelHostname id hostname => exact writes_commit _ _ _ _
  | setHostnames id hostnames => exact writes_commit _ _ _ _
  | setOidc id oidc => exact writes_commit _ _ _ _

/-! ## Every run -/

theorem Stores.run_failed (s : Stores) (op : StoreOp) (saved : Bool)
    (h : (s.run saved op).1 = true) : (s.run saved op).2 = s := by
  cases op with
  | user op =>
      simp only [run] at h ⊢
      rw [(op.run_commits s.users saved).of_failed h]
  | token op =>
      simp only [run] at h ⊢
      rw [(op.run_writes s.tokens saved).of_failed h]
  | org op =>
      simp only [run] at h ⊢
      rw [(op.run_writes s.orgs saved).of_failed h]

/-- The accounts in memory are consistent, and those on disk are what this
release or an older one writes. -/
structure UserTable.Sound (t : UserTable) : Prop where
  memory : t.memory.Consistent
  disk : t.disk.Written

theorem UserTable.load_sound {rows : Users} (h : rows.Written) (saved : Bool) :
    (UserTable.load rows saved).Sound := by
  have hmemory := h.consistent
  simp only [load]
  split
  · cases saved with
    | false => exact ⟨hmemory, h⟩
    | true => exact ⟨hmemory, hmemory.written⟩
  · exact ⟨hmemory, h⟩

/-- What `Held` is an invariant by. -/
structure StoreRun.Sound (s : StoreRun) : Prop where
  users : s.stores.users.Matches s.loaded.users
  tokens : s.stores.tokens.Matches s.loaded.tokens
  orgs : s.stores.orgs.Matches s.loaded.orgs
  accounts : s.imported = false → UserTable.Sound s.stores.users

theorem StoreRun.next_sound {s : StoreRun} (h : s.Sound) (a : StoreAct) : (s.next a).Sound := by
  cases a with
  | start saved =>
      refine ⟨.inr rfl, .inr rfl, .inr rfl, fun himported => ?_⟩
      exact UserTable.load_sound (h.accounts himported).disk saved
  | op op saved =>
      cases op with
      | token op =>
          refine ⟨h.users, (op.run_writes _ saved).matches h.tokens, h.orgs, fun himported => ?_⟩
          exact h.accounts (Bool.or_eq_false_iff.mp himported).1
      | org op =>
          refine ⟨h.users, h.tokens, (op.run_writes _ saved).matches h.orgs, fun himported => ?_⟩
          exact h.accounts (Bool.or_eq_false_iff.mp himported).1
      | user op =>
          have hrun := op.run_commits s.stores.users saved
          refine ⟨hrun.matches h.users, h.tokens, h.orgs, fun himported => ?_⟩
          obtain ⟨hbefore, hop⟩ := Bool.or_eq_false_iff.mp himported
          obtain ⟨hmemory, hdisk⟩ := h.accounts hbefore
          obtain ⟨hmemory, hdisk⟩ := hrun.rows hmemory hdisk
            (fun _ _ hkeep hc => hkeep hop hc) fun _ => Users.Consistent.written
          exact ⟨hmemory, hdisk⟩

/-- **The stores match the disk**, after every sequence of operations, starts
and failed writes. -/
theorem stores_match {s : StoreRun} (hs : storeSys.Reachable s) : s.Held := by
  have hsound : s.Sound := by
    refine hs.invariant (P := StoreRun.Sound) ?_ ?_
    · rintro s ⟨⟨users, tokens, orgs, saved, hwritten, hstores⟩, hloaded, -⟩
      refine ⟨.inr (by rw [hloaded]), .inr (by rw [hloaded]), .inr (by rw [hloaded]), fun _ => ?_⟩
      rw [hstores]
      exact UserTable.load_sound hwritten saved
    · rintro s a s' - hsound rfl
      exact StoreRun.next_sound hsound a
  exact ⟨hsound.users, hsound.tokens, hsound.orgs, fun op saved => s.stores.run_failed op saved,
    fun himported => (hsound.accounts himported).memory⟩

/-- An administrator of an older release, who has a role and no grants, read
by a server that cannot write. -/
def upgraded : StoreRun :=
  let stores := Stores.load [{ id := "u-1", username := "alice", passwordHash := "x"
                               role := .admin }] [] [] false
  { stores := stores, loaded := stores }

/-- An account is added, and a removal that cannot be written is refused. -/
theorem stores_match_upgraded : StoreRun.Held
    ((upgraded.next (.op (.user (.createSso "u-2" "Bob" none [])) true)).next
      (.op (.user (.delete "u-1")) false)) := by
  refine stores_match (.step (.step (.init ⟨⟨_, _, _, _, ⟨?_, ?_⟩, rfl⟩, rfl, rfl⟩) rfl) rfl)
  · exact List.nodup_singleton _
  · intro u hu
    rw [List.mem_singleton.mp hu]
    exact .inl rfl

end Aperio
