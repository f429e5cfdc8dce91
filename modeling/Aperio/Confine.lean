import Aperio.Oidc

/-!
# What a step of a tenant may do to the accounts

`Within o` compares the account table before and after a step: no grant
outside the organization `o` is gained, lost or altered, and an account that
holds one keeps what it signs in with. It composes, so an operation is taken
apart into the rows it appends, rewrites and removes.
-/

namespace Aperio

/-- Nothing outside the organization. -/
def Inside (o : String) (grants : List Grant) : Prop :=
  ∀ g ∈ grants, g.org = .child o

/-- What an account signs in with. -/
structure Credentials where
  passwordHash : String
  totpSecret : Option String
  totpPending : Option String
  recoveryHashes : List String
  totpLastStep : Option Int
  passkeys : List StoredPasskey
deriving Repr, DecidableEq

def User.credentials (u : User) : Credentials where
  passwordHash := u.passwordHash
  totpSecret := u.totpSecret
  totpPending := u.totpPending
  recoveryHashes := u.recoveryHashes
  totpLastStep := u.totpLastStep
  passkeys := u.passkeys

/-- What the account of this id holds, if there is one. -/
def Users.grantsOf (users : Users) (id : String) : List Grant :=
  ((users.get id).map (·.grants)).getD []

structure Within (o : String) (before after : Users) : Prop where
  grants : ∀ id g, g.org ≠ .child o → (g ∈ before.grantsOf id ↔ g ∈ after.grantsOf id)
  credentials : ∀ id u, before.get id = some u → ¬ Inside o u.grants →
    ∃ u', after.get id = some u' ∧ u'.credentials = u.credentials

/-! ## Lists inside -/

variable {o : String}

theorem Users.grantsOf_of_get {users : Users} {id : String} {u : User}
    (h : users.get id = some u) : users.grantsOf id = u.grants := by
  rw [grantsOf, h]
  rfl

/-- A granter who holds nothing outside gives and takes nothing outside. -/
theorem Inside.org_of_mayGrant {granter : List Grant} {g : Grant} (h : Inside o granter)
    (hmay : Grants.mayGrant granter g = true) : g.org = .child o := by
  have hrole : ∀ {org : Option String} {role : Role}, Grants.roleIn granter org = some role →
      org = some o := by
    intro org role hrole
    simp only [Grants.roleIn] at hrole
    split at hrole
    · rename_i found hfound
      have hcov := List.find?_some hfound
      rw [h found (List.mem_of_find?_eq_some hfound)] at hcov
      simpa [GrantOrg.covers] using hcov
    · obtain ⟨found, hfound, -⟩ := Option.map_eq_some_iff.mp hrole
      have hall := List.find?_some hfound
      rw [h found (List.mem_of_find?_eq_some hfound)] at hall
      cases hall
  simp only [Grants.mayGrant] at hmay
  split at hmay
  · rename_i horg
    obtain ⟨found, hmem, hfound⟩ := List.any_eq_true.mp hmay
    rw [h found hmem] at hfound
    cases hfound
  · have hnone := @hrole none .admin (by simpa using hmay)
    cases hnone
  · rename_i id horg
    have hid := @hrole (some id) .admin (by simpa using hmay)
    rw [horg, Option.some.inj hid]

theorem Inside.of_normalize {l out : List Grant} (h : Inside o l)
    (hn : Grants.normalize l = .ok out) : Inside o out :=
  fun g hg => h g (Grants.mem_of_normalize hn hg)

theorem Inside.of_normalizeLogin {l out : List Grant} (h : Inside o l)
    (hn : Users.normalizeLogin l = .ok out) : Inside o out := by
  rcases Users.normalizeLogin_ok hn with ⟨-, rfl⟩ | hn
  · exact fun g hg => by cases hg
  · exact h.of_normalize hn

/-! ## How steps compose -/

namespace Within

variable {users before mid after : Users} {id : String} {u u' : User}

theorem refl (users : Users) : Within o users users :=
  ⟨fun _ _ _ => Iff.rfl, fun _ u hu _ => ⟨u, hu, rfl⟩⟩

theorem trans (h₁ : Within o before mid) (h₂ : Within o mid after) : Within o before after := by
  refine ⟨fun id g hg => (h₁.grants id g hg).trans (h₂.grants id g hg), ?_⟩
  intro id u hu hout
  obtain ⟨v, hv, hcred⟩ := h₁.credentials id u hu hout
  -- the grant outside is still there, so the second step keeps the row's credentials too
  have hout' : ¬ Inside o v.grants := by
    intro hin
    apply hout
    intro g hg
    by_contra hne
    have hmid := (h₁.grants id g hne).mp (by rwa [Users.grantsOf_of_get hu])
    rw [Users.grantsOf_of_get hv] at hmid
    exact hne (hin g hmid)
  obtain ⟨w, hw, hcred'⟩ := h₂.credentials id v hv hout'
  exact ⟨w, hw, hcred'.trans hcred⟩

/-- An account whose credentials a step has set holds nothing outside, so
signing in with them reaches nothing outside. -/
theorem opens (h : Within o before after) (hu' : after.get id = some u')
    (hset : ∀ u, before.get id = some u → u.credentials ≠ u'.credentials) :
    Inside o u'.grants := by
  intro g hg
  by_contra hne
  have hbefore := (h.grants id g hne).mpr (by rwa [Users.grantsOf_of_get hu'])
  cases hu : before.get id with
  | none =>
      rw [Users.grantsOf, hu] at hbefore
      cases hbefore
  | some u =>
      rw [Users.grantsOf_of_get hu] at hbefore
      obtain ⟨w, hw, hcred⟩ := h.credentials id u hu (fun hin => hne (hin g hbefore))
      obtain rfl := Option.some.inj (hw.symm.trans hu')
      exact hset u hu hcred.symm

theorem rewrite (hu : users.get id = some u) (hid : u'.id = id)
    (hgrants : ∀ g : Grant, g.org ≠ .child o → (g ∈ u.grants ↔ g ∈ u'.grants))
    (hcred : ¬ Inside o u.grants → u'.credentials = u.credentials) :
    Within o users (users.modify id fun _ => u') := by
  have hself := Users.get_modify hu hid
  refine ⟨?_, ?_⟩
  · intro id' g hg
    by_cases heq : id' = id
    · subst heq
      rw [Users.grantsOf_of_get hu, Users.grantsOf_of_get hself]
      exact hgrants g hg
    · rw [Users.grantsOf, Users.grantsOf, Users.get_modify_of_ne heq hid]
  · intro id' w hw hout
    by_cases heq : id' = id
    · subst heq
      obtain rfl := Option.some.inj (hw.symm.trans hu)
      exact ⟨u', hself, hcred hout⟩
    · exact ⟨w, by rw [Users.get_modify_of_ne heq hid, hw], rfl⟩

theorem append (hnew : users.get u.id = none) (h : Inside o u.grants) :
    Within o users (users ++ [u]) := by
  have hself := Users.get_append_self hnew
  refine ⟨?_, ?_⟩
  · intro id g hg
    by_cases heq : id = u.id
    · subst heq
      rw [Users.grantsOf_of_get hself, Users.grantsOf, hnew]
      constructor
      · intro hmem
        cases hmem
      · intro hmem
        exact absurd (h g hmem) hg
    · rw [Users.grantsOf, Users.grantsOf, Users.get_append_of_ne heq]
  · intro id w hw _
    have heq : id ≠ u.id := by
      rintro rfl
      rw [hnew] at hw
      cases hw
    exact ⟨w, by rw [Users.get_append_of_ne heq, hw], rfl⟩

theorem remove (h : Inside o (users.grantsOf id)) :
    Within o users (users.filter (·.id != id)) := by
  refine ⟨?_, ?_⟩
  · intro id' g hg
    by_cases heq : id' = id
    · subst heq
      have hnone : Users.grantsOf (users.filter (·.id != id')) id' = [] := by
        rw [Users.grantsOf, Users.get_filter_self]
        rfl
      rw [hnone]
      constructor
      · intro hmem
        exact absurd (h g hmem) hg
      · intro hmem
        cases hmem
    · rw [Users.grantsOf, Users.grantsOf, Users.get_filter_of_ne heq]
  · intro id' w hw hout
    have heq : id' ≠ id := by
      rintro rfl
      rw [Users.grantsOf_of_get hw] at h
      exact hout h
    exact ⟨w, by rw [Users.get_filter_of_ne heq, hw], rfl⟩

/-! ## The store's operations -/

/-- Rewriting an account that holds nothing outside, to hold nothing
outside. -/
theorem of_inside (h : Inside o (users.grantsOf id)) (hu : users.get id = some u)
    (hid : u'.id = u.id) (hin : Inside o u'.grants) :
    Within o users (users.modify id fun _ => u') := by
  rw [Users.grantsOf_of_get hu] at h
  refine rewrite hu (hid.trans (Users.mem_of_get hu).2) ?_ (fun hout => absurd h hout)
  intro g hg
  constructor
  · intro hmem
    exact absurd (h g hmem) hg
  · intro hmem
    exact absurd (hin g hmem) hg

theorem credentialWrite {w : CredentialWrite} {saved : Bool} (h : Inside o (users.grantsOf id)) :
    Within o users (w.run saved id users) := by
  rcases w.run_cases saved id users with heq | ⟨u, u', hu, hid, -, hgrants, heq⟩
  · rw [heq]
    exact refl users
  · rw [heq]
    refine of_inside h hu hid ?_
    rwa [hgrants, ← Users.grantsOf_of_get hu]

theorem update {saved : Bool} {enabled : Option Bool} {password : Option (String × String)}
    (h : Inside o (users.grantsOf id)) :
    Within o users (users.update saved id enabled password).2 := by
  rcases @Users.commit_changeRow users id User saved (·.updated enabled password) with
    heq | ⟨u, u', out, hu, hf, heq⟩
  · rw [Users.update, heq]
    exact refl users
  · obtain ⟨hid, -, hgrants⟩ := User.updated_ok hf
    rw [Users.update, heq]
    refine of_inside h hu hid ?_
    rwa [hgrants, ← Users.grantsOf_of_get hu]

theorem setGrantsRaw {saved : Bool} {grants : List Grant} (h : Inside o (users.grantsOf id))
    (hin : Inside o grants) : Within o users (users.setGrantsRaw saved id grants).2 := by
  rcases @Users.commit_changeRow users id User saved
    (fun u => .ok (u.withGrants grants, u.withGrants grants)) with heq | ⟨u, u', out, hu, hf, heq⟩
  · rw [Users.setGrantsRaw, heq]
    exact refl users
  · rw [Users.setGrantsRaw, heq]
    cases hf
    exact of_inside h hu rfl hin

theorem edit {saved grantsSaved : Bool} {enabled : Option Bool}
    {password : Option (String × String)} {grants : Option (List Grant)}
    (h : Inside o (users.grantsOf id)) (hin : ∀ next, grants = some next → Inside o next) :
    Within o users (users.edit saved grantsSaved id enabled password grants).2 := by
  have hupdate := @update o users id saved enabled password h
  simp only [Users.edit]
  split
  · rename_i next _
    refine hupdate.trans ?_
    simp only [Users.setGrants]
    split
    · exact refl _
    · rename_i out hout
      refine setGrantsRaw ?_ ((hin next rfl).of_normalize (Users.normalizeOr_ok hout))
      intro g hg
      by_contra hne
      exact hne (h g ((hupdate.grants id g hne).mpr hg))
  · exact hupdate

theorem delete {saved : Bool} (h : Inside o (users.grantsOf id)) :
    Within o users (users.delete saved id).2 := by
  simp only [Users.delete]
  split
  · cases saved with
    | false => exact refl users
    | true => exact remove h
  · exact refl users

theorem createRecord {saved : Bool} {username : String} {password : Option (String × String)}
    {orgId : Option String} {grants : List Grant} (hnew : users.get id = none)
    (h : Inside o grants) :
    Within o users (users.createRecord saved id username password orgId grants).2 := by
  rcases @Users.createRecord_cases users id saved username password orgId grants with
    ⟨heq, -⟩ | ⟨u, hid, hgrants, -, -, heq⟩
  · rw [heq]
    exact refl users
  · rw [heq]
    exact append (hid ▸ hnew) (hgrants ▸ h)

theorem createWithGrants {saved : Bool} {username password hash : String} {orgId : Option String}
    {grants : List Grant} (hnew : users.get id = none) (h : Inside o grants) :
    Within o users (users.createWithGrants saved id username password hash orgId grants).2 := by
  simp only [Users.createWithGrants]
  split
  · exact refl users
  · rename_i out hout
    exact createRecord hnew (h.of_normalize (Users.normalizeOr_ok hout))

theorem createSso {saved : Bool} {username : String} {orgId : Option String} {grants : List Grant}
    (hnew : users.get id = none) (h : Inside o grants) :
    Within o users (users.createSso saved id username orgId grants).2 := by
  simp only [Users.createSso]
  split
  · exact refl users
  · rename_i out hout
    exact createRecord hnew (h.of_normalizeLogin hout)

end Within

/-! ## A login through the organization's provider -/

/-- A row's list as the store keeps it, with the provider's mark on nothing
outside. -/
def Stored (o : String) (grants : List Grant) : Prop :=
  Grants.Distinct grants ∧ ∀ g ∈ grants, g.sourceOrg = some o → g.org = .child o

theorem Stored.nil : Stored o [] :=
  ⟨by simp [Grants.Distinct], fun g hg => by cases hg⟩

theorem Stored.of_normalize {l out : List Grant}
    (h : ∀ g ∈ l, g.sourceOrg = some o → g.org = .child o) (hn : Grants.normalize l = .ok out) :
    Stored o out :=
  ⟨Grants.normalize_distinct hn, fun g hg => h g (Grants.mem_of_normalize hn hg)⟩

theorem mem_normalizeLogin {l out : List Grant} (hd : Grants.Distinct l)
    (hn : Users.normalizeLogin l = .ok out) {g : Grant} : g ∈ out ↔ g ∈ l := by
  rcases Users.normalizeLogin_ok hn with ⟨rfl, rfl⟩ | hn
  · exact Iff.rfl
  · exact Grants.mem_normalize hd hn

/-- What a login of the organization's provider makes of a row's list. -/
theorem OidcGrantPolicy.next_stored {policy : OidcGrantPolicy} {mapped : List Grant} {row : User}
    {created : Bool} (hmapped : Inside o mapped) (hrow : Stored o row.grants) :
    Stored o (policy.next mapped (some o) row created) ∧
      ∀ g : Grant, g.org ≠ .child o →
        (g ∈ row.grants ↔ g ∈ policy.next mapped (some o) row created) := by
  unfold next
  split
  · exact ⟨hrow, fun _ _ => Iff.rfl⟩
  · refine ⟨⟨Grants.applyGroupMap_distinct hrow.1, ?_⟩, ?_⟩
    · intro g hg hmark
      rcases Grants.mem_applyGroupMap hg with hg | ⟨m, hm, rfl⟩
      · exact hrow.2 g hg hmark
      · exact hmapped m hm
    · intro g hg
      exact (Grants.mem_applyGroupMap_outside hmapped hrow.2 hg).symm

theorem stepGrants_within {users : Users} {saved : Bool} {row : User} {next : List Grant}
    (hrow : users.get row.id = some row) (hnext : Grants.Distinct next)
    (hout : ∀ g : Grant, g.org ≠ .child o → (g ∈ row.grants ↔ g ∈ next)) :
    Within o users (stepGrants users saved row next).2 := by
  simp only [stepGrants]
  split
  · exact Within.refl users
  · simp only [Users.setGrantsFromLogin]
    split
    · exact Within.refl users
    · rename_i grants hgrants
      rcases @Users.commit_changeRow users row.id User saved
        (fun u => .ok (u.withGrants grants, u.withGrants grants)) with
        heq | ⟨u, u', out, hu, hf, heq⟩
      · rw [Users.setGrantsRaw, heq]
        exact Within.refl users
      · rw [Users.setGrantsRaw, heq]
        cases hf
        obtain rfl := Option.some.inj (hrow.symm.trans hu)
        refine Within.rewrite hu rfl ?_ (fun _ => rfl)
        intro g hg
        exact (hout g hg).trans (mem_normalizeLogin hnext hgrants).symm

/-- The table a login writes to, as writes of the store. -/
theorem stepGrants_users (users : Users) (saved : Bool) (row : User) (next : List Grant) :
    (stepGrants users saved row next).2 = users ∨
      (stepGrants users saved row next).2 =
        (UserWrite.setGrantsFromLogin row.id next).run saved users := by
  unfold stepGrants
  split
  · exact Or.inl rfl
  · exact Or.inr rfl

structure UsersKept (o : String) (users : Users) : Prop where
  kept : users.Kept
  stored : ∀ u ∈ users, Stored o u.grants

/-- Any write that gives out a fresh id, and puts the provider's mark on
nothing outside, leaves such a table. -/
theorem UsersKept.write {users : Users} {w : UserWrite} {saved : Bool} (h : UsersKept o users)
    (hnew : ∀ id, w.newId = some id → users.get id = none)
    (hmark : ∀ g ∈ w.grants, g.sourceOrg = some o → g.org = .child o) :
    UsersKept o (w.run saved users) := by
  refine ⟨h.kept.change (w.run_names saved users) ?_, ?_⟩
  · rintro id hid u hu rfl
    have := h.kept.get_eq hu
    rw [hnew u.id hid] at this
    cases this
  · exact UserWrite.run_grants Stored.nil (fun out hout => Stored.of_normalize hmark hout) h.stored

/-- **Login lemma.** A login through the organization's provider, whatever
email and groups it asserts, stays within the organization. -/
theorem settleRecord_within {o : OrgId} {orgs : List Organization} {users : Users}
    {saved grantsSaved : Bool} {newId email : String} {cfg : OrgOidc} {groups : List String}
    (horgs : HandlesKept orgs) (h : UsersKept o.id users) (hnew : users.get newId = none) :
    Within o.id users (settleRecord orgs users saved grantsSaved newId (cfg.policy o.id) email
        (some o.id) groups).2 ∧
      UsersKept o.id (settleRecord orgs users saved grantsSaved newId (cfg.policy o.id) email
        (some o.id) groups).2 := by
  obtain ⟨hmapped, hdefaults⟩ := @OrgOidc.policy_orgs cfg orgs o groups horgs
  have hsteps : ∀ {table : Users} {row : User} {created : Bool}, UsersKept o.id table →
      table.get row.id = some row → row ∈ table →
      Within o.id table (stepGrants table grantsSaved row
        ((cfg.policy o.id).next (((cfg.policy o.id).mapped groups).map (resolveGrant orgs))
          (some o.id) row created)).2 ∧
      UsersKept o.id (stepGrants table grantsSaved row
        ((cfg.policy o.id).next (((cfg.policy o.id).mapped groups).map (resolveGrant orgs))
          (some o.id) row created)).2 := by
    intro table row created ht hget hmem
    obtain ⟨hnext, hout⟩ := @OidcGrantPolicy.next_stored o.id (cfg.policy o.id) _ row created
      hmapped (ht.stored row hmem)
    refine ⟨stepGrants_within hget hnext.1 hout, ?_⟩
    rcases stepGrants_users table grantsSaved row ((cfg.policy o.id).next
      (((cfg.policy o.id).mapped groups).map (resolveGrant orgs)) (some o.id) row created) with
      heq | heq
    · rw [heq]
      exact ht
    · rw [heq]
      exact ht.write (fun id hid => by cases hid) hnext.2
  rw [settleRecord_users]
  rcases loginRow_cases users saved newId email (some o.id)
    ((cfg.policy o.id).defaultGrants.map (resolveGrant orgs)) with
    ⟨e, heq⟩ | ⟨row, hrow, heq⟩ | ⟨row, hid, hnorm, hcreated, heq⟩
  · rw [heq]
    exact ⟨Within.refl users, h⟩
  · rw [heq]
    exact hsteps h (h.kept.get_eq hrow) hrow
  · rw [heq]
    have hin : Inside o.id row.grants := Inside.of_normalizeLogin hdefaults hnorm
    have hfresh : users.get row.id = none := by rw [hid, hnew]
    have ht : UsersKept o.id (users ++ [row]) := by
      have hw := @UsersKept.write o.id users (.createSso newId email (some o.id)
        ((cfg.policy o.id).defaultGrants.map (resolveGrant orgs))) saved h
        (fun id hid' => Option.some.inj hid' ▸ hnew) (fun g hg _ => hdefaults g hg)
      rwa [UserWrite.run, hcreated] at hw
    obtain ⟨hwithin, hkept⟩ := @hsteps _ row true ht (Users.get_append_self hfresh) (by simp)
    exact ⟨(Within.append hfresh hin).trans hwithin, hkept⟩

end Aperio
