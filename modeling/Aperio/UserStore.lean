import Aperio.Accounts
import Aperio.Commit
import Aperio.TokenStore

/-!
# The account store on disk

`UserStore` of `store/users.rs`: the rows of `Users` as a table that is
loaded, changed in place, written, and put back where a change was refused or
not written. `Users` says what an operation makes of the rows in memory; here
is what becomes of the disk as well.

A start reads rows an older release wrote, which have a role and no grants.
-/

namespace Aperio

/-! ## Rows -/

namespace User

def home (u : User) : GrantOrg :=
  .ofOrgId u.orgId

/-- An account of the identity provider has no password. -/
def sso (u : User) : Bool :=
  u.passwordHash == ""

/-- Written before grants existed: no grants, and a password. -/
def isLegacyRow (u : User) : Bool :=
  u.grants.isEmpty && !u.sso

/-- The role replaces the grant at home. -/
def updateRole (u : User) : Option Role → Except UserError Unit × User
  | none => (.ok (), u)
  | some r =>
    match Grants.normalize
        ((u.grants.filter (·.org != u.home)) ++ [{ org := u.home, role := r }]) with
    | .ok grants => (.ok (), u.withGrants grants)
    | .error m => (.error (.invalid m), { u with grants := [] })

/-- `password` carries the plain text and what hashing it gave. -/
def updatePassword (u : User) :
    Option (String × Except String String) → Except UserError Unit × User
  | none => (.ok (), u)
  | some (plain, hash) =>
    if plain.utf8ByteSize < 8 then
      (.error (.invalid "password must be at least 8 characters"), u)
    else
      match hash with
      | .ok hash => (.ok (), { u with passwordHash := hash })
      | .error m => (.error (.invalid m), u)

/-- Field after field, in place: a password that is refused leaves the role and
the flag behind. -/
def update (u : User) (role : Option Role) (enabled : Option Bool)
    (password : Option (String × Except String String)) : Except UserError User × User :=
  match u.updateRole role with
  | (.error e, u) => (.error e, u)
  | (.ok _, u) =>
    match { u with enabled := enabled.getD u.enabled }.updatePassword password with
    | (.error e, u) => (.error e, u)
    | (.ok _, u) => (.ok u, u)

end User

namespace Users

/-- Gives every row without grants the grants it stood for. -/
def convertLegacyRows (users : Users) : Users :=
  users.map fun u =>
    if u.isLegacyRow then { u with grants := Grants.legacyGrants u.role u.orgId } else u

/-- Changes the first row with this id in place. -/
def changeAt {R : Type} (id : String) (f : User → Except UserError R × User) (users : Users) :
    Except UserError R × Users :=
  match users.get id with
  | none => (.error .noSuchUser, users)
  | some u => ((f u).1, users.modify id fun u => (f u).2)

/-- A change that refuses before it touches the rows. -/
def whole {R : Type} (change : Users → Except UserError (Users × R)) (users : Users) :
    Except UserError R × Users :=
  match change users with
  | .ok (users', out) => (.ok out, users')
  | .error e => (.error e, users)

theorem modify_of_get {id : String} {f : User → User} :
    ∀ {users : Users} {u : User}, users.get id = some u →
      users.modify id f = users.modify id fun _ => f u := by
  intro users
  induction users with
  | nil =>
      intro u h
      cases h
  | cons x rest ih =>
      intro u h
      simp only [get, List.find?_cons] at h
      by_cases hx : (x.id == id) = true
      · rw [hx] at h
        obtain rfl := Option.some.inj h
        simp [modify, hx]
      · simp only [hx] at h
        simp [modify, hx, ih h]

variable {R : Type} {users users' : Users} {id : String} {out : R}

theorem changeRow_ok {f : User → Except UserError (User × R)}
    (h : users.changeRow id f = .ok (users', out)) :
    ∃ u u', users.get id = some u ∧ f u = .ok (u', out) ∧
      users' = users.modify id fun _ => u' := by
  rw [changeRow] at h
  cases hget : users.get id with
  | none =>
      rw [hget] at h
      cases h
  | some u =>
      simp only [hget] at h
      cases hf : f u with
      | error e =>
          rw [hf] at h
          cases h
      | ok changed =>
          rw [hf] at h
          cases h
          exact ⟨u, changed.1, rfl, hf, rfl⟩

theorem whole_ok {change : Users → Except UserError (Users × R)}
    (h : (whole change users).1 = .ok out) :
    change users = .ok ((whole change users).2, out) := by
  rw [whole] at h ⊢
  cases hc : change users with
  | error e =>
      rw [hc] at h
      cases h
  | ok changed =>
      rw [hc] at h
      cases h
      rfl

end Users

abbrev UserTable := Table Users

namespace UserTable

variable {R : Type} (t : UserTable) (saved : Bool) (id : String)

/-- Rows that had to be converted are written back; what comes of that is not
looked at. -/
def load (rows : Users) (saved : Bool) : UserTable :=
  let store : UserTable := ⟨rows.convertLegacyRows, rows⟩
  if rows.any (·.isLegacyRow) then store.persist saved else store

/-- Replaces every row. -/
def importRows (users : Users) : Except NotWritten Nat × UserTable :=
  t.commit saved .notPersisted fun _ =>
    (.ok users.length, users.convertLegacyRows.map User.syncHomeRole)

def commitRow (f : User → Except UserError (User × R)) : Except UserError R × UserTable :=
  t.commit saved .notSaved (Users.whole (Users.changeRow · id f))

/-- The checks come before the hash, and the hash before the record. -/
def createRecord (username : String) (password : Option (String × Except String String))
    (orgId : Option String) (grants : List Grant) : Except UserError User × UserTable :=
  let name := trim username
  if name = "" then (.error (.invalid "username is required"), t)
  else if eqIgnoreAsciiCase name "aperio" then
    (.error (.invalid "username 'aperio' is reserved"), t)
  else if t.memory.any (eqIgnoreAsciiCase ·.username name) then
    (.error (.invalid ("username '" ++ name ++ "' already exists")), t)
  else if password.any fun (plain, _) => plain.utf8ByteSize < 8 then
    (.error (.invalid "password must be at least 8 characters"), t)
  else
    match (password.map (·.2)).getD (.ok "") with
    | .error m => (.error (.invalid m), t)
    | .ok hash =>
      let user : User := User.syncHomeRole
        { id := id, username := name, passwordHash := hash, orgId := orgId, grants := grants }
      t.commit saved .notSaved (Users.whole fun users => .ok (users ++ [user], user))

def createWithGrants (username password : String) (hash : Except String String)
    (orgId : Option String) (grants : List Grant) : Except UserError User × UserTable :=
  match Users.normalizeOr grants with
  | .error e => (.error e, t)
  | .ok grants => createRecord t saved id username (some (password, hash)) orgId grants

def createSso (username : String) (orgId : Option String) (grants : List Grant) :
    Except UserError User × UserTable :=
  match Users.normalizeLogin grants with
  | .error e => (.error e, t)
  | .ok grants => createRecord t saved id username none orgId grants

def setGrantsRaw (grants : List Grant) : Except UserError User × UserTable :=
  commitRow t saved id fun u => .ok (u.withGrants grants, u.withGrants grants)

def setGrants (grants : List Grant) : Except UserError User × UserTable :=
  match Users.normalizeOr grants with
  | .error e => (.error e, t)
  | .ok grants => setGrantsRaw t saved id grants

def setGrantsFromLogin (grants : List Grant) : Except UserError User × UserTable :=
  match Users.normalizeLogin grants with
  | .error e => (.error e, t)
  | .ok grants => setGrantsRaw t saved id grants

/-- Strips every grant that names the organization. What could not be written
touched nobody. -/
def removeOrgGrants (org : String) : List String × UserTable :=
  let holds (u : User) := u.grants.any (·.org == .child org)
  let touched := (t.memory.filter holds).map (·.username)
  if touched = [] then (touched, t)
  else
    let out := t.commit saved UserError.notSaved fun users =>
      (.ok (), users.map fun u =>
        if holds u then u.withGrants (u.grants.filter (·.org != .child org)) else u)
    (if out.1.toOption.isNone then [] else touched, out.2)

def update (role : Option Role) (enabled : Option Bool)
    (password : Option (String × Except String String)) : Except UserError User × UserTable :=
  t.commit saved .notSaved (Users.changeAt id (·.update role enabled password))

def delete : Except UserError Unit × UserTable :=
  if t.memory.any (·.id == id) then
    t.commit saved .notSaved (Users.whole fun users => .ok (users.filter (·.id != id), ()))
  else (.error .noSuchUser, t)

/-! ## Second factors -/

def totpBegin (secret : String) : Except UserError String × UserTable :=
  commitRow t saved id fun u => .ok ({ u with totpPending := some secret }, secret)

def totpEnable (codeOk : String → Bool) (codes hashes : List String) :
    Except UserError (List String) × UserTable :=
  commitRow t saved id fun u =>
    match u.totpPending with
    | none => .error (.invalid "no TOTP enrollment in progress")
    | some pending =>
      if codeOk pending then
        .ok ({ u with totpSecret := some pending, totpPending := none,
                      recoveryHashes := hashes }, codes)
      else .error (.invalid "invalid code")

def totpDisable : Except UserError Unit × UserTable :=
  commitRow t saved id fun u =>
    .ok ({ u with totpSecret := none, totpPending := none, recoveryHashes := [] }, ())

def totpTryAdvanceStep (step : Int) : Bool × UserTable :=
  match t.memory.get id with
  | none => (false, t)
  | some u =>
    if u.totpLastStep.any (step ≤ ·) then (false, t)
    else
      let out := commitRow t saved id fun u => .ok ({ u with totpLastStep := some step }, ())
      (out.1.toOption.isSome, out.2)

def consumeRecovery (hash : String) : Bool × UserTable :=
  match t.memory.get id with
  | none => (false, t)
  | some u =>
    if u.recoveryHashes.contains hash then
      let out := commitRow t saved id fun u =>
        .ok ({ u with recoveryHashes := u.recoveryHashes.filter (· != hash) }, ())
      (out.1.toOption.isSome, out.2)
    else (false, t)

def addPasskey (passkey : StoredPasskey) : Except UserError StoredPasskey × UserTable :=
  commitRow t saved id fun u =>
    if Users.maxPasskeys ≤ u.passkeys.length then
      .error (.invalid "at most 10 passkeys per user")
    else .ok ({ u with passkeys := u.passkeys ++ [passkey] }, passkey)

def removePasskey (passkeyId : String) : Except UserError Unit × UserTable :=
  if (t.memory.get id).any fun u => u.passkeys.any (·.id == passkeyId) then
    commitRow t saved id fun u =>
      .ok ({ u with passkeys := u.passkeys.filter (·.id != passkeyId) }, ())
  else (.error .noSuchUser, t)

/-- The signature counters catch up after an authentication. `counted` is the
credential with the counter of this one, where it is about that credential.
Nobody is told that it was not written. -/
def updatePasskeyAfterAuth (counted : String → Option String) : UserTable :=
  match t.memory.get id with
  | none => t
  | some u =>
    if u.passkeys.any fun p => (counted p.credential).isSome then
      let passkeys := u.passkeys.map fun p =>
        { p with credential := (counted p.credential).getD p.credential }
      let changed : UserTable :=
        { t with memory := t.memory.modify id fun u => { u with passkeys := passkeys } }
      if saved then changed.persist saved
      else { changed.persist saved with memory := t.memory }
    else t

/-- A change of one row has been written, or nothing has happened. -/
theorem commitRow_cases (f : User → Except UserError (User × R)) :
    (∃ e, commitRow t saved id f = (.error e, t)) ∨
      ∃ u u' out, saved = true ∧ t.memory.get id = some u ∧ f u = .ok (u', out) ∧
        commitRow t saved id f = (.ok out, Table.load (t.memory.modify id fun _ => u')) := by
  rcases Table.commit_cases t saved .notSaved (Users.whole (Users.changeRow · id f)) with
    ⟨out, hout, hsaved, hc⟩ | h
  · obtain ⟨u, u', hget, hfu, hrows⟩ := Users.changeRow_ok (Users.whole_ok hout)
    exact .inr ⟨u, u', out, hsaved, hget, hfu, by rw [commitRow, hc, hrows]⟩
  · exact .inl h

/-- A second factor is on with its own set of recovery codes, or nothing has
happened. -/
theorem totpEnable_cases (codeOk : String → Bool) (codes hashes : List String) :
    (∃ e, totpEnable t saved id codeOk codes hashes = (.error e, t)) ∨
      ∃ u pending, t.memory.get id = some u ∧
        totpEnable t saved id codeOk codes hashes =
          (.ok codes, Table.load (t.memory.modify id fun _ =>
            { u with totpSecret := some pending, totpPending := none
                     recoveryHashes := hashes })) := by
  rw [totpEnable]
  refine (commitRow_cases t saved id _).imp_right ?_
  rintro ⟨u, u', out, -, hget, hfu, hc⟩
  split at hfu
  · cases hfu
  · split at hfu
    · cases hfu
      exact ⟨u, _, hget, hc⟩
    · cases hfu

end UserTable

end Aperio
