import Aperio.Grants

/-!
# The account store

`store/users.rs`: the rows of the dashboard's named users and the writes to
them. Every write is a change followed by a save of the whole table; a save
that fails, or a change that is refused, leaves the rows as they were. The
password hash is computed outside, so what is stored is passed in.
-/

namespace Aperio

structure StoredPasskey where
  id : String
  name : String
  credential : String
  usernameless : Bool := false
deriving Repr, DecidableEq

structure User where
  id : String
  username : String
  passwordHash : String
  role : Role := .viewer
  orgId : Option String := none
  grants : List Grant := []
  enabled : Bool := true
  totpSecret : Option String := none
  totpPending : Option String := none
  recoveryHashes : List String := []
  totpLastStep : Option Int := none
  passkeys : List StoredPasskey := []
deriving Repr, DecidableEq

namespace User

def roleIn (u : User) (org : Option String) : Option Role :=
  Grants.roleIn u.grants org

/-- The flat role shown for the row follows its home organization. -/
def syncHomeRole (u : User) : User :=
  { u with role := (u.roleIn u.orgId).getD .viewer }

def withGrants (u : User) (grants : List Grant) : User :=
  { u with grants := grants }.syncHomeRole

/-- The names match as a login reads them. -/
def hasName (u : User) (name : String) : Bool :=
  eqIgnoreAsciiCase u.username (trim name)

end User

inductive UserError where
  | invalid (message : String)
  | noSuchUser
  | notSaved
deriving Repr, DecidableEq

/-- The enabled flag and the password, each where given. `password` carries
the plain text and its hash. -/
def User.updated (u : User) (enabled : Option Bool) (password : Option (String × String)) :
    Except UserError (User × User) :=
  let u := { u with enabled := enabled.getD u.enabled }
  match password with
  | none => .ok (u, u)
  | some (plain, hash) =>
    if plain.utf8ByteSize < 8 then .error (.invalid "password must be at least 8 characters")
    else
      let u := { u with passwordHash := hash }
      .ok (u, u)

abbrev Users := List User

namespace Users

/-- Runs a change and saves it. `saved` is whether the table could be
written. -/
def commit {R : Type} (users : Users) (saved : Bool) (change : Except UserError (Users × R)) :
    Except UserError R × Users :=
  match change with
  | .ok (users', out) => if saved then (.ok out, users') else (.error .notSaved, users)
  | .error e => (.error e, users)

def get (users : Users) (id : String) : Option User :=
  users.find? (·.id == id)

def findByUsername (users : Users) (name : String) : Option User :=
  users.find? fun u => u.enabled && u.hasName name

def isDisabledUsername (users : Users) (name : String) : Bool :=
  users.any fun u => !u.enabled && u.hasName name

/-- Rewrites the first row with this id. -/
def modify (users : Users) (id : String) (f : User → User) : Users :=
  match users with
  | [] => []
  | u :: rest => if u.id == id then f u :: rest else u :: modify rest id f

/-- Changes one row that has to be there. -/
def changeRow {R : Type} (users : Users) (id : String) (f : User → Except UserError (User × R)) :
    Except UserError (Users × R) :=
  match users.get id with
  | none => .error .noSuchUser
  | some u => (f u).map fun (u', out) => (modify users id fun _ => u', out)

/-- `create_record`: a trimmed name nobody has in any letter case, with
`aperio` reserved. `hash` is the password's hash, or `none` for a record
that signs in elsewhere. -/
def createRecord (users : Users) (saved : Bool) (id username : String)
    (password : Option (String × String)) (orgId : Option String) (grants : List Grant) :
    Except UserError User × Users :=
  let name := trim username
  if name = "" then (.error (.invalid "username is required"), users)
  else if eqIgnoreAsciiCase name "aperio" then
    (.error (.invalid "username 'aperio' is reserved"), users)
  else if users.any (eqIgnoreAsciiCase ·.username name) then
    (.error (.invalid ("username '" ++ name ++ "' already exists")), users)
  else if password.any fun (plain, _) => plain.utf8ByteSize < 8 then
    (.error (.invalid "password must be at least 8 characters"), users)
  else
    let user : User := User.syncHomeRole
      { id := id, username := name, passwordHash := (password.map (·.2)).getD "",
        orgId := orgId, grants := grants }
    commit users saved (.ok (users ++ [user], user))

def normalizeOr (grants : List Grant) : Except UserError (List Grant) :=
  (Grants.normalize grants).mapError .invalid

/-- A login's record may hold no grant at all. -/
def normalizeLogin (grants : List Grant) : Except UserError (List Grant) :=
  if grants = [] then .ok [] else normalizeOr grants

def createWithGrants (users : Users) (saved : Bool) (id username password hash : String)
    (orgId : Option String) (grants : List Grant) : Except UserError User × Users :=
  match normalizeOr grants with
  | .error e => (.error e, users)
  | .ok grants => createRecord users saved id username (some (password, hash)) orgId grants

def createSso (users : Users) (saved : Bool) (id username : String) (orgId : Option String)
    (grants : List Grant) : Except UserError User × Users :=
  match normalizeLogin grants with
  | .error e => (.error e, users)
  | .ok grants => createRecord users saved id username none orgId grants

def setGrantsRaw (users : Users) (saved : Bool) (id : String) (grants : List Grant) :
    Except UserError User × Users :=
  commit users saved (users.changeRow id fun u => .ok (u.withGrants grants, u.withGrants grants))

def setGrants (users : Users) (saved : Bool) (id : String) (grants : List Grant) :
    Except UserError User × Users :=
  match normalizeOr grants with
  | .error e => (.error e, users)
  | .ok grants => setGrantsRaw users saved id grants

def setGrantsFromLogin (users : Users) (saved : Bool) (id : String) (grants : List Grant) :
    Except UserError User × Users :=
  match normalizeLogin grants with
  | .error e => (.error e, users)
  | .ok grants => setGrantsRaw users saved id grants

/-- `update` with no role. -/
def update (users : Users) (saved : Bool) (id : String) (enabled : Option Bool)
    (password : Option (String × String)) : Except UserError User × Users :=
  commit users saved (users.changeRow id (·.updated enabled password))

def delete (users : Users) (saved : Bool) (id : String) : Except UserError Unit × Users :=
  if users.any (·.id == id) then
    commit users saved (.ok (users.filter (·.id != id), ()))
  else (.error .noSuchUser, users)

/-- `verify`: the enabled row of this name, when the password matches its
hash. -/
def verify (users : Users) (passwordOk : String → Bool) (username : String) : Option User :=
  (users.findByUsername username).filter fun u => passwordOk u.passwordHash

/-! ## Second factors -/

def totpBegin (users : Users) (saved : Bool) (id secret : String) :
    Except UserError String × Users :=
  commit users saved (users.changeRow id fun u =>
    .ok ({ u with totpPending := some secret }, secret))

/-- Confirms an enrollment. `codeOk` is whether the code matches the pending
secret; the recovery codes are generated outside. -/
def totpEnable (users : Users) (saved : Bool) (id : String) (codeOk : String → Bool)
    (codes hashes : List String) : Except UserError (List String) × Users :=
  commit users saved (users.changeRow id fun u =>
    match u.totpPending with
    | none => .error (.invalid "no TOTP enrollment in progress")
    | some pending =>
      if codeOk pending then
        .ok ({ u with totpSecret := some pending, totpPending := none,
                      recoveryHashes := hashes }, codes)
      else .error (.invalid "invalid code"))

def totpDisable (users : Users) (saved : Bool) (id : String) : Except UserError Unit × Users :=
  commit users saved (users.changeRow id fun u =>
    .ok ({ u with totpSecret := none, totpPending := none, recoveryHashes := [] }, ()))

/-- Remembers the time step of an accepted code. A step that is not newer
than the last one is refused, and so is one that could not be written. -/
def totpTryAdvanceStep (users : Users) (saved : Bool) (id : String) (step : Int) :
    Bool × Users :=
  match users.get id with
  | none => (false, users)
  | some u =>
    if u.totpLastStep.any (step ≤ ·) then (false, users)
    else
      let out := commit users saved (users.changeRow id fun u =>
        .ok ({ u with totpLastStep := some step }, ()))
      (saved, out.2)

/-- Spends a recovery code, given its hash. -/
def consumeRecovery (users : Users) (saved : Bool) (id hash : String) : Bool × Users :=
  match users.get id with
  | none => (false, users)
  | some u =>
    if u.recoveryHashes.contains hash then
      let out := commit users saved (users.changeRow id fun u =>
        .ok ({ u with recoveryHashes := u.recoveryHashes.filter (· != hash) }, ()))
      (saved, out.2)
    else (false, users)

def maxPasskeys : Nat := 10

def addPasskey (users : Users) (saved : Bool) (id : String) (passkey : StoredPasskey) :
    Except UserError StoredPasskey × Users :=
  commit users saved (users.changeRow id fun u =>
    if maxPasskeys ≤ u.passkeys.length then
      .error (.invalid "at most 10 passkeys per user")
    else .ok ({ u with passkeys := u.passkeys ++ [passkey] }, passkey))

def removePasskey (users : Users) (saved : Bool) (userId passkeyId : String) :
    Except UserError Unit × Users :=
  if (users.get userId).any fun u => u.passkeys.any (·.id == passkeyId) then
    commit users saved (users.changeRow userId fun u =>
      .ok ({ u with passkeys := u.passkeys.filter (·.id != passkeyId) }, ()))
  else (.error .noSuchUser, users)

end Users

end Aperio
