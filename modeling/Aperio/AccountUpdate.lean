import Aperio.Logins
import Aperio.Manage
import Aperio.UserStore

/-!
# An account update from its request to its answer

`users_update_handler` of `api/users.rs`, with nobody in between: the account
is read, the grants it should hold are worked out and checked, and then there
are two writes of the account table, each taken back by itself when it fails.
The sessions of a disabled account are ended at the end, when both went
through.
-/

namespace Aperio

/-! ## The handler -/

structure AccountTables where
  users : UserTable
  sessions : Sessions

/-- A request, what hashing its password comes to, and which of the writes are
saved. -/
structure AccountUpdate where
  base : AuthState
  presented : Presented
  target : String
  req : UserUpdateRequest
  hashing : Except String Unit := .ok ()
  saved : Bool
  grantsSaved : Bool

def userError : UserError → HttpError
  | .notSaved =>
    ⟨500, "The change could not be saved to the store and was rolled back; see the server log"⟩
  | .noSuchUser => ⟨404, "unknown user id"⟩
  | .invalid m => ⟨400, m⟩

def ManagePlan.grants : ManagePlan → Option (List Grant)
  | .edit _ _ grants => grants
  | _ => none

namespace AccountUpdate

variable (x : AccountUpdate) (t : AccountTables)

def auth : AuthState :=
  { x.base with users := t.users.memory, sessions := t.sessions }

/-- The grants to write, if any, once everything has been checked. -/
def plan : Except HttpError (Option (List Grant)) :=
  match resolveCaller (x.auth t) x.presented with
  | none => .error ⟨401, "Authentication required"⟩
  | some caller =>
    if x.req.role.any fun raw => (Role.parse raw).isNone then
      .error ⟨400, "role must be viewer, operator, or admin"⟩
    else
      match manageableUser t.users.memory caller x.target "unknown user id" with
      | .error e => .error e
      | .ok _ =>
        match t.users.memory.get x.target with
        | none => .error ⟨404, "unknown user id"⟩
        | some u => (planUpdate x.base.orgs caller x.req u.grants).map (·.grants)

/-- The password with what hashing it gives. -/
def hashed : Option (String × Except String String) :=
  x.req.password.map fun (plain, hash) => (plain, x.hashing.map fun _ => hash)

/-- Both writes, under one lock. -/
def write (users : UserTable) (next : Option (List Grant)) : Except UserError User × UserTable :=
  let out := users.update x.saved x.target none x.req.enabled x.hashed
  match out.1, next with
  | .ok _, some grants => out.2.setGrants x.grantsSaved x.target grants
  | _, _ => out

def handle : Except HttpError User × AccountTables :=
  match x.plan t with
  | .error e => (.error e, t)
  | .ok next =>
    let out := x.write t.users next
    match out.1 with
    | .error e => (.error (userError e), { t with users := out.2 })
    | .ok user =>
      (.ok user,
        { users := out.2
          sessions :=
            if x.req.enabled = some false then
              t.sessions.retain fun info => info.username != some user.username
            else t.sessions })

end AccountUpdate

/-! ## All or nothing -/

/-- What an update is about. -/
def User.account (u : User) : String × Bool × List Grant :=
  (u.passwordHash, u.enabled, u.grants)

/-- The account in memory and on disk. -/
def UserTable.account (users : UserTable) (id : String) :
    Option (String × Bool × List Grant) × Option (String × Bool × List Grant) :=
  ((users.memory.get id).map User.account, (users.disk.get id).map User.account)

def AccountTables.Sessionless (t : AccountTables) (username : String) : Prop :=
  ∀ token info, t.sessions.lookup token = some info → info.username ≠ some username

structure AccountUpdate.AllOrNothing (x : AccountUpdate) (t : AccountTables) : Prop where
  unchanged : ∀ e, (x.handle t).1 = .error e →
    (x.handle t).2.users.account x.target = t.users.account x.target
  ended : ∀ u, (x.handle t).2.users.memory.get x.target = some u → u.enabled = false →
    (x.handle t).2.Sessionless u.username

/-! ## When it is -/

namespace AccountUpdate

variable (x : AccountUpdate) (t : AccountTables)

def passwordTaken : Bool :=
  x.req.password.all fun (plain, _) =>
    decide (8 ≤ plain.utf8ByteSize) && x.hashing.toOption.isSome

/-- The first write goes through. -/
def firstWritten : Bool :=
  x.saved && x.passwordTaken

/-- So does the second, where there is one. -/
def grantsWritten (next : Option (List Grant)) : Bool :=
  next.all fun grants => x.grantsSaved && (Users.normalizeOr grants).toOption.isSome

/-- The request is let in and its first write goes through. -/
def begins : Bool :=
  (x.plan t).toOption.isSome && x.firstWritten

def completes : Bool :=
  (x.plan t).toOption.any fun next => x.firstWritten && x.grantsWritten next

/-- The account after the first write. -/
def changed (u : User) : User :=
  { u with
    enabled := x.req.enabled.getD u.enabled
    passwordHash := (x.req.password.map (·.2)).getD u.passwordHash }

/-- The first write is not the only one, or it writes what is there; and an
account left disabled has no session, or it is this request that disables
it, to the end. -/
structure Whole : Prop where
  finished : x.begins t = true → x.completes t = true ∨
    ∀ u, t.users.memory.get x.target = some u →
      t.users.account x.target = (some (x.changed u).account, some (x.changed u).account)
  ended : ∀ u, t.users.memory.get x.target = some u →
    (x.completes t = true ∧ x.req.enabled = some false) ∨ t.Sessionless u.username ∨
      (if x.begins t then x.req.enabled.getD u.enabled else u.enabled) = true

variable {x t}

/-! ## What the two writes do -/

/-- The row changed, or a refusal of its password. -/
theorem update_row (x : AccountUpdate) (u : User) :
    (∃ e, (u.update none x.req.enabled x.hashed).1 = .error e ∧ x.passwordTaken = false) ∨
      u.update none x.req.enabled x.hashed = (.ok (x.changed u), x.changed u) ∧
        x.passwordTaken = true := by
  cases hpassword : x.req.password with
  | none =>
      refine .inr ⟨?_, ?_⟩
      · simp [User.update, User.updateRole, User.updatePassword, hashed, changed, hpassword]
      · simp [passwordTaken, hpassword]
  | some p =>
      obtain ⟨plain, hash⟩ := p
      by_cases hlength : plain.utf8ByteSize < 8
      · refine .inl ⟨.invalid "password must be at least 8 characters", ?_, ?_⟩
        · simp [User.update, User.updateRole, User.updatePassword, hashed, hpassword, hlength]
        · simp [passwordTaken, hpassword, hlength]
      · cases hhash : x.hashing with
        | error m =>
            refine .inl ⟨.invalid m, ?_, ?_⟩
            · simp [User.update, User.updateRole, User.updatePassword, hashed, hpassword, hlength,
                hhash, Except.map]
            · simp [passwordTaken, hpassword, hhash, Except.toOption]
        | ok _ =>
            refine .inr ⟨?_, ?_⟩
            · simp [User.update, User.updateRole, User.updatePassword, hashed, hpassword, hlength,
                hhash, Except.map, changed]
            · simp [passwordTaken, hpassword, hhash, Except.toOption, Nat.le_of_not_lt hlength]

variable {users : UserTable} {u : User}

theorem first_write (hget : users.memory.get x.target = some u) :
    (∃ e, users.update x.saved x.target none x.req.enabled x.hashed = (.error e, users) ∧
        x.firstWritten = false) ∨
      users.update x.saved x.target none x.req.enabled x.hashed =
          (.ok (x.changed u), Table.load (users.memory.modify x.target fun _ => x.changed u)) ∧
        x.firstWritten = true := by
  have hrows := Users.modify_of_get (f := fun u => (u.update none x.req.enabled x.hashed).2) hget
  rcases x.update_row u with ⟨e, herror, htaken⟩ | ⟨hok, htaken⟩
  · refine .inl ⟨e, ?_, by rw [firstWritten, htaken, Bool.and_false]⟩
    simp [UserTable.update, Table.commit, Users.changeAt, hget, herror]
  · rw [hok] at hrows
    cases hsaved : x.saved with
    | false =>
        refine .inl ⟨.notSaved, ?_, by rw [firstWritten, hsaved, Bool.false_and]⟩
        simp [UserTable.update, Table.commit, Users.changeAt, hget, hok, Table.persist]
    | true =>
        refine .inr ⟨?_, by rw [firstWritten, hsaved, htaken, Bool.and_true]⟩
        simp [UserTable.update, Table.commit, Users.changeAt, hget, hok, Table.persist, Table.load,
          hrows]

theorem second_write (hget : users.memory.get x.target = some u) (grants : List Grant) :
    (∃ e, users.setGrants x.grantsSaved x.target grants = (.error e, users) ∧
        x.grantsWritten (some grants) = false) ∨
      ∃ held, users.setGrants x.grantsSaved x.target grants =
          (.ok (u.withGrants held),
            Table.load (users.memory.modify x.target fun _ => u.withGrants held)) ∧
        x.grantsWritten (some grants) = true := by
  cases hgrants : Users.normalizeOr grants with
  | error e =>
      refine .inl ⟨e, ?_, by simp [grantsWritten, hgrants, Except.toOption]⟩
      simp [UserTable.setGrants, hgrants]
  | ok held =>
      cases hsaved : x.grantsSaved with
      | false =>
          refine .inl ⟨.notSaved, ?_, by simp [grantsWritten, hsaved]⟩
          simp [UserTable.setGrants, UserTable.setGrantsRaw, UserTable.commitRow, Table.commit,
            Users.whole, Users.changeRow, hgrants, hget, Except.map, Table.persist]
      | true =>
          refine .inr ⟨held, ?_, by simp [grantsWritten, hsaved, hgrants, Except.toOption]⟩
          simp [UserTable.setGrants, UserTable.setGrantsRaw, UserTable.commitRow, Table.commit,
            Users.whole, Users.changeRow, hgrants, hget, Except.map, Table.persist, Table.load]

/-- A request that is let in is about an account that is there. -/
theorem get_of_plan {next : Option (List Grant)} (h : x.plan t = .ok next) :
    ∃ u, t.users.memory.get x.target = some u := by
  rw [plan] at h
  split at h
  · cases h
  · split at h
    · cases h
    · split at h
      · cases h
      · split at h
        · cases h
        · exact ⟨_, by assumption⟩

/-! ## How a request ends -/

/-- Nothing was written, or only the first half, or everything. -/
inductive Ends (x : AccountUpdate) (t : AccountTables) : Prop
  | refused (e : HttpError) (hout : x.handle t = (.error e, t)) (hbegins : x.begins t = false)
      (hcompletes : x.completes t = false)
  | halved (e : HttpError) (u : User) (hget : t.users.memory.get x.target = some u)
      (hout : x.handle t = (.error e,
        { t with users := Table.load (t.users.memory.modify x.target fun _ => x.changed u) }))
      (hbegins : x.begins t = true) (hcompletes : x.completes t = false)
  | done (u user : User) (rows : Users) (hget : t.users.memory.get x.target = some u)
      (hrow : rows.get x.target = some user) (hname : user.username = u.username)
      (henabled : user.enabled = x.req.enabled.getD u.enabled)
      (hout : x.handle t = (.ok user,
        { users := Table.load rows
          sessions :=
            if x.req.enabled = some false then
              t.sessions.retain fun info => info.username != some user.username
            else t.sessions }))
      (hbegins : x.begins t = true) (hcompletes : x.completes t = true)

theorem ends (x : AccountUpdate) (t : AccountTables) : x.Ends t := by
  cases hplan : x.plan t with
  | error e =>
      refine .refused e ?_ ?_ ?_
      · simp only [handle, hplan]
      · simp [begins, hplan, Except.toOption]
      · simp [completes, hplan, Except.toOption]
  | ok next =>
      obtain ⟨u, hget⟩ := get_of_plan hplan
      rcases first_write hget with ⟨e, hfirst, hwritten⟩ | ⟨hfirst, hwritten⟩
      · refine .refused (userError e) ?_ ?_ ?_
        · simp [handle, hplan, write, hfirst]
        · simp [begins, hwritten]
        · simp [completes, hwritten]
      · have hid : (x.changed u).id = x.target := (Users.mem_of_get hget).2
        have hrow : (t.users.memory.modify x.target fun _ => x.changed u).get x.target =
            some (x.changed u) := Users.get_modify hget hid
        have hbegins : x.begins t = true := by simp [begins, hplan, hwritten, Except.toOption]
        cases hnext : next with
        | none =>
            refine .done u (x.changed u) _ hget hrow rfl rfl ?_ hbegins ?_
            · simp [handle, hplan, write, hfirst, hnext]
            · simp [completes, hplan, hwritten, hnext, grantsWritten, Except.toOption]
        | some grants =>
            have hloaded : (Table.load (t.users.memory.modify x.target fun _ =>
                x.changed u)).memory.get x.target = some (x.changed u) := hrow
            rcases second_write hloaded grants with
              ⟨e, hsecond, hgrants⟩ | ⟨held, hsecond, hgrants⟩
            · refine .halved (userError e) u hget ?_ hbegins ?_
              · simp [handle, hplan, write, hfirst, hnext, hsecond]
              · simp [completes, hplan, hnext, hgrants, Except.toOption]
            · refine .done u ((x.changed u).withGrants held) _ hget
                (Users.get_modify hloaded hid) rfl rfl ?_ hbegins ?_
              · simp [handle, hplan, write, hfirst, hnext, hsecond]
              · simp [completes, hplan, hwritten, hnext, hgrants, Except.toOption]

/-! ## Exactly then -/

theorem refused_iff {e : HttpError} (hout : x.handle t = (.error e, t))
    (hbegins : x.begins t = false) (hcompletes : x.completes t = false) :
    x.AllOrNothing t ↔ x.Whole t := by
  constructor
  · intro h
    refine ⟨fun hb => ?_, fun u hget => ?_⟩
    · rw [hbegins] at hb
      cases hb
    · cases henabled : u.enabled with
      | true => exact .inr (.inr (by simp [hbegins]))
      | false =>
          have hended := h.ended u (by rw [hout]; exact hget) henabled
          rw [hout] at hended
          exact .inr (.inl hended)
  · intro h
    refine ⟨fun _ _ => by rw [hout], fun u hget henabled => ?_⟩
    rw [hout] at hget ⊢
    rcases h.ended u hget with ⟨hc, -⟩ | hnone | hleft
    · rw [hcompletes] at hc
      cases hc
    · exact hnone
    · simp [hbegins, henabled] at hleft

/-- What half an update leaves of the account. -/
theorem account_of_halved (hget : users.memory.get x.target = some u) :
    UserTable.account (Table.load (users.memory.modify x.target fun _ => x.changed u)) x.target =
      (some (x.changed u).account, some (x.changed u).account) := by
  have hid : (x.changed u).id = x.target := (Users.mem_of_get hget).2
  have hrow := Users.get_modify hget hid
  simp only [UserTable.account, Table.load, hrow, Option.map_some]

theorem halved_iff {e : HttpError} (hget : t.users.memory.get x.target = some u)
    (hout : x.handle t = (.error e,
      { t with users := Table.load (t.users.memory.modify x.target fun _ => x.changed u) }))
    (hbegins : x.begins t = true) (hcompletes : x.completes t = false) :
    x.AllOrNothing t ↔ x.Whole t := by
  have haccount := account_of_halved hget
  have hid : (x.changed u).id = x.target := (Users.mem_of_get hget).2
  have hrow := Users.get_modify hget hid
  constructor
  · intro h
    refine ⟨fun _ => .inr fun u' hget' => ?_, fun u' hget' => ?_⟩
    · obtain rfl := Option.some.inj (hget.symm.trans hget')
      have hsame := h.unchanged e (by rw [hout])
      rw [hout] at hsame
      exact hsame.symm.trans haccount
    · obtain rfl := Option.some.inj (hget.symm.trans hget')
      cases henabled : x.req.enabled.getD u.enabled with
      | true => exact .inr (.inr (by simp [hbegins]))
      | false =>
          have hended := h.ended (x.changed u) (by rw [hout]; exact hrow) henabled
          rw [hout] at hended
          exact .inr (.inl hended)
  · intro h
    refine ⟨fun _ _ => ?_, fun u' hget' henabled => ?_⟩
    · rcases h.finished hbegins with hc | hsame
      · rw [hcompletes] at hc
        cases hc
      · rw [hout]
        exact haccount.trans (hsame u hget).symm
    · rw [hout] at hget' ⊢
      obtain rfl := Option.some.inj (hrow.symm.trans hget')
      rcases h.ended u hget with ⟨hc, -⟩ | hnone | hleft
      · rw [hcompletes] at hc
        cases hc
      · exact hnone
      · have hdisabled : x.req.enabled.getD u.enabled = false := henabled
        simp [hbegins, hdisabled] at hleft

theorem done_iff {user : User} {rows : Users} (hget : t.users.memory.get x.target = some u)
    (hrow : rows.get x.target = some user) (hname : user.username = u.username)
    (henabled : user.enabled = x.req.enabled.getD u.enabled)
    (hout : x.handle t = (.ok user,
      { users := Table.load rows
        sessions :=
          if x.req.enabled = some false then
            t.sessions.retain fun info => info.username != some user.username
          else t.sessions }))
    (hbegins : x.begins t = true) (hcompletes : x.completes t = true) :
    x.AllOrNothing t ↔ x.Whole t := by
  constructor
  · intro h
    refine ⟨fun _ => .inl hcompletes, fun u' hget' => ?_⟩
    obtain rfl := Option.some.inj (hget.symm.trans hget')
    by_cases hdisables : x.req.enabled = some false
    · exact .inl ⟨hcompletes, hdisables⟩
    · cases hleft : x.req.enabled.getD u.enabled with
      | true => exact .inr (.inr (by simp [hbegins]))
      | false =>
          have hended := h.ended user (by rw [hout]; exact hrow) (henabled.trans hleft)
          rw [hout, hname] at hended
          simp only [hdisables, if_false] at hended
          exact .inr (.inl hended)
  · intro h
    refine ⟨fun e he => ?_, fun u' hget' hdisabled => ?_⟩
    · rw [hout] at he
      cases he
    · rw [hout] at hget' ⊢
      obtain rfl := Option.some.inj (hrow.symm.trans hget')
      by_cases hdisables : x.req.enabled = some false
      · intro token info hinfo
        simp only [hdisables, if_true] at hinfo
        simpa using Sessions.keep_of_retain hinfo
      · simp only [hdisables, if_false]
        rcases h.ended u hget with ⟨-, hd⟩ | hnone | hleft
        · exact absurd hd hdisables
        · rw [hname]
          exact hnone
        · simp [hbegins, ← henabled, hdisabled] at hleft

/-- **An update is all or nothing exactly where it is not cut in half**, and
no session outlives an account it leaves disabled. -/
theorem all_or_nothing_iff (x : AccountUpdate) (t : AccountTables) :
    x.AllOrNothing t ↔ x.Whole t := by
  cases x.ends t with
  | refused e hout hbegins hcompletes => exact refused_iff hout hbegins hcompletes
  | halved e u hget hout hbegins hcompletes => exact halved_iff hget hout hbegins hcompletes
  | done u user rows hget hrow hname henabled hout hbegins hcompletes =>
      exact done_iff hget hrow hname henabled hout hbegins hcompletes

end AccountUpdate

/-! ## Half an update -/

/-- Bob is signed in too. -/
def bothSignedIn : AccountTables where
  users := Table.load masterAccounts.users
  sessions := masterAccounts.sessions.insert "s2"
    { expiresAt := 100, plane := .admin, username := some "bob", role := .viewer }

/-- Alice disables Bob and makes him an operator; the second write is
not saved. -/
def disablesBob : AccountUpdate where
  base := masterAccounts
  presented := { sessionCookie := some "s1" }
  target := "u2"
  req := { enabled := some false, role := some "operator" }
  saved := true
  grantsSaved := false

/-- She is told that nothing was changed; he is disabled, and still signed
in. -/
theorem half_applied_update : ¬disablesBob.AllOrNothing bothSignedIn ∧
    (disablesBob.handle bothSignedIn).1 = .error (userError .notSaved) ∧
    ((disablesBob.handle bothSignedIn).2.users.memory.get "u2").map (·.enabled) = some false ∧
    ((disablesBob.handle bothSignedIn).2.sessions.lookup "s2").bind (·.username) =
      some "bob" := by
  have herror : (disablesBob.handle bothSignedIn).1 = .error (userError .notSaved) := by decide
  refine ⟨fun h => ?_, herror, by decide, by decide⟩
  exact absurd (h.unchanged _ herror) (by decide)

end Aperio
