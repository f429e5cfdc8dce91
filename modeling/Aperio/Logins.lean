import Aperio.Accounts
import Aperio.Caller
import Aperio.Run

/-!
# Sessions and the accounts behind them

A password login reads the account table, lets go of it, and only then
writes a session; a deletion takes the row out, lets go, and only then sweeps
the sessions of that name. A session carries a name and a flat role, and a
name without a row is read as an identity provider's. So a session is worth
what its account is worth exactly while the row is there, and what follows
is about the runs that never part the two.
-/

namespace Aperio

/-- Keeps the sessions that pass. -/
def Sessions.retain (sessions : Sessions) (keep : SessionInfo → Bool) : Sessions where
  entries := sessions.entries.filter fun e => keep e.2
  nodupKeys := sessions.nodupKeys.sublist List.filter_sublist

theorem Sessions.lookup_of_retain {sessions : Sessions} {keep : SessionInfo → Bool}
    {token : String} {info : SessionInfo}
    (h : (sessions.retain keep).lookup token = some info) : sessions.lookup token = some info := by
  have hmem : (⟨token, info⟩ : Sigma fun _ : String => SessionInfo) ∈
      (sessions.retain keep).entries := AList.mem_lookup_iff.mp h
  exact AList.mem_lookup_iff.mpr (List.mem_filter.mp hmem).1

theorem Sessions.keep_of_retain {sessions : Sessions} {keep : SessionInfo → Bool}
    {token : String} {info : SessionInfo}
    (h : (sessions.retain keep).lookup token = some info) : keep info = true := by
  have hmem : (⟨token, info⟩ : Sigma fun _ : String => SessionInfo) ∈
      (sessions.retain keep).entries := AList.mem_lookup_iff.mp h
  exact (List.mem_filter.mp hmem).2

/-! ## The steps -/

/-- A login whose credential has been checked and whose session has not been
written yet. -/
structure Login where
  userId : String
  username : String
  role : Role
  loginHost : Option String
deriving DecidableEq

def sessionTtl : Nat := 86400

def Login.session (l : Login) (nowSecs : Nat) : SessionInfo where
  expiresAt := nowSecs + sessionTtl
  plane := .admin
  username := some l.username
  role := l.role
  loginHost := l.loginHost

/-- The names whose sessions a write has still to end. -/
def UserWrite.sweeps (w : UserWrite) (saved : Bool) (users : Users) : List String :=
  match w with
  | .delete id =>
    match (users.delete saved id).1 with
    | .ok _ => ((users.get id).map (·.username)).toList
    | .error _ => []
  | .edit grantsSaved id (some false) password grants =>
    match (users.edit saved grantsSaved id (some false) password grants).1 with
    | .ok u => [u.username]
    | .error _ => []
  | _ => []

/-- The tables and what is between two lock regions. `owner` remembers whose
login made a session and `issued` every id there has been; the handlers read
neither. -/
structure LoginState where
  users : Users := []
  sessions : Sessions := ∅
  owner : String → Option String := fun _ => none
  issued : List String := []
  logins : List Login := []
  sweeps : List String := []
  nowSecs : Nat := 0

/-- What a credential is resolved against. -/
def LoginState.auth (s : LoginState) (base : AuthState) : AuthState :=
  { base with users := s.users, sessions := s.sessions, nowSecs := s.nowSecs }

inductive LoginAct where
  | check (username : String) (passwordOk : String → Bool) (loginHost : Option String)
  | insert (login : Login) (token : String)
  | write (w : UserWrite) (saved : Bool)
  | sweep (username : String)
  | otherSession (token : String) (info : SessionInfo)
  | selectOrg (token : String) (org : Option String)
  | logout (token : String)
  | tick (nowSecs : Nat)

inductive LoginStep : LoginState → LoginAct → LoginState → Prop
  | check {s : LoginState} {username : String} {passwordOk : String → Bool}
      {loginHost : Option String} {u : User} (hu : s.users.verify passwordOk username = some u) :
      LoginStep s (.check username passwordOk loginHost)
        { s with logins := ⟨u.id, u.username, u.role, loginHost⟩ :: s.logins }
  | insert {s : LoginState} {login : Login} {token : String} (hl : login ∈ s.logins)
      (hnew : s.owner token = none) :
      LoginStep s (.insert login token)
        { s with
          sessions := s.sessions.insert token (login.session s.nowSecs)
          owner := Function.update s.owner token (some login.userId)
          logins := s.logins.erase login }
  | write {s : LoginState} {w : UserWrite} {saved : Bool}
      (hnew : ∀ id, w.newId = some id → id ∉ s.issued) :
      LoginStep s (.write w saved)
        { s with
          users := w.run saved s.users
          issued := w.newId.toList ++ s.issued
          sweeps := w.sweeps saved s.users ++ s.sweeps }
  | sweep {s : LoginState} {username : String} (h : username ∈ s.sweeps) :
      LoginStep s (.sweep username)
        { s with
          sessions := s.sessions.retain (·.username != some username)
          sweeps := s.sweeps.erase username }
  | otherSession {s : LoginState} {token : String} {info : SessionInfo}
      (hnew : s.owner token = none) :
      LoginStep s (.otherSession token info) { s with sessions := s.sessions.insert token info }
  | selectOrg {s : LoginState} {token : String} {org : Option String} {info : SessionInfo}
      (h : s.sessions.lookup token = some info) :
      LoginStep s (.selectOrg token org)
        { s with sessions := s.sessions.insert token { info with selectedOrg := org } }
  | logout {s : LoginState} {token : String} :
      LoginStep s (.logout token) { s with sessions := s.sessions.erase token }
  | tick {s : LoginState} {nowSecs : Nat} (h : s.nowSecs ≤ nowSecs) :
      LoginStep s (.tick nowSecs) { s with nowSecs := nowSecs }

/-- Account creation, changes, logins, deletions and sweeps, from an empty
table. -/
def loginSys : Sys LoginState LoginAct where
  init s := s.users = [] ∧ s.sessions = ∅ ∧ (∀ token, s.owner token = none) ∧ s.logins = []
  step := LoginStep

/-- The caller a request with this session and nothing else resolves to. -/
def LoginState.callerOf (s : LoginState) (base : AuthState) (token : String)
    (host : Option String) : Option Caller :=
  resolveCaller (s.auth base) { sessionCookie := some token, requestHost := host }

/-- A session a named user's login made is worth the enabled row of that
user, and resolves to nobody where there is none. -/
def withinAccount (base : AuthState) (s : LoginState) : Prop :=
  ∀ token userId host c, s.owner token = some userId → s.callerOf base token host = some c →
    ∃ u ∈ s.users, u.id = userId ∧ u.enabled = true ∧ c.grants = u.grants ∧
      (c.isServerAdmin = true → ∃ g ∈ u.grants, g.org = .all)

/-- A row is deleted only when no session of it is live, and a login's
session is written only while its row is still there. -/
def neverParted (s : LoginState) (a : LoginAct) (_ : LoginState) : Prop :=
  match a with
  | .write (.delete id) true =>
    ∀ token info, s.sessions.lookup token = some info → s.owner token = some id →
      info.expiresAt ≤ s.nowSecs
  | .insert login _ => (s.users.get login.userId).isSome = true
  | _ => True

/-! ## What a session is worth while its row is there -/

/-- Whatever row has this id has this name. -/
def NamedAs (users : Users) (id name : String) : Prop :=
  ∀ a ∈ users.idNames, a.1 = id → a.2 = name

def HasRow (users : Users) (id : String) : Prop :=
  ∃ a ∈ users.idNames, a.1 = id

theorem NamedAs.change {users users' : Users} {newId oldId : Option String} {id name : String}
    (h : NamedAs users id name) (hc : NamesChange users.idNames newId oldId users'.idNames)
    (hne : newId ≠ some id) : NamedAs users' id name := by
  generalize hnames : users'.idNames = names at hc
  have hall : ∀ a ∈ names, a.1 = id → a.2 = name := by
    cases hc with
    | same =>
        exact h
    | appended id' name' hid htrim hfree =>
        intro a ha hida
        rcases List.mem_append.mp ha with ha | ha
        · exact h a ha hida
        · rw [List.mem_singleton] at ha
          subst ha
          exact absurd (hid.trans (congrArg some hida)) hne
    | removed id' hid =>
        intro a ha hida
        exact h a (List.mem_filter.mp ha).1 hida
  subst hnames
  exact hall

theorem HasRow.change {users users' : Users} {newId oldId : Option String} {id : String}
    (h : HasRow users id) (hc : NamesChange users.idNames newId oldId users'.idNames)
    (hne : oldId ≠ some id) : HasRow users' id := by
  obtain ⟨a, ha, hida⟩ := h
  generalize hnames : users'.idNames = names at hc
  have hex : ∃ a ∈ names, a.1 = id := by
    cases hc with
    | same =>
        exact ⟨a, ha, hida⟩
    | appended id' name' hid htrim hfree =>
        exact ⟨a, List.mem_append_left _ ha, hida⟩
    | removed id' hid =>
        refine ⟨a, List.mem_filter.mpr ⟨ha, ?_⟩, hida⟩
        simp only [bne_iff_ne, ne_eq]
        rintro rfl
        exact hne (hid.trans (congrArg some hida))
  subst hnames
  exact hex

/-- The session of a login whose row is there resolves to that row or to
nobody. -/
theorem sessionIdentity_of_row {users : Users} {info : SessionInfo} {id name : String}
    {identity : Identity} (hk : users.Kept) (hname : info.username = some name)
    (hbound : info.boundOrg = none) (hnamed : NamedAs users id name) (hrow : HasRow users id)
    (h : sessionIdentity users info = some identity) :
    ∃ u ∈ users, u.id = id ∧ u.enabled = true ∧ identity = .named u.username u.grants := by
  obtain ⟨a, ha, hida⟩ := hrow
  obtain ⟨u, hu, huid, huname⟩ := Users.exists_of_mem_idNames ha
  obtain rfl : u.username = name := huname.trans (hnamed a ha hida)
  simp only [sessionIdentity, hbound, hname, hk.findByUsername_eq hu,
    hk.isDisabledUsername_eq hu] at h
  cases hen : u.enabled with
  | true =>
      simp only [hen, if_true, Option.some.injEq] at h
      exact ⟨u, hu, huid.trans hida, hen, h.symm⟩
  | false =>
      simp [hen] at h

/-- What holds of the tables between any two steps. -/
structure LoginState.Sound (s : LoginState) : Prop where
  kept : s.users.Kept
  issued : ∀ u ∈ s.users, u.id ∈ s.issued
  logins : ∀ l ∈ s.logins, l.userId ∈ s.issued ∧ NamedAs s.users l.userId l.username
  sessions : ∀ token userId info, s.owner token = some userId →
    s.sessions.lookup token = some info → userId ∈ s.issued ∧ info.boundOrg = none ∧
      (∃ name, info.username = some name ∧ NamedAs s.users userId name) ∧
      (info.expiresAt ≤ s.nowSecs ∨ HasRow s.users userId)

/-- In a sound state a session is worth its account. -/
theorem LoginState.Sound.withinAccount {s : LoginState} (hs : s.Sound) (base : AuthState) :
    withinAccount base s := by
  intro token userId host c howner hcaller
  simp only [callerOf, resolveCaller, Option.bind_none, Option.map_none, Option.or_none,
    sessionCaller, Option.bind_some, Option.bind_eq_some_iff, Option.filter_eq_some_iff,
    Option.map_eq_some_iff] at hcaller
  obtain ⟨info, ⟨hlook, hcarries⟩, identity, hidentity, rfl⟩ := hcaller
  obtain ⟨-, hbound, ⟨name, hname, hnamed⟩, hlive⟩ := hs.sessions token userId info howner hlook
  have hrow : HasRow s.users userId := by
    rcases hlive with hexp | hrow
    · simp only [SessionInfo.carriesIdentity, Bool.and_eq_true, decide_eq_true_eq] at hcarries
      have hnow : s.nowSecs < info.expiresAt := hcarries.1.1.1
      omega
    · exact hrow
  obtain ⟨u, hu, huid, hen, rfl⟩ := sessionIdentity_of_row hs.kept hname hbound hnamed hrow hidentity
  refine ⟨u, hu, huid, hen, rfl, ?_⟩
  intro hadmin
  simp only [Caller.isServerAdmin, Caller.grants, Grants.isServerAdmin, List.any_eq_true,
    Bool.and_eq_true, beq_iff_eq] at hadmin
  obtain ⟨g, hg, hall, -⟩ := hadmin
  exact ⟨g, hg, hall⟩

/-! ## Every run -/

/-- A write of the account table. -/
theorem write_sound {s : LoginState} {w : UserWrite} {saved : Bool} (hs : s.Sound)
    (hnew : ∀ id, w.newId = some id → id ∉ s.issued)
    (hparted : neverParted s (.write w saved)
      { s with
        users := w.run saved s.users
        issued := w.newId.toList ++ s.issued
        sweeps := w.sweeps saved s.users ++ s.sweeps }) :
    LoginState.Sound
      { s with
        users := w.run saved s.users
        issued := w.newId.toList ++ s.issued
        sweeps := w.sweeps saved s.users ++ s.sweeps } := by
  have hchange := w.run_names saved s.users
  have hissued : ∀ id ∈ s.issued, w.newId ≠ some id := by
    intro id hid hn
    exact hnew id hn hid
  refine ⟨?_, ?_, ?_, ?_⟩
  · refine hs.kept.change hchange ?_
    rintro id hid u hu rfl
    exact hnew _ hid (hs.issued u hu)
  · intro u hu
    refine hchange.id_mem ?_ _ (Users.mem_idNames hu)
    intro a ha
    obtain ⟨u', hu', hid, -⟩ := Users.exists_of_mem_idNames ha
    rw [← hid]
    exact hs.issued u' hu'
  · intro l hl
    obtain ⟨hiss, hnamed⟩ := hs.logins l hl
    exact ⟨List.mem_append_right _ hiss, hnamed.change hchange (hissued _ hiss)⟩
  · intro token userId info howner hlook
    obtain ⟨hiss, hbound, ⟨name, hname, hnamed⟩, hlive⟩ := hs.sessions token userId info howner hlook
    refine ⟨List.mem_append_right _ hiss, hbound, ⟨name, hname,
      hnamed.change hchange (hissued _ hiss)⟩, ?_⟩
    rcases hlive with hexp | hrow
    · exact Or.inl hexp
    · by_cases hold : w.oldId saved = some userId
      · -- the write takes this session's row out, so the session is not live
        left
        cases w with
        | delete id =>
            cases saved with
            | true =>
                obtain rfl := Option.some.inj hold
                exact hparted token info hlook howner
            | false => cases hold
        | _ => cases hold
      · exact Or.inr (hrow.change hchange hold)

/-- **Step lemma.** -/
theorem LoginStep.sound {s s' : LoginState} {a : LoginAct} (hstep : LoginStep s a s')
    (hparted : neverParted s a s') (hs : s.Sound) : s'.Sound := by
  cases hstep with
  | check hu =>
      refine ⟨hs.kept, hs.issued, ?_, hs.sessions⟩
      intro l hl
      rcases List.mem_cons.mp hl with rfl | hl
      · have hfind := (Option.filter_eq_some_iff.mp hu).1
        have hmem := List.mem_of_find?_eq_some hfind
        refine ⟨hs.issued _ hmem, ?_⟩
        intro a ha hida
        obtain ⟨u', hu', hid', hname'⟩ := Users.exists_of_mem_idNames ha
        rw [← hname', hs.kept.eq_of_id hu' hmem (hid'.trans hida)]
      · exact hs.logins l hl
  | @insert login token hl hnew =>
      refine ⟨hs.kept, hs.issued, fun l hl' => hs.logins l (List.mem_of_mem_erase hl'), ?_⟩
      intro t userId info howner hlook
      change Function.update s.owner token (some login.userId) t = some userId at howner
      by_cases ht : t = token
      · subst ht
        obtain rfl : login.userId = userId := by simpa using howner
        obtain rfl : login.session s.nowSecs = info := by simpa using hlook
        obtain ⟨hiss, hnamed⟩ := hs.logins login hl
        obtain ⟨u, hu⟩ := Option.isSome_iff_exists.mp hparted
        obtain ⟨hmem, hid⟩ := Users.mem_of_get hu
        exact ⟨hiss, rfl, ⟨login.username, rfl, hnamed⟩, Or.inr ⟨_, Users.mem_idNames hmem, hid⟩⟩
      · rw [Function.update_of_ne ht] at howner
        rw [AList.lookup_insert_ne ht] at hlook
        exact hs.sessions t userId info howner hlook
  | write hnew =>
      exact write_sound hs hnew hparted
  | sweep h =>
      refine ⟨hs.kept, hs.issued, hs.logins, ?_⟩
      intro t userId info howner hlook
      exact hs.sessions t userId info howner (Sessions.lookup_of_retain hlook)
  | @otherSession token info hnew =>
      refine ⟨hs.kept, hs.issued, hs.logins, ?_⟩
      intro t userId info' howner hlook
      have ht : t ≠ token := by
        rintro rfl
        rw [hnew] at howner
        cases howner
      rw [AList.lookup_insert_ne ht] at hlook
      exact hs.sessions t userId info' howner hlook
  | @selectOrg token org info h =>
      refine ⟨hs.kept, hs.issued, hs.logins, ?_⟩
      intro t userId info' howner hlook
      by_cases ht : t = token
      · subst ht
        obtain rfl : { info with selectedOrg := org } = info' := by simpa using hlook
        exact hs.sessions t userId info howner h
      · rw [AList.lookup_insert_ne ht] at hlook
        exact hs.sessions t userId info' howner hlook
  | @logout token =>
      refine ⟨hs.kept, hs.issued, hs.logins, ?_⟩
      intro t userId info howner hlook
      by_cases ht : t = token
      · subst ht
        rw [AList.lookup_erase] at hlook
        cases hlook
      · rw [AList.lookup_erase_ne ht] at hlook
        exact hs.sessions t userId info howner hlook
  | tick h =>
      refine ⟨hs.kept, hs.issued, hs.logins, ?_⟩
      intro t userId info howner hlook
      obtain ⟨hiss, hbound, hname, hlive⟩ := hs.sessions t userId info howner hlook
      exact ⟨hiss, hbound, hname, hlive.imp_left fun hexp => hexp.trans h⟩

/-- An admin of one organization and of nothing else. -/
def tenantAdmin : UserWrite :=
  .create "u1" "bob" "password" "hash" (some "acme") [{ org := .child "acme", role := .admin }]

def bobsLogin : Login := ⟨"u1", "bob", .admin, none⟩

/-- Bob exists and has signed in. -/
def bobSignedIn : LoginState where
  users := tenantAdmin.run true []
  sessions := (∅ : Sessions).insert "t1" (bobsLogin.session 0)
  owner := Function.update (fun _ => none) "t1" (some "u1")
  issued := ["u1"]

theorem bobSignedIn_reachable : (loginSys.restrict neverParted).Reachable bobSignedIn := by
  have h0 : (loginSys.restrict neverParted).Reachable {} :=
    .init ⟨rfl, rfl, fun _ => rfl, rfl⟩
  have h1 := h0.step ⟨@LoginStep.write _ tenantAdmin true (by decide), trivial⟩
  have h2 := h1.step ⟨@LoginStep.check _ "bob" (fun _ => true) none _ rfl, trivial⟩
  exact h2.step ⟨@LoginStep.insert _ bobsLogin "t1" (by decide) rfl, rfl⟩

end Aperio
