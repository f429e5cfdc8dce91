import Aperio.Gate

/-!
# Who decides a route

The gate of a path without a traversal segment is decided by one party: the
site covering it, else the clients serving it, else the server, else the
posture for routes nothing declares. `routeGate` names that party and
`answer` is what it says to a visitor; the two together are the gate
(`checkVisitorGate_eq`).
-/

namespace Aperio

inductive Origin where
  | site
  | client
  | server
deriving Repr, DecidableEq

/-- What stands in front of a route. -/
inductive RouteGate where
  | opened
  | policy (origin : Origin) (p : Policy)
  | password
  | closed
deriving DecidableEq

/-- What stands in front of a route nobody declares anything about. -/
def serverGate (cfg : ServerConfig) : RouteGate :=
  if cfg.visitorAuth.gates then .policy .server cfg.visitorAuth
  else if cfg.defaultAccess = .deny then .closed
  else .opened

/-- What clients put in front of a route by declaring `policy`. -/
def declaredGate (p : Policy) : RouteGate :=
  if p.admitsEveryone then .opened else .policy .client p

def routeGate (G : GateState) (host : Option String) (path : String) : RouteGate :=
  match G.cfg.sites.accessFor host path with
  | some .isPublic => .opened
  | some (.gate p) => .policy .site p.toPolicy
  | none =>
    match routeVisitorPolicy G path host with
    | some p => declaredGate p
    | none =>
      if (routeVisitorAuth G path host).isSome then .password
      else if routeIsPublic G path host then .opened
      else serverGate G.cfg

/-- The gate takes no visitor's session, only one of this server's own
users. A client's policy holds no `sso` method to be alone with. -/
def RouteGate.usersOnly : RouteGate → Bool
  | .policy .client p => p.aperioOnly
  | .policy _ p => p.aperioOnly || p.ssoOnly
  | _ => false

section Answer

variable (G : GateState) (v : Visitor) (host : Option String) (path : String)

/-- The session such a gate takes. -/
def sessionOpens (gate : RouteGate) : Bool :=
  if gate.usersOnly then adminSessionReaches G.toAuthState v.toPresented host
  else
    match gate with
    | .opened => true
    | .policy .server _ => validateSessionForVisitor G.toAuthState v.toPresented host
    | .policy _ _ => validateSessionForHost G.toAuthState v.toPresented host
    | .password => validateSessionForHost G.toAuthState v.toPresented host
    | .closed => validateSessionForVisitor G.toAuthState v.toPresented host

/-- Whom a `forward` method of the policy asks. -/
def asks (origin : Origin) : ForwardConfig → Verdict × Option String :=
  if origin = .client then askOverTunnel G v host path else askForward G v host path

/-- The single sign-on that opens a policy. -/
def signOnFor (origin : Origin) (p : Policy) : Option String :=
  if origin = .client then none else ssoAdmits G v p host

/-- One policy, whoever wrote it. -/
def admitBy (origin : Origin) (p : Policy) : VisitorGate :=
  match signOnFor G v host origin p with
  | some email => .allow (some { how := .sso, who := some email })
  | none =>
    if sessionOpens G v host (.policy origin p) then .allow (gateSessionIdentity G v)
    else
      match applyRequestMethods G v p host path with
      | some decided => decided
      | none =>
        match askEach (asks G v host path origin) p.forwardMethods none with
        | .inl identity => .allow (some identity)
        | .inr held =>
          shareOrRefuse G v host path held (refuseVisitor p v.navigation "/aperio/auth")

def answer : RouteGate → VisitorGate
  | .opened => .allow none
  | .policy origin p => admitBy G v host path origin p
  | .password => admitByPassword G v host path
  | .closed =>
    if validateSessionForVisitor G.toAuthState v.toPresented host then
      .allow (gateSessionIdentity G v)
    else .undeclared .notPublished

end Answer

variable {G : GateState} {v : Visitor} {host : Option String} {path : String}

theorem admitByPolicy_site (p : Policy) :
    admitByPolicy G v host path p true = admitBy G v host path .site p := rfl

theorem admitByPolicy_server (p : Policy) :
    admitByPolicy G v host path p false = admitBy G v host path .server p := rfl

theorem admitByDeclared_eq (p : Policy) :
    admitByDeclared G v host path p = answer G v host path (declaredGate p) := by
  simp only [admitByDeclared, declaredGate]
  split
  · rfl
  · rfl

theorem checkServerGate_eq (h : routeIsPublic G path host = false) :
    checkServerGate G v host path = answer G v host path (serverGate G.cfg) := by
  simp only [checkServerGate, h, serverGate, admitByPosture, admitByPolicy_server]
  by_cases hg : G.cfg.visitorAuth.gates = true
  · simp [hg, answer]
  · by_cases hd : G.cfg.defaultAccess = .deny
    · simp [hg, hd, answer]
    · simp [hg, hd, answer]

/-- **The gate is its decision's answer.** -/
theorem checkVisitorGate_eq (hpath : requestPathHasTraversal path = false) :
    checkVisitorGate G v host path = answer G v host path (routeGate G host path) := by
  simp only [checkVisitorGate, hpath, Bool.false_eq_true, if_false, routeGate]
  cases G.cfg.sites.accessFor host path with
  | some access =>
      cases access with
      | isPublic =>
          rfl
      | gate p =>
          exact admitByPolicy_site p.toPolicy
  | none =>
      cases routeVisitorPolicy G path host with
      | some p =>
          exact admitByDeclared_eq p
      | none =>
          by_cases hauth : (routeVisitorAuth G path host).isSome = true
          · simp only [hauth, if_true, answer]
          · by_cases hpub : routeIsPublic G path host = true
            · simp [hauth, hpub, checkServerGate, answer]
            · simp only [hauth, hpub, if_false, Bool.false_eq_true]
              exact checkServerGate_eq (by simpa using hpub)

/-! ## Who is let through -/

/-- A loop over endpoints admits exactly when one of them does, and then
names the connection that one was asked of. -/
theorem askEach_inl {ask : ForwardConfig → Verdict × Option String} {identity : VisitorIdentity} :
    ∀ {cfgs : List ForwardConfig} {held : Option String},
      askEach ask cfgs held = .inl identity →
        ∃ cfg ∈ cfgs, ∃ carried, ask cfg = (.allow carried, identity.forwardClientId) := by
  intro cfgs
  induction cfgs with
  | nil =>
      intro held h
      cases h
  | cons cfg rest ih =>
      intro held h
      rw [askEach] at h
      split at h
      · rename_i carried asked hask
        refine ⟨cfg, List.mem_cons_self, carried, ?_⟩
        rw [hask, ← Sum.inl.inj h]
        rfl
      · obtain ⟨c, hc, hcarried⟩ := ih h
        exact ⟨c, List.mem_cons_of_mem _ hc, hcarried⟩

theorem askEach_inr {ask : ForwardConfig → Verdict × Option String} {out : Option String} :
    ∀ {cfgs : List ForwardConfig} {held : Option String},
      askEach ask cfgs held = .inr out →
        ∀ cfg ∈ cfgs, ∀ carried, (ask cfg).1 ≠ .allow carried := by
  intro cfgs
  induction cfgs with
  | nil =>
      intro held _ cfg hcfg
      cases hcfg
  | cons cfg rest ih =>
      intro held h c hc carried hallow
      rw [askEach] at h
      split at h
      · cases h
      · rename_i answer asked hask
        rcases List.mem_cons.mp hc with rfl | hrest
        · rw [hask] at hallow
          cases hallow
        · exact ih h c hrest carried hallow

/-- Some endpoint of the policy admits the visitor. -/
def forwardAdmits (G : GateState) (v : Visitor) (host : Option String) (path : String)
    (origin : Origin) (p : Policy) : Prop :=
  ∃ cfg ∈ p.forwardMethods, ∃ carried, (asks G v host path origin cfg).1 = .allow carried

theorem shareOrRefuse_isAllow {held : Option String} {refusal : Refusal} :
    (shareOrRefuse G v host path held refusal).isAllow = true ↔
      checkShareAccess G v host path = some none := by
  rcases hs : checkShareAccess G v host path with _ | _ | r <;>
    simp [shareOrRefuse, hs, VisitorGate.isAllow]

/-- **Who a policy lets through.** A single sign-on, a session, a secret or
a token on the request; and, when the request presents none that decides, an
endpoint or a share link. -/
theorem admitBy_isAllow {origin : Origin} {p : Policy} :
    (admitBy G v host path origin p).isAllow = true ↔
      (signOnFor G v host origin p).isSome = true ∨
      sessionOpens G v host (.policy origin p) = true ∨
      (applyRequestMethods G v p host path).any VisitorGate.isAllow = true ∨
      (applyRequestMethods G v p host path = none ∧
        (forwardAdmits G v host path origin p ∨
          checkShareAccess G v host path = some none)) := by
  unfold admitBy
  cases hsso : signOnFor G v host origin p with
  | some email =>
      simp [VisitorGate.isAllow]
  | none =>
      by_cases hsess : sessionOpens G v host (.policy origin p) = true
      · simp [hsess, VisitorGate.isAllow]
      · simp only [hsess, Option.isSome_none, Bool.false_eq_true, if_false, false_or]
        cases hreq : applyRequestMethods G v p host path with
        | some decided =>
            simp
        | none =>
            simp only [Option.any_none, Bool.false_eq_true, false_or, true_and]
            cases hask : askEach (asks G v host path origin) p.forwardMethods none with
            | inl identity =>
                obtain ⟨cfg, hcfg, carried, hc⟩ := askEach_inl hask
                have hfwd : forwardAdmits G v host path origin p := ⟨cfg, hcfg, carried, by rw [hc]⟩
                simp [VisitorGate.isAllow, hfwd]
            | inr held =>
                have hno : ¬ forwardAdmits G v host path origin p := by
                  rintro ⟨cfg, hcfg, carried, hc⟩
                  exact askEach_inr hask cfg hcfg carried hc
                simp [hno, shareOrRefuse_isAllow]

theorem admitByPassword_isAllow :
    (admitByPassword G v host path).isAllow = true ↔
      validateSessionForHost G.toAuthState v.toPresented host = true ∨
        checkShareAccess G v host path = some none := by
  unfold admitByPassword
  split
  · simp [VisitorGate.isAllow, *]
  · simp [shareOrRefuse_isAllow, *]

end Aperio
