import Aperio.RouteGate

/-!
# A gate and the ways to spell its path

A site's gate is chosen from the request path as it was sent, and a backend
serves the path with its percent-escapes decoded. The traversal check
decodes before it looks; the choice of a site does not, so a visitor who
escapes one letter of a gated path is asked what stands in front of some
other route.
-/

namespace Aperio

/-- A visitor who presents nothing: no session, no secret in a header or in
the address, no share link, and no token a `jwt` method verifies. -/
structure Anonymous (G : GateState) (v : Visitor) : Prop where
  session : v.sessionCookie = none
  bearer : v.bearer = none
  queryToken : v.queryToken = none
  shareQuery : v.shareQuery = none
  shareCookie : v.cookieValue "aperio_share" = none
  jwt : ∀ cfg token, jwtTokenFromRequest v cfg = some token → G.verifyJwt cfg token = none

/-- The gate stands in front of a visitor who presents nothing: it is one at
all, and no endpoint it delegates to lets that visitor in. -/
def RouteGate.Shut (G : GateState) (v : Visitor) (host : Option String) (path : String) :
    RouteGate → Prop
  | .opened => False
  | .policy origin p => ¬ forwardAdmits G v host path origin p
  | .password => True
  | .closed => True

variable {G : GateState} {v : Visitor} {host : Option String} {path : String}

namespace Anonymous

theorem sessionScope_eq (hv : Anonymous G v) :
    sessionScope G.toAuthState v.toPresented = none := by
  simp [sessionScope, hv.session]

theorem validateSessionForVisitor_eq (hv : Anonymous G v) :
    validateSessionForVisitor G.toAuthState v.toPresented host = false := by
  simp [validateSessionForVisitor, validateSession, hv.sessionScope_eq]

theorem validateSessionForHost_eq (hv : Anonymous G v) :
    validateSessionForHost G.toAuthState v.toPresented host = false := by
  simp [validateSessionForHost, hv.sessionScope_eq]

theorem adminSessionReaches_eq (hv : Anonymous G v) :
    adminSessionReaches G.toAuthState v.toPresented host = false := by
  simp [adminSessionReaches, validateSession, hv.sessionScope_eq]

theorem sessionOpens_policy (hv : Anonymous G v) (origin : Origin) (p : Policy) :
    sessionOpens G v host (.policy origin p) = false := by
  simp only [sessionOpens, hv.adminSessionReaches_eq, hv.validateSessionForHost_eq,
    hv.validateSessionForVisitor_eq]
  cases origin <;> simp

theorem signOnFor_eq (hv : Anonymous G v) (origin : Origin) (p : Policy) :
    signOnFor G v host origin p = none := by
  have hsso : ssoIdentity G.toAuthState v.toPresented host = none := by
    simp [ssoIdentity, hv.session]
  simp [signOnFor, ssoAdmits, hsso]

theorem applyRequestMethods_eq (hv : Anonymous G v) (p : Policy) :
    applyRequestMethods G v p host path = none := by
  have hsecret : presentedSecret v p = none := by
    simp [presentedSecret, hv.bearer, hv.queryToken]
  simp only [applyRequestMethods, hsecret, Option.filter_none, applyJwtMethods,
    List.findSome?_eq_none_iff, Option.bind_eq_none_iff, Option.map_eq_none_iff]
  intro cfg _ token htoken
  exact hv.jwt cfg token htoken

theorem checkShareAccess_eq (hv : Anonymous G v) :
    checkShareAccess G v host path = none := by
  simp [checkShareAccess, hv.shareQuery, hv.shareCookie]

/-- What a visitor who presents nothing is answered. -/
theorem answer_isAllow (hv : Anonymous G v) (gate : RouteGate) :
    (answer G v host path gate).isAllow = false ↔ gate.Shut G v host path := by
  cases gate with
  | opened =>
      simp [answer, RouteGate.Shut, VisitorGate.isAllow]
  | policy origin p =>
      rw [← Bool.not_eq_true, answer, admitBy_isAllow]
      simp [hv.signOnFor_eq, hv.sessionOpens_policy, hv.applyRequestMethods_eq,
        hv.checkShareAccess_eq, RouteGate.Shut]
  | password =>
      rw [← Bool.not_eq_true, answer, admitByPassword_isAllow]
      simp [hv.validateSessionForHost_eq, hv.checkShareAccess_eq, RouteGate.Shut]
  | closed =>
      simp [answer, hv.validateSessionForVisitor_eq, VisitorGate.isAllow, RouteGate.Shut]

end Anonymous

/-- A site gates what a backend serves for this path. -/
def gatedAsServed (sites : Sites) (host : Option String) (path : String) : Prop :=
  ∃ p, sites.accessFor host (percentDecodeOnce path) = some (.gate p)

/-- **When a gate cannot be spelled around.** On a path whose served form a
site gates, a visitor who presents nothing is kept out exactly when what
decides the path as it was sent keeps them out. -/
theorem spelling_iff (hv : Anonymous G v) (hq : requestPathHasTraversal path = false) :
    (gatedAsServed G.cfg.sites host path → (checkVisitorGate G v host path).isAllow = false) ↔
      (gatedAsServed G.cfg.sites host path → (routeGate G host path).Shut G v host path) := by
  rw [checkVisitorGate_eq hq, hv.answer_isAllow]

/-! ## One letter escaped -/

/-- The prefix `/admin` of one hostname, behind a password. -/
def adminSite : Site where
  hostname := "app.test"
  path := some "/admin"
  access := some (SiteAccess.ofPolicy ⟨[.basic ["root:secret"]]⟩)
  path_normal := by
    intro p hp
    exact ⟨"/admin", by rw [← Option.mem_some_iff.mp hp]; decide⟩

/-- A server that opens what nothing declares, with that one site. -/
def adminGate : GateState where
  cfg := { sites := [adminSite], defaultAccess := .allow }

theorem anonymous_nobody : Anonymous adminGate {} where
  session := rfl
  bearer := rfl
  queryToken := rfl
  shareQuery := rfl
  shareCookie := rfl
  jwt _ _ _ := rfl

theorem gatedAsServed_escaped : gatedAsServed adminGate.cfg.sites (some "app.test") "/%61dmin" :=
  ⟨⟨⟨[.basic ["root:secret"]]⟩, rfl⟩, by decide⟩

/-- The same server, closed where nothing is declared. -/
def closedGate : GateState where
  cfg := { adminGate.cfg with defaultAccess := .deny }

/-- There `/%61dmin` is closed too. -/
theorem spelling_iff_escaped :
    gatedAsServed closedGate.cfg.sites (some "app.test") "/%61dmin" ∧
      (checkVisitorGate closedGate {} (some "app.test") "/%61dmin").isAllow = false := by
  have hnobody : Anonymous closedGate {} := ⟨rfl, rfl, rfl, rfl, rfl, fun _ _ _ => rfl⟩
  have hclosed : routeGate closedGate (some "app.test") "/%61dmin" = .closed := by decide
  refine ⟨gatedAsServed_escaped, (spelling_iff hnobody (by decide)).mpr (fun _ => ?_)
    gatedAsServed_escaped⟩
  rw [hclosed]
  trivial

/-- `/%61dmin` is served as `/admin`, and nobody is asked anything. -/
theorem escaped_letter_passes :
    Anonymous adminGate {} ∧ requestPathHasTraversal "/%61dmin" = false ∧
      gatedAsServed adminGate.cfg.sites (some "app.test") "/%61dmin" ∧
      (checkVisitorGate adminGate {} (some "app.test") "/%61dmin").isAllow = true :=
  ⟨anonymous_nobody, by decide, gatedAsServed_escaped, by decide⟩

end Aperio
