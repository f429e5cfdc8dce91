import Aperio.RouteGate

/-!
# Traversal segments and the gate

A path with a traversal segment is not asked what its own route asks: the
gate re-derives whether anything on the hostname is gated, and where
something is, accepts one kind of session for all of it. That session is
enough for every gate there is but one kind: a gate that takes only this
server's own users refuses the session of a visitor's password, and the
traversal branch does not.
-/

namespace Aperio

/-! ## What a pool agrees on -/

theorem agreed_eq_some {α : Type} [DecidableEq α] {c : α} :
    ∀ {declared : List (Option α)} {acc : Option α}, agreed acc declared = some c →
      (acc = none → declared ≠ []) ∧ (∀ a ∈ acc, a = c) ∧ ∀ x ∈ declared, x = some c := by
  intro declared
  induction declared with
  | nil =>
      intro acc h
      simp only [agreed] at h
      subst h
      simp
  | cons x rest ih =>
      intro acc h
      cases x with
      | none =>
          cases acc <;> cases h
      | some d =>
          cases acc with
          | none =>
              obtain ⟨-, hd, hrest⟩ := ih h
              rw [hd d rfl]
              exact ⟨by simp, by simp, List.forall_mem_cons.mpr ⟨rfl, hrest⟩⟩
          | some e =>
              rw [agreed] at h
              split at h
              · rename_i hed
                obtain ⟨-, he, hrest⟩ := ih h
                rw [← hed, he e rfl]
                exact ⟨by simp, by simp, List.forall_mem_cons.mpr ⟨rfl, hrest⟩⟩
              · cases h

variable {G : GateState} {v : Visitor} {host : Option String} {path : String}

/-- A member of a pool is a connected service that could serve the host. -/
theorem mem_pool_couldServe {now downThreshold : Nat} {clients : Clients} {pool : List ServiceRef}
    {key : RouteGroupKey} (hpool : selectClientPool clients path host now downThreshold =
      some (pool, key)) {r : ServiceRef} (hr : r ∈ pool) :
    ∃ e ∈ clients.entries, ∃ s ∈ e.2.services, r.get clients = some s ∧
      s.couldServe host = true := by
  obtain ⟨cands, rfl, hmem, hhost⟩ := selectClientPool_spec hpool
  obtain ⟨c, hc, rfl⟩ := List.mem_map.mp hr
  obtain ⟨h, hlook, hget, -, -⟩ := mem_eligibleServices.mp (hmem c hc).1
  refine ⟨⟨c.1.client, h⟩, AList.mem_lookup_iff.mp hlook, c.2, List.mem_of_getElem? hget,
    ServiceRef.get_eq_some.mpr ⟨h, hlook, hget⟩, ?_⟩
  rcases hhost with ⟨y, rfl, hall⟩ | ⟨hall, -⟩
  · simp [ServiceState.couldServe, hall c hc]
  · cases host <;> simp [ServiceState.couldServe, hall c hc]

theorem mem_routePool {x : Option ServiceState} (hx : x ∈ routePool G path host) :
    ∃ e ∈ G.clients.entries, ∃ s ∈ e.2.services, x = some s ∧ s.couldServe host = true := by
  simp only [routePool] at hx
  split at hx
  · cases hx
  · split at hx
    · rename_i pool key hpool
      obtain ⟨r, hr, rfl⟩ := List.mem_map.mp hx
      exact mem_pool_couldServe hpool hr
    · cases hx

/-- Where the pool of a route agrees on something that makes a gate, the
traversal question sees a gate on the host. -/
theorem hostHasVisitorAuth_of_agreed {α : Type} [DecidableEq α] {f : ServiceState → Option α}
    {c : α} (h : agreed none ((routePool G path host).map (·.bind f)) = some c)
    (hgate : ∀ s, f s = some c → s.declaresGate = true) : hostHasVisitorAuth G host = true := by
  obtain ⟨hne, -, hall⟩ := agreed_eq_some h
  obtain ⟨y, hy⟩ := List.exists_mem_of_ne_nil _ (hne rfl)
  have hyc := hall y hy
  obtain ⟨x, hx, rfl⟩ := List.mem_map.mp hy
  obtain ⟨e, he, s, hs, rfl, hserves⟩ := mem_routePool hx
  simp only [hostHasVisitorAuth, List.any_eq_true, Bool.and_eq_true]
  exact ⟨e, he, s, hs, hgate s hyc, hserves⟩

theorem hostHasVisitorAuth_of_policy {p : Policy} (h : routeVisitorPolicy G path host = some p)
    (hp : p.gates = true) : hostHasVisitorAuth G host = true := by
  refine hostHasVisitorAuth_of_agreed h ?_
  intro s hs
  simp [ServiceState.declaresGate, hs, hp]

theorem hostHasVisitorAuth_of_password {creds : String}
    (h : routeVisitorAuth G path host = some creds) : hostHasVisitorAuth G host = true := by
  refine hostHasVisitorAuth_of_agreed h ?_
  intro s hs
  simp [ServiceState.declaresGate, hs]

/-! ## Hosts with no gate on them -/

theorem Sites.accessFor_of_publicOnHost {sites : Sites} (h : sites.publicOnHost host = true) :
    (sites.accessFor host path).isSome = true := by
  simp only [publicOnHost, beq_iff_eq] at h
  obtain ⟨s, hs, ha⟩ := List.exists_of_findSome?_eq_some h
  simp only [List.mem_filter, Bool.and_eq_true, Option.isNone_iff_eq_none] at hs
  rw [accessFor_isSome]
  refine ⟨s, hs.1, ?_, by simp [ha]⟩
  simp [Site.matchesRoute, hs.2.1, hs.2.2]

theorem ungated_iff : gatedOnHost G host = false ↔
    G.cfg.visitorAuth.gates = false ∧ G.cfg.sites.gatesOnHost host = false ∧
      hostHasVisitorAuth G host = false := by
  simp [gatedOnHost, and_assoc]

/-- On a host nothing gates, a route is open, or closed by the posture where
no site opens the host. -/
theorem routeGate_of_ungated (h : gatedOnHost G host = false) :
    routeGate G host path = .opened ∨
      (routeGate G host path = .closed ∧ G.cfg.defaultAccess = .deny ∧
        G.cfg.sites.publicOnHost host = false) := by
  obtain ⟨hserver, hsites, hclients⟩ := ungated_iff.mp h
  simp only [routeGate]
  cases hacc : G.cfg.sites.accessFor host path with
  | some access =>
      cases access with
      | isPublic =>
          exact Or.inl rfl
      | gate p =>
          rw [Sites.gatesOnHost_of_accessFor hacc] at hsites
          cases hsites
  | none =>
      have hpub : G.cfg.sites.publicOnHost host = false := by
        by_contra hpub
        have := @Sites.accessFor_of_publicOnHost host path _ (by simpa using hpub)
        rw [hacc] at this
        cases this
      cases hpol : routeVisitorPolicy G path host with
      | some p =>
          left
          have hopen : p.admitsEveryone = true := by
            by_contra hne
            have := hostHasVisitorAuth_of_policy hpol (by simpa [Policy.gates] using hne)
            rw [hclients] at this
            cases this
          simp [declaredGate, hopen]
      | none =>
          have hpass : (routeVisitorAuth G path host).isSome = false := by
            cases hp : routeVisitorAuth G path host with
            | none =>
                rfl
            | some creds =>
                rw [hostHasVisitorAuth_of_password hp] at hclients
                cases hclients
          simp only [hpass, Bool.false_eq_true, if_false, serverGate, hserver]
          by_cases hroute : routeIsPublic G path host = true
          · simp [hroute]
          · by_cases hd : G.cfg.defaultAccess = .deny
            · exact Or.inr ⟨by simp [hroute, hd], hd, hpub⟩
            · simp [hroute, hd]

/-- A gate for this server's own users is seen by the traversal question. -/
theorem gatedOnHost_of_usersOnly (h : (routeGate G host path).usersOnly = true) :
    gatedOnHost G host = true := by
  by_contra hne
  rcases @routeGate_of_ungated G host path (by simpa using hne) with hr | ⟨hr, -, -⟩
  · simp [hr, RouteGate.usersOnly] at h
  · simp [hr, RouteGate.usersOnly] at h

/-! ## What a global session opens -/

/-- A session that reaches the host is enough for every gate that takes a
visitor's session, and for the others when it is one of the server's own
users'. -/
theorem sessionOpens_of_visitor
    (hs : validateSessionForVisitor G.toAuthState v.toPresented host = true) {gate : RouteGate}
    (hu : gate.usersOnly = true → (resolveCaller G.toAuthState v.toPresented).isSome = true) :
    sessionOpens G v host gate = true := by
  have hh := validateSessionForHost_of_visitor hs
  simp only [sessionOpens]
  split
  · rename_i husers
    exact adminSessionReaches_iff.mpr ⟨hs, hu husers⟩
  · split <;> first | rfl | exact hs | exact hh

theorem answer_of_sessionOpens {gate : RouteGate} (h : sessionOpens G v host gate = true) :
    (answer G v host path gate).isAllow = true := by
  cases gate with
  | opened =>
      rfl
  | policy origin p =>
      rw [answer, admitBy_isAllow]
      exact Or.inr (Or.inl h)
  | password =>
      rw [answer, admitByPassword_isAllow]
      exact Or.inl (by simpa [sessionOpens, RouteGate.usersOnly] using h)
  | closed =>
      have : validateSessionForVisitor G.toAuthState v.toPresented host = true := by
        simpa [sessionOpens, RouteGate.usersOnly] using h
      simp [answer, this, VisitorGate.isAllow]

/-- A policy of session methods reads nothing else off a request. -/
theorem no_request_methods {p : Policy} (h : ∀ m ∈ p.methods, m.onRequest = false) :
    applyRequestMethods G v p host path = none ∧ p.forwardMethods = [] := by
  have hbearer : ∀ secret fromQuery, p.admitsBearer secret fromQuery = false := by
    intro secret fromQuery
    simp only [Policy.admitsBearer, List.any_eq_false]
    intro m hm
    have hkind := h m hm
    cases m with
    | bearer secrets query => simp [Method.onRequest] at hkind
    | _ => simp
  have hjwt : p.jwtMethods = [] := by
    simp only [Policy.jwtMethods, List.filterMap_eq_nil_iff]
    intro m hm
    have hkind := h m hm
    cases m with
    | jwt cfg => simp [Method.onRequest] at hkind
    | _ => rfl
  refine ⟨?_, ?_⟩
  · simp [applyRequestMethods, hbearer, applyJwtMethods, hjwt]
  · simp only [Policy.forwardMethods, List.filterMap_eq_nil_iff]
    intro m hm
    have hkind := h m hm
    cases m with
    | forward cfg => simp [Method.onRequest] at hkind
    | _ => rfl

theorem methods_of_usersOnly {origin : Origin} {p : Policy}
    (h : (RouteGate.policy origin p).usersOnly = true) : ∀ m ∈ p.methods, m.onRequest = false := by
  intro m hm
  have hor : p.aperioOnly = true ∨ p.ssoOnly = true := by
    cases origin <;> simp_all [RouteGate.usersOnly]
  rcases hor with ha | hs
  · simp only [Policy.aperioOnly, Bool.and_eq_true, List.all_eq_true] at ha
    have hkind := ha.2 m hm
    cases m <;> simp_all [Method.isAperio, Method.onRequest]
  · simp only [Policy.ssoOnly, Bool.and_eq_true, List.all_eq_true] at hs
    have hkind := hs.2 m hm
    cases m <;> simp_all [Method.isSso, Method.onRequest]

/-- A global session that resolves to nobody opens a gate for this server's
own users only behind a share link. -/
theorem answer_of_usersOnly (hs : validateSession G.toAuthState v.toPresented = true)
    (hc : resolveCaller G.toAuthState v.toPresented = none) {gate : RouteGate}
    (hu : gate.usersOnly = true) :
    (answer G v host path gate).isAllow = true ↔ checkShareAccess G v host path = some none := by
  cases gate with
  | policy origin p =>
      obtain ⟨hreq, hfwd⟩ :=
        @no_request_methods G v host path p (methods_of_usersOnly hu)
      have hsign : signOnFor G v host origin p = none := by
        simp [signOnFor, ssoAdmits, ssoIdentity_of_validateSession hs]
      have hsess : sessionOpens G v host (.policy origin p) = false := by
        simp [sessionOpens, hu, adminSessionReaches, hc]
      have hno : ¬ forwardAdmits G v host path origin p := by
        rintro ⟨cfg, hcfg, -⟩
        rw [hfwd] at hcfg
        cases hcfg
      rw [answer, admitBy_isAllow]
      simp [hreq, hsign, hsess, hno]
  | opened => cases hu
  | password => cases hu
  | closed => cases hu

/-! ## The two branches compared -/

/-- The visitor's session is global and nobody's: a visitor password's. -/
def visitorPasswordSession (A : AuthState) (v : Presented) : Prop :=
  validateSession A v = true ∧ resolveCaller A v = none

theorem checkTraversal_of_gated (hg : gatedOnHost G host = true) :
    (checkTraversal G v host).isAllow = true ↔
      validateSessionForVisitor G.toAuthState v.toPresented host = true := by
  simp only [checkTraversal, hg, if_true]
  split
  · simp [VisitorGate.isAllow, *]
  · simp [VisitorGate.isAllow, *]

/-- On a host nothing gates, a path with a traversal segment is answered no
more than any other. -/
theorem checkTraversal_of_ungated (hg : gatedOnHost G host = false)
    (h : (checkTraversal G v host).isAllow = true) :
    (answer G v host path (routeGate G host path)).isAllow = true := by
  rcases @routeGate_of_ungated G host path hg with hr | ⟨hr, hd, hpub⟩
  · rw [hr]
    rfl
  · rw [hr]
    refine answer_of_sessionOpens ?_
    by_contra hs
    have hs' : validateSessionForVisitor G.toAuthState v.toPresented host = false := by
      simpa [sessionOpens, RouteGate.usersOnly] using hs
    simp [checkTraversal, hg, hpub, admitByPosture, hd, hs', VisitorGate.isAllow] at h

/-- A global session of somebody, or of nobody where no gate is for users
only, is answered everywhere what it is answered behind a traversal
segment. -/
theorem answer_of_checkTraversal (h : (checkTraversal G v host).isAllow = true)
    (hp : visitorPasswordSession G.toAuthState v.toPresented →
      (routeGate G host path).usersOnly = true → checkShareAccess G v host path = some none) :
    (answer G v host path (routeGate G host path)).isAllow = true := by
  cases hg : gatedOnHost G host with
  | false =>
      exact checkTraversal_of_ungated hg h
  | true =>
      have hs := (checkTraversal_of_gated hg).mp h
      have hval : validateSession G.toAuthState v.toPresented = true := by
        simp only [validateSessionForVisitor, Bool.and_eq_true] at hs
        exact hs.1
      cases hc : resolveCaller G.toAuthState v.toPresented with
      | some c =>
          exact answer_of_sessionOpens (sessionOpens_of_visitor hs (by simp [hc]))
      | none =>
          by_cases hu : (routeGate G host path).usersOnly = true
          · exact (answer_of_usersOnly hval hc hu).mpr (hp ⟨hval, hc⟩ hu)
          · exact answer_of_sessionOpens (sessionOpens_of_visitor hs (fun h => absurd h hu))

/-- The gate is not weakened by a traversal segment, for this visitor on this
host. -/
def traversalNeverWeakens (G : GateState) (v : Visitor) (host : Option String) : Prop :=
  (∃ p, requestPathHasTraversal p = false ∧ (checkVisitorGate G v host p).isAllow = false) →
    ∀ q, requestPathHasTraversal q = true → (checkVisitorGate G v host q).isAllow = false

/-- **When a traversal segment never weakens the gate.** Exactly when the
visitor's session is not a visitor password's, or no path of the host is
gated for this server's own users beyond a share link the visitor holds. -/
theorem traversalNeverWeakens_iff (G : GateState) (v : Visitor) (host : Option String) :
    traversalNeverWeakens G v host ↔
      ¬ (visitorPasswordSession G.toAuthState v.toPresented ∧
        ∃ p, requestPathHasTraversal p = false ∧ (routeGate G host p).usersOnly = true ∧
          checkShareAccess G v host p ≠ some none) := by
  have hquery : ∀ q, requestPathHasTraversal q = true →
      checkVisitorGate G v host q = checkTraversal G v host := by
    intro q hq
    simp [checkVisitorGate, hq]
  constructor
  · rintro hnever ⟨⟨hval, hc⟩, p, hp, hu, hshare⟩
    have hdeny : (checkVisitorGate G v host p).isAllow = false := by
      rw [checkVisitorGate_eq hp, ← Bool.not_eq_true, answer_of_usersOnly hval hc hu]
      exact hshare
    have hdots : requestPathHasTraversal "/.." = true := by decide
    have := hnever ⟨p, hp, hdeny⟩ "/.." hdots
    rw [hquery _ hdots, ← Bool.not_eq_true, checkTraversal_of_gated (gatedOnHost_of_usersOnly hu)]
      at this
    exact this (by simp [validateSessionForVisitor, hval, hc])
  · rintro hcond ⟨p, hp, hdeny⟩ q hq
    rw [hquery q hq, ← Bool.not_eq_true]
    intro hallow
    rw [checkVisitorGate_eq hp, ← Bool.not_eq_true] at hdeny
    refine hdeny (answer_of_checkTraversal hallow ?_)
    intro hsess hu
    by_contra hshare
    exact hcond ⟨hsess, p, hp, hu, hshare⟩

/-! ## A visitor's password on a path for users -/

theorem usersPath_normal : ∀ p ∈ some "/admin", ∃ raw, normalizePathBind raw = some p := by
  rintro p ⟨⟩
  exact ⟨"/admin", by decide⟩

/-- The prefix `/admin` of one hostname, for this server's own users. -/
def usersSite : Site where
  hostname := "app.test"
  path := some "/admin"
  access := some (SiteAccess.ofPolicy ⟨[.aperio]⟩)
  path_normal := usersPath_normal

/-- A server behind a visitor password, with that site and one session the
password has made. -/
def usersGate : GateState where
  cfg := { sites := [usersSite], visitorAuth := ⟨[.basic ["guest:guest"]]⟩ }
  sessions := (∅ : Sessions).insert "guest" { expiresAt := 100, plane := .visitor, role := .viewer }

/-- `/admin` refuses the session and `/./admin` takes it. -/
theorem dot_segment_weakens :
    ¬ traversalNeverWeakens usersGate { sessionCookie := some "guest" } (some "app.test") := by
  intro h
  have hdeny : (checkVisitorGate usersGate { sessionCookie := some "guest" } (some "app.test")
      "/admin").isAllow = false := by decide
  have hallow : (checkVisitorGate usersGate { sessionCookie := some "guest" } (some "app.test")
      "/./admin").isAllow = true := by decide
  rw [h ⟨"/admin", by decide, hdeny⟩ "/./admin" (by decide)] at hallow
  cases hallow

end Aperio
