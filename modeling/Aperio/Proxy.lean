import Aperio.Pick
import Aperio.Traversal

/-!
# One proxied request among the others

`proxy_http_request` with its await points. The gate is asked when the
request arrives; then it may be held for a client to come back, asked once
more if nothing declared the route, held for a cold start, given to a
service that is picked then, and given to another when that one vanishes.
Between any two of these the connections come, go and declare what they
like.

What the gate said is about the pool of the moment it was asked in. Nothing
later compares it with what the service that is finally given the request
declares, so the results here are about runs in which the two agree.
-/

namespace Aperio

/-! ## What a service stands behind -/

/-- The gate one service puts in front of itself: its own, or the server's
where it declares none and is not public. -/
def serviceGate (cfg : ServerConfig) (s : ServiceState) : RouteGate :=
  match s.visitorAuthPolicy with
  | some p => declaredGate p
  | none =>
    if s.visitorAuth.isSome then .password
    else if s.isPublic then .opened
    else serverGate cfg

/-- What a `forward` method answers for a request one connection would
serve. -/
def verdictOn (G : GateState) (v : Visitor) (host : Option String) (path client : String)
    (origin : Origin) (cfg : ForwardConfig) : Verdict :=
  if origin = .client ∨ cfg.viaClient = true then G.tunnelAnswer cfg v host path client
  else G.ask cfg v host path

/-- The visitor satisfies the gate of a service on this connection. -/
def Satisfies (G : GateState) (v : Visitor) (host : Option String) (path client : String) :
    RouteGate → Prop
  | .opened => True
  | .policy origin p =>
    (signOnFor G v host origin p).isSome = true ∨
      sessionOpens G v host (.policy origin p) = true ∨
      (applyRequestMethods G v p host path).any VisitorGate.isAllow = true ∨
      (∃ cfg ∈ p.forwardMethods, ∃ carried,
        verdictOn G v host path client origin cfg = .allow carried) ∨
      checkShareAccess G v host path = some none
  | .password =>
    validateSessionForHost G.toAuthState v.toPresented host = true ∨
      checkShareAccess G v host path = some none
  | .closed => validateSessionForVisitor G.toAuthState v.toPresented host = true

/-! ## The request -/

/-- The connections at one moment. -/
structure Moment where
  clients : Clients
  now : Nat

def GateState.at (G : GateState) (m : Moment) : GateState :=
  { G with clients := m.clients, now := m.now }

/-- What the request carries on from the last time the gate let it in. -/
structure Clearance where
  asked : Moment
  forwardClientId : Option String

inductive Phase where
  | arrived
  | waiting (clearance : Option Clearance)
  | cleared (clearance : Clearance)
  | selected (clearance : Clearance) (client : SelectedClient)
  | inFlight (clearance : Clearance) (moment : Moment) (client : SelectedClient)
  | answered

structure ProxyState where
  moment : Moment
  phase : Phase

/-- One request and the server it is sent to. -/
structure ProxyRequest where
  gate : GateState
  visitor : Visitor
  host : Option String
  path : String

inductive ProxyAct where
  | others (moment : Moment)
  | ask
  | recovered
  | askAgain
  | select (args : PickArgs)
  | dispatch
  | failover (args : PickArgs)
  | finish

namespace ProxyRequest

variable (R : ProxyRequest)

def check (m : Moment) : VisitorGate :=
  checkVisitorGate (R.gate.at m) R.visitor R.host R.path

def clearanceOf (m : Moment) (identity : Option VisitorIdentity) : Clearance :=
  ⟨m, identity.bind (·.forwardClientId)⟩

/-- The first asking: an undeclared route is held, not refused. -/
def afterAsk (m : Moment) : Phase :=
  match R.check m with
  | .allow identity => .waiting (some (clearanceOf m identity))
  | .deny _ => .answered
  | .undeclared _ => .waiting none

/-- The second asking, of what was undeclared. -/
def afterAskAgain (m : Moment) : Phase :=
  match R.check m with
  | .allow identity => .cleared (clearanceOf m identity)
  | .deny _ => .answered
  | .undeclared _ => .answered

def pick (m : Moment) (args : PickArgs) : PickOutcome :=
  pickProxyClient m.clients R.path R.host m.now R.gate.downThreshold args

/-- A pick that finds somebody, or the end of the request. -/
def afterPick (clearance : Clearance) : PickOutcome → Phase
  | .selected client => .selected clearance client
  | _ => .answered

/-- What the handler does next. A clearance that came over the tunnel pins
its connection and rules a failover out; a request may end at any point. -/
inductive Step : ProxyState → ProxyAct → ProxyState → Prop
  | others {s : ProxyState} {m : Moment} : Step s (.others m) { s with moment := m }
  | ask {m : Moment} : Step ⟨m, .arrived⟩ .ask ⟨m, R.afterAsk m⟩
  | recovered {m : Moment} {c : Clearance} :
      Step ⟨m, .waiting (some c)⟩ .recovered ⟨m, .cleared c⟩
  | askAgain {m : Moment} : Step ⟨m, .waiting none⟩ .askAgain ⟨m, R.afterAskAgain m⟩
  | select {m : Moment} {c : Clearance} {args : PickArgs}
      (hpin : args.requirement = c.forwardClientId.map .client) :
      Step ⟨m, .cleared c⟩ (.select args) ⟨m, afterPick c (R.pick m args)⟩
  | dispatch {m : Moment} {c : Clearance} {client : SelectedClient} :
      Step ⟨m, .selected c client⟩ .dispatch ⟨m, .inFlight c m client⟩
  | failover {m m' : Moment} {c : Clearance} {client : SelectedClient} {args : PickArgs}
      (hfree : c.forwardClientId = none)
      (hreq : args.requirement = none ∨
        args.requirement = client.instanceId.map .process) :
      Step ⟨m, .inFlight c m' client⟩ (.failover args) ⟨m, afterPick c (R.pick m args)⟩
  | finish {s : ProxyState} : Step s .finish { s with phase := .answered }

def sys : Sys ProxyState ProxyAct where
  init s := s.phase = .arrived
  step := R.Step

end ProxyRequest

/-- The services the connection carries under the name that was picked. -/
def serves (m : Moment) (client : SelectedClient) (s : ServiceState) : Prop :=
  ∃ h, m.clients.lookup client.id = some h ∧ s ∈ h.services ∧ s.serviceName = client.serviceName

/-- Whenever the request is in flight to a service on a route no site covers,
the visitor satisfies, at the moment the service was given the request, the
gate it declared at that moment. -/
def gateOfWhoServes (R : ProxyRequest) (s : ProxyState) : Prop :=
  ∀ c m client, s.phase = .inFlight c m client →
    R.gate.cfg.sites.accessFor R.host R.path = none →
    ∀ svc, serves m client svc →
      Satisfies (R.gate.at m) R.visitor R.host R.path client.id (serviceGate R.gate.cfg svc)

/-- What the last asking decided covers this service: the service asks
nothing; or the visitor's session still reaches the host where it did when
asked, and the gate that was asked is the service's. Behind a traversal
segment a session was asked for, which covers every gate it opens. -/
def gateAsked (R : ProxyRequest) (c : Clearance) (m : Moment) (svc : ServiceState) : Prop :=
  serviceGate R.gate.cfg svc = .opened ∨
    ((validateSessionForVisitor (R.gate.at c.asked).toAuthState R.visitor.toPresented R.host =
        true →
      validateSessionForVisitor (R.gate.at m).toAuthState R.visitor.toPresented R.host = true) ∧
    if requestPathHasTraversal R.path then
      (gatedOnHost (R.gate.at c.asked) R.host = true ∨ R.gate.cfg.defaultAccess = .deny) ∧
        ((serviceGate R.gate.cfg svc).usersOnly = true →
          (resolveCaller (R.gate.at m).toAuthState R.visitor.toPresented).isSome = true)
    else routeGate (R.gate.at c.asked) R.host R.path = serviceGate R.gate.cfg svc)

/-- Each time the request is given to a service, the last asking covers that
service as it declares itself then. -/
def dispatchesAsAsked (R : ProxyRequest) (s : ProxyState) (a : ProxyAct) (_ : ProxyState) : Prop :=
  a = .dispatch → ∀ c client, s.phase = .selected c client →
    R.gate.cfg.sites.accessFor R.host R.path = none →
    ∀ svc, serves s.moment client svc → gateAsked R c s.moment svc

/-! ## What an admission is worth -/

section Admission

variable {G : GateState} {v : Visitor} {host : Option String} {path client : String}

theorem satisfies_of_sessionOpens {gate : RouteGate} (h : sessionOpens G v host gate = true) :
    Satisfies G v host path client gate := by
  cases gate with
  | opened =>
      trivial
  | policy origin p =>
      exact Or.inr (Or.inl h)
  | password =>
      exact Or.inl (by simpa [sessionOpens, RouteGate.usersOnly] using h)
  | closed =>
      simpa [sessionOpens, RouteGate.usersOnly, Satisfies] using h

/-- An endpoint that admitted is one that admits on the connection it was
asked of. -/
theorem verdictOn_of_asks {origin : Origin} {cfg : ForwardConfig}
    {carried : List (String × String)} {asked : Option String}
    (h : asks G v host path origin cfg = (.allow carried, asked))
    (hpin : ∀ id, asked = some id → client = id) :
    verdictOn G v host path client origin cfg = .allow carried := by
  have htunnel : askOverTunnel G v host path cfg = (.allow carried, asked) →
      G.tunnelAnswer cfg v host path client = .allow carried := by
    intro ht
    simp only [askOverTunnel] at ht
    split at ht
    · rename_i id hpick
      simp only [Prod.mk.injEq] at ht
      rw [hpin id ht.2.symm]
      exact ht.1
    · simp at ht
  by_cases ho : origin = .client
  · simp only [asks, ho, if_true] at h
    simpa [verdictOn, ho] using htunnel h
  · simp only [asks, ho, if_false, askForward] at h
    by_cases hvia : cfg.viaClient = true
    · simp only [hvia, if_true] at h
      simpa [verdictOn, hvia] using htunnel h
    · simp only [hvia, if_false, Bool.false_eq_true, Prod.mk.injEq] at h
      simpa [verdictOn, ho, hvia] using h.1

/-- The gate let the visitor in, so the visitor satisfies it on the
connection the admission is for. -/
theorem satisfies_of_answer {gate : RouteGate} {identity : Option VisitorIdentity}
    (h : answer G v host path gate = .allow identity)
    (hpin : ∀ id, identity.bind (·.forwardClientId) = some id → client = id) :
    Satisfies G v host path client gate := by
  have hallow : (answer G v host path gate).isAllow = true := by rw [h]; rfl
  cases gate with
  | opened =>
      trivial
  | password =>
      exact admitByPassword_isAllow.mp hallow
  | closed =>
      simp only [answer] at hallow
      split at hallow
      · assumption
      · cases hallow
  | policy origin p =>
      rcases admitBy_isAllow.mp hallow with hs | hs | hs | ⟨hreq, hs⟩
      · exact Or.inl hs
      · exact Or.inr (Or.inl hs)
      · exact Or.inr (Or.inr (Or.inl hs))
      · by_cases hsign : (signOnFor G v host origin p).isSome = true
        · exact Or.inl hsign
        by_cases hsess : sessionOpens G v host (.policy origin p) = true
        · exact Or.inr (Or.inl hsess)
        -- Nothing on the request decided, so the answer is the endpoints' or the link's.
        have hnosign : signOnFor G v host origin p = none := by simpa using hsign
        simp only [answer, admitBy, hnosign, hsess, hreq, Bool.false_eq_true, if_false] at h
        cases hask : askEach (asks G v host path origin) p.forwardMethods none with
        | inl found =>
            rw [hask] at h
            simp only [VisitorGate.allow.injEq] at h
            obtain ⟨cfg, hcfg, carried, hc⟩ := askEach_inl hask
            refine Or.inr (Or.inr (Or.inr (Or.inl ⟨cfg, hcfg, carried, ?_⟩)))
            refine verdictOn_of_asks hc ?_
            intro id hid
            exact hpin id (by rw [← h]; exact hid)
        | inr held =>
            rcases hs with ⟨cfg, hcfg, carried, hc⟩ | hshare
            · exact absurd hc (askEach_inr hask cfg hcfg carried)
            · exact Or.inr (Or.inr (Or.inr (Or.inr hshare)))

end Admission

/-! ## What an admission is worth later

Only the reach of a session depends on the connections. -/

section Later

variable {G : GateState} {v : Visitor} {host : Option String} {path client : String} {m m' : Moment}

theorem validateSessionForHost_later
    (hs : validateSessionForVisitor (G.at m).toAuthState v.toPresented host = true →
      validateSessionForVisitor (G.at m').toAuthState v.toPresented host = true)
    (h : validateSessionForHost (G.at m).toAuthState v.toPresented host = true) :
    validateSessionForHost (G.at m').toAuthState v.toPresented host = true := by
  have hscope : sessionScope (G.at m').toAuthState v.toPresented =
      sessionScope (G.at m).toAuthState v.toPresented := rfl
  simp only [validateSessionForHost] at h ⊢
  rw [hscope]
  split at h
  · exact hs h
  · exact h
  · cases h

theorem adminSessionReaches_later
    (hs : validateSessionForVisitor (G.at m).toAuthState v.toPresented host = true →
      validateSessionForVisitor (G.at m').toAuthState v.toPresented host = true)
    (h : adminSessionReaches (G.at m).toAuthState v.toPresented host = true) :
    adminSessionReaches (G.at m').toAuthState v.toPresented host = true := by
  have hcaller : resolveCaller (G.at m').toAuthState v.toPresented =
      resolveCaller (G.at m).toAuthState v.toPresented := rfl
  rw [adminSessionReaches_iff] at h ⊢
  rw [hcaller]
  exact ⟨hs h.1, h.2⟩

theorem sessionOpens_later
    (hs : validateSessionForVisitor (G.at m).toAuthState v.toPresented host = true →
      validateSessionForVisitor (G.at m').toAuthState v.toPresented host = true)
    {gate : RouteGate} (h : sessionOpens (G.at m) v host gate = true) :
    sessionOpens (G.at m') v host gate = true := by
  unfold sessionOpens at h ⊢
  split at h
  · rename_i hu
    rw [if_pos hu]
    exact adminSessionReaches_later hs h
  · rename_i hu
    rw [if_neg hu]
    cases gate with
    | opened => rfl
    | policy origin p =>
        cases origin with
        | site => exact validateSessionForHost_later hs h
        | client => exact validateSessionForHost_later hs h
        | server => exact hs h
    | password => exact validateSessionForHost_later hs h
    | closed => exact hs h

theorem applyRequestMethods_later {p : Policy} :
    (applyRequestMethods (G.at m') v p host path).any VisitorGate.isAllow =
      (applyRequestMethods (G.at m) v p host path).any VisitorGate.isAllow := by
  simp only [applyRequestMethods]
  cases (presentedSecret v p).filter fun s => p.admitsBearer s.1 s.2 with
  | none =>
      rfl
  | some secret =>
      cases host with
      | none => rfl
      | some h => simp only; split <;> rfl

theorem satisfies_later
    (hs : validateSessionForVisitor (G.at m).toAuthState v.toPresented host = true →
      validateSessionForVisitor (G.at m').toAuthState v.toPresented host = true)
    {gate : RouteGate} (h : Satisfies (G.at m) v host path client gate) :
    Satisfies (G.at m') v host path client gate := by
  cases gate with
  | opened =>
      trivial
  | closed =>
      exact hs h
  | password =>
      exact h.imp (validateSessionForHost_later hs) id
  | policy origin p =>
      rcases h with hsign | hsess | hreq | hfwd | hshare
      · exact Or.inl hsign
      · exact Or.inr (Or.inl (sessionOpens_later hs hsess))
      · exact Or.inr (Or.inr (Or.inl (by rw [applyRequestMethods_later]; exact hreq)))
      · exact Or.inr (Or.inr (Or.inr (Or.inl hfwd)))
      · exact Or.inr (Or.inr (Or.inr (Or.inr hshare)))

end Later

/-! ## Whole requests -/

variable {R : ProxyRequest}

/-- The gate let the request in at the moment the clearance remembers. -/
def Clearance.Given (R : ProxyRequest) (c : Clearance) : Prop :=
  ∃ identity, R.check c.asked = .allow identity ∧
    c.forwardClientId = identity.bind (·.forwardClientId)

/-- The connection an admission over the tunnel is for. -/
def Clearance.Pins (c : Clearance) (client : SelectedClient) : Prop :=
  ∀ id, c.forwardClientId = some id → client.id = id

theorem Clearance.given_of_allow {m : Moment} {identity : Option VisitorIdentity}
    (h : R.check m = .allow identity) : (ProxyRequest.clearanceOf m identity).Given R :=
  ⟨identity, h, rfl⟩

/-- **Dispatch lemma.** An admission covers a service whose gate is the one
that was asked. -/
theorem satisfies_of_gateAsked {c : Clearance} {m : Moment} {client : SelectedClient}
    {svc : ServiceState} (hgiven : c.Given R) (hpins : c.Pins client)
    (hsite : R.gate.cfg.sites.accessFor R.host R.path = none) (hasked : gateAsked R c m svc) :
    Satisfies (R.gate.at m) R.visitor R.host R.path client.id (serviceGate R.gate.cfg svc) := by
  obtain ⟨identity, hcheck, hid⟩ := hgiven
  rcases hasked with hopen | ⟨hreach, hgate⟩
  · rw [hopen]
    trivial
  · split at hgate
    · rename_i htrav
      refine satisfies_of_sessionOpens (sessionOpens_of_visitor (hreach ?_) hgate.2)
      have hallow : (checkTraversal (R.gate.at c.asked) R.visitor R.host).isAllow = true := by
        simp only [ProxyRequest.check, checkVisitorGate, htrav, if_true] at hcheck
        rw [hcheck]
        rfl
      cases hg : gatedOnHost (R.gate.at c.asked) R.host with
      | true =>
          exact (checkTraversal_of_gated hg).mp hallow
      | false =>
          have hd : (R.gate.at c.asked).cfg.defaultAccess = .deny := by
            rcases hgate.1 with h | h
            · rw [hg] at h
              cases h
            · exact h
          have hpub : (R.gate.at c.asked).cfg.sites.publicOnHost R.host = false := by
            by_contra hpub
            have hsome := @Sites.accessFor_of_publicOnHost R.host R.path _ (by simpa using hpub)
            rw [show (R.gate.at c.asked).cfg.sites.accessFor R.host R.path = none from hsite] at hsome
            cases hsome
          by_contra hs
          simp [checkTraversal, hg, hpub, admitByPosture, hd, hs, VisitorGate.isAllow] at hallow
    · rename_i htrav
      have hanswer : answer (R.gate.at c.asked) R.visitor R.host R.path
          (routeGate (R.gate.at c.asked) R.host R.path) = .allow identity := by
        rw [← checkVisitorGate_eq (by simpa using htrav)]
        exact hcheck
      rw [← hgate]
      refine satisfies_later hreach (satisfies_of_answer hanswer ?_)
      intro id hidentity
      exact hpins id (hid.trans hidentity)

/-- What holds of a request at each of its phases. -/
def ProxyState.Kept (R : ProxyRequest) (s : ProxyState) : Prop :=
  match s.phase with
  | .arrived => True
  | .waiting clearance => ∀ c ∈ clearance, c.Given R
  | .cleared c => c.Given R
  | .selected c client => c.Given R ∧ c.Pins client
  | .inFlight c m client =>
    c.Given R ∧ c.Pins client ∧
      (R.gate.cfg.sites.accessFor R.host R.path = none → ∀ svc, serves m client svc →
        Satisfies (R.gate.at m) R.visitor R.host R.path client.id (serviceGate R.gate.cfg svc))
  | .answered => True

theorem afterAsk_kept (m : Moment) : ProxyState.Kept R ⟨m, R.afterAsk m⟩ := by
  simp only [ProxyRequest.afterAsk]
  split
  · rename_i identity hcheck
    rintro c ⟨⟩
    exact Clearance.given_of_allow hcheck
  · trivial
  · rintro c ⟨⟩

theorem afterAskAgain_kept (m : Moment) : ProxyState.Kept R ⟨m, R.afterAskAgain m⟩ := by
  simp only [ProxyRequest.afterAskAgain]
  split
  · rename_i identity hcheck
    exact Clearance.given_of_allow hcheck
  · trivial
  · trivial

theorem afterPick_kept {m : Moment} {c : Clearance} {args : PickArgs} (hgiven : c.Given R)
    (hpin : ∀ id, c.forwardClientId = some id → args.requirement = some (.client id)) :
    ProxyState.Kept R ⟨m, ProxyRequest.afterPick c (R.pick m args)⟩ := by
  cases hpick : R.pick m args with
  | selected client =>
      exact ⟨hgiven, fun id hid => pickProxyClient_pinned hpick (hpin id hid)⟩
  | noRoute => trivial
  | denied redirect => trivial

/-- **Step lemma.** -/
theorem step_kept {s s' : ProxyState} {a : ProxyAct} (hstep : R.Step s a s')
    (hasked : dispatchesAsAsked R s a s') (h : s.Kept R) : s'.Kept R := by
  cases hstep with
  | others => exact h
  | ask => exact afterAsk_kept _
  | recovered => exact h _ rfl
  | askAgain => exact afterAskAgain_kept _
  | select hpin =>
      refine afterPick_kept h ?_
      intro id hid
      rw [hpin, hid]
      rfl
  | dispatch =>
      refine ⟨h.1, h.2, ?_⟩
      intro hsite svc hsvc
      exact satisfies_of_gateAsked h.1 h.2 hsite (hasked rfl _ _ rfl hsite svc hsvc)
  | failover hfree hreq =>
      refine afterPick_kept h.1 ?_
      intro id hid
      rw [hfree] at hid
      cases hid
  | finish => trivial

/-- **The gate applied is the gate of whoever serves**, in every run of the
request among the others in which each dispatch is to a service the last
asking covers. -/
theorem gate_of_who_serves {s : ProxyState}
    (h : (R.sys.restrict (dispatchesAsAsked R)).Reachable s) : gateOfWhoServes R s := by
  have hkept : s.Kept R := by
    refine h.invariant ?_ ?_
    · intro s hs
      have hphase : s.phase = .arrived := hs
      simp [ProxyState.Kept, hphase]
    · intro s a s' _ hk hstep
      exact step_kept hstep.1 hstep.2 hk
  intro c m client hphase hsite svc hsvc
  simp only [ProxyState.Kept, hphase] at hkept
  exact hkept.2.2 hsite svc hsvc

/-! ## A password nobody asked for -/

/-- A server that opens what nothing declares, and a visitor with nothing. -/
def strangersRequest : ProxyRequest where
  gate := { cfg := { defaultAccess := .allow }, downThreshold := 15 }
  visitor := {}
  host := some "app.test"
  path := "/"

/-- One connection comes back and declares the hostname, with the gate it
declares there. -/
def cameBack (d : ServiceDecl) : Moment where
  clients := serveAll ∅
    [⟨plainEnv, 1, .connect "c1" { perms := ClientPerms.ofMaster }⟩,
     ⟨plainEnv, 2, .ping "c1" { services := [{ d with hostnameBinds := ["app.test"] }] }⟩]
  now := 2

/-- The clearance of a request that found nothing on its route. -/
def emptyHanded : Clearance := ⟨⟨∅, 0⟩, none⟩

/-- Asked at one moment, a request is given to somebody at another. -/
theorem flight_reachable {R : ProxyRequest} {m₀ m : Moment} {c : Clearance} {client : SelectedClient}
    (hask : R.afterAsk m₀ = .waiting (some c)) (hfree : c.forwardClientId = none)
    (hpick : R.pick m {} = .selected client) {cond : ProxyState → ProxyAct → ProxyState → Prop}
    (hcond : ∀ s a s', a ≠ .dispatch → cond s a s')
    (hdisp : cond ⟨m, .selected c client⟩ .dispatch ⟨m, .inFlight c m client⟩) :
    (R.sys.restrict cond).Reachable ⟨m, .inFlight c m client⟩ := by
  have h0 : (R.sys.restrict cond).Reachable ⟨m₀, .arrived⟩ := .init rfl
  have h1 : (R.sys.restrict cond).Reachable ⟨m₀, .waiting (some c)⟩ :=
    hask ▸ h0.step ⟨.ask, hcond _ _ _ (by simp)⟩
  have h2 : (R.sys.restrict cond).Reachable ⟨m, .waiting (some c)⟩ :=
    h1.step ⟨.others, hcond _ _ _ (by simp)⟩
  have h3 : (R.sys.restrict cond).Reachable ⟨m, .cleared c⟩ :=
    h2.step ⟨.recovered, hcond _ _ _ (by simp)⟩
  have h4 : (R.sys.restrict cond).Reachable ⟨m, ProxyRequest.afterPick c (R.pick m {})⟩ :=
    h3.step ⟨.select (by rw [hfree]; rfl), hcond _ _ _ (by simp)⟩
  rw [hpick] at h4
  exact h4.step ⟨.dispatch, hdisp⟩

/-- A visitor who has signed in for the hostname. -/
def guestRequest : ProxyRequest where
  gate := { cfg := { defaultAccess := .allow }, downThreshold := 15
            sessions := (∅ : Sessions).insert "s"
              { expiresAt := 100, plane := .visitor, scopeHost := some "app.test", role := .viewer } }
  visitor := { sessionCookie := some "s", requestHost := some "app.test" }
  host := some "app.test"
  path := "/"

/-- The service behind the password. -/
def behindPassword : Moment :=
  cameBack { visitorAuth := some "guest:secret" }

/-- The guest is asked, and given to who asked for the password. -/
theorem gate_of_who_serves_password :
    gateOfWhoServes guestRequest
      ⟨behindPassword, .inFlight ⟨behindPassword, none⟩ behindPassword ⟨"c1", none, none⟩⟩ ∧
    ∃ svc, serves behindPassword ⟨"c1", none, none⟩ svc ∧
      serviceGate guestRequest.gate.cfg svc = .password := by
  constructor
  · refine gate_of_who_serves (@flight_reachable _ behindPassword _ _ _ rfl rfl (by decide) _ ?_ ?_)
    · intro s a s' hne ha
      exact absurd ha hne
    · rintro - c client hphase - svc ⟨h, hlook, hsvc, -⟩
      have hall : ∀ h ∈ behindPassword.clients.lookup "c1", ∀ svc ∈ h.services,
          serviceGate guestRequest.gate.cfg svc = .password := by decide
      obtain ⟨rfl, rfl⟩ := Phase.selected.inj hphase
      refine Or.inr ⟨id, ?_⟩
      rw [if_neg (by decide), hall h hlook svc hsvc]
      decide
  · exact ⟨_, ⟨_, rfl, List.mem_cons_self, by decide⟩, by decide⟩

/-- The connection comes back behind a password while the request is held,
and is given the request. -/
theorem password_unasked :
    ∃ s, strangersRequest.sys.Reachable s ∧ ¬ gateOfWhoServes strangersRequest s := by
  refine ⟨_, (@flight_reachable strangersRequest ⟨∅, 0⟩ behindPassword emptyHanded
    ⟨"c1", none, none⟩ rfl rfl (by decide) (fun _ _ _ => True) (fun _ _ _ _ => trivial)
      trivial).of_restrict, ?_⟩
  intro h
  have hgate : ∃ handle, behindPassword.clients.lookup "c1" = some handle ∧
      ∃ svc ∈ handle.services, svc.serviceName = none ∧
        serviceGate strangersRequest.gate.cfg svc = .password :=
    ⟨_, rfl, _, List.mem_cons_self, by decide, by decide⟩
  obtain ⟨handle, hlook, svc, hsvc, hname, hpass⟩ := hgate
  have hsat := h _ _ _ rfl (by decide) svc ⟨handle, hlook, hsvc, hname⟩
  rw [hpass] at hsat
  rcases hsat with hs | hs
  · revert hs
    decide
  · revert hs
    decide

end Aperio
