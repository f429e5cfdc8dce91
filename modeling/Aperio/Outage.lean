import Aperio.ResponseCache
import Aperio.Headers
import Aperio.Proxy

/-!
# Serving stale

Requests, heartbeats and disconnects in any order, over one response cache.
Each request goes through the handler of `Proxy`; on the way it may be
answered from the cache, store what a service answered, start a refresh, or,
where there is nobody to dispatch to, be given a stale copy
(`stale_cache_response`). The handler reaches that in three places: when the
wait for a client to come back runs out, when the second asking of the gate
still finds nothing that declares the route, and when the pick finds no
route.

A copy is kept under the host and the address. Who was let in to the service
it came from is asked of the connection, which is gone by then, so what
follows is about runs in which every stale answer goes to somebody that
service let in.
-/

namespace Aperio

/-! ## The requests -/

/-- A request with what the cache looks at. The settings are those of the
moment it is handled in. -/
structure CachedRequest extends ProxyRequest where
  method : String := "GET"
  headers : InboundHeaders := []
  query : Option String := none
  callerIp : IpAddr

namespace CachedRequest

variable (R : CachedRequest)

def uri : String :=
  match R.query with
  | none => R.path
  | some q => R.path ++ "?" ++ q

def key : String :=
  cacheKey R.host R.uri

/-- What decides, at the first pick, whether the cache is used at all. -/
def cacheEligible (c : Clearance) (svc : ServiceState) : Bool :=
  R.gate.cfg.cacheEnabled && svc.cache && c.forwardClientId.isNone &&
    requestCacheable R.method R.headers

end CachedRequest

/-- A service as it declared itself when a response of its was stored, and
the connection it was on. -/
structure Declared where
  client : String
  service : ServiceState

abbrev DeclaredCache := ResponseCache Declared

/-- The outage answer for a request. -/
def staleCacheResponse (R : CachedRequest) (now : Nat) (cache : DeclaredCache) :
    Option CacheHit × DeclaredCache :=
  if !R.gate.cfg.cacheEnabled || !requestCacheable R.method R.headers then (none, cache)
  else cache.getForOutage R.key R.gate.cfg.cacheMaxStale now

/-! ## Storing -/

structure CacheSettings where
  maxBytes : Nat
  negativeTtl : Nat
  etagOf : List UInt8 → String

/-- A `TunnelResponse` once its body has been read. -/
structure ServiceAnswer where
  status : Nat
  headers : List (String × String)
  body : List UInt8
  streamed : Bool := false

namespace ServiceAnswer

/-- How long a response is kept: a 200 for what it advertises, a 404 or a
410 for the negative lifetime. -/
def ttl (S : CacheSettings) (res : ServiceAnswer) : Option Nat :=
  if res.status = 200 then responseCacheTtl res.headers
  else if (res.status = 404 ∨ res.status = 410) ∧ responseUncacheable res.headers = false then
    positive S.negativeTtl
  else none

/-- The response under a key, when it is to be kept. -/
def keep {σ : Type} (S : CacheSettings) (res : ServiceAnswer) (ttl : Option Nat)
    (cache : ResponseCache σ) (key : String) (resilient : Bool) (now : Nat) (origin : σ) :
    ResponseCache σ :=
  if res.streamed then cache
  else
    match ttl with
    | none => cache
    | some secs =>
      cache.insert S.etagOf key res.status res.headers res.body secs S.maxBytes resilient
        (responseSwrWindow res.headers) now origin

theorem lookup_keep {σ : Type} {S : CacheSettings} {res : ServiceAnswer} {ttl : Option Nat}
    {cache : ResponseCache σ} {key k : String} {resilient : Bool} {now : Nat} {origin : σ}
    {e : CachedResponse σ}
    (h : (res.keep S ttl cache key resilient now origin).entries.lookup k = some e) :
    cache.entries.lookup k = some e ∨ (e.origin = origin ∧ e.resilient = resilient) := by
  unfold keep at h
  split at h
  · exact Or.inl h
  · split at h
    · exact Or.inl h
    · exact ResponseCache.lookup_insert h

end ServiceAnswer

/-! ## The run -/

/-- One request in the handler: where it stands, whether the cache is used,
and whether the service selected last asked to be served stale. -/
structure Live where
  request : CachedRequest
  phase : Phase := .arrived
  eligible : Bool := false
  resilience : Bool := false

/-- A background refresh on its way. -/
structure Refresh where
  key : String
  client : SelectedClient
  dispatched : Moment
  resilience : Bool

/-- A stale answer that was given. -/
structure StaleAnswer where
  request : CachedRequest
  moment : Moment
  origin : Declared
  hit : CacheHit

structure OutageState where
  moment : Moment
  cache : DeclaredCache := {}
  live : Nat → Option Live := fun _ => none
  refreshes : List Refresh := []
  answers : List StaleAnswer := []

def OutageState.setLive (s : OutageState) (i : Nat) (l : Live) : OutageState :=
  { s with live := Function.update s.live i (some l) }

inductive OutageAct where
  | event (e : Event)
  | arrive (i : Nat) (R : CachedRequest)
  | handle (i : Nat) (a : ProxyAct)
  | lookup (i : Nat)
  | store (i : Nat) (res : ServiceAnswer) (svc : ServiceState)
  | refreshed (r : Refresh) (res : ServiceAnswer) (svc : ServiceState)
  | stale (i : Nat)

/-- The service as it declares itself now, or as it did when it was given the
request if its connection has gone since. -/
def declaresNow (m dispatched : Moment) (client : SelectedClient) (svc : ServiceState) : Prop :=
  if client.id ∈ m.clients then serves m client svc else serves dispatched client svc

/-- What a lookup does to the request: an answer from the cache ends it, and
the first to find an entry past its lifetime starts a refresh. -/
def OutageState.afterLookup (s : OutageState) (i : Nat) (l : Live) (client : SelectedClient) :
    OutageState :=
  match s.cache.lookup l.request.key l.request.gate.cfg.cacheMaxStale s.moment.now with
  | (.miss, cache) => { s with cache := cache }
  | (.fresh _, cache) => { s with cache := cache }.setLive i { l with phase := .answered }
  | (.staleRevalidate _ lead, cache) =>
    { s with
      cache := cache
      refreshes :=
        if lead then ⟨l.request.key, client, s.moment, l.resilience⟩ :: s.refreshes
        else s.refreshes }.setLive i { l with phase := .answered }

/-- The three places a stale answer is looked for, with what the gate let the
request in on. How long a request is held before the first is left open. -/
inductive Fallback (R : CachedRequest) (m : Moment) : Phase → Prop
  | notRecovered {clearance : Option Clearance} : Fallback R m (.waiting clearance)
  | stillUndeclared {resp : Refusal} (hcheck : R.check m = .undeclared resp) :
      Fallback R m (.waiting none)
  | noRoute {c : Clearance} {args : PickArgs} (hip : args.visitorIp = some R.callerIp)
      (hfree : c.forwardClientId = none) (hreq : args.requirement = none)
      (hpick : R.pick m args = .noRoute) : Fallback R m (.cleared c)

inductive OutageStep (S : CacheSettings) : OutageState → OutageAct → OutageState → Prop
  | event {s : OutageState} {e : Event} (hlater : s.moment.now ≤ e.now) :
      OutageStep S s (.event e) { s with moment := ⟨serve s.moment.clients e, e.now⟩ }
  | arrive {s : OutageState} {i : Nat} {R : CachedRequest} (hnew : s.live i = none) :
      OutageStep S s (.arrive i R) (s.setLive i { request := R })
  | handle {s : OutageState} {i : Nat} {l : Live} {a : ProxyAct} {phase : Phase}
      (hl : s.live i = some l)
      (hstep : l.request.Step ⟨s.moment, l.phase⟩ a ⟨s.moment, phase⟩)
      (hquiet : ∀ c client, phase ≠ .selected c client) :
      OutageStep S s (.handle i a) (s.setLive i { l with phase := phase })
  | select {s : OutageState} {i : Nat} {l : Live} {args : PickArgs} {c : Clearance}
      {client : SelectedClient} {svc : ServiceState} (hl : s.live i = some l)
      (hip : args.visitorIp = some l.request.callerIp)
      (hstep : l.request.Step ⟨s.moment, l.phase⟩ (.select args) ⟨s.moment, .selected c client⟩)
      (hsvc : serves s.moment client svc) :
      OutageStep S s (.handle i (.select args)) (s.setLive i
        { l with
          phase := .selected c client
          eligible := l.request.cacheEligible c svc
          resilience := svc.resilience })
  | failover {s : OutageState} {i : Nat} {l : Live} {args : PickArgs} {c : Clearance}
      {client : SelectedClient} {svc : ServiceState} (hl : s.live i = some l)
      (hip : args.visitorIp = some l.request.callerIp)
      (hstep : l.request.Step ⟨s.moment, l.phase⟩ (.failover args) ⟨s.moment, .selected c client⟩)
      (hsvc : serves s.moment client svc) :
      OutageStep S s (.handle i (.failover args)) (s.setLive i
        { l with phase := .selected c client, resilience := svc.resilience })
  | lookup {s : OutageState} {i : Nat} {l : Live} {c : Clearance} {client : SelectedClient}
      (hl : s.live i = some l) (hphase : l.phase = .selected c client)
      (helig : l.eligible = true) :
      OutageStep S s (.lookup i) (s.afterLookup i l client)
  | store {s : OutageState} {i : Nat} {l : Live} {c : Clearance} {m : Moment}
      {client : SelectedClient} {res : ServiceAnswer} {svc : ServiceState}
      (hl : s.live i = some l) (hphase : l.phase = .inFlight c m client)
      (helig : l.eligible = true) (hsvc : declaresNow s.moment m client svc) :
      OutageStep S s (.store i res svc)
        ({ s with cache := res.keep S (res.ttl S) s.cache l.request.key l.resilience s.moment.now
                    ⟨client.id, svc⟩ }.setLive i { l with phase := .answered })
  | refreshed {s : OutageState} {pre post : List Refresh} {r : Refresh} {res : ServiceAnswer}
      {svc : ServiceState} (hr : s.refreshes = pre ++ r :: post) (hstatus : res.status = 200)
      (hsvc : declaresNow s.moment r.dispatched r.client svc) :
      OutageStep S s (.refreshed r res svc)
        { s with
          cache := res.keep S (responseCacheTtl res.headers) s.cache r.key r.resilience
            s.moment.now ⟨r.client.id, svc⟩
          refreshes := pre ++ post }
  | stale {s : OutageState} {i : Nat} {l : Live} {e : CachedResponse Declared} {hit : CacheHit}
      (hl : s.live i = some l) (hfall : Fallback l.request s.moment l.phase)
      (he : s.cache.entries.lookup l.request.key = some e)
      (hhit : (staleCacheResponse l.request s.moment.now s.cache).1 = some hit) :
      OutageStep S s (.stale i)
        ({ s with
           cache := (staleCacheResponse l.request s.moment.now s.cache).2
           answers := ⟨l.request, s.moment, e.origin, hit⟩ :: s.answers }.setLive i
          { l with phase := .answered })

/-- The server starts with nothing in its cache and no request in hand. -/
def outageSys (S : CacheSettings) : Sys OutageState OutageAct where
  init s := s = { moment := s.moment }
  step := OutageStep S

/-! ## Who a copy is for -/

/-- The gate a service declares itself, if it declares one. -/
def ServiceState.ownGate (s : ServiceState) : RouteGate :=
  match s.visitorAuthPolicy with
  | some p => declaredGate p
  | none => if s.visitorAuth.isSome then .password else .opened

/-- Every stale answer went to a visitor whom the service the copy came from
let in as it declared itself when the copy was stored: the address is one of
its list, and the visitor satisfies its gate. -/
def staleWithinAccess (s : OutageState) : Prop :=
  ∀ x ∈ s.answers, ipAllowed x.request.callerIp x.origin.service.allowedIps = true ∧
    Satisfies (x.request.gate.at x.moment) x.request.visitor x.request.host x.request.path
      x.origin.client x.origin.service.ownGate

/-- What the gate has let the request in on so far. -/
def Phase.clearance : Phase → Option Clearance
  | .waiting clearance => clearance
  | .cleared c => some c
  | _ => none

/-- The service asks no more of the request than the gate that let it in:
it declares none, or its own gate is the one that was asked, on its own
connection where an endpoint was asked over the tunnel. -/
def gateCovers (R : ProxyRequest) (m : Moment) (clearance : Option Clearance) (origin : Declared) :
    Prop :=
  origin.service.ownGate = .opened ∨
    ∃ c ∈ clearance, R.gate.cfg.sites.accessFor R.host R.path = none ∧
      gateAsked R c m origin.service ∧ ∀ id, c.forwardClientId = some id → origin.client = id

/-- At each stale answer, the service the copy came from would have been
given the request: the address is on the list it declared, and the gate it
declared covers the visitor. -/
def staleAsAsked (s : OutageState) (a : OutageAct) (_ : OutageState) : Prop :=
  ∀ i l e, a = .stale i → s.live i = some l → s.cache.entries.lookup l.request.key = some e →
    ipAllowed l.request.callerIp e.origin.service.allowedIps = true ∧
      gateCovers l.request.toProxyRequest s.moment l.phase.clearance e.origin

/-- A service that keeps nobody out. -/
def ServiceState.RestrictsNobody (svc : ServiceState) : Prop :=
  svc.allowedIps = [] ∧ svc.ownGate = .opened

/-- What is stored to be served stale comes from services that keep nobody
out. -/
def storesOpenOnly (s : OutageState) (a : OutageAct) (_ : OutageState) : Prop :=
  (∀ i l res svc, a = .store i res svc → s.live i = some l → l.resilience = true →
    svc.RestrictsNobody) ∧
  (∀ r res svc, a = .refreshed r res svc → r.resilience = true → svc.RestrictsNobody)

theorem serviceGate_of_ownGate {cfg : ServerConfig} {svc : ServiceState}
    (h : svc.ownGate ≠ .opened) : serviceGate cfg svc = svc.ownGate := by
  cases hpolicy : svc.visitorAuthPolicy with
  | some p =>
      simp [serviceGate, ServiceState.ownGate, hpolicy]
  | none =>
      simp only [ServiceState.ownGate, hpolicy] at h
      by_cases hauth : svc.visitorAuth.isSome = true
      · simp [serviceGate, ServiceState.ownGate, hpolicy, hauth]
      · simp [hauth] at h

/-! ## What the requests in hand were let in on -/

def Phase.Given (R : ProxyRequest) (phase : Phase) : Prop :=
  ∀ c ∈ phase.clearance, c.Given R

theorem Phase.given_of_clearance {R : ProxyRequest} {phase : Phase} (h : phase.clearance = none) :
    phase.Given R := by
  intro c hc
  rw [h] at hc
  cases hc

theorem afterPick_given {R : ProxyRequest} {c : Clearance} {outcome : PickOutcome} :
    (ProxyRequest.afterPick c outcome).Given R := by
  refine Phase.given_of_clearance ?_
  cases outcome <;> rfl

theorem step_given {R : ProxyRequest} {s s' : ProxyState} {a : ProxyAct}
    (hstep : R.Step s a s') (h : s.phase.Given R) : s'.phase.Given R := by
  cases hstep with
  | others => exact h
  | recovered => exact h
  | ask =>
      simp only [ProxyRequest.afterAsk]
      split
      · rename_i identity hcheck
        rintro c ⟨⟩
        exact Clearance.given_of_allow hcheck
      · exact Phase.given_of_clearance rfl
      · exact Phase.given_of_clearance rfl
  | askAgain =>
      simp only [ProxyRequest.afterAskAgain]
      split
      · rename_i identity hcheck
        rintro c ⟨⟩
        exact Clearance.given_of_allow hcheck
      · exact Phase.given_of_clearance rfl
      · exact Phase.given_of_clearance rfl
  | select hpin => exact afterPick_given
  | failover hfree hreq => exact afterPick_given
  | dispatch => exact Phase.given_of_clearance rfl
  | finish => exact Phase.given_of_clearance rfl

variable {S : CacheSettings} {s s' : OutageState} {a : OutageAct} {i j : Nat} {l l' : Live}

theorem setLive_live (h : (s.setLive i l).live j = some l') :
    (j = i ∧ l' = l) ∨ s.live j = some l' := by
  by_cases hj : j = i
  · subst hj
    simp only [OutageState.setLive, Function.update_self, Option.some.injEq] at h
    exact Or.inl ⟨rfl, h.symm⟩
  · simp only [OutageState.setLive, Function.update_of_ne hj] at h
    exact Or.inr h

/-- A request put back without a clearance says nothing of what it was let
in on. -/
theorem setLive_uncleared (hl : l.phase.clearance = none)
    (h : (s.setLive i l).live j = some l') :
    s.live j = some l' ∨ l'.phase.clearance = none := by
  rcases setLive_live h with ⟨-, rfl⟩ | h
  · exact Or.inr hl
  · exact Or.inl h

/-- **Inversion.** A request in hand after a step was in hand before it, or
has just arrived, been moved by its handler, or been answered or
selected. -/
theorem step_live (hstep : OutageStep S s a s') (h : s'.live j = some l') :
    (s.live j = some l' ∨ l'.phase.clearance = none) ∨
      ∃ l b, s.live j = some l ∧ l'.request = l.request ∧
        l.request.Step ⟨s.moment, l.phase⟩ b ⟨s.moment, l'.phase⟩ := by
  cases hstep with
  | event => exact Or.inl (Or.inl h)
  | refreshed => exact Or.inl (Or.inl h)
  | arrive => exact Or.inl (setLive_uncleared rfl h)
  | handle hl hst =>
      rcases setLive_live h with ⟨rfl, rfl⟩ | h
      · exact Or.inr ⟨_, _, hl, rfl, hst⟩
      · exact Or.inl (Or.inl h)
  | select => exact Or.inl (setLive_uncleared rfl h)
  | failover => exact Or.inl (setLive_uncleared rfl h)
  | lookup =>
      unfold OutageState.afterLookup at h
      split at h
      · exact Or.inl (Or.inl h)
      · exact Or.inl (setLive_uncleared rfl h)
      · exact Or.inl (setLive_uncleared rfl h)
  | store => exact Or.inl (setLive_uncleared rfl h)
  | stale => exact Or.inl (setLive_uncleared rfl h)

def OutageState.Given (s : OutageState) : Prop :=
  ∀ j l, s.live j = some l → l.phase.Given l.request.toProxyRequest

theorem step_allGiven (hstep : OutageStep S s a s') (h : s.Given) : s'.Given := by
  intro j l' hl'
  rcases step_live hstep hl' with (hl | hnone) | ⟨l, b, hl, hreq, hst⟩
  · exact h j l' hl
  · exact Phase.given_of_clearance hnone
  · rw [hreq]
    exact step_given hst (h j l hl)

/-! ## Stale answers -/

theorem staleCacheResponse_resilient {R : CachedRequest} {now : Nat} {cache : DeclaredCache}
    {hit : CacheHit} {e : CachedResponse Declared}
    (hhit : (staleCacheResponse R now cache).1 = some hit)
    (he : cache.entries.lookup R.key = some e) : e.resilient = true := by
  unfold staleCacheResponse at hhit
  split at hhit
  · cases hhit
  · obtain ⟨e', he', hres⟩ := ResponseCache.getForOutage_eq_some hhit
    obtain rfl := Option.some.inj (he.symm.trans he')
    exact hres

/-- **Inversion.** An answer in the log was there before the step, or is the
one this step gives. -/
theorem step_answers (hstep : OutageStep S s a s') {x : StaleAnswer} (hx : x ∈ s'.answers) :
    x ∈ s.answers ∨ ∃ i l e hit, a = .stale i ∧ s.live i = some l ∧
      s.cache.entries.lookup l.request.key = some e ∧ e.resilient = true ∧
      x = ⟨l.request, s.moment, e.origin, hit⟩ := by
  cases hstep with
  | event => exact Or.inl hx
  | arrive => exact Or.inl hx
  | handle => exact Or.inl hx
  | select => exact Or.inl hx
  | failover => exact Or.inl hx
  | store => exact Or.inl hx
  | refreshed => exact Or.inl hx
  | lookup =>
      unfold OutageState.afterLookup at hx
      split at hx <;> exact Or.inl hx
  | stale hl hfall he hhit =>
      rcases List.mem_cons.mp hx with rfl | hx
      · exact Or.inr ⟨_, _, _, _, rfl, hl, he, staleCacheResponse_resilient hhit he, rfl⟩
      · exact Or.inl hx

/-- What the gate let the request in on is enough for the service's own
gate. -/
theorem satisfies_of_gateCovers {R : ProxyRequest} {m : Moment} {clearance : Option Clearance}
    {origin : Declared} (hgiven : ∀ c ∈ clearance, c.Given R)
    (h : gateCovers R m clearance origin) :
    Satisfies (R.gate.at m) R.visitor R.host R.path origin.client origin.service.ownGate := by
  by_cases hopen : origin.service.ownGate = .opened
  · rw [hopen]
    trivial
  · obtain ⟨c, hc, hsite, hasked, hpin⟩ := h.resolve_left hopen
    rw [← @serviceGate_of_ownGate R.gate.cfg _ hopen]
    exact @satisfies_of_gateAsked R c m ⟨origin.client, none, none⟩ _ (hgiven c hc) hpin hsite
      hasked

theorem staleWithinAccess_of_asAsked (h : ((outageSys S).restrict staleAsAsked).Reachable s) :
    staleWithinAccess s := by
  have hinv : s.Given ∧ staleWithinAccess s := by
    refine Sys.Reachable.invariant (P := fun s => s.Given ∧ staleWithinAccess s) h ?_ ?_
    · intro s hs
      have hs' : s = { moment := s.moment } := hs
      rw [hs']
      constructor
      · rintro j l ⟨⟩
      · rintro x ⟨⟩
    · rintro s a s' - ⟨hgiven, hprop⟩ ⟨hstep, hcond⟩
      refine ⟨step_allGiven hstep hgiven, ?_⟩
      intro x hx
      rcases step_answers hstep hx with hold | ⟨i, l, e, hit, ha, hl, he, -, rfl⟩
      · exact hprop x hold
      · obtain ⟨hip, hcovers⟩ := hcond i l e ha hl he
        exact ⟨hip, satisfies_of_gateCovers (hgiven i l hl) hcovers⟩
  exact hinv.2

/-! ## Copies of services that keep nobody out -/

/-- Everything in the cache that may be served stale comes from a service
that kept nobody out. -/
def OutageState.OpenStored (s : OutageState) : Prop :=
  ∀ k e, s.cache.entries.lookup k = some e → e.resilient = true →
    e.origin.service.RestrictsNobody

theorem step_openStored (hstep : OutageStep S s a s') (hcond : storesOpenOnly s a s')
    (h : s.OpenStored) : s'.OpenStored := by
  intro k e he hres
  cases hstep with
  | event => exact h k e he hres
  | arrive => exact h k e he hres
  | handle => exact h k e he hres
  | select => exact h k e he hres
  | failover => exact h k e he hres
  | lookup hl =>
      have hlook : ∃ key maxStale now,
          (s.cache.lookup key maxStale now).2.entries.lookup k = some e := by
        unfold OutageState.afterLookup at he
        split at he
        · rename_i cache hcache
          exact ⟨_, _, _, by rw [hcache]; exact he⟩
        · rename_i cache hcache
          exact ⟨_, _, _, by rw [hcache]; exact he⟩
        · rename_i lead cache hcache
          exact ⟨_, _, _, by rw [hcache]; exact he⟩
      obtain ⟨_, _, _, hlook⟩ := hlook
      obtain ⟨e₀, he₀, horigin, hres₀⟩ := ResponseCache.lookup_lookup hlook
      rw [horigin]
      exact h k e₀ he₀ (hres₀ ▸ hres)
  | store hl =>
      rcases ServiceAnswer.lookup_keep he with hold | ⟨horigin, hresilient⟩
      · exact h k e hold hres
      · rw [horigin]
        exact hcond.1 _ _ _ _ rfl hl (hresilient ▸ hres)
  | refreshed hr =>
      rcases ServiceAnswer.lookup_keep he with hold | ⟨horigin, hresilient⟩
      · exact h k e hold hres
      · rw [horigin]
        exact hcond.2 _ _ _ rfl (hresilient ▸ hres)
  | stale hl =>
      refine h k e ?_ hres
      have hout : (staleCacheResponse _ s.moment.now s.cache).2.entries.lookup k = some e := he
      unfold staleCacheResponse at hout
      split at hout
      · exact hout
      · exact ResponseCache.lookup_getForOutage hout

theorem staleAsAsked_of_openStored (hstep : OutageStep S s a s') (h : s.OpenStored) :
    staleAsAsked s a s' := by
  rintro i l e rfl hl he
  cases hstep with
  | stale hl' hfall he' hhit =>
      obtain rfl := Option.some.inj (hl.symm.trans hl')
      obtain ⟨hips, hgate⟩ := h _ e he (staleCacheResponse_resilient hhit he)
      refine ⟨?_, Or.inl hgate⟩
      rw [hips]
      rfl

theorem reachable_of_storesOpenOnly (h : ((outageSys S).restrict storesOpenOnly).Reachable s) :
    ((outageSys S).restrict staleAsAsked).Reachable s := by
  have hboth : ((outageSys S).restrict staleAsAsked).Reachable s ∧ s.OpenStored := by
    induction h with
    | @init s hs =>
        have hs' : s = { moment := s.moment } := hs
        refine ⟨.init hs, ?_⟩
        rw [hs']
        rintro k e ⟨⟩
    | step _ hst ih =>
        exact ⟨ih.1.step ⟨hst.1, staleAsAsked_of_openStored hst.1 ih.2⟩,
          step_openStored hst.1 hst.2 ih.2⟩
  exact hboth.1

/-- **Serve-stale within access control**, in every run in which each stale
answer goes to a visitor the service would have been given, and so in every
run that stores copies for an outage only of services that keep nobody
out. -/
theorem stale_within_access
    (h : ((outageSys S).restrict staleAsAsked).Reachable s ∨
      ((outageSys S).restrict storesOpenOnly).Reachable s) : staleWithinAccess s := by
  rcases h with h | h
  · exact staleWithinAccess_of_asAsked h
  · exact staleWithinAccess_of_asAsked (reachable_of_storesOpenOnly h)

/-! ## An address list that goes with its connection -/

section Office

def officeSettings : CacheSettings where
  maxBytes := 1024
  negativeTtl := 0
  etagOf _ := ""

/-- A plain page load, on a server that opens what nothing declares. -/
def officeRequest (ip : IpAddr) : CachedRequest where
  gate := { cfg := { defaultAccess := .allow, cacheEnabled := true, cacheMaxStale := 60 }
            downThreshold := 15 }
  visitor := {}
  host := some "app.test"
  path := "/data"
  callerIp := ip

def officePing : Ping where
  services := [{ hostnameBinds := ["app.test"], allowedIps := ["10.0.0.0/8"], cache := true,
                 resilience := true }]

/-- One service for one network, with its copies kept for an outage. -/
def officeOpen : Moment where
  clients := serveAll ∅ [⟨plainEnv, 1, .connect "c1" { perms := ClientPerms.ofMaster }⟩,
    ⟨plainEnv, 2, .ping "c1" officePing⟩]
  now := 2

def officeClosed : Moment where
  clients := serve officeOpen.clients ⟨plainEnv, 3, .disconnect "c1"⟩
  now := 3

def officePage : ServiceAnswer where
  status := 200
  headers := [("cache-control", "max-age=60")]
  body := [42]

def colleague : CachedRequest := officeRequest (.v4 0x0a000001#32)

theorem setLive_setLive : (s.setLive i l).setLive i l' = s.setLive i l' := by
  simp [OutageState.setLive]

theorem setLive_self : (s.setLive i l).live i = some l := by
  simp [OutageState.setLive]

/-- What a run that gives no stale answer meets. -/
def onlyStale (cond : OutageState → OutageAct → OutageState → Prop) : Prop :=
  ∀ s a s', (∀ i, a ≠ .stale i) → cond s a s'

variable {cond : OutageState → OutageAct → OutageState → Prop} (hcond : onlyStale cond)

include hcond

/-- A handler moves its request on. -/
theorem reachable_handle {a : ProxyAct} {phase : Phase}
    (h : ((outageSys S).restrict cond).Reachable (s.setLive i l))
    (hstep : l.request.Step ⟨s.moment, l.phase⟩ a ⟨s.moment, phase⟩)
    (hquiet : ∀ c client, phase ≠ .selected c client) :
    ((outageSys S).restrict cond).Reachable (s.setLive i { l with phase := phase }) := by
  have hnext := h.step ⟨.handle setLive_self hstep hquiet, hcond _ _ _ (by simp)⟩
  rwa [setLive_setLive] at hnext

/-- A request the gate lets in that finds nothing to wait for. -/
theorem reachable_cleared {R : CachedRequest} (h : ((outageSys S).restrict cond).Reachable s)
    (hnew : s.live i = none) (hcheck : R.check s.moment = .allow none) :
    ((outageSys S).restrict cond).Reachable
      (s.setLive i { request := R, phase := .cleared ⟨s.moment, none⟩ }) := by
  have hask : R.afterAsk s.moment = .waiting (some ⟨s.moment, none⟩) := by
    simp [ProxyRequest.afterAsk, hcheck, ProxyRequest.clearanceOf]
  have hstep : R.Step ⟨s.moment, .arrived⟩ .ask ⟨s.moment, .waiting (some ⟨s.moment, none⟩)⟩ := by
    rw [← hask]
    exact .ask
  have h1 := h.step ⟨OutageStep.arrive (R := R) hnew, hcond _ _ _ (by simp)⟩
  have h2 := reachable_handle hcond h1 hstep (by simp)
  exact reachable_handle hcond h2 .recovered (by simp)

omit hcond

/-- The service as the heartbeat left it. -/
def officeService : ServiceState :=
  ((officeOpen.clients.lookup "c1").bind (·.services.head?)).getD {}

def officeClient : SelectedClient := ⟨"c1", none, none⟩

theorem serves_office : serves officeOpen officeClient officeService :=
  ⟨_, rfl, List.mem_cons_self, by decide⟩

def officeCache : DeclaredCache :=
  officePage.keep officeSettings (officePage.ttl officeSettings) {} colleague.key true 2
    ⟨"c1", officeService⟩

/-- A colleague has been answered, the answer is kept, and the service has
gone. -/
def officeGone : OutageState :=
  { moment := officeClosed, cache := officeCache : OutageState }.setLive 0
    { request := colleague, phase := .answered, eligible := true, resilience := true }

include hcond

theorem reachable_officeOpen :
    ((outageSys officeSettings).restrict cond).Reachable { moment := officeOpen } := by
  have h0 : ((outageSys officeSettings).restrict cond).Reachable { moment := ⟨∅, 0⟩ } := .init rfl
  have h1 := h0.step ⟨OutageStep.event
    (e := ⟨plainEnv, 1, .connect "c1" { perms := ClientPerms.ofMaster }⟩) (by decide),
    hcond _ _ _ (by simp)⟩
  exact h1.step ⟨OutageStep.event (e := ⟨plainEnv, 2, .ping "c1" officePing⟩) (by decide),
    hcond _ _ _ (by simp)⟩

theorem reachable_officeGone :
    ((outageSys officeSettings).restrict cond).Reachable officeGone := by
  have hpick : colleague.pick officeOpen { visitorIp := some colleague.callerIp } =
      .selected officeClient := by decide
  have hstep : colleague.Step ⟨officeOpen, .cleared ⟨officeOpen, none⟩⟩
      (.select { visitorIp := some colleague.callerIp })
      ⟨officeOpen, .selected ⟨officeOpen, none⟩ officeClient⟩ := by
    have hselect := @ProxyRequest.Step.select colleague.toProxyRequest officeOpen ⟨officeOpen, none⟩
      { visitorIp := some colleague.callerIp } rfl
    rw [hpick] at hselect
    exact hselect
  have hdeclares : declaresNow officeOpen officeOpen officeClient officeService := by
    rw [declaresNow, if_pos (by decide)]
    exact serves_office
  let asked : Clearance := ⟨officeOpen, none⟩
  let answeredBy (phase : Phase) : Live :=
    { request := colleague, phase := phase, eligible := true, resilience := true }
  have hcleared := @reachable_cleared officeSettings _ 0 cond hcond colleague
    (reachable_officeOpen hcond) rfl (by decide)
  have hselected : ((outageSys officeSettings).restrict cond).Reachable
      ({ moment := officeOpen : OutageState }.setLive 0
        (answeredBy (.selected asked officeClient))) := by
    have h := hcleared.step ⟨OutageStep.select setLive_self rfl hstep serves_office,
      hcond _ _ _ (by simp)⟩
    rwa [setLive_setLive] at h
  have hflight := reachable_handle hcond hselected .dispatch (by simp)
  have hstored : ((outageSys officeSettings).restrict cond).Reachable
      ({ moment := officeOpen, cache := officeCache : OutageState }.setLive 0
        (answeredBy .answered)) := by
    have h := hflight.step ⟨@OutageStep.store _ _ _ _ _ _ _ officePage _ setLive_self rfl rfl
      hdeclares, hcond _ _ _ (by simp)⟩
    simp only [OutageState.setLive, Function.update_idem] at h
    exact h
  exact hstored.step ⟨OutageStep.event (e := ⟨plainEnv, 3, .disconnect "c1"⟩) (by decide),
    hcond _ _ _ (by simp)⟩

omit hcond

/-- The next visitor has been let in where there is no service any more. -/
def officeAsking (ip : IpAddr) : OutageState :=
  officeGone.setLive 1 { request := officeRequest ip, phase := .cleared ⟨officeClosed, none⟩ }

theorem officeCache_lookup : ∃ e, officeCache.entries.lookup colleague.key = some e ∧
    e.origin = ⟨"c1", officeService⟩ :=
  ⟨_, rfl, rfl⟩

def officeCopy : CacheHit where
  status := 200
  headers := [("cache-control", "max-age=60"), ("etag", "")]
  body := [42]
  ageSecs := 1
  stale := false

-- Neither the gate nor the cache looks at the address.
theorem staleCacheResponse_office (ip : IpAddr) :
    (staleCacheResponse (officeRequest ip) 3 officeCache).1 = some officeCopy := by
  have h : (staleCacheResponse colleague 3 officeCache).1 = some officeCopy := by decide
  exact h

theorem officeRequest_check (ip : IpAddr) :
    (officeRequest ip).check officeClosed = .allow none := by
  have h : colleague.check officeClosed = .allow none := by decide
  exact h

include hcond

theorem reachable_officeStale (ip : IpAddr)
    (hstale : ∀ s', cond (officeAsking ip) (.stale 1) s') :
    ∃ s, ((outageSys officeSettings).restrict cond).Reachable s ∧
      s.answers = [⟨officeRequest ip, officeClosed, ⟨"c1", officeService⟩, officeCopy⟩] := by
  have hasking : ((outageSys officeSettings).restrict cond).Reachable (officeAsking ip) :=
    reachable_cleared hcond (reachable_officeGone hcond) rfl (officeRequest_check ip)
  obtain ⟨e, he, horigin⟩ := officeCache_lookup
  have hfall : Fallback (officeRequest ip) officeClosed (.cleared ⟨officeClosed, none⟩) :=
    @Fallback.noRoute _ _ _ { visitorIp := some ip } rfl rfl rfl rfl
  refine ⟨_, hasking.step
    ⟨.stale setLive_self hfall he (staleCacheResponse_office ip), hstale _⟩, ?_⟩
  rw [← horigin]
  rfl

end Office

/-- Another colleague is given the copy. -/
theorem stale_within_access_colleague : ∃ s, s.answers ≠ [] ∧ staleWithinAccess s := by
  have honly : onlyStale staleAsAsked := by
    rintro s a s' hne i l e rfl
    exact absurd rfl (hne i)
  have hstale : ∀ s', staleAsAsked (officeAsking (.v4 0x0a000002#32)) (.stale 1) s' := by
    rintro s' i l e ⟨⟩ hl he
    obtain rfl := Option.some.inj hl
    obtain ⟨e', he', horigin⟩ := officeCache_lookup
    obtain rfl : e = e' := Option.some.inj (he.symm.trans he')
    rw [horigin]
    exact ⟨by decide, Or.inl (by decide)⟩
  obtain ⟨s, hreach, hanswers⟩ := reachable_officeStale honly (.v4 0x0a000002#32) hstale
  refine ⟨s, ?_, stale_within_access (Or.inl hreach)⟩
  rw [hanswers]
  simp

/-- A visitor from outside the network is given the copy once the service
has gone. -/
theorem stranger_reads_office_page : ∃ s, (outageSys officeSettings).Reachable s ∧
    s.answers =
      [⟨officeRequest (.v4 0xc0a80001#32), officeClosed, ⟨"c1", officeService⟩, officeCopy⟩] ∧
    ipAllowed (.v4 0xc0a80001#32) officeService.allowedIps = false ∧ ¬staleWithinAccess s := by
  have hout : ipAllowed (.v4 0xc0a80001#32) officeService.allowedIps = false := by decide
  obtain ⟨s, hreach, hanswers⟩ := @reachable_officeStale (fun _ _ _ => True)
    (fun _ _ _ _ => trivial) (.v4 0xc0a80001#32) fun _ => trivial
  refine ⟨s, hreach.of_restrict, hanswers, hout, ?_⟩
  intro h
  have hip := (h _ (by rw [hanswers]; exact List.mem_cons_self)).1
  cases hout.symm.trans hip

end Aperio
