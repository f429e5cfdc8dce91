import Aperio.Headers
import Aperio.Outage

/-!
# A canary split

A site's `canary` (`sites/canary.rs`) says which visitors see the new version
of a service: the side of a request is decided once, from a header or from the
visitor's address, and every pick made with it narrows the pool to that side
as long as somebody is left. Requests, heartbeats and disconnects come in any
order, over one response cache; every answer with a service's response is kept
with where it came from.

The split is applied to what the balancing strategy and a pinned connection
have left of the pool, a failover that waits takes whoever comes back, and a
cached answer is under a key that knows no side. `split_holds` says when no
answer crosses the split all the same: a pick that keeps somebody of the
visitor's side, a waiting failover with nobody else to take, an entry that was
stored for a visitor of the same side.
-/

namespace Aperio

/-! ## The rule -/

structure CanaryRule where
  service : String
  weight : Nat
  header : Option String := none
  value : Option String := none
deriving Repr, DecidableEq

/-- The octets of an address, in network order. -/
def ipOctets : IpAddr → List UInt8
  | .v4 a => (List.range 4).map fun i => UInt8.ofNat (a >>> (24 - 8 * i)).toNat
  | .v6 a => (List.range 16).map fun i => UInt8.ofNat (a >>> (120 - 8 * i)).toNat

/-- FNV-1a over the octets, in `0..100`. -/
def bucketOf (ip : IpAddr) : Nat :=
  ((ipOctets ip).foldl (fun hash byte => (hash ^^^ byte.toUInt64) * 0x100000001b3)
    (0xcbf29ce484222325 : UInt64)).toNat % 100

namespace CanaryRule

/-- Somebody asks for the canary by its header. -/
def asked (rule : CanaryRule) (sent : Option String) : Bool :=
  rule.header.any (· != "") && sent.any fun sent =>
    match rule.value with
    | some expected => eqIgnoreAsciiCase sent expected
    | none => trim sent != ""

def sideFor (rule : CanaryRule) (sent : Option String) (visitor : Option IpAddr) : Side :=
  if rule.asked sent then .canary
  else if rule.weight = 0 then .stable
  else if 100 ≤ rule.weight then .canary
  else
    match visitor with
    | none => .stable
    | some ip => if bucketOf ip < rule.weight then .canary else .stable

end CanaryRule

/-- `canary_for`: the most specific matching site that writes one. -/
def canaryFor (rules : List (Site × Option CanaryRule)) (host : Option String) (path : String) :
    Option CanaryRule :=
  (rules.filter (·.1.matchesRoute host path)).findSome? (·.2)

/-- A service of this name is on that side. -/
def onSide (service : String) (side : Side) (name : Option String) : Bool :=
  match side with
  | .canary => name == some service
  | .stable => name != some service

/-! ## The requests -/

/-- A request and the sites' rules as it finds them. -/
structure SplitRequest extends CachedRequest where
  rules : List (Site × Option CanaryRule)

namespace SplitRequest

variable (R : SplitRequest)

/-- The side of the request, decided once. -/
def canary : Option (String × Side) :=
  (canaryFor R.rules R.host R.path).map fun rule =>
    (rule.service, rule.sideFor (rule.header.bind R.headers.get) (some R.callerIp))

/-- The candidates of the route that admit the visitor's address. -/
def admitted (m : Moment) : List ServiceRef :=
  match selectClientPool m.clients R.path R.host m.now R.gate.downThreshold with
  | none => []
  | some (pool, _) =>
    match filterPoolByIp pool m.clients (some R.callerIp) with
    | .inl pool => pool
    | .inr _ => []

/-- What the strategy and a pinned connection leave of them. -/
def left (m : Moment) (args : PickArgs) : List ServiceRef :=
  requireClient (applyLbStrategy (R.admitted m) m.clients args.strategy) args.requirement

end SplitRequest

/-- Nobody of these is on the side. -/
def NoneOnSide (m : Moment) (pool : List ServiceRef) (service : String) (side : Side) : Prop :=
  narrowToSide pool m.clients service side = []

instance {m : Moment} {pool : List ServiceRef} {service : String} {side : Side} :
    Decidable (NoneOnSide m pool service side) :=
  inferInstanceAs (Decidable (narrowToSide pool m.clients service side = []))

/-! ## The run -/

/-- How a service came by a request: the first pick and a retry are made with
the split, a failover that waits is not. -/
inductive PickKind where
  | split
  | waited
deriving Repr, DecidableEq

structure Picked where
  client : SelectedClient
  moment : Moment
  args : PickArgs
  kind : PickKind

inductive SplitPhase where
  | arrived
  | selected (picked : Picked)
  | answered

structure SplitLive where
  request : SplitRequest
  phase : SplitPhase := .arrived
  eligible : Bool := false
  resilience : Bool := false

/-- Where a response that was given to a visitor came from. -/
inductive AnswerSource where
  | service (picked : Picked)
  | cache (origin : Option String) (moment : Moment)

structure SplitAnswer where
  request : SplitRequest
  source : AnswerSource

/-- Whose answer an entry is: the request a service was picked for. -/
structure StoredFor where
  request : SplitRequest
  picked : Picked

/-- A background refresh on its way to the service picked for a request. -/
structure SplitRefresh where
  key : String
  origin : StoredFor
  resilience : Bool

structure SplitState where
  moment : Moment
  cache : ResponseCache StoredFor := {}
  live : Nat → Option SplitLive := fun _ => none
  refreshes : List SplitRefresh := []
  answers : List SplitAnswer := []

def SplitState.setLive (s : SplitState) (i : Nat) (l : SplitLive) : SplitState :=
  { s with live := Function.update s.live i (some l) }

inductive SplitAct where
  | others (moment : Moment)
  | arrive (i : Nat) (R : SplitRequest)
  | select (i : Nat) (args : PickArgs)
  | lookup (i : Nat)
  | stale (i : Nat)
  | answer (i : Nat) (res : ServiceAnswer)
  | failover (i : Nat) (kind : PickKind) (args : PickArgs)
  | refreshed (r : SplitRefresh) (res : ServiceAnswer)
  | finish (i : Nat)

/-- An answer out of the cache ends the request. -/
def SplitState.fromCache (s : SplitState) (i : Nat) (l : SplitLive)
    (cache : ResponseCache StoredFor) (origin : StoredFor) (refreshes : List SplitRefresh) :
    SplitState :=
  { s with
    cache := cache
    refreshes := refreshes
    answers := ⟨l.request, .cache origin.picked.client.serviceName s.moment⟩ :: s.answers }.setLive i
      { l with phase := .answered }

/-- What a lookup does to the request. -/
def SplitState.afterLookup (s : SplitState) (i : Nat) (l : SplitLive) (picked : Picked) :
    SplitState :=
  let key := l.request.key
  match s.cache.lookup key l.request.gate.cfg.cacheMaxStale s.moment.now,
    s.cache.entries.lookup key with
  | (.fresh _, cache), some e => s.fromCache i l cache e.origin s.refreshes
  | (.staleRevalidate _ lead, cache), some e =>
    s.fromCache i l cache e.origin
      (if lead then ⟨key, ⟨l.request, picked⟩, l.resilience⟩ :: s.refreshes else s.refreshes)
  | (_, cache), _ => { s with cache := cache }

/-- Requests, and everything else that happens. A request may end at any point
without an answer of a service. -/
inductive SplitStep (S : CacheSettings) : SplitState → SplitAct → SplitState → Prop
  | others {s : SplitState} {m : Moment} : SplitStep S s (.others m) { s with moment := m }
  | arrive {s : SplitState} {i : Nat} {R : SplitRequest} (hnew : s.live i = none) :
      SplitStep S s (.arrive i R) (s.setLive i { request := R })
  | select {s : SplitState} {i : Nat} {l : SplitLive} {args : PickArgs}
      {client : SelectedClient} {svc : ServiceState} {c : Clearance} (hl : s.live i = some l)
      (hphase : l.phase = .arrived) (hip : args.visitorIp = some l.request.callerIp)
      (hreq : args.requirement = c.forwardClientId.map .client)
      (hcanary : args.canary = l.request.canary)
      (hpick : l.request.pick s.moment args = .selected client)
      (hsvc : serves s.moment client svc) :
      SplitStep S s (.select i args) (s.setLive i
        { l with
          phase := .selected ⟨client, s.moment, args, .split⟩
          eligible := l.request.cacheEligible c svc
          resilience := svc.resilience })
  | lookup {s : SplitState} {i : Nat} {l : SplitLive} {picked : Picked} (hl : s.live i = some l)
      (hphase : l.phase = .selected picked) (helig : l.eligible = true) :
      SplitStep S s (.lookup i) (s.afterLookup i l picked)
  | stale {s : SplitState} {i : Nat} {l : SplitLive} {e : CachedResponse StoredFor}
      {hit : CacheHit} (hl : s.live i = some l) (hphase : l.phase = .arrived)
      (helig : (l.request.gate.cfg.cacheEnabled &&
        requestCacheable l.request.method l.request.headers) = true)
      (he : s.cache.entries.lookup l.request.key = some e)
      (hhit : (s.cache.getForOutage l.request.key l.request.gate.cfg.cacheMaxStale
        s.moment.now).1 = some hit) :
      SplitStep S s (.stale i) (s.fromCache i l
        (s.cache.getForOutage l.request.key l.request.gate.cfg.cacheMaxStale s.moment.now).2
        e.origin s.refreshes)
  | answer {s : SplitState} {i : Nat} {l : SplitLive} {picked : Picked} {res : ServiceAnswer}
      (hl : s.live i = some l) (hphase : l.phase = .selected picked) :
      SplitStep S s (.answer i res)
        ({ s with
           cache :=
             if l.eligible then
               res.keep S (res.ttl S) s.cache l.request.key l.resilience s.moment.now
                 ⟨l.request, picked⟩
             else s.cache
           answers := ⟨l.request, .service picked⟩ :: s.answers }.setLive i
          { l with phase := .answered })
  | failover {s : SplitState} {i : Nat} {l : SplitLive} {picked : Picked} {kind : PickKind}
      {args : PickArgs} {client : SelectedClient} {svc : ServiceState} (hl : s.live i = some l)
      (hphase : l.phase = .selected picked) (hip : args.visitorIp = some l.request.callerIp)
      (hfree : picked.args.requirement.all fun r => !r matches .client _)
      (hreq : args.requirement = none ∨
        kind = .waited ∧ args.requirement = picked.client.instanceId.map .process)
      (hcanary : args.canary = if kind = .split then l.request.canary else none)
      (hpick : l.request.pick s.moment args = .selected client)
      (hsvc : serves s.moment client svc) :
      SplitStep S s (.failover i kind args) (s.setLive i
        { l with
          phase := .selected ⟨client, s.moment, args, kind⟩
          resilience := svc.resilience })
  | refreshed {s : SplitState} {pre post : List SplitRefresh} {r : SplitRefresh}
      {res : ServiceAnswer} (hr : s.refreshes = pre ++ r :: post) (hstatus : res.status = 200) :
      SplitStep S s (.refreshed r res)
        { s with
          cache := res.keep S (responseCacheTtl res.headers) s.cache r.key r.resilience
            s.moment.now r.origin
          refreshes := pre ++ post }
  | finish {s : SplitState} {i : Nat} {l : SplitLive} (hl : s.live i = some l) :
      SplitStep S s (.finish i) (s.setLive i { l with phase := .answered })

def splitSys (S : CacheSettings) : Sys SplitState SplitAct where
  init s := s = { moment := s.moment }
  step := SplitStep S

/-! ## What a split promises -/

/-- The answer came from the visitor's side, unless nobody who admits the
visitor was there. -/
def SplitAnswer.OnItsSide (x : SplitAnswer) : Prop :=
  ∀ service side, x.request.canary = some (service, side) →
    match x.source with
    | .service picked => onSide service side picked.client.serviceName = true ∨
        NoneOnSide picked.moment (x.request.admitted picked.moment) service side
    | .cache origin m => onSide service side origin = true ∨
        NoneOnSide m (x.request.admitted m) service side

namespace SplitRequest

variable (R : SplitRequest) (m : Moment)

/-- A service of this name is on the request's side, unless nobody who admits
the visitor is there. -/
def Kept (name : Option String) : Prop :=
  ∀ service side, R.canary = some (service, side) →
    onSide service side name = true ∨ NoneOnSide m (R.admitted m) service side

/-- Of those who admit the visitor and are on the request's side, if there are
any, somebody is still here. -/
def SideLeft (pool : List ServiceRef) : Prop :=
  ∀ service side, R.canary = some (service, side) →
    NoneOnSide m pool service side → NoneOnSide m (R.admitted m) service side

/-- All of these are on the request's side, unless nobody who admits the
visitor is. -/
def AllOnSide (pool : List ServiceRef) : Prop :=
  ∀ service side, R.canary = some (service, side) →
    (∀ r ∈ pool, r ∈ narrowToSide pool m.clients service side) ∨
      NoneOnSide m (R.admitted m) service side

end SplitRequest

namespace StoredFor

/-- The service picked was on the side of that request, unless nobody was. -/
def Kept (o : StoredFor) : Prop :=
  o.request.Kept o.picked.moment o.picked.client.serviceName

/-- The request is on the side of the one the entry was stored for, and that
one was picked while somebody was there; or nobody who admits the visitor is
there now. -/
def Shares (o : StoredFor) (R : SplitRequest) (m : Moment) : Prop :=
  ∀ service side, R.canary = some (service, side) →
    (o.request.canary = some (service, side) ∧
      ¬NoneOnSide o.picked.moment (o.request.admitted o.picked.moment) service side) ∨
    NoneOnSide m (R.admitted m) service side

theorem Kept.shared {o : StoredFor} {R : SplitRequest} {m : Moment} (h : o.Kept)
    (hshares : o.Shares R m) : R.Kept m o.picked.client.serviceName := by
  intro service side hside
  rcases hshares service side hside with ⟨hsame, hsome⟩ | hnone
  · exact Or.inl ((h service side hsame).resolve_right hsome)
  · exact Or.inr hnone

end StoredFor

/-- Where the split is not lost: a pick made with it finds the side among what
it is left with, a failover that waits finds only that side, and what a request
is answered with out of the cache was stored for a visitor who shares it. -/
def SplitState.KeepsSide (s : SplitState) : SplitAct → Prop
  | .select i args => ∀ l, s.live i = some l →
      l.request.SideLeft s.moment (l.request.left s.moment args)
  | .failover i .split args => ∀ l, s.live i = some l →
      l.request.SideLeft s.moment (l.request.left s.moment args)
  | .failover i .waited args => ∀ l, s.live i = some l →
      l.request.AllOnSide s.moment
        (requireProcess (l.request.left s.moment args) s.moment.clients args.requirement)
  | .lookup i => ∀ l e, s.live i = some l → s.cache.entries.lookup l.request.key = some e →
      s.moment.now < e.expiresAt + e.swr → e.origin.Shares l.request s.moment
  | .stale i => ∀ l e, s.live i = some l → s.cache.entries.lookup l.request.key = some e →
      e.origin.Shares l.request s.moment
  | _ => True

variable {R : SplitRequest} {m : Moment} {args : PickArgs} {client : SelectedClient}
  {service : String} {side : Side}

theorem onSide_of_mem {r : ServiceRef} {pool : List ServiceRef} {svc : ServiceState}
    (h : r ∈ narrowToSide pool m.clients service side) (hget : r.get m.clients = some svc) :
    onSide service side svc.serviceName = true := by
  obtain ⟨-, hside⟩ := List.mem_filter.mp h
  rw [hget, Option.bind_some] at hside
  cases side with
  | canary => exact hside
  | stable => exact hside

/-- What is picked with a split. -/
theorem pick_split (hip : args.visitorIp = some R.callerIp)
    (hcanary : args.canary = some (service, side)) (h : R.pick m args = .selected client) :
    onSide service side client.serviceName = true ∨
      NoneOnSide m (R.left m args) service side := by
  obtain ⟨pool, key, passing, chosen, handle, svc, hpool, hpassing, hmem, -, hget, rfl⟩ :=
    pickProxyClient_selected h
  rw [hip] at hpassing
  have hadmitted : R.admitted m = passing := by
    simp only [SplitRequest.admitted, hpool, hpassing]
  rw [SplitRequest.left, hadmitted]
  replace hmem := mem_requireProcess hmem
  rw [hcanary] at hmem
  by_cases hempty : NoneOnSide m (requireClient
      (applyLbStrategy passing m.clients args.strategy) args.requirement) service side
  · exact Or.inr hempty
  · have hnarrowed : (narrowToSide (requireClient (applyLbStrategy passing m.clients
        args.strategy) args.requirement) m.clients service side).isEmpty = false := by
      rw [List.isEmpty_eq_false_iff]
      exact hempty
    simp only [splitPool, hnarrowed, Bool.false_eq_true, if_false] at hmem
    exact Or.inl (onSide_of_mem hmem hget)

theorem kept_of_pick (hip : args.visitorIp = some R.callerIp) (hcanary : args.canary = R.canary)
    (hleft : R.SideLeft m (R.left m args)) (h : R.pick m args = .selected client) :
    R.Kept m client.serviceName := by
  intro service side hside
  rcases pick_split hip (hcanary.trans hside) h with hon | hnone
  · exact Or.inl hon
  · exact Or.inr (hleft service side hside hnone)

/-- What is picked without one, where all are on the side. -/
theorem kept_of_waited (hip : args.visitorIp = some R.callerIp) (hcanary : args.canary = none)
    (hall : R.AllOnSide m (requireProcess (R.left m args) m.clients args.requirement))
    (h : R.pick m args = .selected client) : R.Kept m client.serviceName := by
  intro service side hside
  obtain ⟨pool, key, passing, chosen, handle, svc, hpool, hpassing, hmem, -, hget, rfl⟩ :=
    pickProxyClient_selected h
  rw [hip] at hpassing
  have hadmitted : R.admitted m = passing := by
    simp only [SplitRequest.admitted, hpool, hpassing]
  rcases hall service side hside with hon | hnone
  · rw [SplitRequest.left, hadmitted] at hon
    rw [hcanary] at hmem
    exact Or.inl (onSide_of_mem (hon chosen hmem) hget)
  · exact Or.inr hnone

/-! ## Runs -/

/-- Requests in hand, answers given and whatever is stored or on its way into
the cache keep the promise. -/
structure SplitState.Sound (s : SplitState) : Prop where
  live : ∀ i l picked, s.live i = some l → l.phase = .selected picked →
    l.request.Kept picked.moment picked.client.serviceName
  answers : ∀ x ∈ s.answers, x.OnItsSide
  stored : ∀ key e, s.cache.entries.lookup key = some e → e.origin.Kept
  refreshes : ∀ r ∈ s.refreshes, r.origin.Kept

variable {s : SplitState} {i : Nat} {l : SplitLive}

theorem SplitState.Sound.setLive (h : s.Sound)
    (hl : ∀ picked, l.phase = .selected picked →
      l.request.Kept picked.moment picked.client.serviceName) :
    (s.setLive i l).Sound := by
  refine ⟨?_, h.answers, h.stored, h.refreshes⟩
  intro j l' picked hj hphase
  by_cases hij : j = i
  · subst hij
    have hself : (s.setLive j l).live j = some l := Function.update_self ..
    rw [hself, Option.some_inj] at hj
    subst hj
    exact hl picked hphase
  · have hother : (s.setLive i l).live j = s.live j := Function.update_of_ne hij ..
    rw [hother] at hj
    exact h.live j l' picked hj hphase

theorem SplitPhase.arrived_ne (picked : Picked) : SplitPhase.arrived ≠ .selected picked := by
  intro h
  cases h

theorem SplitPhase.answered_ne (picked : Picked) : SplitPhase.answered ≠ .selected picked := by
  intro h
  cases h

/-- A request nobody has been picked for promises nothing. -/
theorem SplitState.Sound.setIdle (h : s.Sound) (hl : ∀ picked, l.phase ≠ .selected picked) :
    (s.setLive i l).Sound :=
  h.setLive fun picked hphase => absurd hphase (hl picked)

theorem SplitState.Sound.fromCache (h : s.Sound) {cache : ResponseCache StoredFor}
    {origin : StoredFor} {refreshes : List SplitRefresh}
    (hkept : l.request.Kept s.moment origin.picked.client.serviceName)
    (hstored : ∀ key e, cache.entries.lookup key = some e → e.origin.Kept)
    (hrefreshes : ∀ r ∈ refreshes, r.origin.Kept) :
    (s.fromCache i l cache origin refreshes).Sound :=
  SplitState.Sound.setIdle
    ⟨h.live, List.forall_mem_cons.mpr ⟨hkept, h.answers⟩, hstored, hrefreshes⟩
    SplitPhase.answered_ne

/-- A lookup answers within an entry's lifetime and its window. -/
theorem lookup_within {σ : Type} {c c' : ResponseCache σ} {key : String} {maxStale now : Nat}
    {found : SwrLookup} {e : CachedResponse σ} (he : c.entries.lookup key = some e)
    (h : c.lookup key maxStale now = (found, c')) (hfound : found ≠ .miss) :
    now < e.expiresAt + e.swr := by
  simp only [ResponseCache.lookup, he] at h
  split at h
  · omega
  · split at h
    · assumption
    · exact absurd (Prod.mk.inj h).1.symm hfound

theorem SplitState.Sound.afterLookup (h : s.Sound) {picked : Picked}
    (hpicked : l.request.Kept picked.moment picked.client.serviceName)
    (hshares : ∀ e, s.cache.entries.lookup l.request.key = some e →
      s.moment.now < e.expiresAt + e.swr → e.origin.Shares l.request s.moment) :
    (s.afterLookup i l picked).Sound := by
  have hkept : ∀ e, s.cache.entries.lookup l.request.key = some e →
      s.moment.now < e.expiresAt + e.swr →
        l.request.Kept s.moment e.origin.picked.client.serviceName :=
    fun e he hwithin => (h.stored _ e he).shared (hshares e he hwithin)
  have hstored : ∀ {found cache}, s.cache.lookup l.request.key
      l.request.gate.cfg.cacheMaxStale s.moment.now = (found, cache) →
        ∀ key e, cache.entries.lookup key = some e → e.origin.Kept := by
    intro found cache hfound key e he
    obtain rfl : _ = cache := congrArg Prod.snd hfound
    obtain ⟨e₀, he₀, horigin, -⟩ := ResponseCache.lookup_lookup he
    rw [horigin]
    exact h.stored key e₀ he₀
  simp only [SplitState.afterLookup]
  split
  · rename_i hfound he
    exact h.fromCache (hkept _ he (lookup_within he hfound nofun)) (hstored hfound) h.refreshes
  · rename_i hfound he
    refine h.fromCache (hkept _ he (lookup_within he hfound nofun)) (hstored hfound) ?_
    split
    · exact List.forall_mem_cons.mpr ⟨hpicked, h.refreshes⟩
    · exact h.refreshes
  · rename_i hfound _ _
    exact ⟨h.live, h.answers, hstored hfound, h.refreshes⟩

/-- What is kept is as good as what it is kept from. -/
theorem SplitState.Sound.keep (h : s.Sound) {S : CacheSettings} {res : ServiceAnswer}
    {ttl : Option Nat} {key : String} {resilient : Bool} {origin : StoredFor}
    (horigin : origin.Kept) :
    ∀ k e, (res.keep S ttl s.cache key resilient s.moment.now origin).entries.lookup k = some e →
      e.origin.Kept := by
  intro k e he
  rcases ServiceAnswer.lookup_keep he with hold | ⟨hnew, -⟩
  · exact h.stored k e hold
  · rw [hnew]
    exact horigin

theorem SplitStep.sound {S : CacheSettings} {a : SplitAct} {s' : SplitState}
    (hstep : SplitStep S s a s') (hkeeps : s.KeepsSide a) (h : s.Sound) : s'.Sound := by
  cases hstep with
  | others => exact ⟨h.live, h.answers, h.stored, h.refreshes⟩
  | arrive hnew => exact h.setIdle SplitPhase.arrived_ne
  | select hl hphase hip hreq hcanary hpick hsvc =>
      refine h.setLive ?_
      rintro picked ⟨⟩
      have hkept := kept_of_pick hip hcanary (hkeeps _ hl) hpick
      exact hkept
  | lookup hl hphase helig =>
      exact h.afterLookup (h.live _ _ _ hl hphase) fun e => hkeeps _ e hl
  | stale hl hphase helig he hhit =>
      exact h.fromCache ((h.stored _ _ he).shared (hkeeps _ _ hl he))
        (fun key e hcopy => h.stored key e (ResponseCache.lookup_getForOutage hcopy)) h.refreshes
  | @answer i l picked res hl hphase =>
      have hpicked := h.live i l picked hl hphase
      refine SplitState.Sound.setIdle
        ⟨h.live, List.forall_mem_cons.mpr ⟨hpicked, h.answers⟩, ?_, h.refreshes⟩
        SplitPhase.answered_ne
      dsimp only
      split
      · exact h.keep hpicked
      · exact h.stored
  | @failover i l picked kind args client svc hl hphase hip hfree hreq hcanary hpick hsvc =>
      refine h.setLive ?_
      rintro picked ⟨⟩
      cases kind with
      | split =>
          have hkept := kept_of_pick hip hcanary (hkeeps _ hl) hpick
          exact hkept
      | waited =>
          have hkept := kept_of_waited hip hcanary (hkeeps _ hl) hpick
          exact hkept
  | @refreshed pre post r res hr hstatus =>
      have hall := h.refreshes
      rw [hr, List.forall_mem_append, List.forall_mem_cons] at hall
      obtain ⟨hpre, hown, hpost⟩ := hall
      exact ⟨h.live, h.answers, h.keep hown, List.forall_mem_append.mpr ⟨hpre, hpost⟩⟩
  | finish hl => exact h.setIdle SplitPhase.answered_ne

/-- **The split holds** in every run whose steps keep the visitors' sides:
every answer with a service's response, picked for the visitor, taken over by a
failover, or out of the cache, came from the visitor's side, unless nobody who
admits the visitor was there. -/
theorem split_holds {S : CacheSettings}
    (hs : ((splitSys S).restrict fun s a _ => s.KeepsSide a).Reachable s) :
    ∀ x ∈ s.answers, x.OnItsSide := by
  have hsound : s.Sound := by
    refine hs.invariant ?_ fun _ _ _ _ h hstep => hstep.1.sound hstep.2 h
    intro s hinit
    have hstart : s = { moment := s.moment } := hinit
    rw [hstart]
    refine ⟨?_, fun x hx => absurd hx List.not_mem_nil, ?_, fun r hr => absurd hr List.not_mem_nil⟩
    · intro i l picked hl
      cases hl
    · intro key e he
      cases he
  exact hsound.answers

/-! ## Everybody on the new version -/

/-- A site over every hostname sends everybody to `v2`. -/
def everybody : List (Site × Option CanaryRule) :=
  [({ hostname := "*", path := none, access := none, path_normal := Site.noPath_normal },
    some { service := "v2", weight := 100 })]

/-- A connection that carries one service for every hostname. -/
def carries (name : String) : ClientHandle where
  connectedAt := 0
  clientIp := ""
  perms := ClientPerms.ofMaster
  services := [{ catchAll := true, serviceName := some name }]

def bothVersions : Moment where
  clients := ((∅ : Clients).insert "a" (carries "v2")).insert "b" (carries "v1")
  now := 0

def asksForPage : SplitRequest where
  gate := { downThreshold := 5 }
  visitor := {}
  host := none
  path := "/"
  callerIp := .v4 0x7f000001#32
  rules := everybody

/-- A pick for that visitor. -/
def pageArgs (canary : Option (String × Side)) (cursor : Nat) : PickArgs where
  visitorIp := some (.v4 0x7f000001#32)
  canary := canary
  cursor := cursor

def plainCache : CacheSettings where
  maxBytes := 0
  negativeTtl := 0
  etagOf _ := ""

def page : ServiceAnswer where
  status := 200
  headers := []
  body := []

def noClearance : Clearance := ⟨bothVersions, none⟩

def newVersion : SelectedClient := ⟨"a", some "v2", none⟩

def oldVersion : SelectedClient := ⟨"b", some "v1", none⟩

/-- The request has arrived. -/
def pageAsked : SplitState :=
  ({ moment := bothVersions } : SplitState).setLive 0 { request := asksForPage }

def pickedNew : Picked :=
  ⟨newVersion, bothVersions, pageArgs (some ("v2", .canary)) 0, .split⟩

/-- It has been given to the new version. -/
def givenToNew : SplitState :=
  pageAsked.setLive 0 { request := asksForPage, phase := .selected pickedNew }

theorem asksForPage_canary : asksForPage.canary = some ("v2", .canary) := by decide

/-- The new version is among what the first pick is left with. -/
theorem pageAsked_keepsSide :
    pageAsked.KeepsSide (.select 0 (pageArgs (some ("v2", .canary)) 0)) := by
  intro l hl service side hside hnone
  obtain rfl : { request := asksForPage } = l := Option.some.inj hl
  obtain ⟨rfl, rfl⟩ := Prod.mk.inj (Option.some.inj (asksForPage_canary.symm.trans hside))
  exact absurd hnone (by decide)

theorem reachable_givenToNew :
    ((splitSys plainCache).restrict fun s a _ => s.KeepsSide a).Reachable givenToNew := by
  have hstart : ((splitSys plainCache).restrict fun s a _ => s.KeepsSide a).Reachable
      { moment := bothVersions } := .init rfl
  have harrive : SplitStep plainCache { moment := bothVersions } (.arrive 0 asksForPage) pageAsked :=
    .arrive rfl
  have hserves : serves bothVersions newVersion { catchAll := true, serviceName := some "v2" } :=
    ⟨carries "v2", rfl, List.mem_singleton_self _, rfl⟩
  have hselect : SplitStep plainCache pageAsked (.select 0 (pageArgs (some ("v2", .canary)) 0))
      givenToNew := by
    refine SplitStep.select (s := pageAsked) (l := { request := asksForPage }) (c := noClearance)
      rfl rfl rfl rfl ?_ ?_ hserves
    · decide
    · decide
  exact .step (.step hstart ⟨harrive, trivial⟩) ⟨hselect, pageAsked_keepsSide⟩

/-- The answer to it is the new version's. -/
theorem split_holds_page : ∃ s, (splitSys plainCache).Reachable s ∧
    ∃ x ∈ s.answers, ∃ picked, x.source = .service picked ∧
      onSide "v2" .canary picked.client.serviceName = true := by
  have hanswer : SplitStep plainCache givenToNew (.answer 0 page) _ := .answer rfl rfl
  have hs := reachable_givenToNew.step ⟨hanswer, trivial⟩
  refine ⟨_, hs.of_restrict, _, List.mem_cons_self, _, rfl, ?_⟩
  rcases split_holds hs _ List.mem_cons_self "v2" .canary asksForPage_canary with hside | hnone
  · exact hside
  · exact absurd hnone (by decide)

/-- Its connection is lost, and another one carries the new version. -/
def cameBackElsewhere : Moment where
  clients := ((∅ : Clients).insert "c" (carries "v2")).insert "b" (carries "v1")
  now := 1

def waitedForOld : Picked :=
  ⟨oldVersion, cameBackElsewhere, pageArgs none 0, .waited⟩

/-- A failover that waits takes the old version, though the new one is
there. -/
theorem waiting_crosses_split : ∃ s, (splitSys plainCache).Reachable s ∧
    ∃ x ∈ s.answers, ¬x.OnItsSide := by
  have hlost : SplitStep plainCache givenToNew (.others cameBackElsewhere)
      { givenToNew with moment := cameBackElsewhere } := .others
  have hserves : serves cameBackElsewhere oldVersion
      { catchAll := true, serviceName := some "v1" } :=
    ⟨carries "v1", rfl, List.mem_singleton_self _, rfl⟩
  have hfailover : SplitStep plainCache { givenToNew with moment := cameBackElsewhere }
      (.failover 0 .waited (pageArgs none 0))
      (({ givenToNew with moment := cameBackElsewhere } : SplitState).setLive 0
        { request := asksForPage, phase := .selected waitedForOld }) := by
    refine SplitStep.failover (s := { givenToNew with moment := cameBackElsewhere })
      (l := { request := asksForPage, phase := .selected pickedNew }) rfl rfl rfl rfl
      (Or.inl rfl) rfl ?_ hserves
    decide
  have hanswer : SplitStep plainCache _ (.answer 0 page) _ :=
    .answer (s := ({ givenToNew with moment := cameBackElsewhere } : SplitState).setLive 0
      { request := asksForPage, phase := .selected waitedForOld }) rfl rfl
  refine ⟨_, ((reachable_givenToNew.of_restrict.step hlost).step hfailover).step hanswer, _,
    List.mem_cons_self, ?_⟩
  intro h
  rcases h "v2" .canary (by decide) with hside | hnone
  · exact absurd hside (by decide)
  · exact absurd hnone (by decide)

end Aperio
