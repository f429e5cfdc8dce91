import Aperio.Explain
import Aperio.HostPatterns
import Aperio.Passwords

/-!
# A request nothing gets in the way of

A visitor who brings nothing with them, on a server that has room for them:
no list turns the address away, no bucket is empty, no copy stands in for an
answer. What is left of the handler is the site's answer, the gate, the
firewall, and whether somebody serves the route.
-/

namespace Aperio

/-! ## Who would serve it -/

section Served

variable {clients : Clients} {ip : IpAddr} {pool : List ServiceRef}

/-- No service's list turns the address away. -/
def AddressAdmitted (clients : Clients) (ip : IpAddr) : Prop :=
  ∀ e ∈ clients.entries, ∀ s ∈ e.2.services, s.admitsIp ip = true

theorem filterPoolByIp_admitted (h : AddressAdmitted clients ip) (hne : pool ≠ [])
    (hpool : ∀ r ∈ pool, ∃ e ∈ clients.entries, ∃ s ∈ e.2.services, r.get clients = some s) :
    filterPoolByIp pool clients (some ip) = .inl pool := by
  have hall : (pool.filter fun r => (r.get clients).all (·.admitsIp ip)) = pool := by
    rw [List.filter_eq_self]
    intro r hr
    obtain ⟨e, he, s, hs, hget⟩ := hpool r hr
    rw [hget]
    exact h e he s hs
  simp only [filterPoolByIp, hall, List.isEmpty_iff, if_neg hne]

/-- The lowest priority is somebody's. -/
theorem applyLbStrategy_ne_nil (strategy : LbStrategy) (hne : pool ≠ [])
    (hpool : ∀ r ∈ pool, ∃ e ∈ clients.entries, ∃ s ∈ e.2.services, r.get clients = some s) :
    applyLbStrategy pool clients strategy ≠ [] := by
  cases strategy with
  | roundRobin => exact hne
  | sticky => exact hne
  | primaryStandby =>
      obtain ⟨r, hr⟩ := List.exists_mem_of_ne_nil _ hne
      obtain ⟨-, -, s, -, hget⟩ := hpool r hr
      have hmem : s.priority ∈ (pool.filterMap (·.get clients)).map (·.priority) :=
        List.mem_map_of_mem (List.mem_filterMap.mpr ⟨r, hr, hget⟩)
      obtain ⟨m, hm⟩ := Option.isSome_iff_exists.mp
        (List.isSome_min?_of_ne_nil (List.ne_nil_of_mem hmem))
      obtain ⟨t, ht, htm⟩ := List.mem_map.mp (List.min?_mem hm)
      obtain ⟨q, hq, hqget⟩ := List.mem_filterMap.mp ht
      refine List.ne_nil_of_mem (a := q) (List.mem_filter.mpr ⟨hq, ?_⟩)
      simp [hqget, hm, htm]

variable {path : String} {host : Option String} {now downThreshold : Nat}

theorem pool_services {key : RouteGroupKey}
    (h : selectClientPool clients path host now downThreshold = some (pool, key)) :
    ∀ r ∈ pool, ∃ e ∈ clients.entries, ∃ s ∈ e.2.services, r.get clients = some s := by
  intro r hr
  obtain ⟨e, he, s, hs, hget, -⟩ := mem_pool_couldServe h hr
  exact ⟨e, he, s, hs, hget⟩

variable (clients) in
/-- A split never leaves nobody. -/
theorem splitPool_ne_nil (canary : Option (String × Side)) (hne : pool ≠ []) :
    splitPool pool clients canary ≠ [] := by
  simp only [splitPool]
  split
  · exact hne
  · split
    · exact hne
    · rename_i hempty
      simpa using hempty

variable (clients) in
theorem choose_isSome (args : PickArgs) (hne : pool ≠ []) :
    (choose pool clients args).isSome = true := by
  have hcursor : (pool[args.cursor % pool.length]?).isSome = true := by
    rw [List.getElem?_eq_getElem (Nat.mod_lt _ (List.length_pos_iff.mpr hne))]
    rfl
  simp only [choose]
  split
  · rw [List.isSome_head?]
    exact hne
  · rw [Option.isSome_or, hcursor, Bool.or_true]

/-- A route somebody serves is given to somebody, unless the pick requires
one connection or process. -/
theorem pickProxyClient_selects {key : RouteGroupKey} {args : PickArgs}
    (hpool : selectClientPool clients path host now downThreshold = some (pool, key))
    (hadmitted : AddressAdmitted clients ip) (hip : args.visitorIp = some ip)
    (hreq : args.requirement = none) :
    ∃ client, pickProxyClient clients path host now downThreshold args = .selected client := by
  have hne := selectClientPool_ne_nil hpool
  have hserved := pool_services hpool
  have hleft := applyLbStrategy_ne_nil args.strategy hne hserved
  obtain ⟨chosen, hchosen⟩ := Option.isSome_iff_exists.mp
    (choose_isSome clients args (splitPool_ne_nil clients args.canary hleft))
  have hmem : chosen ∈ pool := mem_applyLbStrategy (mem_splitPool (choose_mem hchosen))
  obtain ⟨-, -, s, -, hget⟩ := hserved chosen hmem
  obtain ⟨h, hlook, -⟩ := ServiceRef.get_eq_some.mp hget
  refine ⟨⟨chosen.client, s.serviceName, h.reportedInstanceId⟩, ?_⟩
  simp only [pickProxyClient, hpool, hip, filterPoolByIp_admitted hadmitted hne hserved, hreq,
    requireClient, requireProcess, hchosen, hlook, hget]

end Served

/-! ## The gate, for a stranger -/

section Stranger

variable {G : GateState} {v : Visitor} {host : Option String} {path : String}

variable (G host) in
theorem not_session (hv : v.sessionCookie = none) :
    validateSessionForVisitor G.toAuthState v.toPresented host = false := by
  simp [validateSessionForVisitor, validateSession, sessionScope, hv]

theorem applyRequestMethods_declared {p : Policy} {resp : Refusal} :
    applyRequestMethods G v p host path ≠ some (.undeclared resp) := by
  intro h
  simp only [applyRequestMethods] at h
  split at h
  · split at h
    · split at h
      · cases h
      · cases h
    · cases h
  · obtain ⟨cfg, -, hcfg⟩ := List.exists_of_findSome?_eq_some h
    obtain ⟨token, -, htoken⟩ := Option.bind_eq_some_iff.mp hcfg
    obtain ⟨who, -, hwho⟩ := Option.map_eq_some_iff.mp htoken
    cases hwho

theorem shareOrRefuse_declared {held : Option String} {refusal resp : Refusal} :
    shareOrRefuse G v host path held refusal ≠ .undeclared resp := by
  intro h
  simp only [shareOrRefuse] at h
  split at h
  · cases h
  · cases h
  · cases h

/-- Only the posture leaves a route undeclared. -/
theorem closed_of_undeclared {gate : RouteGate} {resp : Refusal}
    (h : answer G v host path gate = .undeclared resp) : gate = .closed := by
  cases gate with
  | opened => cases h
  | closed => rfl
  | policy origin p =>
      exfalso
      simp only [answer, admitBy] at h
      split at h
      · cases h
      · split at h
        · cases h
        · split at h
          · rename_i hreq
            rw [h] at hreq
            exact applyRequestMethods_declared hreq
          · split at h
            · cases h
            · exact shareOrRefuse_declared h
  | password =>
      exfalso
      simp only [answer, admitByPassword] at h
      split at h
      · cases h
      · exact shareOrRefuse_declared h

theorem serverGate_closed {cfg : ServerConfig} (h : serverGate cfg = .closed) :
    cfg.visitorAuth.gates = false ∧ cfg.defaultAccess = .deny := by
  simp only [serverGate] at h
  split at h
  · cases h
  · rename_i hgates
    split at h
    · exact ⟨by simpa using hgates, by assumption⟩
    · cases h

/-- Nothing gates or opens a route that is undeclared. -/
theorem posture_of_undeclared {resp : Refusal}
    (h : checkVisitorGate G v host path = .undeclared resp) :
    resp = .notPublished ∧ routeIsPublic G path host = false ∧
      G.cfg.visitorAuth.gates = false ∧ G.cfg.defaultAccess = .deny := by
  by_cases htrav : requestPathHasTraversal path = true
  · have hpub : routeIsPublic G path host = false := by simp [routeIsPublic, routePool, htrav]
    simp only [checkVisitorGate, htrav, if_true, checkTraversal] at h
    split at h
    · split at h
      · cases h
      · cases h
    · rename_i hgated
      split at h
      · cases h
      · simp only [admitByPosture] at h
        split at h
        · rename_i hdeny
          split at h
          · cases h
          · cases h
            exact ⟨rfl, hpub, (ungated_iff.mp (by simpa using hgated)).1, hdeny⟩
        · cases h
  · rw [checkVisitorGate_eq (by simpa using htrav)] at h
    have hclosed := closed_of_undeclared h
    have hresp : resp = .notPublished := by
      rw [hclosed] at h
      simp only [answer] at h
      split at h
      · cases h
      · exact (VisitorGate.undeclared.inj h).symm
    simp only [routeGate] at hclosed
    split at hclosed
    · cases hclosed
    · cases hclosed
    · split at hclosed
      · simp only [declaredGate] at hclosed
        split at hclosed
        · cases hclosed
        · cases hclosed
      · split at hclosed
        · cases hclosed
        · split at hclosed
          · cases hclosed
          · rename_i hpub
            exact ⟨hresp, by simpa using hpub, serverGate_closed hclosed⟩

/-- A stranger is not let into a route the report calls undeclared. -/
theorem not_allowed (hv : v.sessionCookie = none)
    (haccess : G.cfg.sites.accessFor host path = none)
    (hclients : hostHasVisitorAuth G host = false) (hserver : G.cfg.visitorAuth.gates = false)
    (hdeny : G.cfg.defaultAccess = .deny) (hpub : routeIsPublic G path host = false)
    (hdeclared : ∀ p, routeVisitorPolicy G path host = some p → p.admitsEveryone = true →
      routeIsPublic G path host = true) :
    (checkVisitorGate G v host path).isAllow = false := by
  have hsession := not_session G host hv
  by_cases htrav : requestPathHasTraversal path = true
  · simp only [checkVisitorGate, htrav, if_true, checkTraversal, hsession, Bool.false_eq_true,
      if_false]
    split
    · rfl
    · split
      · rename_i hopen
        have hdeclared : (G.cfg.sites.accessFor host path).isSome = true :=
          Sites.accessFor_of_publicOnHost hopen
        rw [haccess] at hdeclared
        cases hdeclared
      · simp [admitByPosture, hdeny, hsession, VisitorGate.isAllow]
  · have hgate : routeGate G host path = .closed := by
      simp only [routeGate, haccess]
      cases hpol : routeVisitorPolicy G path host with
      | some p =>
          exfalso
          by_cases hopen : p.admitsEveryone = true
          · rw [hdeclared p hpol hopen] at hpub
            cases hpub
          · rw [hostHasVisitorAuth_of_policy hpol (by simpa [Policy.gates] using hopen)] at hclients
            cases hclients
      | none =>
          cases hpass : routeVisitorAuth G path host with
          | some creds =>
              rw [hostHasVisitorAuth_of_password hpass] at hclients
              cases hclients
          | none => simp [hpub, serverGate, hserver, hdeny]
    rw [checkVisitorGate_eq (by simpa using htrav), hgate]
    simp [answer, hsession, VisitorGate.isAllow]

end Stranger

/-! ## The plain request -/

theorem hostname_char {h : String} (hlabels : ∀ label ∈ split h '.', hostnameLabelOk label = true)
    {c : Char} (hc : c ∈ h.toList) : c = '.' ∨ c = '-' ∨ isAsciiAlphanumeric c = true := by
  by_cases hdot : c = '.'
  · exact .inl hdot
  obtain ⟨part, hpart, hin⟩ := @exists_mem_splitOnP _ (· == '.') _ _ hc (by simpa using hdot)
  have hok := hlabels (String.ofList part) (List.mem_map_of_mem hpart)
  simp only [hostnameLabelOk, Bool.and_eq_true, String.toList_ofList, List.all_eq_true,
    Bool.or_eq_true, beq_iff_eq] at hok
  exact .inr (hok.2 c hin).symm

theorem alphanumeric_plain {c : Char} (h : isAsciiAlphanumeric c = true) :
    isWhiteSpace c = false ∧ c ≠ ':' ∧ c ≠ '[' := by
  simp only [isAsciiAlphanumeric, isAsciiDigit, Bool.or_eq_true, Bool.and_eq_true,
    decide_eq_true_eq, Char.le_def, UInt32.le_iff_toNat_le] at h
  have hn : (0x30 ≤ c.toNat ∧ c.toNat ≤ 0x39) ∨ (0x61 ≤ c.toNat ∧ c.toNat ≤ 0x7A) ∨
      (0x41 ≤ c.toNat ∧ c.toNat ≤ 0x5A) := by
    rcases h with (h | h) | h
    · exact Or.inl h
    · exact Or.inr (Or.inl h)
    · exact Or.inr (Or.inr h)
  refine ⟨?_, ?_, ?_⟩
  · simp only [isWhiteSpace, Bool.or_eq_false_iff, Bool.and_eq_false_iff, decide_eq_false_iff_not]
    omega
  · rintro rfl
    exact absurd hn (by decide)
  · rintro rfl
    exact absurd hn (by decide)

/-- A hostname is the host its own `Host` header names. -/
theorem extractRequestHost_normal {raw h : String} (hh : normalizeHostnameBind raw = some h) :
    extractRequestHost (some h) = some h := by
  obtain ⟨hlower, hlabels⟩ := normalizeHostnameBind_eq_some hh
  have hchar : ∀ c ∈ h.toList, isWhiteSpace c = false ∧ c ≠ ':' ∧ c ≠ '[' := by
    intro c hc
    rcases hostname_char hlabels hc with rfl | rfl | halnum
    · decide
    · decide
    · exact alphanumeric_plain halnum
  have hne : h ≠ "" := by
    rintro rfl
    exact absurd (hlabels "" (by decide)) (by decide)
  have htrim : trim h = h := trim_eq_self fun c hc => (hchar c hc).1
  have hlow : toAsciiLowercase h = h := toAsciiLowercase_eq_self hlower
  have hbracket : stripPrefix h "[" = none := by
    rw [stripPrefix, if_neg]
    intro hstarts
    obtain ⟨rest, hrest⟩ := startsWith_iff.mp hstarts
    have hmem : '[' ∈ h.toList := by
      rw [← hrest]
      exact List.mem_append_left _ (by decide)
    exact (hchar _ hmem).2.2 rfl
  have hport : split h ':' = [h] := split_eq_singleton fun hc => (hchar ':' hc).2.1 rfl
  simp [extractRequestHost, htrim, hlow, hbracket, hport, hne]

namespace SiteServer

variable {R : Type} (S : SiteServer R) (r : FrontRequest)

/-! ## The two fronts -/

/-- What a front sees of an answer: whether it was handed on, and if not,
which check it ended at. -/
def front : PlainAnswer → FrontAnswer
  | .limited limit => .limited limit
  | .gated resp => .gated resp
  | .undeclared => .gated .notPublished
  | .blocked _ => .blocked
  | .elsewhere redirect => .elsewhere redirect
  | .cached client _ => .tunnel client
  | .dispatched client => .tunnel client
  | .socket answer => answer
  | _ => .unserved

variable {S r} {b : Budgets} {identity : Option VisitorIdentity} {client : SelectedClient}

/-! ## What gets in the way -/

variable (S r)

/-- What the report does not judge goes well: the server has been used, no
list turns the address away, the buckets and slots have room, no copy stands
in for an answer, no rule of the firewall is about the `Host` header, and the
gate neither asks the visitor for something nor pins a connection. -/
structure Unhindered : Prop where
  used : S.firstRun r = false
  address : AddressAdmitted S.gate.clients r.callerIp
  owners : ∀ record ∈ S.scaling, S.visitorAllowed record r.callerIp = true
  ipRoom : S.IpAdmits r
  slot : S.activeProxiedRequests < S.maxConcurrentRequests
  routeRoom : (S.budgets.checkRouteRateLimit S.limits r.host r.path r.method S.clock).1 = true
  tokenRoom : ∀ identity client, S.pick r identity (S.canarySide r) = .selected client →
    (S.budgets.checkTokenLimits S.limits (S.tokenId client) S.clock).1 = none
  noStale : (staleCacheResponse (S.cachedRequest r) S.gate.now S.cache).1 = none
  noCopy : ∀ identity client, S.cachedCopy r identity client = .dispatched client
  headers : S.firewall.wafDeny S.isMatch r.host r.method r.path r.headers =
    S.firewall.wafDeny S.isMatch r.host r.method r.path []
  asked : ∀ resp, checkVisitorGate (S.gateFor r.headers) r.visitor r.host r.path ≠ .deny resp
  unpinned : ∀ identity, checkVisitorGate (S.gateFor r.headers) r.visitor r.host r.path =
    .allow identity → identity.bind (·.forwardClientId) = none

/-- The report takes the handler's way. A policy that admits everybody is
declared as `public`; a route nothing declares trips no firewall rule, and has
neither a gate beside it on its hostname, where somebody serves it, nor a
fallback, where nobody does; a request that is held has no rule and no
fallback waiting behind the hold; and the organization of whoever serves the
route is within its quota. -/
structure Straight : Prop where
  declared : ∀ p, routeVisitorPolicy S.gate r.path r.host = some p → p.admitsEveryone = true →
    routeIsPublic S.gate r.path r.host = true
  undeclared : ∀ resp, checkVisitorGate (S.gateFor r.headers) r.visitor r.host r.path =
      .undeclared resp →
    S.firewall.wafDeny S.isMatch r.host r.method r.path [] = none ∧
      (S.routeExists r = true → S.gate.cfg.sites.accessFor r.host r.path = none ∧
        hostHasVisitorAuth S.gate r.host = false) ∧
      (S.routeExists r = false → S.sites.fallbackFor r.host = none)
  held : S.routeExists r = false → S.worthWaitingForRoute = true →
    S.firewall.wafDeny S.isMatch r.host r.method r.path [] = none ∧
      S.sites.fallbackFor r.host = none
  quota : ∀ identity client, S.pick r identity (S.canarySide r) = .selected client →
    S.budgets.orgOverMonthBytes S.limits (S.orgId client) = false

variable {S r} {hostname path method : String}

theorem orStale_of_none {a : PlainAnswer}
    (h : (staleCacheResponse (S.cachedRequest r) S.gate.now S.cache).1 = none) :
    S.orStale r a = a := by
  rw [orStale, h]

theorem cachedCopy_of_absent {identity : Option VisitorIdentity} {client : SelectedClient}
    (h : S.cache.entries.lookup (S.cachedRequest r).key = none) :
    S.cachedCopy r identity client = .dispatched client := by
  simp only [cachedCopy, ResponseCache.lookup, h]
  split <;> rfl

/-- What the report calls served is what the handler finds a route for. -/
theorem routeServed_eq {ip : Option IpAddr} {pool : List ServiceRef} {key : RouteGroupKey}
    {host : Option String}
    (hpool : selectClientPool S.gate.clients path host S.gate.now S.gate.downThreshold =
      some (pool, key)) (hip : ∀ a ∈ ip, AddressAdmitted S.gate.clients a) :
    S.routeServed path host ip = true := by
  have hne := selectClientPool_ne_nil hpool
  have hserved := pool_services hpool
  have hfilter : filterPoolByIp pool S.gate.clients ip = .inl pool := by
    cases ip with
    | none => rfl
    | some a => exact filterPoolByIp_admitted (hip a rfl) hne hserved
  simp only [routeServed, hpool, hfilter]
  have hleft := applyLbStrategy_ne_nil S.strategy hne hserved
  cases hlb : applyLbStrategy pool S.gate.clients S.strategy with
  | nil => exact absurd hlb hleft
  | cons _ _ => rfl

theorem routeExists_eq_routeServed : S.routeExists r = S.routeServed r.path r.host
    (some r.callerIp) := rfl

/-- The deny rules, whether or not the handler takes the short way round. -/
theorem wafDeny_fast {host : Option String} {headers : InboundHeaders} :
    (if S.firewall.hasWaf then S.firewall.wafDeny S.isMatch host method path headers else none) =
      S.firewall.wafDeny S.isMatch host method path headers := by
  split
  · rfl
  · rename_i hwaf
    have hnone : S.firewall.matching host path = [] :=
      Firewall.matching_of_no_waf (by simpa using hwaf)
    simp [Firewall.wafDeny, hnone]

/-! ## The handler, for a plain request -/

theorem isWebsocketUpgrade_of_host {h : String} {hname} :
    isWebsocketUpgrade method [⟨"host", some h, hname⟩] = false := by
  simp [isWebsocketUpgrade, InboundHeaders.get]

theorem pool_of_unserved (haddr : AddressAdmitted S.gate.clients r.callerIp)
    (hroute : S.routeExists r = false) :
    selectClientPool S.gate.clients r.path r.host S.gate.now S.gate.downThreshold = none := by
  cases hpool : selectClientPool S.gate.clients r.path r.host S.gate.now
      S.gate.downThreshold with
  | none => rfl
  | some found =>
      have hserved : S.routeServed r.path r.host (some r.callerIp) = true :=
        routeServed_eq hpool (by rintro a ⟨⟩; exact haddr)
      rw [← routeExists_eq_routeServed, hroute] at hserved
      cases hserved

theorem pool_of_served (hroute : S.routeExists r = true) :
    ∃ found, selectClientPool S.gate.clients r.path r.host S.gate.now S.gate.downThreshold =
      some found := by
  rw [← Option.isSome_iff_exists]
  by_contra hnone
  simp only [FrontServer.routeExists, Option.not_isSome_iff_eq_none.mp hnone] at hroute
  cases hroute

variable {canary : Option (String × Side)}

theorem pick_of_unserved (haddr : AddressAdmitted S.gate.clients r.callerIp)
    (hroute : S.routeExists r = false) : S.pick r identity canary = .noRoute := by
  simp only [FrontServer.pick, pickProxyClient, pool_of_unserved haddr hroute]

variable (canary) in
theorem pick_of_served (haddr : AddressAdmitted S.gate.clients r.callerIp)
    (hpin : identity.bind (·.forwardClientId) = none) (hroute : S.routeExists r = true) :
    ∃ client, S.pick r identity canary = .selected client := by
  obtain ⟨⟨pool, key⟩, hpool⟩ := pool_of_served hroute
  refine pickProxyClient_selects hpool haddr rfl ?_
  simp [FrontServer.pickArgs, hpin]

theorem orFallback_of_some {rule : Redirect} (h : S.sites.fallbackFor r.host = some rule) :
    S.orFallback r = .fallback
      { status := rule.status
        location := (some (rule.location r.path r.query)).filter headerValueOk } := by
  rw [orFallback, h]

theorem orFallback_of_none (h : S.sites.fallbackFor r.host = none) :
    S.orFallback r = .unserved := by
  rw [orFallback, h]

/-- Past the gate, the firewall is the first to refuse. -/
theorem afterAdmitted_blocked {b : Budgets} {reason : String} (hu : S.Unhindered r)
    (hwaf : S.firewall.wafDeny S.isMatch r.host r.method r.path [] = some reason) :
    S.afterAdmitted r b identity = { answer := .blocked reason } := by
  have hdenied := wafDeny_fast.trans (hu.headers.trans hwaf)
  simp only [afterAdmitted, if_neg (Nat.not_le.mpr hu.slot), hdenied]

theorem afterAdmitted_of_unblocked (hu : S.Unhindered r)
    (hwaf : S.firewall.wafDeny S.isMatch r.host r.method r.path [] = none) :
    S.afterAdmitted r (S.budgets.checkRateLimit S.limits r.callerIp S.clock).2 identity =
      { answer := S.afterRules r ((S.budgets.checkRateLimit S.limits r.callerIp
            S.clock).2.checkRouteRateLimit S.limits r.host r.path r.method S.clock).2 identity
        coldStart := S.coldStartOf r (!S.routeExists r) } := by
  have hdenied := wafDeny_fast.trans (hu.headers.trans hwaf)
  have hroute : ((S.budgets.checkRateLimit S.limits r.callerIp S.clock).2.checkRouteRateLimit
      S.limits r.host r.path r.method S.clock).1 = true := by
    rw [← hu.routeRoom]
    exact Budgets.checkRouteRateLimit_congr rfl
  simp only [afterAdmitted, if_neg (Nat.not_le.mpr hu.slot), hdenied, hroute, Bool.not_true,
    Bool.false_eq_true, if_false]

theorem afterRules_of_unserved {b : Budgets} (hu : S.Unhindered r)
    (hroute : S.routeExists r = false) : S.afterRules r b identity = S.orFallback r := by
  simp only [afterRules, pick_of_unserved hu.address hroute, orStale_of_none hu.noStale,
    ite_self]

/-- Whoever is picked has room, and no copy stands in for them. -/
theorem afterRules_of_served {b : Budgets} (hu : S.Unhindered r) (hs : S.Straight r)
    (hrate : b.tokenRate = S.budgets.tokenRate)
    (hdaily : b.tokenDailyBytes = S.budgets.tokenDailyBytes)
    (horg : b.orgPeriods = S.budgets.orgPeriods)
    (hpin : identity.bind (·.forwardClientId) = none) (hroute : S.routeExists r = true) :
    ∃ client, S.afterRules r b identity = .dispatched client := by
  obtain ⟨client, hpick⟩ := pick_of_served (S.canarySide r) hu.address hpin hroute
  refine ⟨client, ?_⟩
  have htoken : (b.checkTokenLimits S.limits (S.tokenId client) S.clock).1 = none :=
    (Budgets.checkTokenLimits_congr hrate hdaily).trans (hu.tokenRoom identity client hpick)
  have hover : (b.checkTokenLimits S.limits (S.tokenId client) S.clock).2.orgOverMonthBytes
      S.limits (S.orgId client) = false :=
    (Budgets.orgOverMonthBytes_congr
      ((Budgets.checkTokenLimits_orgPeriods _ _).trans horg)).trans (hs.quota identity client hpick)
  simp only [afterRules, hpick, afterChosen, htoken, hover, Bool.false_eq_true, if_false]
  exact hu.noCopy identity client

/-- A plain request that nothing before the gate answers. -/
theorem proxyHttpRequest_of_undeclared {resp : Refusal} (hu : S.Unhindered r)
    (hgate : checkVisitorGate (S.gateFor r.headers) r.visitor r.host r.path = .undeclared resp) :
    S.proxyHttpRequest r =
      { answer := if S.expires r true then .expired else .undeclared
        coldStart := S.coldStartOf r (S.waits r true) } := by
  have hip := hu.ipRoom
  simp only [FrontServer.IpAdmits] at hip
  simp only [proxyHttpRequest, hip, Bool.not_true, Bool.false_eq_true, if_false, hgate,
    orStale_of_none hu.noStale]

theorem proxyHttpRequest_of_allow (hu : S.Unhindered r)
    (hgate : checkVisitorGate (S.gateFor r.headers) r.visitor r.host r.path = .allow identity) :
    S.proxyHttpRequest r =
      if S.expires r false then
        { answer := .expired, coldStart := S.coldStartOf r (S.waits r false) }
      else
        S.afterAdmitted r (S.budgets.checkRateLimit S.limits r.callerIp S.clock).2 identity := by
  have hip := hu.ipRoom
  simp only [FrontServer.IpAdmits] at hip
  simp only [proxyHttpRequest, hip, Bool.not_true, Bool.false_eq_true, if_false, hgate,
    orStale_of_none hu.noStale]

/-- Before the gate both walks are the same. -/
theorem proxyHandler_of_plain {h : String} {hname} (hquery : r.query = none)
    (hhead : r.headers = [⟨"host", some h, hname⟩]) (hused : S.firstRun r = false) :
    S.proxyHandler r =
      match S.maintenanceFor r.host with
      | some flag => { answer := .maintenance flag }
      | none =>
        match S.sites.answer r.host r.path none with
        | some resp => { answer := .site resp }
        | none =>
          if S.noindex r.host r.path then { answer := .robots } else S.proxyHttpRequest r := by
  cases hflag : S.maintenanceFor r.host with
  | some flag => simp [proxyHandler, hflag]
  | none =>
      cases hsite : S.sites.answer r.host r.path none with
      | some resp => simp [proxyHandler, hquery, hflag, hsite]
      | none => simp [proxyHandler, hquery, hused, hhead, isWebsocketUpgrade_of_host, hflag, hsite]

end SiteServer

end Aperio
