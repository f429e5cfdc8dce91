import Aperio.Select

/-!
# One route, one policy, over whole runs

Settling compares a service with each other service on one route they share,
under the hostname that happens to come first. A pool is formed for the host
a visitor asks for. The two meet when the shared route speaks for every host
the pair can be pooled on: `Comparable` says so of one pair, and
`one_route_one_policy` follows for every run whose heartbeats only settle
comparable pairs.

The invariant is stated in terms of what a pool can see (`AgreeOn`), which
is symmetric, so it does not matter which of two connections was settled
last.
-/

namespace Aperio

/-! ## Pairs -/

/-- Two services can stand in one pool for this host: the same path bind,
and both bound to the host or both catch-alls. -/
def Poolable (s t : ServiceState) (host : Option String) : Prop :=
  s.effectivePathBind = t.effectivePathBind ∧
    ((∃ x, host = some x ∧ x ∈ s.effectiveHostnames ∧ x ∈ t.effectiveHostnames) ∨
      (s.catchAll = true ∧ t.catchAll = true))

/-- A site's `access` covers the bind of `s` on this host. -/
def siteCovers (cfg : ServerConfig) (s : ServiceState) (host : Option String) : Bool :=
  siteDecides cfg host (s.effectivePathBind.getD "")

/-- The two agree wherever they can be pooled: on the addresses and the
denied page always, on `access` unless a site decides it there. -/
def AgreeOn (cfg : ServerConfig) (s t : ServiceState) : Prop :=
  ∀ host, Poolable s t host →
    s.allowedIps = t.allowedIps ∧ s.denied = t.denied ∧
      ((RoutePolicy.of s).SameAccess (RoutePolicy.of t) ∨ siteCovers cfg s host = true)

/-- Settling `s` against `t` settles every pool they can be in together:
they say the same anyway, or on every host they can be pooled for they share
a route, and a site that covers the one settling looks at covers that host
too. -/
def Comparable (cfg : ServerConfig) (s t : ServiceState) : Prop :=
  ∀ host, Poolable s t host →
    RoutePolicy.of s = RoutePolicy.of t ∨
      ∃ h₀ path, sharedRoute s t = some (h₀, path) ∧
        (siteDecides cfg h₀ path = true → siteDecides cfg host path = true)

variable {cfg : ServerConfig} {s t : ServiceState} {clients : Clients}

theorem Poolable.symm {host : Option String} (h : Poolable s t host) : Poolable t s host := by
  obtain ⟨hbind, ⟨x, hx, hs, ht⟩ | ⟨hs, ht⟩⟩ := h
  · exact ⟨hbind.symm, Or.inl ⟨x, hx, ht, hs⟩⟩
  · exact ⟨hbind.symm, Or.inr ⟨ht, hs⟩⟩

theorem SameAccess.symm {a b : RoutePolicy} (h : a.SameAccess b) : b.SameAccess a :=
  ⟨h.1.symm, h.2.1.symm, h.2.2.symm⟩

theorem AgreeOn.symm (h : AgreeOn cfg s t) : AgreeOn cfg t s := by
  intro host hp
  obtain ⟨hips, hdenied, hacc⟩ := h host hp.symm
  refine ⟨hips.symm, hdenied.symm, ?_⟩
  rcases hacc with hacc | hacc
  · exact Or.inl (SameAccess.symm hacc)
  · refine Or.inr ?_
    rw [siteCovers, hp.1]
    exact hacc

/-- The route two services share has the bind of either of them. -/
theorem sharedRoute_path {h₀ : Option String} {path : String}
    (h : sharedRoute s t = some (h₀, path)) : path = s.effectivePathBind.getD "" := by
  simp only [sharedRoute] at h
  split at h
  · cases h
  · split at h
    · cases h
      rfl
    · obtain ⟨x, -, hx⟩ := Option.map_eq_some_iff.mp h
      cases hx
      rfl

/-- A comparable pair that was settled agrees. -/
theorem agreeOn_of_settled (hcomp : Comparable cfg s t) (hset : Settled cfg s t) :
    AgreeOn cfg s t := by
  intro host hp
  rcases hcomp host hp with heq | ⟨h₀, path, hroute, hsite⟩
  · refine ⟨congrArg RoutePolicy.allowedIps heq, congrArg RoutePolicy.denied heq, Or.inl ?_⟩
    rw [heq]
    exact ⟨rfl, rfl, rfl⟩
  · obtain ⟨hacc, hips, hdenied⟩ := RoutePolicy.differences_eq_nil.mp (hset h₀ path hroute)
    refine ⟨hips, hdenied, ?_⟩
    rcases hacc with hacc | hacc
    · refine Or.inr ?_
      rw [siteCovers, ← sharedRoute_path hroute]
      exact hsite hacc
    · exact Or.inl hacc

/-! ## The invariant -/

/-- Any two services that serve, of different connections that have both
declared, agree wherever they can be pooled. -/
def OnePolicy (cfg : ServerConfig) (clients : Clients) : Prop :=
  ∀ id₁ id₂ h₁ h₂, clients.lookup id₁ = some h₁ → clients.lookup id₂ = some h₂ → id₁ ≠ id₂ →
    h₁.awaitingDeclaration = false → h₂.awaitingDeclaration = false →
    ∀ s ∈ h₁.services, ∀ t ∈ h₂.services, s.policyConflict = none → t.policyConflict = none →
      AgreeOn cfg s t

/-- What a heartbeat hands to the settling only holds comparable pairs: each
service as just declared, against each serving service of another declared
connection. -/
def PingComparable (cfg : ServerConfig) (clients : Clients) (e : Event) : Prop :=
  ∀ id p h matched, e.act = .ping id p → clients.lookup id = some h →
    matchDeclarations h.services p.names = .ok matched →
    ∀ s ∈ (declareHandle e.env e.now p matched h).services,
    ∀ k c, clients.lookup k = some c → k ≠ id → c.awaitingDeclaration = false →
      ∀ t ∈ c.services, t.policyConflict = none → Comparable cfg s t

/-- The server's connection map under fixed settings. -/
def serverSys (cfg : ServerConfig) : Sys Clients Event where
  init clients := clients = ∅
  step clients e clients' := e.env.cfg = cfg ∧ clients' = serve clients e

/-- A connection whose map entry changed agrees with the others when each of
its unmarked services does. -/
theorem OnePolicy.replace (hinv : OnePolicy cfg clients) {clients' : Clients} (id : String)
    (hother : ∀ k, k ≠ id → clients'.lookup k = clients.lookup k)
    (hself : ∀ h', clients'.lookup id = some h' → h'.awaitingDeclaration = false →
      ∀ k c, clients.lookup k = some c → k ≠ id → c.awaitingDeclaration = false →
        ∀ s ∈ h'.services, ∀ t ∈ c.services, s.policyConflict = none →
          t.policyConflict = none → AgreeOn cfg s t) :
    OnePolicy cfg clients' := by
  intro id₁ id₂ h₁ h₂ hl₁ hl₂ hne hd₁ hd₂ s hs t ht hcs hct
  by_cases h₁id : id₁ = id
  · subst h₁id
    rw [hother id₂ (Ne.symm hne)] at hl₂
    exact hself h₁ hl₁ hd₁ id₂ h₂ hl₂ (Ne.symm hne) hd₂ s hs t ht hcs hct
  · by_cases h₂id : id₂ = id
    · subst h₂id
      rw [hother id₁ hne] at hl₁
      exact (hself h₂ hl₂ hd₂ id₁ h₁ hl₁ hne hd₁ t ht s hs hct hcs).symm
    · rw [hother id₁ h₁id] at hl₁
      rw [hother id₂ h₂id] at hl₂
      exact hinv id₁ id₂ h₁ h₂ hl₁ hl₂ hne hd₁ hd₂ s hs t ht hcs hct

theorem agreeOn_marked {why : Option String} :
    AgreeOn cfg (s.marked why) t ↔ AgreeOn cfg s t := Iff.rfl

/-- A heartbeat that is settled keeps the invariant. -/
theorem onePolicy_declared {env : Env} {id : String} {h : ClientHandle}
    (hcfg : env.cfg = cfg) (hinv : OnePolicy cfg clients)
    (hcomp : ∀ s ∈ h.services, ∀ k c, clients.lookup k = some c → k ≠ id →
      c.awaitingDeclaration = false → ∀ t ∈ c.services, t.policyConflict = none →
        Comparable cfg s t) :
    OnePolicy cfg (settle env.cfg (clients.insert id h) id) := by
  refine hinv.replace id (fun k hk => ?_) ?_
  · rw [settle_lookup_ne hk, AList.lookup_insert_ne hk]
  · intro h' hl' hd' k c hk hkid hdc s hs t ht hcs hct
    have hins : (clients.insert id h).lookup id = some h := AList.lookup_insert _
    rw [settle_lookup_self hins, Option.some.injEq] at hl'
    rw [← hl', List.mem_map] at hs
    obtain ⟨s₀, hs₀, rfl⟩ := hs
    rw [ServiceState.marked_policyConflict, verdict_eq_none, hcfg] at hcs
    have hset := hcs k c (by rw [AList.lookup_insert_ne hkid, hk]) hkid hdc t ht hct
    exact agreeOn_marked.mpr
      (agreeOn_of_settled (hcomp s₀ hs₀ k c hk hkid hdc t ht hct) hset)

/-- **Step lemma.** -/
theorem onePolicy_serve {e : Event} (hcfg : e.env.cfg = cfg) (hcomp : PingComparable cfg clients e)
    (hinv : OnePolicy cfg clients) : OnePolicy cfg (serve clients e) := by
  simp only [serve]
  cases hact : e.act with
  | connect id c =>
      simp only
      split
      · exact hinv
      · refine hinv.replace id (fun k hk => AList.lookup_insert_ne hk) ?_
        intro h' hl' hd'
        rw [AList.lookup_insert, Option.some.injEq] at hl'
        rw [← hl'] at hd'
        cases hd'
  | ping id p =>
      simp only
      cases hid : clients.lookup id with
      | none =>
          have : (onPing e.env e.now clients id p).2 = clients := by
            simp only [onPing, hid]
            split <;> rfl
          rw [this]
          exact hinv
      | some h =>
          rcases onPing_cases e.env e.now p hid with hr | ⟨matched, -, hm, hr⟩
          · rw [hr]
            exact hinv
          · rw [hr]
            exact onePolicy_declared hcfg hinv (hcomp id p h matched hact hid hm)
  | disconnect id =>
      simp only
      refine hinv.replace id (fun k hk => AList.lookup_erase_ne hk) ?_
      intro h' hl'
      rw [AList.lookup_erase] at hl'
      cases hl'

/-- **Run lemma.** The invariant holds in every state a run of comparable
heartbeats reaches. -/
theorem onePolicy_reachable
    (hr : ((serverSys cfg).restrict fun c e _ => PingComparable cfg c e).Reachable clients) :
    OnePolicy cfg clients := by
  refine hr.invariant ?_ ?_
  · rintro c rfl id₁ id₂ h₁ h₂ hl₁
    rw [AList.lookup_empty] at hl₁
    cases hl₁
  · rintro c e c' - hinv ⟨⟨hcfg, rfl⟩, hcomp⟩
    exact onePolicy_serve hcfg hcomp hinv

/-! ## What a pool sees -/

/-- Where a site covers a bind, it covers every request under it. -/
theorem accessFor_of_siteCovers {host : Option String} {uriPath : String}
    (hunder : ∀ b, s.effectivePathBind = some b → pathMatchesBind uriPath b = true)
    (h : siteCovers cfg s host = true) : (cfg.sites.accessFor host uriPath).isSome = true := by
  simp only [siteCovers, siteDecides] at h
  split at h
  · exact Sites.accessFor_isSome_of_root h
  · cases hb : s.effectivePathBind with
    | none =>
        rename_i hne
        exact absurd (by simp [hb]) hne
    | some b =>
        rw [hb] at h
        exact Sites.accessFor_isSome_of_under (hunder b hb) h

/-- **One route, one policy.** In every state reached by a run of connects,
heartbeats and disconnects whose heartbeats only settle comparable pairs,
any two services in one pool that belong to different connections which have
both declared agree on the addresses and the denied page, and on `access`
unless a site's covers the request. -/
theorem one_route_one_policy
    (hr : ((serverSys cfg).restrict fun c e _ => PingComparable cfg c e).Reachable clients)
    {uriPath : String} {host : Option String} {now downThreshold : Nat}
    {pool : List ServiceRef} {key : RouteGroupKey}
    (hsel : selectClientPool clients uriPath host now downThreshold = some (pool, key))
    {r₁ r₂ : ServiceRef} (hr₁ : r₁ ∈ pool) (hr₂ : r₂ ∈ pool) (hne : r₁.client ≠ r₂.client)
    {h₁ h₂ : ClientHandle} (hl₁ : clients.lookup r₁.client = some h₁)
    (hl₂ : clients.lookup r₂.client = some h₂) (hd₁ : h₁.awaitingDeclaration = false)
    (hd₂ : h₂.awaitingDeclaration = false) (hs : r₁.get clients = some s)
    (ht : r₂.get clients = some t) :
    s.allowedIps = t.allowedIps ∧ s.denied = t.denied ∧
      ((s.isPublic = t.isPublic ∧ s.visitorAuth = t.visitorAuth ∧
          s.visitorAuthPolicy = t.visitorAuthPolicy) ∨
        (cfg.sites.accessFor host uriPath).isSome = true) := by
  have hinv := onePolicy_reachable hr
  obtain ⟨cands, rfl, hcands, hhost⟩ := selectClientPool_spec hsel
  obtain ⟨c₁, hc₁, rfl⟩ := List.mem_map.mp hr₁
  obtain ⟨c₂, hc₂, rfl⟩ := List.mem_map.mp hr₂
  obtain ⟨he₁, hk₁, hunder⟩ := hcands c₁ hc₁
  obtain ⟨he₂, hk₂, -⟩ := hcands c₂ hc₂
  obtain ⟨h₁', hl₁', hi₁, -, hserv₁⟩ := mem_eligibleServices.mp he₁
  obtain ⟨h₂', hl₂', hi₂, -, hserv₂⟩ := mem_eligibleServices.mp he₂
  obtain rfl := Option.some.inj (hl₁.symm.trans hl₁')
  obtain rfl := Option.some.inj (hl₂.symm.trans hl₂')
  obtain rfl : c₁.2 = s := by simpa [ServiceRef.get, hl₁, hi₁] using hs
  obtain rfl : c₂.2 = t := by simpa [ServiceRef.get, hl₂, hi₂] using ht
  have hpool : Poolable c₁.2 c₂.2 host := by
    refine ⟨hk₁.trans hk₂.symm, ?_⟩
    rcases hhost with ⟨x, hx, hall⟩ | ⟨hall, -⟩
    · exact Or.inl ⟨x, hx, ServiceState.matchesHost_iff.mp (hall c₁ hc₁),
        ServiceState.matchesHost_iff.mp (hall c₂ hc₂)⟩
    · exact Or.inr ⟨hall c₁ hc₁, hall c₂ hc₂⟩
  simp only [ServiceState.serving, Bool.and_eq_true, Option.isNone_iff_eq_none] at hserv₁ hserv₂
  obtain ⟨hips, hdenied, hacc⟩ := hinv _ _ h₁ h₂ hl₁ hl₂ hne hd₁ hd₂ _ (List.mem_of_getElem? hi₁)
    _ (List.mem_of_getElem? hi₂) hserv₁.2 hserv₂.2 host hpool
  exact ⟨hips, hdenied, hacc.imp_right (accessFor_of_siteCovers hunder)⟩

/-! ## Two catch-alls with hostnames of their own -/

theorem reachable_serveAll {S : Clients → Event → Clients → Prop} :
    ∀ (events : List Event) {clients : Clients},
      ((serverSys cfg).restrict S).Reachable clients →
      AtEach events (fun pre e => e.env.cfg = cfg ∧
        S (serveAll clients pre) e (serveAll clients (pre ++ [e]))) →
      ((serverSys cfg).restrict S).Reachable (serveAll clients events) := by
  intro events
  induction events with
  | nil =>
      intro clients h _
      exact h
  | cons e rest ih =>
      intro clients h hall
      rw [atEach_cons] at hall
      exact ih (.step h ⟨⟨hall.1.1, rfl⟩, hall.1.2⟩) hall.2

/-- One service that catches all beside a hostname of its own. -/
def catchAllPing (host : String) (isPublic : Bool) : Ping where
  services := [{ hostnameBinds := ["*", host], isPublic := isPublic }]

/-- Two connections of the server's own token; each catches all beside a
hostname of its own, and only the first is public. -/
def disagreeingCatchAlls : List Event :=
  [⟨plainEnv, 0, .connect "c1" { perms := ClientPerms.ofMaster }⟩,
   ⟨plainEnv, 1, .ping "c1" (catchAllPing "a.test" true)⟩,
   ⟨plainEnv, 2, .connect "c2" { perms := ClientPerms.ofMaster }⟩,
   ⟨plainEnv, 3, .ping "c2" (catchAllPing "b.test" false)⟩]

/-- A hostname nobody claims is served by both, one open and one not. -/
theorem catchAlls_disagree :
    (serverSys {}).Reachable (serveAll ∅ disagreeingCatchAlls) ∧
      selectClientPool (serveAll ∅ disagreeingCatchAlls) "/" (some "c.test") 4 15 =
        some ([⟨"c2", 0⟩, ⟨"c1", 0⟩], (none, none)) ∧
      ((⟨"c1", 0⟩ : ServiceRef).get (serveAll ∅ disagreeingCatchAlls)).map (·.isPublic) =
        some true ∧
      ((⟨"c2", 0⟩ : ServiceRef).get (serveAll ∅ disagreeingCatchAlls)).map (·.isPublic) =
        some false ∧
      (({} : ServerConfig).sites.accessFor (some "c.test") "/") = none ∧
      (serveAll ∅ disagreeingCatchAlls).entries.all (fun e => !e.2.awaitingDeclaration) = true := by
  refine ⟨?_, by decide, by decide, by decide, by decide, by decide⟩
  have hall : ∀ e ∈ disagreeingCatchAlls, e.env.cfg = {} := by
    simp [disagreeingCatchAlls, plainEnv]
  have h := @reachable_serveAll {} (fun _ _ _ => True) disagreeingCatchAlls ∅
    (.init rfl) (fun pre e post h => ⟨hall e (by simp [h]), trivial⟩)
  exact h.of_restrict

/-- The policy a service ends up with is a function of its declaration. -/
theorem routePolicy_applyDeclaration (env : Env) (perms : ClientPerms) (d : ServiceDecl)
    (s : ServiceState) :
    RoutePolicy.of (applyDeclaration env perms d s) =
      ⟨declaredPublic perms d, declaredAuth perms d, declaredPolicy perms d, declaredIps d,
        declaredDenied env d⟩ := rfl

/-- Where every entry of a Ping and every other connection's service says the
same, the settling only sees comparable pairs. -/
theorem pingComparable_of_policy {env : Env} {now : Nat} {id : String} {p : Ping}
    {perms : ClientPerms} (π : RoutePolicy)
    (hperms : (clients.lookup id).map (·.perms) = some perms)
    (hping : ∀ d ∈ p.services, RoutePolicy.of (applyDeclaration env perms d {}) = π)
    (hothers : ∀ e ∈ clients.entries, e.1 ≠ id → ∀ t ∈ e.2.services, RoutePolicy.of t = π) :
    PingComparable cfg clients ⟨env, now, .ping id p⟩ := by
  rintro id' p' h matched ⟨⟩ hlook hm s hs k c hk hne - t ht - host -
  refine Or.inl ?_
  rw [hothers ⟨k, c⟩ (AList.mem_lookup_iff.mp hk) hne t ht]
  obtain rfl : h.perms = perms := by simpa [hlook] using hperms
  simp only [declareHandle] at hs
  obtain ⟨i, hi⟩ := List.mem_iff_getElem?.mp hs
  obtain ⟨d, u, hd, -, rfl⟩ := List.getElem?_zipWith_eq_some.mp hi
  rw [← hping d (List.mem_of_getElem? hd), routePolicy_applyDeclaration,
    routePolicy_applyDeclaration]

/-- The same two connections saying the same. -/
def agreeingCatchAlls : List Event :=
  [⟨plainEnv, 0, .connect "c1" { perms := ClientPerms.ofMaster }⟩,
   ⟨plainEnv, 1, .ping "c1" (catchAllPing "a.test" true)⟩,
   ⟨plainEnv, 2, .connect "c2" { perms := ClientPerms.ofMaster }⟩,
   ⟨plainEnv, 3, .ping "c2" (catchAllPing "b.test" true)⟩]

theorem agreeingCatchAlls_reachable :
    ((serverSys {}).restrict fun c e _ => PingComparable {} c e).Reachable
      (serveAll ∅ agreeingCatchAlls) := by
  refine reachable_serveAll _ (.init rfl) ?_
  simp only [agreeingCatchAlls, atEach_cons]
  refine ⟨⟨rfl, ?_⟩, ⟨rfl, ?_⟩, ⟨rfl, ?_⟩, ⟨rfl, ?_⟩, atEach_nil⟩
  · rintro _ _ _ _ ⟨⟩
  · exact pingComparable_of_policy ⟨true, none, none, [], none⟩
      (by decide : _ = some ClientPerms.ofMaster) (by decide) (by decide)
  · rintro _ _ _ _ ⟨⟩
  · exact pingComparable_of_policy ⟨true, none, none, [], none⟩
      (by decide : _ = some ClientPerms.ofMaster) (by decide) (by decide)

theorem one_route_one_policy_agreeing :
    ∃ s t, (⟨"c1", 0⟩ : ServiceRef).get (serveAll ∅ agreeingCatchAlls) = some s ∧
      (⟨"c2", 0⟩ : ServiceRef).get (serveAll ∅ agreeingCatchAlls) = some t ∧
      s.allowedIps = t.allowedIps ∧ s.denied = t.denied ∧
      ((s.isPublic = t.isPublic ∧ s.visitorAuth = t.visitorAuth ∧
          s.visitorAuthPolicy = t.visitorAuthPolicy) ∨
        (({} : ServerConfig).sites.accessFor (some "c.test") "/").isSome = true) := by
  have hsel : selectClientPool (serveAll ∅ agreeingCatchAlls) "/" (some "c.test") 4 15 =
      some ([⟨"c2", 0⟩, ⟨"c1", 0⟩], (none, none)) := by decide
  obtain ⟨s, hs⟩ : ∃ s, (⟨"c1", 0⟩ : ServiceRef).get (serveAll ∅ agreeingCatchAlls) = some s :=
    ⟨_, rfl⟩
  obtain ⟨t, ht⟩ : ∃ t, (⟨"c2", 0⟩ : ServiceRef).get (serveAll ∅ agreeingCatchAlls) = some t :=
    ⟨_, rfl⟩
  exact ⟨s, t, hs, ht, one_route_one_policy agreeingCatchAlls_reachable hsel (by decide)
    (by decide) (by decide) rfl rfl rfl rfl hs ht⟩

end Aperio
