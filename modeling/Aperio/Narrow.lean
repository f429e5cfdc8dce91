import Aperio.Spelling
import Aperio.Traversal
import Aperio.Proxy

/-!
# A declared restriction and what is left of it

A client narrows its service with an address list, with a password and with
a list of gate methods. Each is filtered for what the server can use, and
what the filter leaves is all the request path sees: an empty address list
and a service without a gate look the same whether nothing was asked for or
nothing of it was usable.
-/

namespace Aperio

/-! ## Addresses -/

/-- The declaration names an address list. -/
def ServiceDecl.NamesIps (d : ServiceDecl) : Prop :=
  ∃ e ∈ d.allowedIps, trim e ≠ ""

/-- A visitor outside every entry the server can use is not admitted. The
entries that stand for any address are the ones `ip_allowed` lists. -/
def IpsKept (d : ServiceDecl) (s : ServiceState) : Prop :=
  d.NamesIps → ∀ ip, (∀ e ∈ d.allowedIps, validIpEntry e = true → ipEntryAllows ip e = false) →
    ipAllowed ip s.allowedIps = false

def ServiceDecl.IpsUsable (d : ServiceDecl) : Prop :=
  d.NamesIps → ∃ e ∈ d.allowedIps, validIpEntry e = true

theorem validIpEntry_trim (e : String) : validIpEntry (trim e) = validIpEntry e := by
  simp only [validIpEntry, trim_trim]

theorem ipEntryAllows_trim (ip : IpAddr) (e : String) :
    ipEntryAllows ip (trim e) = ipEntryAllows ip e := by
  simp only [ipEntryAllows, trim_trim]

theorem validIpEntry_blank {e : String} (h : trim e = "") : validIpEntry e = false := by
  rw [← validIpEntry_trim, h]
  decide

theorem mem_declaredIps {d : ServiceDecl} {x : String} :
    x ∈ declaredIps d ↔ ∃ e ∈ d.allowedIps, trim e = x ∧ validIpEntry e = true := by
  simp only [declaredIps, trimmedIps, List.mem_filter, List.mem_map, bne_iff_ne]
  constructor
  · rintro ⟨⟨⟨e, he, rfl⟩, -⟩, hvalid⟩
    exact ⟨e, he, rfl, by rwa [validIpEntry_trim] at hvalid⟩
  · rintro ⟨e, he, rfl, hvalid⟩
    refine ⟨⟨⟨e, he, rfl⟩, ?_⟩, by rwa [validIpEntry_trim]⟩
    intro hblank
    rw [validIpEntry_blank hblank] at hvalid
    cases hvalid

theorem ipsKept_iff (env : Env) (perms : ClientPerms) (d : ServiceDecl) (s : ServiceState) :
    IpsKept d (applyDeclaration env perms d s) ↔ d.IpsUsable := by
  have hips : (applyDeclaration env perms d s).allowedIps = declaredIps d := rfl
  simp only [IpsKept, ServiceDecl.IpsUsable, hips]
  constructor
  · intro hkept hnames
    by_contra hnone
    push Not at hnone
    have hempty : declaredIps d = [] := by
      rw [List.eq_nil_iff_forall_not_mem]
      intro x hx
      obtain ⟨e, he, -, hvalid⟩ := mem_declaredIps.mp hx
      exact hnone e he hvalid
    have hout := hkept hnames (.v4 0) fun e he hvalid => absurd hvalid (hnone e he)
    rw [hempty] at hout
    cases hout
  · intro husable hnames ip hout
    obtain ⟨e, he, hvalid⟩ := husable hnames
    have hmem : trim e ∈ declaredIps d := mem_declaredIps.mpr ⟨e, he, rfl, hvalid⟩
    simp only [ipAllowed, Bool.or_eq_false_iff, List.isEmpty_eq_false_iff, List.any_eq_false,
      Bool.not_eq_true]
    refine ⟨List.ne_nil_of_mem hmem, ?_⟩
    intro x hx
    obtain ⟨e', he', rfl, hvalid'⟩ := mem_declaredIps.mp hx
    rw [ipEntryAllows_trim]
    exact hout e' he' hvalid'

/-! ## The gate -/

/-- The name a method is looked up by. -/
def AuthMethodSpec.methodName (spec : AuthMethodSpec) : String :=
  toAsciiLowercase (trim spec.method)

/-- The declaration names a gate: a password, or a list of methods that does
not hold the open one. -/
def ServiceDecl.NamesGate (d : ServiceDecl) : Prop :=
  (requestedAuth d).isSome = true ∨
    ∃ specs, d.visitorAuthMethods = some specs ∧ ∀ spec ∈ specs, spec.methodName ≠ "none"

/-- The methods a client may declare, of those the declaration lists. -/
def ServiceDecl.usableMethods (d : ServiceDecl) : List AuthMethodSpec :=
  (d.visitorAuthMethods.getD []).filter isDeclarable

/-- What the declaration names is something the server can use: methods
without the open one, else a password of the right form. -/
def ServiceDecl.GateUsable (d : ServiceDecl) : Prop :=
  if d.usableMethods = [] then (requestedAuth d).any validVisitorCreds = true
  else ∀ spec ∈ d.usableMethods, spec.methodName ≠ "none"

/-- Two services that put the same in front of themselves. -/
structure ServiceState.SameGate (s t : ServiceState) : Prop where
  password : s.visitorAuth = t.visitorAuth
  policy : s.visitorAuthPolicy = t.visitorAuthPolicy
  opened : s.isPublic = t.isPublic

/-- The route is served by services that declare what `s` declares. -/
def ServedAs (G : GateState) (host : Option String) (path : String) (s : ServiceState) : Prop :=
  ∃ pool key, selectClientPool G.clients path host G.now G.downThreshold = some (pool, key) ∧
    ∀ r ∈ pool, ∃ t, r.get G.clients = some t ∧ t.SameGate s

/-- The operator's site publishes the route, or an endpoint that the gate
deciding the route delegates to lets the visitor in. -/
def LetInByDesign (G : GateState) (v : Visitor) (host : Option String) (path : String)
    (s : ServiceState) : Prop :=
  match G.cfg.sites.accessFor host path with
  | some .isPublic => True
  | some (.gate p) => forwardAdmits G v host path .site p.toPolicy
  | none => ∃ p, s.visitorAuthPolicy = some p ∧ forwardAdmits G v host path .client p

/-- Whatever the server's own gate is, a visitor who presents nothing is not
let through to the service. -/
def GateKept (d : ServiceDecl) (s : ServiceState) : Prop :=
  d.NamesGate → ∀ G v host path, ServedAs G host path s → Anonymous G v →
    (checkVisitorGate G v host path).isAllow = true → LetInByDesign G v host path s

/-! ## What is left of a declared gate -/

theorem isOpen_of_compileSpec {spec : AuthMethodSpec} (h : isDeclarable spec = true) :
    ∃ m, Method.compileSpec true spec = some m ∧
      (m.isOpen = true ↔ spec.methodName = "none") := by
  simp only [isDeclarable, clientDeclarableMethods, List.contains_eq_mem, List.mem_cons,
    List.not_mem_nil, or_false, decide_eq_true_eq] at h
  simp only [Method.compileSpec, AuthMethodSpec.methodName]
  rcases h with h | h | h | h | h | h <;> simp [h, Method.isOpen]

theorem admitsEveryone_compileFrom {specs : List AuthMethodSpec} (hne : specs ≠ [])
    (hall : ∀ spec ∈ specs, isDeclarable spec = true) :
    (Policy.compileFrom (.any specs) true).admitsEveryone = true ↔
      ∃ spec ∈ specs, spec.methodName = "none" := by
  obtain ⟨first, hfirst⟩ := List.exists_mem_of_ne_nil _ hne
  obtain ⟨m₀, hm₀, -⟩ := isOpen_of_compileSpec (hall first hfirst)
  have hfull : specs.filterMap (Method.compileSpec true) ≠ [] :=
    List.ne_nil_of_mem (List.mem_filterMap.mpr ⟨first, hfirst, hm₀⟩)
  simp only [Policy.admitsEveryone, Policy.compileFrom, AuthSetting.methods, Bool.or_eq_true,
    List.isEmpty_iff, hfull, false_or, List.any_eq_true, List.mem_filterMap]
  constructor
  · rintro ⟨m, ⟨spec, hspec, hm⟩, hopen⟩
    obtain ⟨m', hm', hiff⟩ := isOpen_of_compileSpec (hall spec hspec)
    obtain rfl : m' = m := Option.some.inj (hm'.symm.trans hm)
    exact ⟨spec, hspec, hiff.mp hopen⟩
  · rintro ⟨spec, hspec, hname⟩
    obtain ⟨m, hm, hiff⟩ := isOpen_of_compileSpec (hall spec hspec)
    exact ⟨m, ⟨spec, hspec, hm⟩, hiff.mpr hname⟩

section Declared

variable {perms : ClientPerms} (hallow : perms.allowPublic = true) (d : ServiceDecl)

include hallow

theorem declaredAuth_eq : declaredAuth perms d = (requestedAuth d).filter validVisitorCreds := by
  simp [declaredAuth, hallow]

theorem declaredPolicy_eq : declaredPolicy perms d =
    if d.usableMethods = [] then none else some (Policy.compileFrom (.any d.usableMethods) true) := by
  have htaut : ∀ p : Policy, (p.gates || p.admitsEveryone) = true := by
    intro p
    simp [Policy.gates]
  by_cases h : d.usableMethods = []
  · rw [if_pos h]
    simp only [ServiceDecl.usableMethods] at h
    cases hm : d.visitorAuthMethods with
    | none =>
        simp [declaredPolicy, hm]
    | some specs =>
        rw [hm] at h
        have hnil : specs.filter isDeclarable = [] := h
        simp only [declaredPolicy, hm, Option.bind_some, hnil, ne_eq, not_true_eq_false, and_false,
          if_false]
  · rw [if_neg h]
    simp only [ServiceDecl.usableMethods] at h ⊢
    cases hm : d.visitorAuthMethods with
    | none =>
        simp [hm] at h
    | some specs =>
        rw [hm] at h
        have hne : specs.filter isDeclarable ≠ [] := h
        simp only [declaredPolicy, hm, Option.bind_some, Option.getD_some, hallow, hne, ne_eq,
          not_false_eq_true, and_self, if_true, Option.filter_some, htaut]

/-- Usable: the service stands behind a gate of its own. -/
theorem serviceGate_of_usable (env : Env) (s : ServiceState) (husable : d.GateUsable)
    (cfg : ServerConfig) :
    let svc := applyDeclaration env perms d s
    svc.declaresGate = true ∧ (serviceGate cfg svc = .password ∨
      ∃ p, svc.visitorAuthPolicy = some p ∧ serviceGate cfg svc = .policy .client p) := by
  have hpolicy : (applyDeclaration env perms d s).visitorAuthPolicy = declaredPolicy perms d := rfl
  have hauth : (applyDeclaration env perms d s).visitorAuth = declaredAuth perms d := rfl
  simp only [ServiceState.declaresGate, serviceGate, hpolicy, hauth, declaredPolicy_eq hallow,
    declaredAuth_eq hallow]
  simp only [ServiceDecl.GateUsable] at husable
  by_cases h : d.usableMethods = []
  · rw [if_pos h] at husable ⊢
    obtain ⟨creds, hcreds, hvalid⟩ := (Option.any_eq_true _ _).mp husable
    simp [hcreds, hvalid, Option.filter_some]
  · rw [if_neg h] at husable ⊢
    have hall : ∀ spec ∈ d.usableMethods, isDeclarable spec = true := fun spec hspec =>
      (List.mem_filter.mp hspec).2
    have hgates : (Policy.compileFrom (.any d.usableMethods) true).admitsEveryone = false := by
      rw [← Bool.not_eq_true, admitsEveryone_compileFrom h hall]
      rintro ⟨spec, hspec, hname⟩
      exact husable spec hspec hname
    simp [declaredGate, hgates, Policy.gates]

/-- Not usable: on a server that opens what nothing declares, the service
stands behind nothing. -/
theorem serviceGate_of_unusable (env : Env) (s : ServiceState) (hun : ¬d.GateUsable)
    {cfg : ServerConfig} (hcfg : serverGate cfg = .opened) :
    serviceGate cfg (applyDeclaration env perms d s) = .opened := by
  have hpolicy : (applyDeclaration env perms d s).visitorAuthPolicy = declaredPolicy perms d := rfl
  have hauth : (applyDeclaration env perms d s).visitorAuth = declaredAuth perms d := rfl
  simp only [serviceGate, hpolicy, hauth, declaredPolicy_eq hallow, declaredAuth_eq hallow]
  simp only [ServiceDecl.GateUsable] at hun
  by_cases h : d.usableMethods = []
  · rw [if_pos h] at hun ⊢
    have hnone : (requestedAuth d).filter validVisitorCreds = none := by
      cases hr : requestedAuth d with
      | none =>
          rfl
      | some creds =>
          simpa [hr, Option.filter_some] using hun
    simp [hnone, hcfg]
  · rw [if_neg h] at hun ⊢
    have hall : ∀ spec ∈ d.usableMethods, isDeclarable spec = true := fun spec hspec =>
      (List.mem_filter.mp hspec).2
    push Not at hun
    simp [declaredGate, (admitsEveryone_compileFrom h hall).mpr hun]

end Declared

/-! ## The route and the service -/

variable {G : GateState} {v : Visitor} {host : Option String} {path : String} {s : ServiceState}

theorem agreed_of_forall {α : Type} [DecidableEq α] {c : Option α} {declared : List (Option α)}
    (hne : declared ≠ []) (hall : ∀ x ∈ declared, x = c) : agreed none declared = c := by
  have hstay : ∀ (rest : List (Option α)) (a : α), (∀ x ∈ rest, x = some a) →
      agreed (some a) rest = some a := by
    intro rest
    induction rest with
    | nil =>
        intro a _
        rfl
    | cons x rest ih =>
        intro a hrest
        obtain rfl := hrest x List.mem_cons_self
        rw [agreed, if_pos rfl]
        exact ih a fun y hy => hrest y (List.mem_cons_of_mem _ hy)
  cases declared with
  | nil =>
      exact absurd rfl hne
  | cons x rest =>
      obtain rfl := hall x List.mem_cons_self
      cases x with
      | none =>
          rfl
      | some a =>
          exact hstay rest a fun y hy => hall y (List.mem_cons_of_mem _ hy)

namespace ServedAs

/-- The gate's pool of such a route, on a path without a traversal
segment. -/
theorem routePool_spec (hs : ServedAs G host path s)
    (hpath : requestPathHasTraversal path = false) :
    routePool G path host ≠ [] ∧
      ∀ x ∈ routePool G path host, ∃ t, x = some t ∧ t.SameGate s := by
  obtain ⟨pool, key, hpool, hall⟩ := hs
  have hroute : routePool G path host = pool.map (·.get G.clients) := by
    simp [routePool, hpath, hpool]
  rw [hroute]
  constructor
  · rw [ne_eq, List.map_eq_nil_iff]
    exact selectClientPool_ne_nil hpool
  · intro x hx
    obtain ⟨r, hr, rfl⟩ := List.mem_map.mp hx
    exact hall r hr

theorem agreed_eq {α : Type} [DecidableEq α] {f : ServiceState → Option α}
    (hs : ServedAs G host path s) (hpath : requestPathHasTraversal path = false)
    (hf : ∀ t, t.SameGate s → f t = f s) :
    agreed none ((routePool G path host).map (·.bind f)) = f s := by
  obtain ⟨hne, hall⟩ := hs.routePool_spec hpath
  refine agreed_of_forall (by simpa using hne) ?_
  intro x hx
  obtain ⟨y, hy, rfl⟩ := List.mem_map.mp hx
  obtain ⟨t, rfl, hsame⟩ := hall y hy
  exact hf t hsame

theorem routeIsPublic_eq (hs : ServedAs G host path s)
    (hpath : requestPathHasTraversal path = false) :
    routeIsPublic G path host = s.isPublic := by
  obtain ⟨hne, hall⟩ := hs.routePool_spec hpath
  obtain ⟨y, hy⟩ := List.exists_mem_of_ne_nil _ hne
  rw [Bool.eq_iff_iff]
  simp only [routeIsPublic, Bool.and_eq_true, Bool.not_eq_true', List.isEmpty_eq_false_iff,
    List.all_eq_true]
  constructor
  · rintro ⟨-, heach⟩
    obtain ⟨t, rfl, hsame⟩ := hall y hy
    rw [← hsame.opened]
    exact heach _ hy
  · intro hpub
    refine ⟨hne, fun x hx => ?_⟩
    obtain ⟨t, rfl, hsame⟩ := hall x hx
    rw [Option.any_some, hsame.opened, hpub]

/-- Where no site decides, a route served by one declaration stands behind
that declaration's gate. -/
theorem routeGate_eq (hs : ServedAs G host path s)
    (hpath : requestPathHasTraversal path = false)
    (hsite : G.cfg.sites.accessFor host path = none) :
    routeGate G host path = serviceGate G.cfg s := by
  have hpolicy : routeVisitorPolicy G path host = s.visitorAuthPolicy :=
    hs.agreed_eq hpath fun _ hsame => hsame.policy
  have hauth : routeVisitorAuth G path host = s.visitorAuth :=
    hs.agreed_eq hpath fun _ hsame => hsame.password
  cases hp : s.visitorAuthPolicy with
  | some p => simp only [routeGate, serviceGate, hsite, hpolicy, hp]
  | none =>
    simp only [routeGate, serviceGate, hsite, hpolicy, hauth, hs.routeIsPublic_eq hpath, hp]

/-- A service that declares a gate is seen on every host it serves. -/
theorem gatedOnHost (hs : ServedAs G host path s) (hgate : s.declaresGate = true) :
    gatedOnHost G host = true := by
  obtain ⟨pool, key, hpool, hall⟩ := hs
  obtain ⟨r, hr⟩ := List.exists_mem_of_ne_nil _ (selectClientPool_ne_nil hpool)
  obtain ⟨t, ht, hsame⟩ := hall r hr
  obtain ⟨e, he, t', ht', hget, hserves⟩ := mem_pool_couldServe hpool hr
  obtain rfl : t' = t := Option.some.inj (hget.symm.trans ht)
  have hdeclares : t'.declaresGate = true := by
    rw [← hgate, ServiceState.declaresGate, ServiceState.declaresGate, hsame.password, hsame.policy]
  have hhost : hostHasVisitorAuth G host = true := by
    simp only [hostHasVisitorAuth, List.any_eq_true, Bool.and_eq_true]
    exact ⟨e, he, t', ht', hdeclares, hserves⟩
  simp [Aperio.gatedOnHost, hhost]

end ServedAs

/-- A visitor who presents nothing and is let through a gate the service
stands behind was let in by a site or by an endpoint. -/
theorem letInByDesign_of_gate (hs : ServedAs G host path s) (hv : Anonymous G v)
    (hgate : s.declaresGate = true)
    (hown : serviceGate G.cfg s = .password ∨
      ∃ p, s.visitorAuthPolicy = some p ∧ serviceGate G.cfg s = .policy .client p)
    (hallow : (checkVisitorGate G v host path).isAllow = true) :
    LetInByDesign G v host path s := by
  cases hpath : requestPathHasTraversal path with
  | true =>
      -- A traversal path asks for a session wherever something is gated.
      rw [checkVisitorGate, hpath, if_pos rfl, checkTraversal_of_gated (hs.gatedOnHost hgate),
        hv.validateSessionForVisitor_eq] at hallow
      cases hallow
  | false =>
      rw [checkVisitorGate_eq hpath] at hallow
      have hopen : ¬ (routeGate G host path).Shut G v host path := by
        rw [← hv.answer_isAllow, hallow]
        decide
      simp only [LetInByDesign]
      cases hsite : G.cfg.sites.accessFor host path with
      | some access =>
          cases access with
          | isPublic =>
              trivial
          | gate p =>
              simpa [routeGate, hsite, RouteGate.Shut] using hopen
      | none =>
          rw [hs.routeGate_eq hpath hsite] at hopen
          rcases hown with h | ⟨p, hp, h⟩
          · rw [h] at hopen
            exact absurd trivial hopen
          · rw [h] at hopen
            exact ⟨p, hp, not_not.mp hopen⟩

/-! ## A server that opens what nothing declares -/

/-- A catch-all service that puts in front of itself what `s` does. -/
def ServiceState.gateOnly (s : ServiceState) : ServiceState where
  catchAll := true
  visitorAuth := s.visitorAuth
  isPublic := s.isPublic
  visitorAuthPolicy := s.visitorAuthPolicy

def oneService (s : ServiceState) : ClientHandle where
  connectedAt := 0
  clientIp := ""
  perms := ClientPerms.ofMaster
  services := [s.gateOnly]

def openServer (s : ServiceState) : GateState where
  cfg := { defaultAccess := .allow }
  downThreshold := 1
  clients := (∅ : Clients).insert "c1" (oneService s)

theorem servedAs_openServer (s : ServiceState) : ServedAs (openServer s) none "/" s := by
  have heligible : eligibleServices (openServer s).clients 0 1 = [(⟨"c1", 0⟩, s.gateOnly)] := rfl
  have hpool : selectClientPool (openServer s).clients "/" none 0 1 =
      some ([⟨"c1", 0⟩], (none, none)) := by
    rw [selectClientPool, candidatePool, heligible]
    rfl
  refine ⟨_, _, hpool, ?_⟩
  intro r hr
  obtain rfl := List.mem_singleton.mp hr
  exact ⟨s.gateOnly, rfl, rfl, rfl, rfl⟩

theorem anonymous_openServer (s : ServiceState) : Anonymous (openServer s) {} where
  session := rfl
  bearer := rfl
  queryToken := rfl
  shareQuery := rfl
  shareCookie := rfl
  jwt _ _ _ := rfl

theorem checkVisitorGate_openServer (h : serviceGate (openServer s).cfg s = .opened) :
    (checkVisitorGate (openServer s) {} none "/").isAllow = true ∧
      ¬LetInByDesign (openServer s) {} none "/" s := by
  have hpath : requestPathHasTraversal "/" = false := by decide
  constructor
  · rw [checkVisitorGate_eq hpath, (servedAs_openServer s).routeGate_eq hpath rfl, h]
    rfl
  · rintro ⟨p, -, cfg, -, carried, hcarried⟩
    cases hcarried

theorem gateKept_iff {perms : ClientPerms} (hallow : perms.allowPublic = true) (env : Env)
    (d : ServiceDecl) (s : ServiceState) :
    GateKept d (applyDeclaration env perms d s) ↔ (d.NamesGate → d.GateUsable) := by
  constructor
  · intro hkept hnames
    by_contra hun
    obtain ⟨hlet, hnot⟩ := checkVisitorGate_openServer
      (serviceGate_of_unusable hallow d env s hun rfl)
    exact hnot (hkept hnames _ _ _ _ (servedAs_openServer _) (anonymous_openServer _) hlet)
  · intro husable hnames G v host path hs hv hlet
    obtain ⟨hgate, hown⟩ := serviceGate_of_usable hallow d env s (husable hnames) G.cfg
    exact letInByDesign_of_gate hs hv hgate hown hlet

/-- **When a declared restriction holds.** From a token that may control the
gate: the address list narrows exactly when one of its entries can be used,
and the gate stands, whatever the server's own is, exactly when something of
it can be used and none of what can be is the open method. -/
theorem restriction_kept_iff {perms : ClientPerms} (hallow : perms.allowPublic = true) (env : Env)
    (d : ServiceDecl) (s : ServiceState) :
    (IpsKept d (applyDeclaration env perms d s) ↔ d.IpsUsable) ∧
      (GateKept d (applyDeclaration env perms d s) ↔ (d.NamesGate → d.GateUsable)) :=
  ⟨ipsKept_iff env perms d s, gateKept_iff hallow env d s⟩

/-- One entry that can be used beside one that cannot, and one method beside
one nobody knows. -/
def partlyUsable : ServiceDecl where
  allowedIps := ["10.0.0/8", "10.0.0.0/8"]
  visitorAuthMethods := some [{ method := "magic" }, { method := "basic" }]

theorem partlyUsable_kept :
    IpsKept partlyUsable (applyDeclaration plainEnv ClientPerms.ofMaster partlyUsable {}) ∧
      GateKept partlyUsable (applyDeclaration plainEnv ClientPerms.ofMaster partlyUsable {}) := by
  obtain ⟨hips, hgate⟩ := @restriction_kept_iff ClientPerms.ofMaster rfl plainEnv partlyUsable {}
  rw [hips, hgate]
  constructor
  · intro _
    exact ⟨"10.0.0.0/8", by decide, by decide⟩
  · intro _
    rw [ServiceDecl.GateUsable, if_neg (by decide)]
    decide

/-- An address with a typo, and a password without a user. -/
def mistyped : ServiceDecl where
  allowedIps := ["10.0.0/8"]
  visitorAuth := some "letmein"

/-- Nothing of the declaration is usable: every address is admitted, and on
a server that opens what nothing declares nobody is asked for a
password. -/
theorem mistyped_dissolves :
    let svc := applyDeclaration plainEnv ClientPerms.ofMaster mistyped {}
    mistyped.NamesIps ∧ ipAllowed (.v4 0xc0a80001#32) svc.allowedIps = true ∧
      mistyped.NamesGate ∧ ServedAs (openServer svc) none "/" svc ∧
      (checkVisitorGate (openServer svc) {} none "/").isAllow = true ∧
      ¬IpsKept mistyped svc ∧ ¬GateKept mistyped svc := by
  refine ⟨⟨"10.0.0/8", by decide, by decide⟩, by decide, Or.inl (by decide),
    servedAs_openServer _, by decide, ?_, ?_⟩
  · rw [ipsKept_iff]
    intro husable
    obtain ⟨e, he, hvalid⟩ := husable ⟨"10.0.0/8", by decide, by decide⟩
    obtain rfl := List.mem_singleton.mp he
    exact absurd hvalid (by decide)
  · rw [gateKept_iff rfl]
    intro husable
    have h := husable (Or.inl (by decide))
    rw [ServiceDecl.GateUsable, if_pos (by decide)] at h
    exact absurd h (by decide)

end Aperio
