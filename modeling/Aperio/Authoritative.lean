import Aperio.Server

/-!
# Whether a heartbeat says everything

A Ping carries the connection's whole configuration. Nearly every field is
written from the declaration whatever it says, so what an earlier Ping said
is gone; the path and the hostnames are written only when the declaration
names a value, so there an earlier one can still decide what is served.
`ping_authoritative_iff` makes the difference exact, between any two runs
that end with the same Ping.
-/

namespace Aperio

/-- The part of a service that decides what is served, and to whom. -/
structure RoutingVisible where
  pathBind : Option String
  declaredHostname : Option String
  declaredHostnames : List String
  catchAll : Bool
  isPublic : Bool
  visitorAuth : Option String
  visitorAuthPolicy : Option Policy
  allowedIps : List String
  denied : Option String
  priority : Nat
  backendHealthy : Bool
  serverSideTarget : Option String
deriving DecidableEq

def ServiceState.routingVisible (s : ServiceState) : RoutingVisible where
  pathBind := s.effectivePathBind
  declaredHostname := s.declaredHostname
  declaredHostnames := s.declaredHostnames
  catchAll := s.catchAll
  isPublic := s.isPublic
  visitorAuth := s.visitorAuth
  visitorAuthPolicy := s.visitorAuthPolicy
  allowedIps := s.allowedIps
  denied := s.denied
  priority := s.priority
  backendHealthy := s.backendHealthy
  serverSideTarget := s.serverSideTarget

/-- What a connection serves, one entry for each service. -/
def visibleServices (clients : Clients) (id : String) : Option (List RoutingVisible) :=
  (clients.lookup id).map fun h => h.services.map (·.routingVisible)

/-- For each of the three binds, the declaration gives it itself, or the
services it is applied to already hold the same value. -/
structure SameLeftover (env : Env) (perms : ClientPerms) (d : ServiceDecl)
    (a b : ServiceState) : Prop where
  path : (admittedPath perms d).isSome = true ∨ a.effectivePathBind = b.effectivePathBind
  hostname : (admittedHostname env perms d).isSome = true ∨ a.declaredHostname = b.declaredHostname
  hostnames : d.namedHostnames ≠ [] ∨ a.declaredHostnames = b.declaredHostnames

/-- The same of every entry of the Ping and the services two connections
match it to. -/
def SameLeftovers (env : Env) (p : Ping) (a b : ClientHandle) : Prop :=
  ∀ matchedA matchedB, matchDeclarations a.services p.names = .ok matchedA →
    matchDeclarations b.services p.names = .ok matchedB →
    ∀ (i : Nat) (d : ServiceDecl) (m n : Option Nat), p.services[i]? = some d →
      matchedA[i]? = some m → matchedB[i]? = some n →
      SameLeftover env a.perms d (carriedService a.services m) (carriedService b.services n)

/-! ## One declaration -/

theorem or_eq_or_iff {α : Type*} {x a b : Option α} :
    x.or a = x.or b ↔ x.isSome = true ∨ a = b := by
  cases x <;> simp

/-- Two services a declaration is applied to look alike afterwards exactly
when they held the same of what it does not give. -/
theorem applyDeclaration_visible_iff (env : Env) (perms : ClientPerms) (d : ServiceDecl)
    (a b : ServiceState) :
    (applyDeclaration env perms d a).routingVisible =
        (applyDeclaration env perms d b).routingVisible ↔
      SameLeftover env perms d a b := by
  have hpath : (applyDeclaration env perms d a).effectivePathBind =
      (applyDeclaration env perms d b).effectivePathBind ↔
        (admittedPath perms d).isSome = true ∨ a.effectivePathBind = b.effectivePathBind := by
    simp only [applyDeclaration_effectivePathBind, or_eq_or_iff]
  have hhost : (applyDeclaration env perms d a).declaredHostname =
      (applyDeclaration env perms d b).declaredHostname ↔
        (admittedHostname env perms d).isSome = true ∨
          a.declaredHostname = b.declaredHostname :=
    or_eq_or_iff
  have hhosts : (applyDeclaration env perms d a).declaredHostnames =
      (applyDeclaration env perms d b).declaredHostnames ↔
        d.namedHostnames ≠ [] ∨ a.declaredHostnames = b.declaredHostnames := by
    simp only [applyDeclaration, flagRoute, writeDeclared]
    cases d.namedHostnames <;> simp
  -- the remaining fields are functions of the declaration alone
  constructor
  · intro h
    simp only [ServiceState.routingVisible, RoutingVisible.mk.injEq] at h
    exact ⟨hpath.mp h.1, hhost.mp h.2.1, hhosts.mp h.2.2.1⟩
  · intro h
    simp only [ServiceState.routingVisible, RoutingVisible.mk.injEq]
    exact ⟨hpath.mpr h.path, hhost.mpr h.hostname, hhosts.mpr h.hostnames,
      rfl, rfl, rfl, rfl, rfl, rfl, rfl, rfl, rfl⟩

/-! ## One heartbeat on two connections -/

theorem visible_marked (s : ServiceState) (why : Option String) :
    (s.marked why).routingVisible = s.routingVisible := rfl

/-- **Step lemma.** The same accepted Ping on two connections of one token
leaves the same services exactly when their leftovers are the same. -/
theorem onPing_visible_iff {env : Env} {now₁ now₂ : Nat} {clients₁ clients₂ : Clients}
    {id₁ id₂ : String} {p : Ping} {a b : ClientHandle} (ha : clients₁.lookup id₁ = some a)
    (hb : clients₂.lookup id₂ = some b) (hperms : a.perms = b.perms)
    (hacc₁ : (onPing env now₁ clients₁ id₁ p).1 = true)
    (hacc₂ : (onPing env now₂ clients₂ id₂ p).1 = true) :
    visibleServices (onPing env now₁ clients₁ id₁ p).2 id₁ =
        visibleServices (onPing env now₂ clients₂ id₂ p).2 id₂ ↔
      SameLeftovers env p a b := by
  obtain ⟨mA, a', hmA, hlookA, -, hlenA, hservA⟩ := onPing_services ha hacc₁
  obtain ⟨mB, b', hmB, hlookB, -, hlenB, hservB⟩ := onPing_services hb hacc₂
  have hlenA' := length_matched hmA
  have hlenB' := length_matched hmB
  simp only [visibleServices, hlookA, hlookB, Option.map_some, Option.some.injEq]
  -- entry by entry, both sides are the one declaration applied to two services
  have hentry : ∀ (i : Nat) (d : ServiceDecl) (m n : Option Nat), p.services[i]? = some d →
      mA[i]? = some m → mB[i]? = some n →
      ((a'.services.map (·.routingVisible))[i]? = (b'.services.map (·.routingVisible))[i]? ↔
        SameLeftover env a.perms d (carriedService a.services m)
          (carriedService b.services n)) := by
    intro i d m n hd hm hn
    obtain ⟨whyA, hgetA⟩ := hservA i d m hd hm
    obtain ⟨whyB, hgetB⟩ := hservB i d n hd hn
    rw [List.getElem?_map, List.getElem?_map, hgetA, hgetB]
    simp only [Option.map_some, Option.some.injEq, visible_marked]
    rw [← hperms]
    exact applyDeclaration_visible_iff env a.perms d _ _
  constructor
  · intro h mA' mB' hmA' hmB' i d m n hd hm hn
    obtain rfl := Except.ok.inj (hmA.symm.trans hmA')
    obtain rfl := Except.ok.inj (hmB.symm.trans hmB')
    exact (hentry i d m n hd hm hn).mp (by rw [h])
  · intro h
    apply List.ext_getElem?
    intro i
    by_cases hi : i < p.services.length
    · have hd := List.getElem?_eq_getElem hi
      have hm := List.getElem?_eq_getElem (hlenA'.symm ▸ hi : i < mA.length)
      have hn := List.getElem?_eq_getElem (hlenB'.symm ▸ hi : i < mB.length)
      exact (hentry i _ _ _ hd hm hn).mpr (h mA mB hmA hmB i _ _ _ hd hm hn)
    · rw [List.getElem?_eq_none (by simp [hlenA]; omega),
        List.getElem?_eq_none (by simp [hlenB]; omega)]

/-! ## Two runs that end with the same Ping -/

/-- The services two connections held before the last Ping differ in nothing
the Ping leaves to them. -/
def SameLeftoversBefore (env : Env) (p : Ping) (clients₁ clients₂ : Clients)
    (id₁ id₂ : String) : Prop :=
  ∀ a b, clients₁.lookup id₁ = some a → clients₂.lookup id₂ = some b → SameLeftovers env p a b

theorem serveAll_append_ping {clients : Clients} {events : List Event} {env : Env} {now : Nat}
    {id : String} {p : Ping} :
    serveAll clients (events ++ [⟨env, now, .ping id p⟩]) =
      (onPing env now (serveAll clients events) id p).2 := by
  simp [serveAll, serve]

/-- **How far a Ping is authoritative.** For any two runs on connections of
the same token that end with the same Ping in the same settings, the two
connections serve the same afterwards if and only if, entry by entry and
bind by bind, the Ping gives the bind itself or the services the entry is
matched to held the same one before. -/
theorem ping_authoritative_iff {c₁ c₂ : Connect} (hperms : c₁.perms = c₂.perms)
    {clients₁ clients₂ : Clients} {id₁ id₂ : String} {cfg₁ cfg₂ : ServerConfig}
    {t₁ t₂ now₁ now₂ : Nat} (hlive₁ : clients₁.lookup id₁ = some (newHandle cfg₁ t₁ c₁))
    (hlive₂ : clients₂.lookup id₂ = some (newHandle cfg₂ t₂ c₂)) {events₁ events₂ : List Event}
    (hstay₁ : ∀ e ∈ events₁, e.act ≠ .disconnect id₁)
    (hstay₂ : ∀ e ∈ events₂, e.act ≠ .disconnect id₂) {env : Env} {p : Ping}
    (hacc₁ : PingsAccepted clients₁ id₁ (events₁ ++ [⟨env, now₁, .ping id₁ p⟩]))
    (hacc₂ : PingsAccepted clients₂ id₂ (events₂ ++ [⟨env, now₂, .ping id₂ p⟩])) :
    visibleServices (serveAll clients₁ (events₁ ++ [⟨env, now₁, .ping id₁ p⟩])) id₁ =
        visibleServices (serveAll clients₂ (events₂ ++ [⟨env, now₂, .ping id₂ p⟩])) id₂ ↔
      SameLeftoversBefore env p (serveAll clients₁ events₁) (serveAll clients₂ events₂)
        id₁ id₂ := by
  rw [PingsAccepted, atEach_append] at hacc₁ hacc₂
  obtain ⟨a, ha, hpa⟩ := serveAll_live events₁ hlive₁ hstay₁ hacc₁.1
  obtain ⟨b, hb, hpb⟩ := serveAll_live events₂ hlive₂ hstay₂ hacc₂.1
  have hab : a.perms = b.perms := by
    rw [hpa, hpb]
    exact hperms
  rw [serveAll_append_ping, serveAll_append_ping,
    onPing_visible_iff ha hb hab (hacc₁.2 p rfl) (hacc₂.2 p rfl)]
  constructor
  · intro h a' b' ha' hb'
    obtain rfl := Option.some.inj (ha.symm.trans ha')
    obtain rfl := Option.some.inj (hb.symm.trans hb')
    exact h
  · intro h
    exact h a b ha hb

/-! ## A withdrawn path goes on being served -/

def masterConnection : Clients :=
  (∅ : Clients).insert "c1" (newHandle {} 0 { perms := ClientPerms.ofMaster })

def declaresPath : Ping where
  services := [{ service := some "a", pathBind := some "/old" }]

def withdrawsPath : Ping where
  services := [{ service := some "a" }]

/-- One connection declared a path and withdrew it, the other never declared
one; both end with the same Ping, and the first still serves the path. -/
theorem withdrawn_path_stays :
    visibleServices (serveAll masterConnection
        [⟨plainEnv, 1, .ping "c1" declaresPath⟩, ⟨plainEnv, 2, .ping "c1" withdrawsPath⟩]) "c1" ≠
      visibleServices (serveAll masterConnection [⟨plainEnv, 2, .ping "c1" withdrawsPath⟩]) "c1" ∧
    (onPing plainEnv 1 masterConnection "c1" declaresPath).1 = true ∧
    (onPing plainEnv 2 (onPing plainEnv 1 masterConnection "c1" declaresPath).2 "c1"
      withdrawsPath).1 = true ∧
    (onPing plainEnv 2 masterConnection "c1" withdrawsPath).1 = true ∧
    (visibleServices (serveAll masterConnection [⟨plainEnv, 1, .ping "c1" declaresPath⟩,
        ⟨plainEnv, 2, .ping "c1" withdrawsPath⟩]) "c1").map (·.map (·.pathBind)) =
      some [some "/old"] := by
  decide

/-- The two runs above, with the theorem applied to them. -/
theorem ping_authoritative_iff_withdrawn :
    visibleServices (serveAll masterConnection ([⟨plainEnv, 1, .ping "c1" declaresPath⟩] ++
        [⟨plainEnv, 2, .ping "c1" withdrawsPath⟩])) "c1" =
      visibleServices (serveAll masterConnection
        ([] ++ [⟨plainEnv, 2, .ping "c1" withdrawsPath⟩])) "c1" ↔
    SameLeftoversBefore plainEnv withdrawsPath
      (serveAll masterConnection [⟨plainEnv, 1, .ping "c1" declaresPath⟩])
      (serveAll masterConnection []) "c1" "c1" := by
  have hlive : masterConnection.lookup "c1" =
      some (newHandle {} 0 { perms := ClientPerms.ofMaster }) := by decide
  refine ping_authoritative_iff rfl hlive hlive (by simp) (by simp) ?_ ?_
  · rw [PingsAccepted, atEach_append, atEach_cons]
    refine ⟨⟨?_, atEach_nil⟩, ?_⟩
    · rintro p ⟨⟩
      decide
    · rintro p ⟨⟩
      decide
  · rw [PingsAccepted, atEach_append]
    refine ⟨atEach_nil, ?_⟩
    rintro p ⟨⟩
    decide

end Aperio
