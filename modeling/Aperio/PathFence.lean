import Aperio.Server

/-!
# The token's path fence

A dynamic token may be limited to particular paths. The fence is kept in
three places: the placeholder a connection starts with carries the first
granted path, a declared path is applied only when the token permits it, and
a matched service keeps its bind from one heartbeat to the next. A service
the connection gains later is given the connection's hostnames but not its
path, so it is fenced only by what it declares itself.

`pathFence_iff` makes that exact for every run: the fence holds after every
accepted heartbeat of a connection if and only if every declaration that
matches no existing service names a path of the token.
-/

namespace Aperio

/-- The service serves one of the token's paths and nothing else. -/
def ServiceFenced (perms : ClientPerms) (s : ServiceState) : Prop :=
  ∃ p ∈ perms.paths, s.effectivePathBind = some p

/-- Every service of the connection is fenced. -/
def ConnectionFenced (perms : ClientPerms) (clients : Clients) (id : String) : Prop :=
  ∀ h, clients.lookup id = some h → ∀ s ∈ h.services, ServiceFenced perms s

/-- The declaration names a path of the token. -/
def NamesTokenPath (perms : ClientPerms) (d : ServiceDecl) : Prop :=
  ∃ p ∈ perms.paths, d.pathBind.bind normalizePathBind = some p

/-- Every declaration of the Ping that matches no service the connection has
names a path of the token. -/
def GainsNamePath (perms : ClientPerms) (clients : Clients) (id : String) (p : Ping) : Prop :=
  ∀ h matched, clients.lookup id = some h →
    matchDeclarations h.services p.names = .ok matched →
    ∀ (i : Nat) (d : ServiceDecl), p.services[i]? = some d → matched[i]? = some none →
      NamesTokenPath perms d

variable {perms : ClientPerms} {id : String}

/-! ## One declaration -/

theorem admittedPath_eq_some (hf : perms.PathFenced) {d : ServiceDecl} {p : String} :
    admittedPath perms d = some p ↔
      p ∈ perms.paths ∧ d.pathBind.bind normalizePathBind = some p := by
  simp only [admittedPath, Option.filter_eq_some_iff, hf.pathAllowed_iff]
  exact and_comm

theorem namesTokenPath_iff (hf : perms.PathFenced) {d : ServiceDecl} :
    NamesTokenPath perms d ↔ ∃ p, admittedPath perms d = some p := by
  simp only [NamesTokenPath, admittedPath_eq_some hf]

/-- A declaration applied to a fenced service leaves it fenced, whatever it
names. -/
theorem applyDeclaration_fenced (hf : perms.PathFenced) (env : Env) (d : ServiceDecl)
    {s : ServiceState} (hs : ServiceFenced perms s) :
    ServiceFenced perms (applyDeclaration env perms d s) := by
  simp only [ServiceFenced, applyDeclaration_effectivePathBind]
  cases hp : admittedPath perms d with
  | none =>
      exact hs
  | some p =>
      exact ⟨p, ((admittedPath_eq_some hf).mp hp).1, rfl⟩

/-- Applied to a service the connection has just gained, it leaves a fenced
one exactly when it names a path of the token. -/
theorem applyDeclaration_gained_iff (hf : perms.PathFenced) (env : Env) (d : ServiceDecl)
    (services : List ServiceState) :
    ServiceFenced perms (applyDeclaration env perms d (gainedService services)) ↔
      NamesTokenPath perms d := by
  have hgained : (gainedService services).effectivePathBind = none := rfl
  simp only [ServiceFenced, applyDeclaration_effectivePathBind, hgained, Option.or_none,
    namesTokenPath_iff hf]
  constructor
  · rintro ⟨p, -, hp⟩
    exact ⟨p, hp⟩
  · rintro ⟨p, hp⟩
    exact ⟨p, ((admittedPath_eq_some hf).mp hp).1, hp⟩

/-! ## One heartbeat -/

/-- The connection's handle is live, authenticated with the token, and
fenced. -/
structure FencedHandle (perms : ClientPerms) (clients : Clients) (id : String)
    (h : ClientHandle) : Prop where
  live : clients.lookup id = some h
  token : h.perms = perms
  fenced : ∀ s ∈ h.services, ServiceFenced perms s

/-- **Step lemma.** On a fenced connection, an accepted heartbeat leaves a
fenced connection exactly when its gains name paths of the token. -/
theorem onPing_fenced_iff (hf : perms.PathFenced) {env : Env} {now : Nat} {clients : Clients}
    {p : Ping} {h : ClientHandle} (hh : FencedHandle perms clients id h)
    (hacc : (onPing env now clients id p).1 = true) :
    ConnectionFenced perms (onPing env now clients id p).2 id ↔
      GainsNamePath perms clients id p := by
  obtain ⟨matched, h', hm, hlook, -, hlen, hserv⟩ := onPing_services hh.live hacc
  have hmlen := length_matched hm
  constructor
  · intro hfen h₁ matched₁ hlive hm₁ i d hd hslot
    obtain rfl : h = h₁ := Option.some.inj (hh.live.symm.trans hlive)
    obtain rfl : matched = matched₁ := Except.ok.inj (hm.symm.trans hm₁)
    obtain ⟨why, hget⟩ := hserv i d none hd hslot
    have hs := hfen h' hlook _ (List.mem_of_getElem? hget)
    rw [hh.token] at hs
    exact (applyDeclaration_gained_iff hf env d h.services).mp hs
  · intro hgain h₁ hlive s hs
    obtain rfl : h' = h₁ := Option.some.inj (hlook.symm.trans hlive)
    obtain ⟨i, hi⟩ := List.mem_iff_getElem?.mp hs
    have hlt : i < p.services.length := hlen ▸ (List.getElem?_eq_some_iff.mp hi).1
    obtain ⟨d, hd⟩ : ∃ d, p.services[i]? = some d := ⟨_, List.getElem?_eq_getElem hlt⟩
    obtain ⟨slot, hslot⟩ : ∃ m, matched[i]? = some m :=
      ⟨_, List.getElem?_eq_getElem (hmlen ▸ hlt)⟩
    obtain ⟨why, hget⟩ := hserv i d slot hd hslot
    obtain rfl := Option.some.inj (hi.symm.trans hget)
    rw [hh.token]
    cases slot with
    | none =>
        exact (applyDeclaration_gained_iff hf env d h.services).mpr
          (hgain h matched hh.live hm i d hd hslot)
    | some j =>
        obtain ⟨t, ht⟩ := matchDeclarations_inRange hm (List.mem_of_getElem? hslot)
        have hcar : carriedService h.services (some j) = t := by
          simp [carriedService, ht]
        rw [hcar]
        exact applyDeclaration_fenced hf env d (hh.fenced t (List.mem_of_getElem? ht))

/-! ## Every run -/

/-- The connection starts fenced: its one service carries a granted path. -/
theorem newHandle_fenced (hf : perms.PathFenced) {clients : Clients} {cfg : ServerConfig}
    {now : Nat} {c : Connect} (hc : c.perms = perms)
    (hlive : clients.lookup id = some (newHandle cfg now c)) :
    FencedHandle perms clients id (newHandle cfg now c) where
  live := hlive
  token := hc
  fenced := by
    intro s hs
    obtain rfl : s = placeholderService c := List.mem_singleton.mp hs
    obtain ⟨p, hp, hg⟩ := hf.grantedPath_mem
    refine ⟨p, hp, ?_⟩
    rw [← hg, ← hc]
    rfl

/-- After each heartbeat of `id` in the run, every service of the connection
is fenced. -/
def FencedThroughout (perms : ClientPerms) (clients : Clients) (id : String)
    (events : List Event) : Prop :=
  AtEach events fun pre e => ∀ p, e.act = .ping id p →
    ConnectionFenced perms (serveAll clients (pre ++ [e])) id

/-- At each heartbeat of `id` in the run, what the connection gains names a
path of the token. -/
def GainsNamePathThroughout (perms : ClientPerms) (clients : Clients) (id : String)
    (events : List Event) : Prop :=
  AtEach events fun pre e => ∀ p, e.act = .ping id p →
    GainsNamePath perms (serveAll clients pre) id p

/-- The two run conditions agree from any fenced state on. -/
theorem fencedThroughout_iff (hf : perms.PathFenced) :
    ∀ (events : List Event) {clients : Clients} {h : ClientHandle},
      FencedHandle perms clients id h → (∀ e ∈ events, e.act ≠ .disconnect id) →
      PingsAccepted clients id events →
      (FencedThroughout perms clients id events ↔
        GainsNamePathThroughout perms clients id events) := by
  intro events
  induction events with
  | nil =>
      intro clients h _ _ _
      exact iff_of_true atEach_nil atEach_nil
  | cons e rest ih =>
      intro clients h hh hstay hacc
      rw [PingsAccepted, atEach_cons] at hacc
      rw [FencedThroughout, GainsNamePathThroughout, atEach_cons, atEach_cons]
      have hstay' : ∀ e' ∈ rest, e'.act ≠ .disconnect id := fun e' he' =>
        hstay e' (List.mem_cons_of_mem _ he')
      by_cases hping : ∃ p, e.act = .ping id p
      · obtain ⟨p, hp⟩ := hping
        have hacc₀ := hacc.1 p hp
        have hserve : serve clients e = (onPing e.env e.now clients id p).2 := by
          simp [serve, hp]
        have hstep := onPing_fenced_iff hf hh hacc₀
        -- the first heartbeat settles both sides; where it is fenced, so is
        -- the state the rest of the run starts from
        refine (and_congr_right fun hfen => ?_).trans (and_congr_left' ?_)
        · have hfen₀ := hfen p hp
          simp only [List.nil_append, serveAll_cons, serveAll_nil] at hfen₀
          obtain ⟨matched, h', -, hlook, hperms, -⟩ := onPing_services hh.live hacc₀
          rw [← hserve] at hlook
          exact ih ⟨hlook, hperms.trans hh.token, hfen₀ h' hlook⟩ hstay' hacc.2
        · constructor
          · intro hfen p' hp'
            obtain rfl : p = p' := by
              rw [hp] at hp'
              simpa using hp'
            have := hfen p hp
            simp only [List.nil_append, serveAll_cons, serveAll_nil, hserve] at this
            exact hstep.mp this
          · intro hgain p' hp'
            simp only [List.nil_append, serveAll_cons, serveAll_nil, hserve]
            exact hstep.mpr (hgain p hp)
      · have hother : (serve clients e).lookup id = some h :=
          serve_lookup_other hh.live (fun p hp => hping ⟨p, hp⟩) (hstay e List.mem_cons_self)
        refine and_congr ?_ (ih ⟨hother, hh.token, hh.fenced⟩ hstay' hacc.2)
        exact iff_of_true (fun p hp => absurd ⟨p, hp⟩ hping) fun p hp => absurd ⟨p, hp⟩ hping

/-- **The fence, exactly.** On a connection authenticated with a token fenced
to particular paths, and in every run of connects, heartbeats and
disconnects in which it stays open and its heartbeats are accepted: after
each of them every service of the connection serves one of the token's
paths, if and only if each declaration that matches no service the
connection has at that moment names one. -/
theorem pathFence_iff (hf : perms.PathFenced) {clients : Clients} {cfg : ServerConfig} {now : Nat}
    {c : Connect} (hc : c.perms = perms)
    (hlive : clients.lookup id = some (newHandle cfg now c)) {events : List Event}
    (hstay : ∀ e ∈ events, e.act ≠ .disconnect id) (hacc : PingsAccepted clients id events) :
    FencedThroughout perms clients id events ↔
      GainsNamePathThroughout perms clients id events :=
  fencedThroughout_iff hf events (newHandle_fenced hf hc hlive) hstay hacc

/-! ## A second service escapes -/

/-- A token that may serve `/api` alone. -/
def apiToken : ClientPerms :=
  { ClientPerms.ofMaster with master := false, paths := ["/api"], tokenId := some "t1" }

def apiConnection : Clients :=
  (∅ : Clients).insert "c1" (newHandle {} 0 { perms := apiToken })

/-- Two named services, neither of which names a path. -/
def twoServices : Ping where
  services := [{ service := some "a" }, { service := some "b" }]

theorem apiToken_fenced : apiToken.PathFenced where
  not_master := rfl
  nonempty := by decide
  no_star := by decide

/-- The first heartbeat of a client with two services is accepted, and the
second of them comes up with no path bind: it serves the whole hostname. -/
theorem second_service_unfenced :
    apiToken.PathFenced ∧
      apiConnection.lookup "c1" = some (newHandle {} 0 { perms := apiToken }) ∧
      (onPing plainEnv 1 apiConnection "c1" twoServices).1 = true ∧
      ((onPing plainEnv 1 apiConnection "c1" twoServices).2.lookup "c1").map
        (fun h => h.services.map (·.effectivePathBind)) = some [some "/api", none] ∧
      ¬ConnectionFenced apiToken (onPing plainEnv 1 apiConnection "c1" twoServices).2 "c1" := by
  have hbinds : ((onPing plainEnv 1 apiConnection "c1" twoServices).2.lookup "c1").map
      (fun h => h.services.map (·.effectivePathBind)) = some [some "/api", none] := by decide
  refine ⟨apiToken_fenced, by decide, by decide, hbinds, ?_⟩
  intro hfen
  obtain ⟨h, hh, hs⟩ := Option.map_eq_some_iff.mp hbinds
  obtain ⟨s, hmem, hnone⟩ : ∃ s ∈ h.services, s.effectivePathBind = none := by
    rw [← List.mem_map, hs]
    decide
  obtain ⟨p, -, hp⟩ := hfen h hh s hmem
  rw [hnone] at hp
  cases hp

/-- The run that gains both services at once, with the theorem applied to
it. -/
theorem pathFence_iff_twoServices :
    FencedThroughout apiToken apiConnection "c1" [⟨plainEnv, 1, .ping "c1" twoServices⟩] ↔
      GainsNamePathThroughout apiToken apiConnection "c1"
        [⟨plainEnv, 1, .ping "c1" twoServices⟩] := by
  have hlive : apiConnection.lookup "c1" = some (newHandle {} 0 { perms := apiToken }) := by
    decide
  have hacc : PingsAccepted apiConnection "c1" [⟨plainEnv, 1, .ping "c1" twoServices⟩] := by
    rw [PingsAccepted, atEach_cons]
    refine ⟨?_, atEach_nil⟩
    rintro p ⟨⟩
    decide
  exact pathFence_iff apiToken_fenced rfl hlive (by simp) hacc

end Aperio
