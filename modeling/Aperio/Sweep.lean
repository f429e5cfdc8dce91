import Aperio.Server

/-!
# A changed fence and the binds already there

`AppState::apply_org_hostnames` and `apply_panel_hostnames`, which run over
the live connections when an organization's allowlist or a panel's hostname
changes. What a connection may bind is checked when it declares, so a bind
that was admitted earlier stays unless the sweep tells its connection to
go.

A service is reached under the hostnames its token grants, the ones it
declares in a list, and the one it declares by itself; the sweep looks at
the first two kinds. It does not ask whether a service catches all.
-/

namespace Aperio

/-! ## The sweeps -/

def Clients.mapHandles (clients : Clients) (f : ClientHandle → ClientHandle) : Clients where
  entries := clients.entries.map (Sigma.map id fun _ => f)
  nodupKeys := by
    rw [List.NodupKeys, List.keys, List.map_map]
    exact clients.nodupKeys

theorem Clients.lookup_mapHandles (clients : Clients) (f : ClientHandle → ClientHandle)
    (id : String) : (clients.mapHandles f).lookup id = (clients.lookup id).map f :=
  List.dlookup_map₂ id

/-- The hostnames a sweep looks at. -/
def ClientHandle.sweptHostnames (h : ClientHandle) : List String :=
  h.services.flatMap fun s => s.assignedHostnames ++ s.declaredHostnames

/-- The connections a sweep tells to disconnect. -/
def toldToGo (clients : Clients) (leaves : ClientHandle → Bool) : List String :=
  (clients.entries.filter fun e => leaves e.2).map (·.1)

def outsideAllowlist (hostnames : List String) (h : ClientHandle) : Bool :=
  h.sweptHostnames.any fun name => !hostnameInOrgAllowlist name hostnames

def applyOrgHostnames (clients : Clients) (orgId : String) (hostnames : List String) :
    Clients × List String :=
  (clients.mapHandles fun h =>
      if h.perms.orgId = some orgId then
        { h with perms := { h.perms with orgHostnames := hostnames } }
      else h,
    toldToGo clients fun h => h.perms.orgId == some orgId && outsideAllowlist hostnames h)

/-- `refresh_panel_hostnames`. -/
def panelHostnames (orgPanels : List String) (dashboardHostname : Option String) : List String :=
  orgPanels ++ dashboardHostname.toList

def servesPanel (panels : List String) (h : ClientHandle) : Bool :=
  h.sweptHostnames.any (panels.contains ·)

def applyPanelHostnames (clients : Clients) (orgPanels : List String)
    (dashboardHostname : Option String) : List String :=
  toldToGo clients (servesPanel (panelHostnames orgPanels dashboardHostname))

/-! ## What they leave -/

theorem mem_toldToGo {clients : Clients} {leaves : ClientHandle → Bool} {id : String} :
    id ∈ toldToGo clients leaves ↔ ∃ h, clients.lookup id = some h ∧ leaves h = true := by
  simp only [toldToGo, List.mem_map, List.mem_filter]
  constructor
  · rintro ⟨e, ⟨hmem, hleaves⟩, rfl⟩
    exact ⟨e.2, AList.mem_lookup_iff.mpr hmem, hleaves⟩
  · rintro ⟨h, hlookup, hleaves⟩
    exact ⟨⟨id, h⟩, ⟨AList.mem_lookup_iff.mp hlookup, hleaves⟩, rfl⟩

theorem mem_foldl_pushNew {name : String} (names : List String) :
    ∀ set : List String, name ∈ names.foldl ServiceState.pushNew set ↔ name ∈ set ∨ name ∈ names := by
  induction names with
  | nil =>
      simp
  | cons h rest ih =>
      intro set
      have hpush : name ∈ ServiceState.pushNew set h ↔ name ∈ set ∨ name = h := by
        unfold ServiceState.pushNew
        split
        · rename_i hmem
          constructor
          · exact Or.inl
          · rintro (hname | rfl)
            · exact hname
            · exact hmem
        · simp
      rw [List.foldl_cons, ih, hpush, List.mem_cons, or_assoc]

/-- The three places a hostname comes from. The random one is among the
assigned. -/
theorem mem_effectiveHostnames {s : ServiceState} {name : String} :
    name ∈ s.effectiveHostnames ↔ name ∈ s.assignedHostnames ++ s.declaredHostnames ∨
      s.declaredHostname = some name := by
  simp only [ServiceState.effectiveHostnames, mem_foldl_pushNew, List.mem_append,
    Option.mem_toList]
  constructor
  · rintro ((h | h) | h)
    · exact Or.inl (Or.inl h)
    · exact Or.inr h
    · exact Or.inl (Or.inr h)
  · rintro ((h | h) | h)
    · exact Or.inl (Or.inl h)
    · exact Or.inr h
    · exact Or.inl (Or.inr h)

/-- A name check holds of every name a connection serves when it holds of
the swept ones and of the ones each service declares by itself. -/
theorem ClientHandle.forall_effectiveHostnames {h : ClientHandle} {ok : String → Prop} :
    (∀ s ∈ h.services, ∀ name ∈ s.effectiveHostnames, ok name) ↔
      (∀ name ∈ h.sweptHostnames, ok name) ∧
        ∀ s ∈ h.services, ∀ name, s.declaredHostname = some name → ok name := by
  simp only [sweptHostnames, List.mem_flatMap, mem_effectiveHostnames]
  constructor
  · intro hall
    constructor
    · rintro name ⟨s, hs, hname⟩
      exact hall s hs name (Or.inl hname)
    · intro s hs name hname
      exact hall s hs name (Or.inr hname)
  · rintro ⟨hswept, hsingle⟩ s hs name (hname | hname)
    · exact hswept name ⟨s, hs, hname⟩
    · exact hsingle s hs name hname

/-- Every connection of `orgId` the sweep lets stay serves names inside the
list alone, and catches all only where there is no list. -/
def FenceReaches (clients : Clients) (orgId : String) (hostnames : List String) : Prop :=
  let (after, told) := applyOrgHostnames clients orgId hostnames
  ∀ id h, after.lookup id = some h → h.perms.orgId = some orgId → id ∉ told →
    ∀ s ∈ h.services,
      (∀ name ∈ s.effectiveHostnames, hostnameInOrgAllowlist name hostnames = true) ∧
        (hostnames ≠ [] → s.catchAll = false)

/-- No connection the sweep lets stay serves a panel's name. -/
def PanelsReach (clients : Clients) (orgPanels : List String) (dashboardHostname : Option String) :
    Prop :=
  ∀ id h, clients.lookup id = some h → id ∉ applyPanelHostnames clients orgPanels dashboardHostname →
    ∀ s ∈ h.services, ∀ name ∈ s.effectiveHostnames,
      name ∉ panelHostnames orgPanels dashboardHostname

/-- What the organization sweep does not look at is inside the list anyway,
on every connection whose other names all are. -/
def UnsweptInside (clients : Clients) (orgId : String) (hostnames : List String) : Prop :=
  ∀ id h, clients.lookup id = some h → h.perms.orgId = some orgId →
    (∀ name ∈ h.sweptHostnames, hostnameInOrgAllowlist name hostnames = true) →
    ∀ s ∈ h.services,
      (∀ name, s.declaredHostname = some name → hostnameInOrgAllowlist name hostnames = true) ∧
        (hostnames ≠ [] → s.catchAll = false)

def UnsweptNoPanel (clients : Clients) (panels : List String) : Prop :=
  ∀ id h, clients.lookup id = some h → (∀ name ∈ h.sweptHostnames, name ∉ panels) →
    ∀ s ∈ h.services, ∀ name, s.declaredHostname = some name → name ∉ panels

theorem outsideAllowlist_eq_false {hostnames : List String} {h : ClientHandle} :
    outsideAllowlist hostnames h = false ↔
      ∀ name ∈ h.sweptHostnames, hostnameInOrgAllowlist name hostnames = true := by
  simp [outsideAllowlist]

theorem servesPanel_eq_false {panels : List String} {h : ClientHandle} :
    servesPanel panels h = false ↔ ∀ name ∈ h.sweptHostnames, name ∉ panels := by
  simp [servesPanel]

/-- A live connection the sweep does not name is one whose test failed. -/
theorem not_mem_toldToGo {clients : Clients} {leaves : ClientHandle → Bool} {id : String}
    {h : ClientHandle} (hid : clients.lookup id = some h) :
    id ∉ toldToGo clients leaves ↔ leaves h = false := by
  rw [mem_toldToGo, hid]
  simp

/-- A connection of the organization after the sweep: the one it was before,
under the new list. -/
theorem applyOrgHostnames_lookup {clients : Clients} {orgId : String} {hostnames : List String}
    {id : String} {h' : ClientHandle}
    (hlook : (applyOrgHostnames clients orgId hostnames).1.lookup id = some h') :
    ∃ h, clients.lookup id = some h ∧ h'.services = h.services ∧
      h'.perms.orgId = h.perms.orgId := by
  simp only [applyOrgHostnames, Clients.lookup_mapHandles, Option.map_eq_some_iff] at hlook
  obtain ⟨h, hid, rfl⟩ := hlook
  refine ⟨h, hid, ?_, ?_⟩
  · split <;> rfl
  · split <;> rfl

theorem applyOrgHostnames_stays {clients : Clients} {orgId : String} {hostnames : List String}
    {id : String} {h : ClientHandle} (hid : clients.lookup id = some h)
    (horg : h.perms.orgId = some orgId) :
    id ∉ (applyOrgHostnames clients orgId hostnames).2 ↔
      ∀ name ∈ h.sweptHostnames, hostnameInOrgAllowlist name hostnames = true := by
  simp only [applyOrgHostnames, not_mem_toldToGo hid, horg, beq_self_eq_true, Bool.true_and,
    outsideAllowlist_eq_false]

theorem fenceReaches_iff {clients : Clients} {orgId : String} {hostnames : List String} :
    FenceReaches clients orgId hostnames ↔ UnsweptInside clients orgId hostnames := by
  simp only [FenceReaches, UnsweptInside]
  constructor
  · intro hreach id h hid horg hswept s hs
    have hafter : (applyOrgHostnames clients orgId hostnames).1.lookup id =
        some { h with perms := { h.perms with orgHostnames := hostnames } } := by
      simp only [applyOrgHostnames, Clients.lookup_mapHandles, hid, Option.map_some, horg, if_true]
    have hstays := (applyOrgHostnames_stays hid horg).mpr hswept
    obtain ⟨hnames, hcatch⟩ := hreach id _ hafter horg hstays s hs
    refine ⟨fun name hname => ?_, hcatch⟩
    exact hnames name (mem_effectiveHostnames.mpr (Or.inr hname))
  · intro hunswept id h' hlook horg hstays
    obtain ⟨h, hid, hservices, hperms⟩ := applyOrgHostnames_lookup hlook
    rw [hperms] at horg
    have hswept := (applyOrgHostnames_stays hid horg).mp hstays
    have hrest := hunswept id h hid horg hswept
    have hall := ClientHandle.forall_effectiveHostnames.mpr
      ⟨hswept, fun s hs => (hrest s hs).1⟩
    intro s hs
    rw [hservices] at hs
    exact ⟨hall s hs, (hrest s hs).2⟩

theorem panelsReach_iff {clients : Clients} {orgPanels : List String}
    {dashboardHostname : Option String} :
    PanelsReach clients orgPanels dashboardHostname ↔
      UnsweptNoPanel clients (panelHostnames orgPanels dashboardHostname) := by
  simp only [PanelsReach, UnsweptNoPanel, applyPanelHostnames]
  constructor
  · intro hreach id h hid hswept s hs name hname
    have hstays := (not_mem_toldToGo hid).mpr (servesPanel_eq_false.mpr hswept)
    exact hreach id h hid hstays s hs name (mem_effectiveHostnames.mpr (Or.inr hname))
  · intro hunswept id h hid hstays
    have hswept := servesPanel_eq_false.mp ((not_mem_toldToGo hid).mp hstays)
    exact ClientHandle.forall_effectiveHostnames.mpr ⟨hswept, hunswept id h hid hswept⟩

/-- **When a changed fence reaches every live bind.** Both sweeps leave
nothing behind exactly when what they do not look at, a name a service
declares by itself and its catch-all, had nothing to take away. -/
theorem sweeps_reach_iff (clients : Clients) (orgId : String) (hostnames orgPanels : List String)
    (dashboardHostname : Option String) :
    (FenceReaches clients orgId hostnames ↔ UnsweptInside clients orgId hostnames) ∧
      (PanelsReach clients orgPanels dashboardHostname ↔
        UnsweptNoPanel clients (panelHostnames orgPanels dashboardHostname)) :=
  ⟨fenceReaches_iff, panelsReach_iff⟩

/-! ## A name declared by itself stays -/

def acmeToken : ClientPerms :=
  { ClientPerms.ofMaster with master := false, orgId := some "acme" }

def acmeConnection : Clients :=
  (∅ : Clients).insert "c1" (newHandle {} 0 { perms := acmeToken })

def declaresHostname : Ping where
  services := [{ service := some "a", hostnameBind := some "old.example.com" }]

def acmeServing : Clients :=
  (onPing plainEnv 1 acmeConnection "c1" declaresHostname).2

theorem acmeServing_lookup : ∃ h s, acmeServing.lookup "c1" = some h ∧
    h.perms.orgId = some "acme" ∧ h.services = [s] ∧ h.sweptHostnames = [] ∧
    s.declaredHostname = some "old.example.com" := by
  refine ⟨_, _, rfl, ?_, rfl, ?_, ?_⟩
  all_goals decide

/-- A connection of the organization declares one hostname by itself. The
list is then set to another one, and the same name becomes a panel: neither
sweep tells the connection to go, and it serves the name afterwards. -/
theorem single_hostname_stays :
    (acmeServing.lookup "c1").map (·.services.map (·.effectiveHostnames)) =
        some [["old.example.com"]] ∧
      (applyOrgHostnames acmeServing "acme" ["new.example.com"]).2 = [] ∧
      applyPanelHostnames acmeServing ["old.example.com"] none = [] ∧
      ¬FenceReaches acmeServing "acme" ["new.example.com"] ∧
      ¬PanelsReach acmeServing ["old.example.com"] none := by
  obtain ⟨h, s, hid, horg, hservices, hswept, hname⟩ := acmeServing_lookup
  have hs : s ∈ h.services := by simp [hservices]
  refine ⟨by decide, by decide, by decide, ?_, ?_⟩
  · intro hreach
    have hinside := (fenceReaches_iff.mp hreach "c1" h hid horg (by simp [hswept]) s hs).1 _ hname
    exact absurd hinside (by decide)
  · intro hreach
    have hfree := panelsReach_iff.mp hreach "c1" h hid (by simp [hswept]) s hs _ hname
    exact hfree (by decide)

end Aperio
