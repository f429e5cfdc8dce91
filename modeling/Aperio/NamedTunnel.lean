import Aperio.BindTunnels

/-!
# The tunnel you name is the tunnel you get

A name is resolved three times on its way to a backend: by the binder among
the tunnels it discovered, by the server among its connections, and by the
declaring client, which is told a target and looks for that. Each has a key
of its own, and the binder passes on the bare name even of a tunnel it was
asked for as `<org>@<name>`.

`named_tunnel_iff` says when the three agree: the candidates the server may
choose from are all of the organization the binder read off the listing, and
no other declaration of the client stands in for the one that was named.
-/

namespace Aperio

/-! ## The declaring clients -/

/-- The server together with the clients that are connected to it:
`tunnelsOf` is what the process behind a connection declares. A connection
announces that list, or has announced nothing yet. -/
structure Fleet extends TunnelServer where
  tunnelsOf : String → List LocalTunnel
  accepted : ∀ e ∈ clients.entries, ∃ raw, validateTunnels raw = .ok (tunnelsOf e.1)
  announced : ∀ e ∈ clients.entries, e.2.tunnels = [] ∨
    e.2.tunnels = (tunnelsOf e.1).map LocalTunnel.toTunnelDecl

/-- What a relay is opened with. -/
structure RelayTerms where
  target : String
  encrypt : Bool
  psk : Option String
  proxyProtocol : Bool
deriving Repr, DecidableEq

def LocalTunnel.terms (d : LocalTunnel) : RelayTerms :=
  ⟨d.target, d.encrypt, d.psk, d.proxyProtocol⟩

/-- The declaration `TcpOpen` and `UdpOpen` relay under: the first that has
the target and serves the transport. -/
def relayUnder (transport : Transport) (tunnels : List LocalTunnel) (target : String) :
    Option LocalTunnel :=
  tunnels.find? fun d => d.target == target && protocolServes d.protocol transport.text

namespace Fleet

/-- The tunnel of a view is connected and serviceable. -/
def Connected (now : Fleet) (v : TunnelView) : Prop :=
  ∃ e ∈ now.clients.entries, now.orgName e.2.perms = v.org ∧
    (∃ d ∈ e.2.tunnels, tunnelName d = v.name) ∧ now.serviceable e.2 = true

/-- A binding's listener opens a stream, the server's map being in some
order. -/
def openStream (now : Fleet) (order : Clients) (b : Binding) (transport : Transport) :
    Except (Nat × String) OpenedStream :=
  match now.authorize b.token with
  | none => .error (401, "Unauthorized")
  | some perms => { now.toTunnelServer with clients := order }.openNamed perms transport b.name

/-- The stream is to a connection of the view's organization that declares
the name, and is relayed there under that declaration. -/
def RightTunnel (now : Fleet) (v : TunnelView) (transport : Transport) (s : OpenedStream) :
    Prop :=
  ∃ h, ⟨s.clientId, h⟩ ∈ now.clients.entries ∧ now.orgName h.perms = v.org ∧
    ∃ d ∈ now.tunnelsOf s.clientId, d.called = v.name ∧
      (relayUnder transport (now.tunnelsOf s.clientId) s.target).map LocalTunnel.terms =
        some d.terms

end Fleet

/-! ## What is promised, and when it is kept -/

section

variable (cfg : BindConfig) (before now : Fleet)

/-- Everything the configured tokens see. -/
def BindConfig.sees : List TunnelView :=
  cfg.listed before.visible

/-- More than one visible tunnel matches. -/
def BindConfig.Ambiguous (key : String) : Prop :=
  ∃ v ∈ cfg.sees before, ∃ w ∈ cfg.sees before, v.answers key = true ∧ w.answers key = true ∧
    (v.name, v.org) ≠ (w.name, w.org)

/-- The tunnel you name is the tunnel you get, and a name of several is
refused. -/
structure TunnelKept : Prop where
  right : ∀ v b, cfg.Binds (discover (cfg.sees before)) v b → now.Connected v →
    ∀ transport, protocolServes b.decl.protocol transport.text = true →
    ∀ order : Clients, order.entries.Perm now.clients.entries →
    ∀ s, now.openStream order b transport = .ok s → now.RightTunnel v transport s
  refused : ∀ request ∈ cfg.requests, cfg.Ambiguous before request.1 →
    ∃ e, resolveName request.1 request.2 (discover (cfg.sees before)) cfg.fallbackToken = .error e

/-- The first visible tunnel of its name is what some entry names, or
everything visible is bound. -/
def BindConfig.Chooses (v : TunnelView) (token : String) : Prop :=
  (cfg.sees before).find? (·.name == v.name) = some v ∧
    ((∃ request ∈ cfg.requests, v.answers request.1 = true ∧
        bindToken v request.2 cfg.fallbackToken = some token) ∨
      cfg.requests = [] ∧ bindToken v {} cfg.fallbackToken = some token)

/-- Every candidate for the name is of the view's organization, and what it
declares is not shadowed by a declaration with the same target. -/
structure Unmistakable : Prop where
  alone : ∀ v token, cfg.Chooses before v token → now.Connected v →
    ∀ transport, protocolServes v.protocol transport.text = true →
    ∀ perms, now.authorize token = some perms →
    ∀ e ∈ now.clients.entries, ∀ d ∈ now.tunnelsOf e.1,
      TunnelCandidate now.toTunnelServer perms v.name e.2 d.toTunnelDecl →
      protocolServes d.protocol transport.text = true →
      now.orgName e.2.perms = v.org ∧
        ∀ d', relayUnder transport (now.tunnelsOf e.1) d.target = some d' → d'.terms = d.terms
  single : ∀ request ∈ cfg.requests, ∀ v, (cfg.sees before).find? (·.name == v.name) = some v →
    v.answers request.1 = true → bindToken v request.2 cfg.fallbackToken ≠ none →
    ∀ w ∈ cfg.sees before, w.answers request.1 = true → w.org = v.org

end

/-! ## Names of one fleet -/

variable {cfg : BindConfig} {before now : Fleet} {v w : TunnelView} {b : Binding}

namespace Fleet

theorem exists_local {f : Fleet} {e : Sigma fun _ : String => ClientHandle}
    (he : e ∈ f.clients.entries) {decl : TunnelDecl} (hdecl : decl ∈ e.2.tunnels) :
    ∃ d ∈ f.tunnelsOf e.1, d.toTunnelDecl = decl := by
  rcases f.announced e he with hnone | hall
  · rw [hnone] at hdecl
    exact absurd hdecl List.not_mem_nil
  · rw [hall] at hdecl
    exact List.mem_map.mp hdecl

theorem settled_called {f : Fleet} {e : Sigma fun _ : String => ClientHandle}
    (he : e ∈ f.clients.entries) {d : LocalTunnel} (hd : d ∈ f.tunnelsOf e.1) :
    SettledName d.called := by
  obtain ⟨raw, hraw⟩ := f.accepted e he
  exact ((validateTunnels_ok hraw).1 d hd).named

theorem eq_of_called {f : Fleet} {e : Sigma fun _ : String => ClientHandle}
    (he : e ∈ f.clients.entries) {d d' : LocalTunnel} (hd : d ∈ f.tunnelsOf e.1)
    (hd' : d' ∈ f.tunnelsOf e.1) (h : d.called = d'.called) : d = d' := by
  obtain ⟨raw, hraw⟩ := f.accepted e he
  exact List.inj_on_of_nodup_map (validateTunnels_ok hraw).2 hd hd' h

theorem eq_of_mem_entries {f : Fleet} {id : String} {h h' : ClientHandle}
    (hh : ⟨id, h⟩ ∈ f.clients.entries) (hh' : ⟨id, h'⟩ ∈ f.clients.entries) : h = h' :=
  f.clients.nodupKeys.eq_of_mk_mem hh hh'

end Fleet

/-- What is seen goes by a name a query carries as it is. -/
theorem settled_of_mem_sees (h : v ∈ cfg.sees before) : SettledName v.name := by
  rw [BindConfig.sees, BindConfig.listed, List.mem_flatMap] at h
  obtain ⟨token, -, hv⟩ := h
  obtain ⟨w, hw, rfl⟩ := List.mem_map.mp hv
  obtain ⟨e, he, decl, hdecl, hname⟩ := TunnelServer.mem_visible hw
  obtain ⟨d, hd, rfl⟩ := Fleet.exists_local he hdecl
  have hsettled := Fleet.settled_called he hd
  rw [LocalTunnel.called, hname] at hsettled
  exact hsettled

theorem name_eq_of_answers {key : String} (hv : v.answers key = true) (hw : w.answers key = true) :
    v.name = w.name := by
  unfold TunnelView.answers at hv hw
  split at hv
  · rename_i org name hsplit
    simp only [hsplit, Bool.and_eq_true, beq_iff_eq] at hv hw
    rw [hv.1, hw.1]
  · rename_i hsplit
    simp only [hsplit, beq_iff_eq] at hv hw
    rw [hv, hw]

/-! ## What a binding carries -/

theorem bindingForView_ok {entry : BindEntry} {fallback : Option String}
    (h : bindingForView v entry fallback = .ok b) :
    bindToken v entry fallback = some b.token ∧ b.name = v.name ∧
      b.decl.protocol = v.protocol ∧ b.decl.encrypt = v.encrypt ∧ b.psk = entry.psk := by
  unfold bindingForView at h
  split at h
  · cases h
  · rename_i token htoken
    obtain rfl : _ = b := by simpa using h
    exact ⟨htoken, rfl, rfl, rfl, rfl⟩

theorem exists_bindingForView {entry : BindEntry} {fallback : Option String} {token : String}
    (h : bindToken v entry fallback = some token) :
    ∃ b, bindingForView v entry fallback = .ok b ∧ b.token = token := by
  cases hb : bindingForView v entry fallback with
  | error e =>
      unfold bindingForView at hb
      rw [h] at hb
      cases hb
  | ok b =>
      have htoken := (bindingForView_ok hb).1
      rw [h, Option.some_inj] at htoken
      exact ⟨b, rfl, htoken.symm⟩

theorem binds_chooses (h : cfg.Binds (discover (cfg.sees before)) v b) :
    cfg.Chooses before v b.token ∧ b.name = v.name ∧ b.decl.protocol = v.protocol := by
  rcases h with ⟨request, hrequest, hresolve, hbind⟩ | ⟨hnone, hmem, hbind⟩
  · obtain ⟨hfirst, hanswers⟩ := resolveView_iff.mp hresolve
    obtain ⟨htoken, hname, hprotocol, -⟩ := bindingForView_ok hbind
    exact ⟨⟨hfirst, Or.inl ⟨request, hrequest, hanswers, htoken⟩⟩, hname, hprotocol⟩
  · obtain ⟨htoken, hname, hprotocol, -⟩ := bindingForView_ok hbind
    exact ⟨⟨mem_discover.mp hmem, Or.inr ⟨hnone, htoken⟩⟩, hname, hprotocol⟩

theorem exists_binds {token : String} (h : cfg.Chooses before v token) :
    ∃ b, cfg.Binds (discover (cfg.sees before)) v b ∧ b.token = token := by
  obtain ⟨hfirst, ⟨request, hrequest, hanswers, htoken⟩ | ⟨hnone, htoken⟩⟩ := h
  · obtain ⟨b, hbind, rfl⟩ := exists_bindingForView htoken
    exact ⟨b, Or.inl ⟨request, hrequest, resolveView_iff.mpr ⟨hfirst, hanswers⟩, hbind⟩, rfl⟩
  · obtain ⟨b, hbind, rfl⟩ := exists_bindingForView htoken
    exact ⟨b, Or.inr ⟨hnone, mem_discover.mpr hfirst, hbind⟩, rfl⟩

/-! ## The streams of one binding -/

/-- The map in an order that visits one connection first. -/
theorem exists_order {f : Fleet} {e : Sigma fun _ : String => ClientHandle}
    (he : e ∈ f.clients.entries) :
    ∃ (order : Clients) (rest : _), order.entries.Perm f.clients.entries ∧
      order.entries = e :: rest := by
  have hperm := List.perm_cons_erase he
  exact ⟨⟨e :: f.clients.entries.erase e, (List.perm_nodupKeys hperm).mp f.clients.nodupKeys⟩, _,
    hperm.symm, rfl⟩

theorem tunnelCandidate_order {order : Clients} {perms : ClientPerms} {name : String} {h : ClientHandle}
    {decl : TunnelDecl} :
    TunnelCandidate { now.toTunnelServer with clients := order } perms name h decl ↔
      TunnelCandidate now.toTunnelServer perms name h decl :=
  ⟨fun hc => ⟨hc.declared, hc.permitted, hc.serviceable⟩,
    fun hc => ⟨hc.declared, hc.permitted, hc.serviceable⟩⟩

/-- A stream goes to a candidate, under a target it declares for the
name. -/
theorem openStream_ok {order : Clients} {transport : Transport} {s : OpenedStream}
    (hname : SettledName b.name) (horder : order.entries.Perm now.clients.entries)
    (h : now.openStream order b transport = .ok s) :
    ∃ perms handle, now.authorize b.token = some perms ∧
      ⟨s.clientId, handle⟩ ∈ now.clients.entries ∧
      ∃ d ∈ now.tunnelsOf s.clientId,
        TunnelCandidate now.toTunnelServer perms b.name handle d.toTunnelDecl ∧
        protocolServes d.protocol transport.text = true ∧ s.target = d.target := by
  unfold Fleet.openStream at h
  split at h
  · cases h
  · rename_i perms hperms
    obtain ⟨handle, decl, hmem, hc, hserves, htarget⟩ := TunnelServer.openNamed_ok hname h
    have hin : ⟨s.clientId, handle⟩ ∈ now.clients.entries := horder.mem_iff.mp hmem
    obtain ⟨d, hd, rfl⟩ := Fleet.exists_local hin (List.mem_of_find?_eq_some hc.declared)
    exact ⟨perms, handle, hperms, hin, d, hd, tunnelCandidate_order.mp hc, hserves, htarget⟩

/-- Every candidate gets the stream in some order. -/
theorem openStream_first {transport : Transport} {perms : ClientPerms}
    {e : Sigma fun _ : String => ClientHandle} {d : LocalTunnel} (hname : SettledName b.name)
    (hperms : now.authorize b.token = some perms) (he : e ∈ now.clients.entries)
    (hc : TunnelCandidate now.toTunnelServer perms b.name e.2 d.toTunnelDecl)
    (hserves : protocolServes d.protocol transport.text = true) :
    ∃ order : Clients, order.entries.Perm now.clients.entries ∧
      now.openStream order b transport = .ok ⟨e.1, d.target⟩ := by
  obtain ⟨order, rest, hperm, hfirst⟩ := exists_order he
  refine ⟨order, hperm, ?_⟩
  unfold Fleet.openStream
  rw [hperms]
  exact TunnelServer.openNamed_first hname hfirst (tunnelCandidate_order.mpr hc) hserves

/-- A declaration of the target is there to relay under. -/
theorem exists_relayUnder {transport : Transport} {tunnels : List LocalTunnel} {d : LocalTunnel}
    (hd : d ∈ tunnels) (hserves : protocolServes d.protocol transport.text = true) :
    ∃ d', relayUnder transport tunnels d.target = some d' := by
  rw [← Option.isSome_iff_exists, relayUnder, List.find?_isSome]
  exact ⟨d, hd, by simp [hserves]⟩

theorem TunnelCandidate.called {srv : TunnelServer} {perms : ClientPerms} {name : String}
    {h : ClientHandle} {d : LocalTunnel} (hc : TunnelCandidate srv perms name h d.toTunnelDecl) :
    d.called = name := by
  simpa [LocalTunnel.called] using List.find?_some hc.declared

theorem settled_of_chooses {token : String} (h : cfg.Chooses before v token) :
    SettledName v.name :=
  settled_of_mem_sees (List.mem_of_find?_eq_some h.1)

/-! ## Kept and unmistakable -/

/-- The order of the map that visits a candidate first shows what it would
be mistaken for. -/
theorem TunnelKept.alone (h : TunnelKept cfg before now) {token : String}
    (hchoose : cfg.Chooses before v token) (hconn : now.Connected v) {transport : Transport}
    (hserves : protocolServes v.protocol transport.text = true) {perms : ClientPerms}
    (hperms : now.authorize token = some perms) {e : Sigma fun _ : String => ClientHandle}
    (he : e ∈ now.clients.entries) {d : LocalTunnel} (hd : d ∈ now.tunnelsOf e.1)
    (hc : TunnelCandidate now.toTunnelServer perms v.name e.2 d.toTunnelDecl)
    (hdserves : protocolServes d.protocol transport.text = true) :
    now.orgName e.2.perms = v.org ∧
      ∀ d', relayUnder transport (now.tunnelsOf e.1) d.target = some d' → d'.terms = d.terms := by
  obtain ⟨b, hbinds, rfl⟩ := exists_binds hchoose
  obtain ⟨-, hname, hprotocol⟩ := binds_chooses hbinds
  have hsettled := settled_of_chooses hchoose
  rw [← hname] at hc hsettled
  obtain ⟨order, horder, hopen⟩ := openStream_first hsettled hperms he hc hdserves
  obtain ⟨handle, hmem, horg, d₂, hd₂, hcalled, hterms⟩ :=
    h.right v b hbinds hconn transport (by rw [hprotocol]; exact hserves) order horder _ hopen
  obtain rfl := Fleet.eq_of_mem_entries hmem he
  obtain rfl := Fleet.eq_of_called he hd hd₂ (by rw [hc.called, hcalled, hname])
  refine ⟨horg, ?_⟩
  intro d' hd'
  rw [hd', Option.map_some, Option.some_inj] at hterms
  exact hterms

/-- An entry that resolves is not ambiguous. -/
theorem TunnelKept.single (h : TunnelKept cfg before now) {request : String × BindEntry}
    (hrequest : request ∈ cfg.requests)
    (hfirst : (cfg.sees before).find? (·.name == v.name) = some v)
    (hanswers : v.answers request.1 = true)
    (htoken : bindToken v request.2 cfg.fallbackToken ≠ none) (hw : w ∈ cfg.sees before)
    (hwanswers : w.answers request.1 = true) : w.org = v.org := by
  by_contra hne
  have hv := List.mem_of_find?_eq_some hfirst
  obtain ⟨e, he⟩ := h.refused request hrequest
    ⟨v, hv, w, hw, hanswers, hwanswers, fun heq => hne (Prod.mk.inj heq).2.symm⟩
  obtain ⟨token, htoken⟩ := Option.ne_none_iff_exists'.mp htoken
  obtain ⟨b, hbind, -⟩ := exists_bindingForView htoken
  have hok := resolveName_ok.mpr ⟨v, resolveView_iff.mpr ⟨hfirst, hanswers⟩, hbind⟩
  rw [he] at hok
  cases hok

theorem Unmistakable.right (h : Unmistakable cfg before now)
    (hbinds : cfg.Binds (discover (cfg.sees before)) v b) (hconn : now.Connected v)
    {transport : Transport} (hserves : protocolServes b.decl.protocol transport.text = true)
    {order : Clients} (horder : order.entries.Perm now.clients.entries) {s : OpenedStream}
    (hopen : now.openStream order b transport = .ok s) : now.RightTunnel v transport s := by
  obtain ⟨hchoose, hname, hprotocol⟩ := binds_chooses hbinds
  have hsettled := settled_of_chooses hchoose
  rw [← hname] at hsettled
  obtain ⟨perms, handle, hperms, hmem, d, hd, hc, hdserves, htarget⟩ :=
    openStream_ok hsettled horder hopen
  rw [hname] at hc
  obtain ⟨horg, hterms⟩ := h.alone v b.token hchoose hconn transport
    (by rw [← hprotocol]; exact hserves) perms hperms ⟨s.clientId, handle⟩ hmem d hd hc hdserves
  obtain ⟨d', hd'⟩ := exists_relayUnder hd hdserves
  refine ⟨handle, hmem, horg, d, hd, hc.called, ?_⟩
  rw [htarget, hd', Option.map_some, hterms d' hd']

theorem Unmistakable.refused (h : Unmistakable cfg before now) {request : String × BindEntry}
    (hrequest : request ∈ cfg.requests) (hamb : cfg.Ambiguous before request.1) :
    ∃ e, resolveName request.1 request.2 (discover (cfg.sees before)) cfg.fallbackToken =
      .error e := by
  obtain ⟨v₁, hv₁, v₂, hv₂, hans₁, hans₂, hne⟩ := hamb
  cases hresolve : resolveName request.1 request.2 (discover (cfg.sees before))
      cfg.fallbackToken with
  | error e => exact ⟨e, rfl⟩
  | ok b =>
      obtain ⟨v, hview, hbind⟩ := resolveName_ok.mp hresolve
      obtain ⟨hfirst, hanswers⟩ := resolveView_iff.mp hview
      have htoken : bindToken v request.2 cfg.fallbackToken ≠ none := by
        rw [(bindingForView_ok hbind).1]
        exact Option.some_ne_none _
      have horg := h.single request hrequest v hfirst hanswers htoken
      refine absurd ?_ hne
      rw [horg v₁ hv₁ hans₁, horg v₂ hv₂ hans₂, name_eq_of_answers hans₁ hans₂]

/-- **The tunnel you name is the tunnel you get**, whatever the
configuration, the clients and their tunnels, exactly when nothing can be
mistaken for it. -/
theorem named_tunnel_iff : TunnelKept cfg before now ↔ Unmistakable cfg before now := by
  constructor
  · intro h
    refine ⟨?_, ?_⟩
    · intro v token hchoose hconn transport hserves perms hperms e he d hd hc hdserves
      exact h.alone hchoose hconn hserves hperms he hd hc hdserves
    · intro request hrequest v hfirst hanswers htoken w hw hwanswers
      exact h.single hrequest hfirst hanswers htoken hw hwanswers
  · intro h
    refine ⟨?_, ?_⟩
    · intro v b hbinds hconn transport hserves order horder s hopen
      exact h.right hbinds hconn hserves horder hopen
    · intro request hrequest hamb
      exact h.refused hrequest hamb

/-! ## One name in two organizations -/

/-- `pg`, as the client of one organization declares it. -/
def pgTunnel (target : String) : LocalTunnel where
  name := some "pg"
  customName := none
  target := target
  protocol := "tcp"
  encrypt := false
  idleTimeout := none

def pgHandle (org : Option String) (target : String) : ClientHandle where
  connectedAt := 0
  clientIp := "192.0.2.1"
  lastPingAt := some 0
  perms := { ClientPerms.ofMaster with master := false, orgId := org, tokenId := org }
  services := [{ tunnels := [(pgTunnel target).toTunnelDecl] }]

/-- The database of the master organization, and the one of `acme`. -/
def pgClients : Clients :=
  ((∅ : Clients).insert "c2" (pgHandle (some "o1") "10.0.0.2:5432")).insert "c1"
    (pgHandle none "10.0.0.1:5432")

theorem pgClients_entries : pgClients.entries =
    [⟨"c1", pgHandle none "10.0.0.1:5432"⟩, ⟨"c2", pgHandle (some "o1") "10.0.0.2:5432"⟩] := by
  rfl

/-- Both clients, and a binder with the master token. -/
def pgFleet : Fleet where
  orgs := [{ id := "o1", name := "acme" }]
  clients := pgClients
  authorize token := if token = "master" then some ClientPerms.ofMaster else none
  now := 1
  downThreshold := 30
  tunnelsOf id := [pgTunnel (if id = "c1" then "10.0.0.1:5432" else "10.0.0.2:5432")]
  accepted := by
    intro e he
    rw [pgClients_entries, List.mem_cons, List.mem_singleton] at he
    rcases he with rfl | rfl
    · exact ⟨[pgTunnel "10.0.0.1:5432"], rfl⟩
    · exact ⟨[pgTunnel "10.0.0.2:5432"], rfl⟩
  announced := by
    intro e he
    rw [pgClients_entries, List.mem_cons, List.mem_singleton] at he
    rcases he with rfl | rfl
    · exact Or.inr rfl
    · exact Or.inr rfl

def pgConfig : BindConfig where
  token := some "master"
  names := ["pg"]

/-- What the master token is listed. -/
def pgView (org : Option String) (target : String) : TunnelView where
  name := "pg"
  protocol := "tcp"
  target := target
  available := true
  org := org
  discoveredWith := some "master"

theorem pgConfig_sees : pgConfig.sees pgFleet =
    [pgView none "10.0.0.1:5432", pgView (some "acme") "10.0.0.2:5432"] := by
  rfl

/-- What `pg` becomes: the first of the two. -/
def pgBinding : Binding where
  name := "pg"
  decl := pgTunnel "10.0.0.1:5432"
  label := "tunnel pg"
  address := "127.0.0.1"
  port := 5432
  token := "master"
  psk := none

/-- The map the other way round. -/
def pgOrder : Clients :=
  ((∅ : Clients).insert "c1" (pgHandle none "10.0.0.1:5432")).insert "c2"
    (pgHandle (some "o1") "10.0.0.2:5432")

/-- Two visible tunnels are called `pg`. The binder drops the second, binds
the first, and asks the server for `pg`, which may open the stream to the
other one. -/
theorem pg_mistaken : pgConfig.Ambiguous pgFleet "pg" ∧
    plan pgConfig (discover (pgConfig.sees pgFleet)) = .ok [pgBinding] ∧
    pgOrder.entries.Perm pgFleet.clients.entries ∧
    pgFleet.openStream pgOrder pgBinding .tcp = .ok ⟨"c2", "10.0.0.2:5432"⟩ ∧
    ¬TunnelKept pgConfig pgFleet pgFleet := by
  have hamb : pgConfig.Ambiguous pgFleet "pg" := by
    refine ⟨pgView none "10.0.0.1:5432", ?_, pgView (some "acme") "10.0.0.2:5432", ?_, rfl, rfl,
      by simp [pgView]⟩
    · rw [pgConfig_sees]
      exact List.mem_cons_self
    · rw [pgConfig_sees]
      exact List.mem_cons_of_mem _ (List.mem_singleton_self _)
  have hplan : plan pgConfig (discover (pgConfig.sees pgFleet)) = .ok [pgBinding] := by
    rw [pgConfig_sees]
    rfl
  have hresolve : resolveName "pg" {} (discover (pgConfig.sees pgFleet))
      pgConfig.fallbackToken = .ok pgBinding := by
    rw [pgConfig_sees]
    rfl
  refine ⟨hamb, hplan, ?_, rfl, ?_⟩
  · exact List.Perm.swap _ _ []
  · intro h
    obtain ⟨e, he⟩ := h.refused ("pg", {}) (List.mem_singleton_self _) hamb
    rw [hresolve] at he
    cases he

end Aperio
