import Mathlib.Data.Char
import Mathlib.Data.List.Lex
import Mathlib.Data.List.Sort
import Aperio.Orgs
import Aperio.TunnelNames

/-!
# The tunnel registry

`tunnel/registry.rs`: who may bind a tunnel, which connection carries it,
and what discovery lists, with the two endpoints that open a stream
(`tunnel/tcp.rs`) up to the frame they send.

A connection is chosen by walking the map of clients, so which one it is
depends on the map's order; `TunnelServer.openNamed_ok` says what is true of
it in every order, and `TunnelServer.openNamed_first` that every candidate is
the one chosen in some.
-/

namespace Aperio

inductive Transport where
  | tcp
  | udp
deriving Repr, DecidableEq

def Transport.text : Transport → String
  | .tcp => "tcp"
  | .udp => "udp"

namespace ClientHandle

/-- The `tunnels:` this connection declares: every service has the list of
the process, so the first one's copy is the answer. -/
def tunnels (h : ClientHandle) : List TunnelDecl :=
  (h.services.head?.map (·.tunnels)).getD []

/-- Whether the connection can be used for something that belongs to the
process. -/
def servesProcessScoped (h : ClientHandle) (now downThreshold : Nat) : Bool :=
  h.isHealthy now downThreshold && !h.draining && h.services.any (·.adminEnabled)

end ClientHandle

/-- May a consumer bind a tunnel declared by a client that connected as
`owner`? -/
def mayBind (consumer owner : ClientPerms) : Bool :=
  consumer.master || consumer.tokenId.isSome && consumer.tokenId == owner.tokenId ||
    consumer.allowBind && consumer.orgId == owner.orgId

/-- What the registry reads: the organizations, the connected clients, whom
a token stands for, and the clock. -/
structure TunnelServer where
  orgs : List Organization
  clients : Clients
  authorize : String → Option ClientPerms
  now : Nat
  downThreshold : Nat

/-! ## Resolving -/

inductive Rejection where
  | unknown
  | forbidden
  | unavailable
deriving Repr, DecidableEq

structure Resolved where
  clientId : String
  decl : TunnelDecl
deriving DecidableEq

inductive Selector where
  | name (name : String)
  | clientTarget (client target protocol : String)
deriving Repr, DecidableEq

def matchesClient (id : String) (h : ClientHandle) (selector : String) : Bool :=
  id == selector || h.reportedInstanceId == some selector || h.instanceGroup == some selector

/-- The declaration of one connection that a selector is about. -/
def Selector.decl (selector : Selector) (id : String) (h : ClientHandle) : Option TunnelDecl :=
  match selector with
  | .name raw => h.tunnels.find? (tunnelName · == (splitQualified raw).2)
  | .clientTarget client target protocol =>
    if !matchesClient id h (trim client) then none
    else h.tunnels.find? fun d => d.target == trim target && protocolServes d.protocol protocol

namespace TunnelServer

/-- `org_id_for_name`. -/
def orgIdForName (srv : TunnelServer) (name : String) : Except String (Option String) :=
  let name := trim name
  if name = "" || eqIgnoreAsciiCase name "master" then .ok none
  else
    match srv.orgs.find? (eqIgnoreAsciiCase ·.name name) with
    | some o => .ok (some o.id)
    | none => .error ("no organization named '" ++ name ++ "'")

def serviceable (srv : TunnelServer) (h : ClientHandle) : Bool :=
  h.servesProcessScoped srv.now srv.downThreshold

/-- The organization a selector is narrowed to, if it names one. -/
def qualifier (srv : TunnelServer) (selector : Selector) :
    Except Rejection (Option (Option String)) :=
  match selector with
  | .name raw =>
    match (splitQualified raw).1 with
    | some org =>
      match srv.orgIdForName org with
      | .ok id => .ok (some id)
      | .error _ => .error .unknown
    | none => .ok none
  | .clientTarget .. => .ok none

/-- The walk: a connection that cannot serve the tunnel now is passed over,
and what is answered when none can remembers why. -/
def resolveFrom (srv : TunnelServer) (perms : ClientPerms) (selector : Selector)
    (qualifier : Option (Option String)) :
    Rejection → List (Sigma fun _ : String => ClientHandle) → Except Rejection Resolved
  | seen, [] => .error seen
  | seen, ⟨id, h⟩ :: rest =>
    if qualifier.any (· != h.perms.orgId) then srv.resolveFrom perms selector qualifier seen rest
    else
      match selector.decl id h with
      | none => srv.resolveFrom perms selector qualifier seen rest
      | some decl =>
        if !mayBind perms h.perms then srv.resolveFrom perms selector qualifier .forbidden rest
        else if srv.serviceable h then .ok ⟨id, decl⟩
        else
          srv.resolveFrom perms selector qualifier
            (if seen = .forbidden then seen else .unavailable) rest

def resolve (srv : TunnelServer) (perms : ClientPerms) (selector : Selector) :
    Except Rejection Resolved :=
  (srv.qualifier selector).bind fun qualifier =>
    srv.resolveFrom perms selector qualifier .unknown srv.clients.entries

end TunnelServer

/-- The answer a caller gets for a tunnel that could not be resolved. -/
def reject (rejection : Rejection) (what : String) : Nat × String :=
  match rejection with
  | .unknown => (404, "No connected client declares a tunnel matching '" ++ what ++ "'")
  | .forbidden =>
    (403, "Binding needs the declaring client's own token, or one in its organization with " ++
      "allow_bind")
  | .unavailable => (503, "The client declaring '" ++ what ++ "' is not available")

/-- A stream the server opens: the connection it goes to, and the target it
names there. -/
structure OpenedStream where
  clientId : String
  target : String
deriving Repr, DecidableEq

def wrongTransport : Transport → String
  | .tcp => "That tunnel does not serve tcp; use the udp endpoint"
  | .udp => "That tunnel does not serve udp; use the tcp endpoint"

/-- `?tunnel=<name>` on the endpoint of one transport, for a caller whose
token and release have been let in. -/
def TunnelServer.openNamed (srv : TunnelServer) (perms : ClientPerms) (transport : Transport)
    (name : String) : Except (Nat × String) OpenedStream :=
  match srv.resolve perms (.name name) with
  | .ok found =>
    if protocolServes found.decl.protocol transport.text then
      .ok ⟨found.clientId, found.decl.target⟩
    else .error (400, wrongTransport transport)
  | .error rejection => .error (reject rejection name)

/-! ## Discovery -/

/-- One tunnel as a binder reads it off the listing. `discoveredWith` is the
binder's own: the token the view was listed for. -/
structure TunnelView where
  name : String
  protocol : String
  target : String
  available : Bool := false
  encrypt : Bool := false
  idleTimeout : Option Nat := none
  customName : Option String := none
  org : Option String := none
  discoveredWith : Option String := none
deriving Repr, DecidableEq

/-- The order of the listing: the master organization first, then by
organization and name. -/
def TunnelView.le (a b : TunnelView) : Prop :=
  (a.org.map String.toList).toList < (b.org.map String.toList).toList ∨
    a.org = b.org ∧ a.name.toList ≤ b.name.toList

instance (a b : TunnelView) : Decidable (TunnelView.le a b) :=
  inferInstanceAs (Decidable (_ ∨ _))

namespace TunnelServer

/-- The name of the organization a client belongs to. -/
def orgName (srv : TunnelServer) (perms : ClientPerms) : Option String :=
  perms.orgId.bind fun id => (srv.orgs.find? (·.id == id)).map (·.name)

/-- One declaration into the listing: another path to a tunnel that is
there, or a new one. -/
def collectDecl (srv : TunnelServer) (h : ClientHandle) (out : List TunnelView)
    (decl : TunnelDecl) : List TunnelView :=
  let name := tunnelName decl
  let org := srv.orgName h.perms
  match out.findIdx? fun v => v.name == name && v.org == org with
  | some i => out.modify i fun v => { v with available := v.available || srv.serviceable h }
  | none =>
    out ++ [{
      name := name
      protocol := decl.protocol
      target := decl.target
      available := srv.serviceable h
      encrypt := decl.encrypt
      idleTimeout := decl.idleTimeout
      customName := decl.customName
      org := org }]

/-- Every tunnel of the clients `keep` admits, one entry per name and
organization. -/
def collect (srv : TunnelServer) (keep : ClientPerms → Bool) : List TunnelView :=
  ((srv.clients.entries.filter fun e => keep e.2.perms).foldl
    (fun out e => e.2.tunnels.foldl (srv.collectDecl e.2) out) []).insertionSort TunnelView.le

/-- What a token's listing holds; a token nobody knows gets none. -/
def visible (srv : TunnelServer) (token : String) : List TunnelView :=
  match srv.authorize token with
  | some perms => srv.collect (mayBind perms)
  | none => []

end TunnelServer

/-! ## What the walk finds -/

variable {srv : TunnelServer} {perms : ClientPerms} {name : String} {transport : Transport}
  {s : OpenedStream}

/-- A connection a stream may be opened on. -/
structure TunnelCandidate (srv : TunnelServer) (perms : ClientPerms) (name : String)
    (h : ClientHandle) (decl : TunnelDecl) : Prop where
  declared : h.tunnels.find? (tunnelName · == name) = some decl
  permitted : mayBind perms h.perms = true
  serviceable : srv.serviceable h = true

theorem resolve_settled (hname : SettledName name) : srv.resolve perms (.name name) =
    srv.resolveFrom perms (.name name) none .unknown srv.clients.entries := by
  simp [TunnelServer.resolve, TunnelServer.qualifier, hname.splitQualified_eq, Except.bind]

theorem decl_settled (hname : SettledName name) (id : String) (h : ClientHandle) :
    Selector.decl (.name name) id h = h.tunnels.find? (tunnelName · == name) := by
  rw [Selector.decl, hname.splitQualified_eq]

theorem resolveFrom_ok (hname : SettledName name) {r : Resolved} (seen : Rejection)
    (l : List (Sigma fun _ : String => ClientHandle))
    (h : srv.resolveFrom perms (.name name) none seen l = .ok r) :
    ∃ handle, ⟨r.clientId, handle⟩ ∈ l ∧ TunnelCandidate srv perms name handle r.decl := by
  induction l generalizing seen with
  | nil => cases h
  | cons e rest ih =>
      have hlater (seen : Rejection)
          (hrest : srv.resolveFrom perms (.name name) none seen rest = .ok r) :
          ∃ handle, ⟨r.clientId, handle⟩ ∈ e :: rest ∧ TunnelCandidate srv perms name handle r.decl := by
        obtain ⟨handle, hmem, hc⟩ := ih seen hrest
        exact ⟨handle, List.mem_cons_of_mem _ hmem, hc⟩
      simp only [TunnelServer.resolveFrom, Option.any_none, Bool.false_eq_true, if_false,
        decl_settled hname] at h
      split at h
      · exact hlater _ h
      · rename_i decl hdecl
        split at h
        · exact hlater _ h
        · rename_i hmay
          split at h
          · rename_i hserve
            obtain rfl : (⟨e.1, decl⟩ : Resolved) = r := by simpa using h
            exact ⟨e.2, List.mem_cons_self, hdecl, by simpa using hmay, hserve⟩
          · exact hlater _ h

namespace TunnelServer

/-- Whatever the order, a stream goes to a candidate of the name, under the
target the candidate declares for it. -/
theorem openNamed_ok (hname : SettledName name)
    (h : srv.openNamed perms transport name = .ok s) :
    ∃ handle decl, ⟨s.clientId, handle⟩ ∈ srv.clients.entries ∧
      TunnelCandidate srv perms name handle decl ∧ protocolServes decl.protocol transport.text = true ∧
      s.target = decl.target := by
  unfold openNamed at h
  rw [resolve_settled hname] at h
  split at h
  · rename_i found hfound
    split at h
    · rename_i hserves
      obtain ⟨handle, hmem, hc⟩ := resolveFrom_ok hname _ _ hfound
      obtain rfl : (⟨found.clientId, found.decl.target⟩ : OpenedStream) = s := by simpa using h
      exact ⟨handle, found.decl, hmem, hc, hserves, rfl⟩
    · cases h
  · cases h

/-- A candidate that comes first is the one chosen. -/
theorem openNamed_first {id : String} {handle : ClientHandle} {decl : TunnelDecl}
    {rest : List (Sigma fun _ : String => ClientHandle)} (hname : SettledName name)
    (hfirst : srv.clients.entries = ⟨id, handle⟩ :: rest)
    (hc : TunnelCandidate srv perms name handle decl)
    (hserves : protocolServes decl.protocol transport.text = true) :
    srv.openNamed perms transport name = .ok ⟨id, decl.target⟩ := by
  unfold openNamed
  rw [resolve_settled hname, hfirst]
  simp [resolveFrom, decl_settled hname, hc.declared, hc.permitted, hc.serviceable, hserves]

/-! ## What a listing holds -/

theorem mem_collectDecl {h : ClientHandle} {out : List TunnelView} {decl : TunnelDecl}
    {v : TunnelView} (hv : v ∈ srv.collectDecl h out decl) :
    v.name = tunnelName decl ∨ ∃ w ∈ out, w.name = v.name := by
  unfold collectDecl at hv
  simp only at hv
  split at hv
  · right
    obtain ⟨i, hi, rfl⟩ := List.mem_iff_getElem.mp hv
    rw [List.length_modify] at hi
    refine ⟨out[i], List.getElem_mem hi, ?_⟩
    rw [List.getElem_modify]
    split <;> rfl
  · rcases List.mem_append.mp hv with hv | hv
    · exact Or.inr ⟨v, hv, rfl⟩
    · left
      rw [List.mem_singleton.mp hv]

/-- The listing holds names its declarations have. -/
theorem foldl_collectDecl {h : ClientHandle} {names : String → Prop} {decls : List TunnelDecl}
    {out : List TunnelView} (hdecls : ∀ d ∈ decls, names (tunnelName d))
    (hout : ∀ w ∈ out, names w.name) :
    ∀ w ∈ decls.foldl (srv.collectDecl h) out, names w.name := by
  induction decls generalizing out with
  | nil => exact hout
  | cons d decls ih =>
      refine ih (fun x hx => hdecls x (List.mem_cons_of_mem _ hx)) ?_
      intro w hw
      rcases mem_collectDecl hw with hnew | ⟨x, hx, hsame⟩
      · rw [hnew]
        exact hdecls d List.mem_cons_self
      · rw [← hsame]
        exact hout x hx

theorem foldl_clients {names : String → Prop} {l : List (Sigma fun _ : String => ClientHandle)}
    {out : List TunnelView} (hclients : ∀ e ∈ l, ∀ d ∈ e.2.tunnels, names (tunnelName d))
    (hout : ∀ w ∈ out, names w.name) :
    ∀ w ∈ l.foldl (fun out e => e.2.tunnels.foldl (srv.collectDecl e.2) out) out,
      names w.name := by
  induction l generalizing out with
  | nil => exact hout
  | cons e l ih =>
      exact ih (fun x hx => hclients x (List.mem_cons_of_mem _ hx))
        (foldl_collectDecl (hclients e List.mem_cons_self) hout)

/-- Every tunnel listed is one some connection declares. -/
theorem mem_visible {token : String} {v : TunnelView} (hv : v ∈ srv.visible token) :
    ∃ e ∈ srv.clients.entries, ∃ decl ∈ e.2.tunnels, tunnelName decl = v.name := by
  unfold visible at hv
  split at hv
  · rename_i perms _
    rw [collect, List.mem_insertionSort] at hv
    refine @foldl_clients srv (fun n => ∃ e ∈ srv.clients.entries, ∃ decl ∈ e.2.tunnels,
      tunnelName decl = n) _ [] ?_ (fun w hw => absurd hw List.not_mem_nil) v hv
    intro e he d hd
    exact ⟨e, (List.mem_filter.mp he).1, d, hd, rfl⟩
  · exact absurd hv List.not_mem_nil

end TunnelServer

end Aperio
