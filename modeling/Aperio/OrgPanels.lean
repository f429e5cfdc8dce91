import Aperio.Caller
import Aperio.OrgStore
import Aperio.Run

/-!
# Panels of organizations

`orgs_panel_handler`, `orgs_create_handler` and `orgs_hostnames_handler`
(`api/orgs.rs`), one lock region after the other. A panel is checked against
the fence and the other panels in regions before the one it is written in; a
creation with a panel is two writes; and replacing a fence takes a panel away
that the new one does not cover, in a region of its own.

Any number of requests run between each other. `Harmless` is the step that
finds what its request checked still so, and whose writes do not part.
-/

namespace Aperio

/-! ## What is asked and answered -/

inductive OrgRequest where
  | panel (id : String) (hostname : Option String)
  | create (name : String) (customName : Option String) (hostnames : List String)
      (panelHostname : Option String)
  | hostnames (id : String) (hostnames : List String)
deriving DecidableEq

/-- A request, with whom it is resolved to. -/
structure OrgCall where
  caller : Option Caller
  request : OrgRequest
deriving DecidableEq

inductive OrgRefusal where
  | unauthenticated
  | notServerAdmin
  | notAdminThere
  | master
  | badPattern (entry : String)
  | notHostname (raw : String)
  | noAllowlist
  | outsideFence (host : String) (fence : List String)
  | dashboardHostname (host : String)
  | taken (host : String)
  | served (host : String) (connections : Nat)
  | store (e : OrgError)
deriving Repr, DecidableEq

def OrgRefusal.status : OrgRefusal → Nat
  | .unauthenticated => 401
  | .notServerAdmin => 403
  | .notAdminThere => 403
  | .master => 400
  | .badPattern _ => 400
  | .notHostname _ => 400
  | .noAllowlist => 400
  | .outsideFence _ _ => 403
  | .dashboardHostname _ => 409
  | .taken _ => 409
  | .served _ _ => 409
  | .store .noSuchOrg => 404
  | .store .notSaved => 500
  | .store _ => 400

def masterId : String := "master"

/-! ## The checks -/

def requireServerAdmin (caller : Option Caller) : Except OrgRefusal Unit :=
  if (caller.bind fun c => c.roleIn c.effectiveOrg).isNone then .error .unauthenticated
  else if !caller.any (·.isServerAdmin) then .error .notServerAdmin
  else .ok ()

/-- An allowlist as it is stored; a bare `*` is no fence at all. -/
def normalizeAllowlist (out : List String) : List String → Except OrgRefusal (List String)
  | [] => .ok out
  | entry :: rest =>
    if trim entry = "" then normalizeAllowlist out rest
    else
      match normalizeOrgHostnamePattern entry with
      | none => .error (.badPattern (trim entry))
      | some pattern =>
        if pattern = "*" then .ok []
        else normalizeAllowlist (if out.contains pattern then out else out ++ [pattern]) rest

/-- The spelling, the fence, and the server's own panel. -/
def checkPanelName (dashboardHostname : Option String) (fence : List String)
    (raw : Option String) : Except OrgRefusal (Option String) :=
  match (raw.map trim).filter (· != "") with
  | none => .ok none
  | some raw =>
    match normalizePanelHostname raw with
    | none => .error (.notHostname raw)
    | some host =>
      if fence.isEmpty then .error .noAllowlist
      else if !hostnameInOrgAllowlist host fence then .error (.outsideFence host fence)
      else if dashboardHostname == some host then .error (.dashboardHostname host)
      else .ok (some host)

/-- Every other organization's panel. -/
def checkPanelFree (orgs : OrgRows) (id : String) (host : Option String) :
    Except OrgRefusal (Option String) :=
  match host.filter fun h => (orgs.panelOrgFor h).any (·.id != id) with
  | some h => .error (.taken h)
  | none => .ok host

def clientsServingOutside (clients : Clients) (org host : String) : Nat :=
  (clients.entries.filter fun e =>
    e.2.perms.orgId != some org && e.2.services.any (·.matchesHost host)).length

/-- A name others are serving is not taken off the air for them. -/
def checkPanelServed (clients : Clients) (id : String) (host : Option String) :
    Except OrgRefusal (Option String) :=
  match host.filter fun h => decide (0 < clientsServingOutside clients id h) with
  | some h => .error (.served h (clientsServingOutside clients id h))
  | none => .ok host

/-! ## The regions -/

/-- What a region finds beside the organizations, and whether its write can be
saved. -/
structure OrgMoment where
  saved : Bool := true
  newId : String := ""
  nowSecs : Nat := 0
  clients : Clients := ∅
  dashboardHostname : Option String := none

/-- Where a request is: `unclaimed` is nobody else's panel, and `checked` is
served by nobody else either. -/
inductive OrgStage where
  | arrived
  | fenced (fence : List String)
  | unclaimed (host : Option String)
  | checked (host : Option String)
  | newUnclaimed (hostnames : List String) (host : Option String)
  | newChecked (hostnames : List String) (host : Option String)
  | created (org : StoredOrg) (host : String)
  | fenceWritten (hostnames : List String) (updated : Except OrgError StoredOrg)
  | answered (result : Except OrgRefusal StoredOrg)
deriving DecidableEq

/-- The answer of a check that refuses, and the next region of one that does
not. -/
def OrgStage.after {α : Type} (check : Except OrgRefusal α) (next : α → OrgStage) : OrgStage :=
  match check with
  | .ok a => next a
  | .error e => .answered (.error e)

section Regions

variable (w : OrgMoment) (caller : Option Caller) (t : OrgTable)

/-- Who may set a panel, and the fence it is checked against. -/
def panelFence (orgs : OrgRows) (id : String) : Except OrgRefusal (List String) :=
  match caller with
  | none => .error .unauthenticated
  | some c =>
    if id = masterId then .error .master
    else if c.roleIn (some id) != some .admin then .error .notAdminThere
    else
      match orgs.find id with
      | some org => .ok org.hostnames
      | none => .error (.store .noSuchOrg)

/-- `orgs_panel_handler`. -/
def panelRegion (id : String) (raw : Option String) (s : OrgStage) : OrgStage × OrgTable :=
  match s with
  | .arrived => (.after (panelFence caller t.memory id) .fenced, t)
  | .fenced fence =>
    (.after ((checkPanelName w.dashboardHostname fence raw).bind
      (checkPanelFree t.memory id)) .unclaimed, t)
  | .unclaimed host => (.after (checkPanelServed w.clients id host) .checked, t)
  | .checked host =>
    let out := t.setPanelHostname w.saved id host
    (.answered (out.1.mapError .store), out.2)
  | s => (s, t)

/-- What a creation is refused for before there is a record. No organization
has the placeholder's id. -/
def newPanel (orgs : OrgRows) (hostnames : List String) (panel : Option String) :
    Except OrgRefusal (List String × Option String) := do
  requireServerAdmin caller
  let hostnames ← normalizeAllowlist [] hostnames
  let host ← checkPanelName w.dashboardHostname hostnames panel
  let host ← checkPanelFree orgs "" host
  .ok (hostnames, host)

/-- `orgs_create_handler`. -/
def createRegion (name : String) (customName : Option String) (hostnames : List String)
    (panel : Option String) (s : OrgStage) : OrgStage × OrgTable :=
  match s with
  | .arrived =>
    (.after (newPanel w caller t.memory hostnames panel) fun e => .newUnclaimed e.1 e.2, t)
  | .newUnclaimed hostnames host =>
    (.after (checkPanelServed w.clients "" host) (.newChecked hostnames), t)
  | .newChecked hostnames host =>
    let out := t.create w.saved w.newId w.nowSecs name hostnames customName
    (match out.1, host with
      | .ok org, some host => .created org host
      | result, _ => .answered (result.mapError .store), out.2)
  | .created org host =>
    let out := t.setPanelHostname w.saved org.id (some host)
    (.answered (out.1.mapError .store), out.2)
  | s => (s, t)

/-- The fence a request asks for. -/
def wantedFence (id : String) (hostnames : List String) : Except OrgRefusal (List String) := do
  requireServerAdmin caller
  if id = masterId then .error .master
  else normalizeAllowlist [] hostnames

/-- The panel a fence no longer covers. -/
def stalePanel (orgs : OrgRows) (id : String) (hostnames : List String) : Option String :=
  ((orgs.find id).bind (·.panelHostname)).filter fun panel =>
    hostnames.isEmpty || !hostnameInOrgAllowlist panel hostnames

/-- `orgs_hostnames_handler`. -/
def hostnamesRegion (id : String) (raw : List String) (s : OrgStage) : OrgStage × OrgTable :=
  match s with
  | .arrived =>
    match wantedFence caller id raw with
    | .error e => (.answered (.error e), t)
    | .ok hostnames =>
      let out := t.setHostnames w.saved id hostnames
      (.fenceWritten hostnames out.1, out.2)
  | .fenceWritten hostnames updated =>
    (.answered (updated.mapError .store),
      if (stalePanel t.memory id hostnames).isSome then (t.setPanelHostname w.saved id none).2
      else t)
  | s => (s, t)

end Regions

/-- The next region of a request. -/
def OrgCall.region (c : OrgCall) (w : OrgMoment) (s : OrgStage) (t : OrgTable) :
    OrgStage × OrgTable :=
  match c.request with
  | .panel id raw => panelRegion w c.caller t id raw s
  | .create name customName hostnames panel =>
    createRegion w c.caller t name customName hostnames panel s
  | .hostnames id raw => hostnamesRegion w c.caller t id raw s

/-! ## Every interleaving -/

/-- A request between two of its regions. `wrote` remembers whether one of them
changed an allowlist or a panel, or created an organization; the handlers do
not. -/
structure OrgProgress where
  call : OrgCall
  stage : OrgStage := .arrived
  wrote : Bool := false
deriving DecidableEq

/-- The organizations as a refused request may not change them. -/
def OrgRows.fences (orgs : OrgRows) : List (String × List String × Option String) :=
  orgs.map fun o => (o.id, o.hostnames, o.panelHostname)

structure PanelState where
  table : OrgTable
  requests : List OrgProgress := []
deriving DecidableEq

inductive PanelAct where
  | arrive (call : OrgCall)
  | region (i : Nat) (w : OrgMoment)

def PanelState.next (s : PanelState) : PanelAct → Option PanelState
  | .arrive call => some { s with requests := s.requests ++ [{ call := call }] }
  | .region i w =>
    (s.requests[i]?).map fun p =>
      let out := p.call.region w p.stage s.table
      { table := out.2
        requests := s.requests.set i
          { p with
            stage := out.1
            wrote := p.wrote || decide (s.table.memory.fences ≠ out.2.memory.fences) } }

/-- A panel is one organization's, and inside the fence it has. -/
structure OrgRows.PanelsHeld (orgs : OrgRows) : Prop where
  one : ∀ a ∈ orgs, ∀ b ∈ orgs, ∀ host, a.panelHostname = some host →
    b.panelHostname = some host → a.id = b.id
  fenced : ∀ o ∈ orgs, ∀ host ∈ o.panelHostname,
    o.hostnames ≠ [] ∧ hostnameInOrgAllowlist host o.hostnames = true

/-- A new id is nobody's yet, as a random one is. -/
def PanelAct.FreshId (s : PanelState) : PanelAct → Prop
  | .arrive _ => True
  | .region _ w => ∀ o ∈ s.table.memory, o.id ≠ w.newId

/-- Any number of requests over a table that was loaded: its ids are a key, and
its panels are held. -/
def panelSys : Sys PanelState PanelAct where
  init s := s.requests = [] ∧ (s.table.memory.map (·.id)).Nodup ∧ s.table.memory.PanelsHeld
  step s a s' := s.next a = some s' ∧ a.FreshId s

/-! ## What has to be still so -/

/-- The hostname is nobody else's panel, and inside the fence of the
organization. -/
def OrgRows.Claimable (orgs : OrgRows) (id host : String) : Prop :=
  (∀ o ∈ orgs, o.panelHostname = some host → o.id = id) ∧
    ∀ o ∈ orgs, o.id = id → o.hostnames ≠ [] ∧ hostnameInOrgAllowlist host o.hostnames = true

/-- The fence covers the panel the organization has, if it has one. -/
def OrgRows.Covers (orgs : OrgRows) (id : String) (hostnames : List String) : Prop :=
  ∀ o ∈ orgs, o.id = id → ∀ host ∈ o.panelHostname,
    hostnames ≠ [] ∧ hostnameInOrgAllowlist host hostnames = true

/-- A panel is written where it may be claimed; the second write of a creation
succeeds; a fence is replaced by one that covers the panel; and where that
write failed there is no panel left to take away, or taking it away fails as
well. -/
def OrgStage.Harmless (s : OrgStage) (call : OrgCall) (w : OrgMoment) (orgs : OrgRows) : Prop :=
  match s, call.request with
  | .checked (some host), .panel id _ => w.saved = true → orgs.Claimable id host
  | .created org host, .create _ _ _ _ => w.saved = true ∧ orgs.Claimable org.id host
  | .arrived, .hostnames id raw =>
    w.saved = true → ∀ hostnames, wantedFence call.caller id raw = .ok hostnames →
      orgs.Covers id hostnames
  | .fenceWritten hostnames (.error _), .hostnames id _ =>
    w.saved = true → orgs.Covers id hostnames
  | _, _ => True

def harmless (s : PanelState) (a : PanelAct) (_ : PanelState) : Prop :=
  match a with
  | .arrive _ => True
  | .region i w => ∀ p, s.requests[i]? = some p → p.stage.Harmless p.call w s.table.memory

/-- The panels are held, and a request that was refused has changed nothing. -/
structure PanelState.Held (s : PanelState) : Prop where
  panels : s.table.memory.PanelsHeld
  refused : ∀ p ∈ s.requests, ∀ e, p.stage = .answered (.error e) → p.wrote = false

/-! ## What a region does -/

/-- The request may have changed something and not be refused for it. -/
def OrgStage.mayHaveWritten : OrgStage → Bool
  | .created _ _ => true
  | .fenceWritten _ (.ok _) => true
  | .answered (.ok _) => true
  | _ => false

/-- What a region may do to the rows, and where it leaves its request. -/
inductive OrgMove (call : OrgCall) (w : OrgMoment) (orgs : OrgRows) :
    OrgStage → OrgStage → OrgRows → Prop
  | stays (s : OrgStage) : OrgMove call w orgs s s orgs
  | looks {s s' : OrgStage} (hs : s.mayHaveWritten = false) (hs' : s'.mayHaveWritten = false) :
      OrgMove call w orgs s s' orgs
  | setsPanel {id : String} {raw host : Option String} (org : StoredOrg)
      (hrequest : call.request = .panel id raw) (hsaved : w.saved = true) :
      OrgMove call w orgs (.checked host) (.answered (.ok { org with panelHostname := host }))
        (orgs.rewrite id fun o => { o with panelHostname := host })
  | creates {s : OrgStage} (org : StoredOrg) (hid : org.id = w.newId)
      (hpanel : org.panelHostname = none) (hs : s.mayHaveWritten = false) {s' : OrgStage}
      (hs' : s' = .answered (.ok org) ∨ ∃ host, s' = .created org host) :
      OrgMove call w orgs s s' (orgs ++ [org])
  | setsNewPanel {name : String} {customName panel : Option String} {raw : List String}
      {org : StoredOrg} {host : String} (row : StoredOrg)
      (hrequest : call.request = .create name customName raw panel) (hsaved : w.saved = true) :
      OrgMove call w orgs (.created org host)
        (.answered (.ok { row with panelHostname := some host }))
        (orgs.rewrite org.id fun o => { o with panelHostname := some host })
  | losesNewPanel {name : String} {customName panel : Option String} {raw : List String}
      {org : StoredOrg} {host : String} {e : OrgRefusal}
      (hrequest : call.request = .create name customName raw panel)
      (hlost : w.saved = false ∨ orgs.find org.id = none) :
      OrgMove call w orgs (.created org host) (.answered (.error e)) orgs
  | setsFence {id : String} {raw hostnames : List String} (org : StoredOrg)
      (hrequest : call.request = .hostnames id raw) (hsaved : w.saved = true)
      (hwanted : wantedFence call.caller id raw = .ok hostnames) :
      OrgMove call w orgs .arrived
        (.fenceWritten hostnames (.ok { org with hostnames := hostnames }))
        (orgs.rewrite id fun o => { o with hostnames := hostnames })
  | takesPanel {id : String} {raw hostnames : List String} {updated : Except OrgError StoredOrg}
      (hrequest : call.request = .hostnames id raw) (hsaved : w.saved = true)
      (hstale : (stalePanel orgs id hostnames).isSome = true) :
      OrgMove call w orgs (.fenceWritten hostnames updated)
        (.answered (updated.mapError .store))
        (orgs.rewrite id fun o => { o with panelHostname := none })
  | answers {hostnames : List String} {updated : Except OrgError StoredOrg} :
      OrgMove call w orgs (.fenceWritten hostnames updated)
        (.answered (updated.mapError .store)) orgs

theorem after_looks {α : Type} {call : OrgCall} {w : OrgMoment} {orgs : OrgRows} {s : OrgStage}
    {check : Except OrgRefusal α} {next : α → OrgStage} (hs : s.mayHaveWritten = false)
    (hnext : ∀ a, (next a).mayHaveWritten = false) :
    OrgMove call w orgs s (.after check next) orgs := by
  refine .looks hs ?_
  cases check with
  | error e => rfl
  | ok a => exact hnext a

section Moves

variable {call : OrgCall} {w : OrgMoment} {t : OrgTable} {s : OrgStage}

theorem panelRegion_move {id : String} {raw : Option String}
    (hrequest : call.request = .panel id raw) :
    OrgMove call w t.memory s (panelRegion w call.caller t id raw s).1
      (panelRegion w call.caller t id raw s).2.memory := by
  cases s with
  | arrived => exact after_looks rfl fun _ => rfl
  | fenced fence => exact after_looks rfl fun _ => rfl
  | unclaimed host => exact after_looks rfl fun _ => rfl
  | checked host =>
      simp only [panelRegion, OrgTable.setPanelHostname]
      rcases OrgTable.commit_changeOrg t w.saved id fun o => { o with panelHostname := host } with
        ⟨org, -, hsaved, hc⟩ | ⟨-, e, hc⟩
      · rw [hc]
        exact .setsPanel org hrequest hsaved
      · rw [hc]
        exact .looks rfl rfl
  | newUnclaimed hostnames host => exact .stays _
  | newChecked hostnames host => exact .stays _
  | created org host => exact .stays _
  | fenceWritten hostnames updated => exact .stays _
  | answered result => exact .stays _

/-- A creation adds one row with the new id and no panel, or nothing. -/
theorem create_cases (saved : Bool) (id : String) (nowSecs : Nat) (name : String)
    (hostnames : List String) (customName : Option String) :
    (∃ org : StoredOrg, org.id = id ∧ org.panelHostname = none ∧
      t.create saved id nowSecs name hostnames customName =
        (.ok org, Table.load (t.memory ++ [org]))) ∨
    ∃ e, t.create saved id nowSecs name hostnames customName = (.error e, t) := by
  rw [OrgTable.create]
  split
  · exact .inr ⟨_, rfl⟩
  · split
    · exact .inr ⟨_, rfl⟩
    · split
      · exact .inr ⟨_, rfl⟩
      · split
        · exact .inr ⟨_, rfl⟩
        · rcases t.commit_cases saved OrgError.notSaved fun orgs => (.ok _, orgs ++ [_]) with
            ⟨out, hout, -, hc⟩ | h
          · refine .inl ⟨out, ?_, ?_, hc.trans ?_⟩
            · cases hout
              rfl
            · cases hout
              rfl
            · cases hout
              rfl
          · exact .inr h

theorem createRegion_move {name : String} {customName panel : Option String}
    {raw : List String} (hrequest : call.request = .create name customName raw panel) :
    OrgMove call w t.memory s (createRegion w call.caller t name customName raw panel s).1
      (createRegion w call.caller t name customName raw panel s).2.memory := by
  cases s with
  | arrived => exact after_looks rfl fun _ => rfl
  | newUnclaimed hostnames host => exact after_looks rfl fun _ => rfl
  | newChecked hostnames host =>
      unfold createRegion
      dsimp only
      rcases create_cases (t := t) w.saved w.newId w.nowSecs name hostnames customName with
        ⟨org, hid, hpanel, hc⟩ | ⟨e, hc⟩
      · rw [hc]
        cases host with
        | none => exact .creates org hid hpanel rfl (.inl rfl)
        | some host => exact .creates org hid hpanel rfl (.inr ⟨host, rfl⟩)
      · rw [hc]
        exact .looks rfl rfl
  | created org host =>
      unfold createRegion OrgTable.setPanelHostname
      dsimp only
      rcases OrgTable.commit_changeOrg t w.saved org.id
          fun o => { o with panelHostname := some host } with
        ⟨row, -, hsaved, hc⟩ | ⟨hlost, e, hc⟩
      · rw [hc]
        exact .setsNewPanel row hrequest hsaved
      · rw [hc]
        exact .losesNewPanel hrequest hlost
  | fenced fence => exact .stays _
  | unclaimed host => exact .stays _
  | checked host => exact .stays _
  | fenceWritten hostnames updated => exact .stays _
  | answered result => exact .stays _

theorem hostnamesRegion_move {id : String} {raw : List String}
    (hrequest : call.request = .hostnames id raw) :
    OrgMove call w t.memory s (hostnamesRegion w call.caller t id raw s).1
      (hostnamesRegion w call.caller t id raw s).2.memory := by
  cases s with
  | arrived =>
      simp only [hostnamesRegion]
      cases hwanted : wantedFence call.caller id raw with
      | error e => exact .looks rfl rfl
      | ok hostnames =>
          simp only [OrgTable.setHostnames]
          rcases OrgTable.commit_changeOrg t w.saved id
              fun o => { o with hostnames := hostnames } with
            ⟨org, -, hsaved, hc⟩ | ⟨-, e, hc⟩
          · rw [hc]
            exact .setsFence org hrequest hsaved hwanted
          · rw [hc]
            exact .looks rfl rfl
  | fenceWritten hostnames updated =>
      simp only [hostnamesRegion]
      split
      · rename_i hstale
        simp only [OrgTable.setPanelHostname]
        rcases OrgTable.commit_changeOrg t w.saved id
            fun o => { o with panelHostname := none } with
          ⟨org, -, hsaved, hc⟩ | ⟨-, e, hc⟩
        · rw [hc]
          exact .takesPanel hrequest hsaved hstale
        · rw [hc]
          exact .answers
      · exact .answers
  | fenced fence => exact .stays _
  | unclaimed host => exact .stays _
  | checked host => exact .stays _
  | newUnclaimed hostnames host => exact .stays _
  | newChecked hostnames host => exact .stays _
  | created org host => exact .stays _
  | answered result => exact .stays _

theorem region_move (call : OrgCall) (w : OrgMoment) (s : OrgStage) (t : OrgTable) :
    OrgMove call w t.memory s (call.region w s t).1 (call.region w s t).2.memory := by
  simp only [OrgCall.region]
  cases hrequest : call.request with
  | panel id raw => exact panelRegion_move hrequest
  | create name customName raw panel => exact createRegion_move hrequest
  | hostnames id raw => exact hostnamesRegion_move hrequest

end Moves

/-! ## What a harmless region keeps -/

section Keeps

variable {orgs orgs' : OrgRows} {id : String} {f : StoredOrg → StoredOrg}

theorem rewrite_panelsHeld (hids : (orgs.map (·.id)).Nodup) (hheld : orgs.PanelsHeld)
    (hf : ∀ o, (f o).id = o.id)
    (hrow : ∀ p ∈ orgs, p.id = id → ∀ host, (f p).panelHostname = some host →
      ((f p).hostnames ≠ [] ∧ hostnameInOrgAllowlist host (f p).hostnames = true) ∧
        ∀ o ∈ orgs, o.panelHostname = some host → o.id = id) :
    (orgs.rewrite id f).PanelsHeld where
  one := by
    intro a ha b hb host hahost hbhost
    rcases OrgRows.mem_rewrite hids ha with ⟨ha, -⟩ | ⟨p, hp, hpid, rfl⟩
    · rcases OrgRows.mem_rewrite hids hb with ⟨hb, -⟩ | ⟨q, hq, hqid, rfl⟩
      · exact hheld.one a ha b hb host hahost hbhost
      · rw [hf, hqid]
        exact (hrow q hq hqid host hbhost).2 a ha hahost
    · rw [hf, hpid]
      rcases OrgRows.mem_rewrite hids hb with ⟨hb, -⟩ | ⟨q, hq, hqid, rfl⟩
      · exact ((hrow p hp hpid host hahost).2 b hb hbhost).symm
      · rw [hf, hqid]
  fenced := by
    intro o ho host hhost
    rcases OrgRows.mem_rewrite hids ho with ⟨ho, -⟩ | ⟨p, hp, hpid, rfl⟩
    · exact hheld.fenced o ho host hhost
    · exact (hrow p hp hpid host hhost).1

/-- Taking a panel away, or giving one that may be claimed. -/
theorem setPanel_panelsHeld {host : Option String} (hids : (orgs.map (·.id)).Nodup)
    (hheld : orgs.PanelsHeld) (hclaim : ∀ h ∈ host, orgs.Claimable id h) :
    (orgs.rewrite id fun o => { o with panelHostname := host }).PanelsHeld := by
  refine rewrite_panelsHeld hids hheld (fun _ => rfl) ?_
  rintro p hp hpid h hh
  obtain ⟨hfree, hfence⟩ := hclaim h hh
  exact ⟨hfence p hp hpid, hfree⟩

variable {call : OrgCall} {w : OrgMoment} {s s' : OrgStage}

theorem OrgMove.ids (h : OrgMove call w orgs s s' orgs') (hids : (orgs.map (·.id)).Nodup)
    (hfresh : ∀ o ∈ orgs, o.id ≠ w.newId) :
    (orgs'.map (·.id)).Nodup ∧ ∀ i ∈ orgs.map (·.id), i ∈ orgs'.map (·.id) := by
  have hrewrite : ∀ (id : String) (f : StoredOrg → StoredOrg), (∀ o, (f o).id = o.id) →
      ((orgs.rewrite id f).map (·.id)).Nodup ∧
        ∀ i ∈ orgs.map (·.id), i ∈ (orgs.rewrite id f).map (·.id) := by
    intro id f hf
    rw [OrgRows.ids_rewrite hf]
    exact ⟨hids, fun _ hi => hi⟩
  cases h with
  | stays => exact ⟨hids, fun _ hi => hi⟩
  | looks => exact ⟨hids, fun _ hi => hi⟩
  | losesNewPanel => exact ⟨hids, fun _ hi => hi⟩
  | answers => exact ⟨hids, fun _ hi => hi⟩
  | setsPanel => exact hrewrite _ _ fun _ => rfl
  | setsNewPanel => exact hrewrite _ _ fun _ => rfl
  | setsFence => exact hrewrite _ _ fun _ => rfl
  | takesPanel => exact hrewrite _ _ fun _ => rfl
  | creates org hid =>
      rw [List.map_append, List.map_singleton]
      refine ⟨List.nodup_append.mpr ⟨hids, List.nodup_singleton _, ?_⟩,
        fun i hi => List.mem_append_left _ hi⟩
      rintro i hi j hj rfl
      obtain ⟨o, ho, rfl⟩ := List.mem_map.mp hi
      rw [List.mem_singleton] at hj
      exact hfresh o ho (hj.trans hid)

theorem OrgMove.panels (h : OrgMove call w orgs s s' orgs') (hids : (orgs.map (·.id)).Nodup)
    (hheld : orgs.PanelsHeld) (hharm : s.Harmless call w orgs) : orgs'.PanelsHeld := by
  cases h with
  | stays => exact hheld
  | looks => exact hheld
  | losesNewPanel => exact hheld
  | answers => exact hheld
  | setsPanel org hrequest hsaved =>
      refine setPanel_panelsHeld hids hheld ?_
      rintro host rfl
      simp only [OrgStage.Harmless, hrequest] at hharm
      exact hharm hsaved
  | setsNewPanel row hrequest hsaved =>
      refine setPanel_panelsHeld hids hheld ?_
      rintro host ⟨⟩
      simp only [OrgStage.Harmless, hrequest] at hharm
      exact hharm.2
  | takesPanel => exact setPanel_panelsHeld hids hheld (by rintro host ⟨⟩)
  | setsFence org hrequest hsaved hwanted =>
      refine rewrite_panelsHeld hids hheld (fun _ => rfl) ?_
      rintro p hp hpid host hhost
      simp only [OrgStage.Harmless, hrequest] at hharm
      refine ⟨hharm hsaved _ hwanted p hp hpid host hhost, ?_⟩
      intro o ho hohost
      rw [← hpid]
      exact hheld.one o ho p hp host hohost hhost
  | creates org hid hpanel =>
      have hrows : ∀ o ∈ orgs ++ [org], ∀ host, o.panelHostname = some host → o ∈ orgs := by
        intro o ho host hhost
        rcases List.mem_append.mp ho with ho | ho
        · exact ho
        · rw [List.mem_singleton.mp ho, hpanel] at hhost
          cases hhost
      exact
        { one := fun a ha b hb host hahost hbhost =>
            hheld.one a (hrows a ha host hahost) b (hrows b hb host hbhost) host hahost hbhost
          fenced := fun o ho host hhost =>
            hheld.fenced o (hrows o ho host hhost) host hhost }

/-- A fence that covers the panel leaves none that is stale. -/
theorem stalePanel_of_covers {hostnames : List String} (h : orgs.Covers id hostnames) :
    stalePanel orgs id hostnames = none := by
  rw [stalePanel, Option.filter_eq_none_iff]
  intro panel hpanel
  obtain ⟨o, hfind, ho⟩ := Option.bind_eq_some_iff.mp hpanel
  obtain ⟨hmem, hid⟩ := OrgRows.mem_of_find hfind
  obtain ⟨hne, hin⟩ := h o hmem hid panel ho
  simp [hne, hin]

/-- A request that has changed something is not refused for it. -/
theorem OrgMove.wrote (h : OrgMove call w orgs s s' orgs') (hharm : s.Harmless call w orgs)
    (hrow : ∀ org host, s = .created org host → ∃ o ∈ orgs, o.id = org.id)
    (hwrote : s.mayHaveWritten = true ∨ orgs.fences ≠ orgs'.fences) :
    s'.mayHaveWritten = true := by
  cases h with
  | stays => exact hwrote.resolve_right fun h => h rfl
  | looks hs =>
      rw [hs] at hwrote
      exact absurd rfl (hwrote.resolve_left Bool.false_ne_true)
  | setsPanel => rfl
  | setsNewPanel => rfl
  | setsFence => rfl
  | creates org hid hpanel hs hs' =>
      rcases hs' with rfl | ⟨host, rfl⟩
      · rfl
      · rfl
  | losesNewPanel hrequest hlost =>
      simp only [OrgStage.Harmless, hrequest] at hharm
      obtain ⟨o, ho, hid⟩ := hrow _ _ rfl
      obtain ⟨p, hfind⟩ := OrgRows.find_isSome ho hid
      rw [hharm.1, hfind] at hlost
      rcases hlost with h | h
      · cases h
      · cases h
  | takesPanel hrequest hsaved hstale =>
      rename_i hostnames updated
      cases updated with
      | ok org => rfl
      | error e =>
          simp only [OrgStage.Harmless, hrequest] at hharm
          rw [stalePanel_of_covers (hharm hsaved)] at hstale
          cases hstale
  | answers =>
      rename_i hostnames updated
      cases updated with
      | ok org => rfl
      | error e => exact absurd rfl (hwrote.resolve_left Bool.false_ne_true)

/-- Where a request goes on to the second write of a creation, the new row is
there. -/
theorem OrgMove.row (h : OrgMove call w orgs s s' orgs')
    (hrow : ∀ org host, s = .created org host → ∃ o ∈ orgs, o.id = org.id)
    {org : StoredOrg} {host : String} (hs' : s' = .created org host) :
    ∃ o ∈ orgs', o.id = org.id := by
  cases h with
  | stays => exact hrow org host hs'
  | looks hs hquiet =>
      rw [hs'] at hquiet
      cases hquiet
  | setsPanel => cases hs'
  | setsNewPanel => cases hs'
  | losesNewPanel => cases hs'
  | setsFence => cases hs'
  | takesPanel => cases hs'
  | answers => cases hs'
  | creates new hid hpanel hs hnext =>
      rcases hnext with rfl | ⟨h, rfl⟩
      · cases hs'
      · cases hs'
        exact ⟨org, List.mem_append_right _ (List.mem_singleton.mpr rfl), rfl⟩

end Keeps

/-! ## Over whole runs -/

/-- What every harmless run keeps: the ids are a key, the panels are held, a
request that changed something is not on its way to a refusal, and the row a
creation has still to give its panel to is there. -/
structure PanelState.Sound (s : PanelState) : Prop where
  ids : (s.table.memory.map (·.id)).Nodup
  panels : s.table.memory.PanelsHeld
  wrote : ∀ p ∈ s.requests, p.wrote = true → p.stage.mayHaveWritten = true
  rows : ∀ p ∈ s.requests, ∀ org host, p.stage = .created org host →
    ∃ o ∈ s.table.memory, o.id = org.id

theorem PanelState.Sound.held {s : PanelState} (h : s.Sound) : s.Held where
  panels := h.panels
  refused := by
    intro p hp e hstage
    by_contra hwrote
    have hmay := h.wrote p hp (by simpa using hwrote)
    rw [hstage] at hmay
    cases hmay

theorem next_sound {s s' : PanelState} {a : PanelAct} (h : s.Sound) (hnext : s.next a = some s')
    (hfresh : a.FreshId s) (hharm : harmless s a s') : s'.Sound := by
  cases a with
  | arrive call =>
      obtain rfl := Option.some.inj hnext
      refine ⟨h.ids, h.panels, ?_, ?_⟩
      · intro p hp hwrote
        rcases List.mem_append.mp hp with hp | hp
        · exact h.wrote p hp hwrote
        · rw [List.mem_singleton.mp hp] at hwrote
          cases hwrote
      · intro p hp org host hstage
        rcases List.mem_append.mp hp with hp | hp
        · exact h.rows p hp org host hstage
        · rw [List.mem_singleton.mp hp] at hstage
          cases hstage
  | region i w =>
      obtain ⟨p, hp, rfl⟩ := Option.map_eq_some_iff.mp hnext
      have hmem : p ∈ s.requests := List.mem_of_getElem? hp
      have hmove := region_move p.call w p.stage s.table
      have hquiet := hharm p hp
      obtain ⟨hids, hkeep⟩ := hmove.ids h.ids hfresh
      refine ⟨hids, hmove.panels h.ids h.panels hquiet, ?_, ?_⟩
      · intro q hq hwrote
        rcases List.mem_or_eq_of_mem_set hq with hq | rfl
        · exact h.wrote q hq hwrote
        · refine hmove.wrote hquiet (h.rows p hmem) ?_
          simp only [Bool.or_eq_true, decide_eq_true_eq] at hwrote
          exact hwrote.imp_left (h.wrote p hmem)
      · intro q hq org host hstage
        rcases List.mem_or_eq_of_mem_set hq with hq | rfl
        · obtain ⟨o, ho, hid⟩ := h.rows q hq org host hstage
          obtain ⟨o', ho', hid'⟩ := List.mem_map.mp (hkeep o.id (List.mem_map_of_mem ho))
          exact ⟨o', ho', hid'.trans hid⟩
        · exact hmove.row (h.rows p hmem) hstage

/-- **A panel belongs to one organization, and a refusal changes nothing**, in
every run of harmless regions. -/
theorem panels_held {s : PanelState} (hs : (panelSys.restrict harmless).Reachable s) :
    s.Held := by
  refine (hs.invariant (P := PanelState.Sound) ?_ ?_).held
  · rintro s ⟨hnone, hids, hpanels⟩
    refine ⟨hids, hpanels, ?_, ?_⟩
    · rw [hnone]
      intro p hp
      cases hp
    · rw [hnone]
      intro p hp
      cases hp
  · rintro s a s' - hsound ⟨⟨hnext, hfresh⟩, hharm⟩
    exact next_sound hsound hnext hfresh hharm

/-! ## Two tenants -/

instance (s : PanelState) : (a : PanelAct) → Decidable (a.FreshId s)
  | .arrive _ => inferInstanceAs (Decidable True)
  | .region _ w => inferInstanceAs (Decidable (∀ o ∈ s.table.memory, o.id ≠ w.newId))

/-- A run over acts whose ids are new. -/
def PanelState.run (s : PanelState) (acts : List PanelAct) : Option PanelState :=
  acts.foldlM (fun s a => if a.FreshId s then s.next a else none) s

theorem run_reachable {s s' : PanelState} {acts : List PanelAct} (hs : panelSys.Reachable s)
    (h : s.run acts = some s') : panelSys.Reachable s' := by
  refine hs.foldlM ?_ h
  intro s a s' hnext
  rw [Option.ite_none_right_eq_some] at hnext
  exact ⟨hnext.2, hnext.1⟩

/-- Two tenants under one domain. -/
def twoTenants : PanelState where
  table := Table.load
    [{ id := "o-1", name := "one", hostnames := ["*.acme.com"] },
      { id := "o-2", name := "two", hostnames := ["*.acme.com"] }]

theorem twoTenants_init : panelSys.init twoTenants := by
  refine ⟨rfl, by decide +kernel, ⟨?_, ?_⟩⟩
  · intro a ha b hb host hahost
    have hnone : ∀ o ∈ twoTenants.table.memory, o.panelHostname = none := by decide +kernel
    rw [hnone a ha] at hahost
    cases hahost
  · intro o ho host hhost
    have hnone : ∀ o ∈ twoTenants.table.memory, o.panelHostname = none := by decide +kernel
    rw [hnone o ho] at hhost
    cases hhost

/-- The server admin. -/
def asAdmin (request : OrgRequest) : OrgCall := ⟨some ⟨.builtIn .admin, none⟩, request⟩

def region (i : Nat) : PanelAct := .region i {}

/-- The first tenant's panel on its way. -/
def onePanel (stage : OrgStage) (wrote : Bool) (panel : Option String) : PanelState where
  table := Table.load
    [{ id := "o-1", name := "one", hostnames := ["*.acme.com"], panelHostname := panel },
      { id := "o-2", name := "two", hostnames := ["*.acme.com"] }]
  requests := [⟨asAdmin (.panel "o-1" (some "x.acme.com")), stage, wrote⟩]

theorem onePanel_step {stage : OrgStage} {wrote : Bool} {panel : Option String}
    (stage' : OrgStage) (wrote' : Bool) (panel' : Option String)
    (hs : (panelSys.restrict harmless).Reachable (onePanel stage wrote panel))
    (hnext : (onePanel stage wrote panel).next (region 0) = some (onePanel stage' wrote' panel'))
    (hharm : stage.Harmless (asAdmin (.panel "o-1" (some "x.acme.com"))) {}
      (onePanel stage wrote panel).table.memory) :
    (panelSys.restrict harmless).Reachable (onePanel stage' wrote' panel') := by
  refine .step hs (a := region 0) ⟨⟨hnext, ?_⟩, ?_⟩
  · intro o ho
    rcases List.mem_cons.mp ho with rfl | ho
    · exact (by decide : "o-1" ≠ "")
    · rw [List.mem_singleton.mp ho]
      exact (by decide : "o-2" ≠ "")
  · intro p hp
    cases hp
    exact hharm

/-- A tenant takes a name of its own. -/
theorem panels_held_one : ∃ s : PanelState, s.Held ∧ s.table.memory.fences =
    [("o-1", ["*.acme.com"], some "x.acme.com"), ("o-2", ["*.acme.com"], none)] := by
  have harrived : (panelSys.restrict harmless).Reachable (onePanel .arrived false none) :=
    .step (.init twoTenants_init) (a := .arrive (asAdmin (.panel "o-1" (some "x.acme.com"))))
      ⟨⟨rfl, trivial⟩, trivial⟩
  have hfenced := onePanel_step (.fenced ["*.acme.com"]) false none harrived
    (by decide +kernel) trivial
  have hunclaimed := onePanel_step (.unclaimed (some "x.acme.com")) false none hfenced
    (by decide +kernel) trivial
  have hchecked := onePanel_step (.checked (some "x.acme.com")) false none hunclaimed
    (by decide +kernel) trivial
  have hset := onePanel_step
    (.answered (.ok
      { id := "o-1", name := "one", hostnames := ["*.acme.com"]
        panelHostname := some "x.acme.com" })) true (some "x.acme.com") hchecked (by decide +kernel)
    (fun _ => ⟨by decide +kernel, by decide +kernel⟩)
  exact ⟨_, panels_held hset, rfl⟩

/-- Both tenants ask for one name, and both find it free. -/
def racingPanels : List PanelAct :=
  [.arrive (asAdmin (.panel "o-1" (some "x.acme.com"))),
    .arrive (asAdmin (.panel "o-2" (some "x.acme.com"))),
    region 0, region 0, region 0, region 1, region 1, region 1, region 0, region 1]

/-- A panel, and a fence that goes around it. -/
def narrowedFence (saved : Bool) : List PanelAct :=
  [.arrive (asAdmin (.panel "o-1" (some "x.acme.com"))), region 0, region 0, region 0, region 0,
    .arrive (asAdmin (.hostnames "o-1" ["y.acme.com"])), .region 1 { saved := saved }]

/-- A creation whose second write fails. -/
def halfCreated : List PanelAct :=
  [.arrive (asAdmin (.create "three" none ["*.acme.com"] (some "x.acme.com"))), region 0, region 0,
    .region 0 { newId := "o-3" }, .region 0 { saved := false }]

theorem twoTenants_run {α : Type} (acts : List PanelAct) {view : PanelState → α} {seen : α}
    (h : (twoTenants.run acts).map view = some seen) :
    ∃ s, panelSys.Reachable s ∧ view s = seen := by
  obtain ⟨s, hs, hview⟩ := Option.map_eq_some_iff.mp h
  exact ⟨s, run_reachable (.init twoTenants_init) hs, hview⟩

/-- Two tenants end up with one panel; a panel stands outside a fence until the
next region; a creation that is refused has created; and an allowlist that
could not be written takes the panel away. -/
theorem panels_part :
    (∃ s, panelSys.Reachable s ∧ ¬s.Held) ∧
      (∃ s, panelSys.Reachable s ∧ s.table.memory.fences =
        [("o-1", ["*.acme.com"], some "x.acme.com"), ("o-2", ["*.acme.com"], some "x.acme.com")]) ∧
      (∃ s, panelSys.Reachable s ∧ s.table.memory.fences =
        [("o-1", ["y.acme.com"], some "x.acme.com"), ("o-2", ["*.acme.com"], none)]) ∧
      (∃ s, panelSys.Reachable s ∧
        (s.requests.map (·.stage), s.table.memory.fences) =
          ([.answered (.error (.store .notSaved))],
            [("o-1", ["*.acme.com"], none), ("o-2", ["*.acme.com"], none),
              ("o-3", ["*.acme.com"], none)])) ∧
      ∃ s, panelSys.Reachable s ∧
        ((s.requests.drop 1).map (·.stage), s.table.memory.fences) =
          ([.answered (.error (.store .notSaved))],
            [("o-1", ["*.acme.com"], none), ("o-2", ["*.acme.com"], none)]) := by
  refine ⟨?_, twoTenants_run racingPanels (by decide +kernel),
    twoTenants_run (narrowedFence true) (by decide +kernel),
    twoTenants_run halfCreated (by decide +kernel),
    twoTenants_run (narrowedFence false ++ [region 1]) (by decide +kernel)⟩
  have hwritten : (twoTenants.run halfCreated).map
      (fun s => s.requests.map fun p => (p.stage, p.wrote)) =
        some [(.answered (.error (.store .notSaved)), true)] := by
    decide +kernel
  obtain ⟨s, hs, hview⟩ := twoTenants_run halfCreated hwritten
  refine ⟨s, hs, fun hheld => ?_⟩
  have hmem : (OrgStage.answered (.error (.store .notSaved)), true) ∈
      s.requests.map fun p => (p.stage, p.wrote) := by
    rw [hview]
    exact List.mem_singleton.mpr rfl
  obtain ⟨p, hp, hseen⟩ := List.mem_map.mp hmem
  have hwrote := hheld.refused p hp _ (Prod.mk.inj hseen).1
  rw [(Prod.mk.inj hseen).2] at hwrote
  cases hwrote

end Aperio
