import Aperio.Ip
import Aperio.Select

/-!
# Picking one service of the pool

`pick_proxy_client`: the visitor's address is held against each candidate's
own list, then the balancing strategy, the requirement of an exact
connection, the canary split and the requirement of a process narrow the
pool, and an affinity cookie or the group's cursor chooses from what is
left. The cursor is an argument here: every request of the group moves it.
-/

namespace Aperio

inductive LbStrategy where
  | roundRobin
  | sticky
  | primaryStandby
deriving Repr, DecidableEq

inductive Side where
  | canary
  | stable
deriving Repr, DecidableEq

inductive SelectionRequirement where
  | client (id : String)
  | process (instanceId : String)
deriving Repr, DecidableEq

/-- The part of a selected client the failover reads. -/
structure SelectedClient where
  id : String
  serviceName : Option String
  instanceId : Option String
deriving Repr, DecidableEq

inductive PickOutcome where
  | selected (client : SelectedClient)
  | noRoute
  | denied (redirect : Option String)
deriving Repr, DecidableEq

/-- What a pick is asked with, besides the route. -/
structure PickArgs where
  strategy : LbStrategy := .roundRobin
  requirement : Option SelectionRequirement := none
  affinity : Option String := none
  visitorIp : Option IpAddr := none
  canary : Option (String × Side) := none
  cursor : Nat := 0

def ServiceState.admitsIp (s : ServiceState) (ip : IpAddr) : Bool :=
  s.allowedIps.isEmpty || ipAllowed ip s.allowedIps

/-- `min_by_key` of the priority: the first of the lowest. -/
def mostPrimary : List (Nat × String) → Option (Nat × String)
  | [] => none
  | x :: rest =>
    match mostPrimary rest with
    | some y => if y.1 < x.1 then some y else some x
    | none => some x

def filterPoolByIp (pool : List ServiceRef) (clients : Clients) (ip : Option IpAddr) :
    List ServiceRef ⊕ Option String :=
  match ip with
  | none => .inl pool
  | some ip =>
    let passing := pool.filter fun r => (r.get clients).all (·.admitsIp ip)
    if passing.isEmpty then
      .inr ((mostPrimary (pool.filterMap fun r =>
        (r.get clients).bind fun s => s.denied.map fun url => (s.priority, url))).map (·.2))
    else .inl passing

def applyLbStrategy (pool : List ServiceRef) (clients : Clients) (strategy : LbStrategy) :
    List ServiceRef :=
  match strategy with
  | .roundRobin => pool
  | .sticky => pool
  | .primaryStandby =>
    let priorities := (pool.filterMap (·.get clients)).map (·.priority)
    let minPriority := priorities.min?.getD 0
    pool.filter fun r => (r.get clients).any (·.priority == minPriority)

def narrowToSide (pool : List ServiceRef) (clients : Clients) (service : String) (side : Side) :
    List ServiceRef :=
  pool.filter fun r =>
    let isCanary := ((r.get clients).bind (·.serviceName)) == some service
    match side with
    | .canary => isCanary
    | .stable => !isCanary

/-- One side of a split, unless that leaves nobody. -/
def splitPool (pool : List ServiceRef) (clients : Clients) (canary : Option (String × Side)) :
    List ServiceRef :=
  match canary with
  | none => pool
  | some (service, side) =>
    let narrowed := narrowToSide pool clients service side
    if narrowed.isEmpty then pool else narrowed

def requireClient (pool : List ServiceRef) (requirement : Option SelectionRequirement) :
    List ServiceRef :=
  match requirement with
  | some (.client id) => pool.filter (·.client == id)
  | _ => pool

def requireProcess (pool : List ServiceRef) (clients : Clients)
    (requirement : Option SelectionRequirement) : List ServiceRef :=
  match requirement with
  | some (.process instanceId) => pool.filter fun r =>
      (clients.lookup r.client).any (·.reportedInstanceId == some instanceId)
  | _ => pool

def findAffinityMatch (pool : List ServiceRef) (clients : Clients) (affinity : String) :
    Option ServiceRef :=
  pool.find? fun r => (clients.lookup r.client).any fun h =>
    h.reportedInstanceId == some affinity || r.client == affinity

/-- A pinned pick takes the head and leaves the cursor alone. -/
def choose (pool : List ServiceRef) (clients : Clients) (args : PickArgs) : Option ServiceRef :=
  match args.requirement with
  | some (.client _) => pool.head?
  | _ =>
    let previous :=
      if args.strategy = .sticky then args.affinity.bind (findAffinityMatch pool clients) else none
    previous.or (pool[args.cursor % pool.length]?)

def pickProxyClient (clients : Clients) (path : String) (host : Option String)
    (now downThreshold : Nat) (args : PickArgs) : PickOutcome :=
  match selectClientPool clients path host now downThreshold with
  | none => .noRoute
  | some (pool, _) =>
    match filterPoolByIp pool clients args.visitorIp with
    | .inr redirect => .denied redirect
    | .inl pool =>
      let pool := requireClient (applyLbStrategy pool clients args.strategy) args.requirement
      let pool := requireProcess (splitPool pool clients args.canary) clients args.requirement
      match choose pool clients args with
      | none => .noRoute
      | some chosen =>
        match clients.lookup chosen.client, chosen.get clients with
        | some h, some s => .selected ⟨chosen.client, s.serviceName, h.reportedInstanceId⟩
        | _, _ => .noRoute

/-! ## What is picked -/

variable {clients : Clients} {pool : List ServiceRef} {r : ServiceRef} {args : PickArgs}

theorem choose_mem (h : choose pool clients args = some r) : r ∈ pool := by
  have hrest : ∀ previous : Option ServiceRef, (∀ x, previous = some x → x ∈ pool) →
      previous.or (pool[args.cursor % pool.length]?) = some r → r ∈ pool := by
    intro previous hprev hor
    cases previous with
    | none =>
        exact List.mem_of_getElem? hor
    | some x =>
        exact hprev r hor
  have hsticky : ∀ x, (if args.strategy = .sticky then
      args.affinity.bind (findAffinityMatch pool clients) else none) = some x → x ∈ pool := by
    intro x hx
    split at hx
    · obtain ⟨a, -, ha⟩ := Option.bind_eq_some_iff.mp hx
      exact List.mem_of_find?_eq_some ha
    · cases hx
  simp only [choose] at h
  split at h
  · exact List.mem_of_head? h
  · exact hrest _ hsticky h

theorem mem_splitPool {canary : Option (String × Side)} (h : r ∈ splitPool pool clients canary) :
    r ∈ pool := by
  simp only [splitPool] at h
  split at h
  · exact h
  · split at h
    · exact h
    · exact (List.mem_filter.mp h).1

theorem mem_requireClient {requirement : Option SelectionRequirement}
    (h : r ∈ requireClient pool requirement) : r ∈ pool := by
  simp only [requireClient] at h
  split at h
  · exact (List.mem_filter.mp h).1
  · exact h

theorem mem_requireProcess {requirement : Option SelectionRequirement}
    (h : r ∈ requireProcess pool clients requirement) : r ∈ pool := by
  simp only [requireProcess] at h
  split at h
  · exact (List.mem_filter.mp h).1
  · exact h

theorem mem_applyLbStrategy {strategy : LbStrategy} {r : ServiceRef}
    (h : r ∈ applyLbStrategy pool clients strategy) : r ∈ pool := by
  cases strategy with
  | roundRobin => exact h
  | sticky => exact h
  | primaryStandby => exact (List.mem_filter.mp h).1

theorem mem_filterPoolByIp {ip : Option IpAddr} {allowed : List ServiceRef}
    (hf : filterPoolByIp pool clients ip = .inl allowed) (h : r ∈ allowed) : r ∈ pool := by
  simp only [filterPoolByIp] at hf
  split at hf
  · cases hf
    exact h
  · split at hf
    · cases hf
    · cases hf
      exact (List.mem_filter.mp h).1

/-- Who is picked was left by every filter. -/
theorem pickProxyClient_selected {path : String} {host : Option String} {now downThreshold : Nat}
    {sel : SelectedClient}
    (h : pickProxyClient clients path host now downThreshold args = .selected sel) :
    ∃ pool key allowed chosen handle svc,
      selectClientPool clients path host now downThreshold = some (pool, key) ∧
      filterPoolByIp pool clients args.visitorIp = .inl allowed ∧
      chosen ∈ requireProcess (splitPool (requireClient (applyLbStrategy allowed clients
        args.strategy) args.requirement) clients args.canary) clients args.requirement ∧
      clients.lookup chosen.client = some handle ∧ chosen.get clients = some svc ∧
      sel = ⟨chosen.client, svc.serviceName, handle.reportedInstanceId⟩ := by
  unfold pickProxyClient at h
  split at h
  · cases h
  · rename_i pool key hpool
    split at h
    · cases h
    · rename_i allowed hallowed
      dsimp only at h
      split at h
      · cases h
      · rename_i chosen hchosen
        split at h
        · rename_i handle svc hhandle hget
          exact ⟨pool, key, allowed, chosen, handle, svc, hpool, hallowed,
            choose_mem hchosen, hhandle, hget,
            (PickOutcome.selected.inj h).symm⟩
        · cases h

/-- Who is picked is in the route's pool. -/
theorem pickProxyClient_mem {path : String} {host : Option String} {now downThreshold : Nat}
    {sel : SelectedClient}
    (h : pickProxyClient clients path host now downThreshold args = .selected sel) :
    ∃ pool key, selectClientPool clients path host now downThreshold = some (pool, key) ∧
      ∃ r ∈ pool, r.client = sel.id := by
  obtain ⟨pool, key, allowed, chosen, handle, svc, hpool, hallowed, hmem, -, -, rfl⟩ :=
    pickProxyClient_selected h
  have hleft := mem_applyLbStrategy (mem_requireClient (mem_splitPool (mem_requireProcess hmem)))
  exact ⟨pool, key, hpool, chosen, mem_filterPoolByIp hallowed hleft, rfl⟩

/-- A pick that requires a connection picks on that connection. -/
theorem pickProxyClient_pinned {path : String} {host : Option String} {now downThreshold : Nat}
    {sel : SelectedClient} {id : String}
    (h : pickProxyClient clients path host now downThreshold args = .selected sel)
    (hreq : args.requirement = some (.client id)) : sel.id = id := by
  obtain ⟨pool, key, allowed, chosen, handle, svc, -, -, hmem, -, -, rfl⟩ :=
    pickProxyClient_selected h
  have hleft := mem_splitPool (mem_requireProcess hmem)
  simp only [hreq, requireClient, List.mem_filter, beq_iff_eq] at hleft
  exact hleft.2

end Aperio
