import Aperio.Server

/-!
# Choosing which service serves a request

`routing/select.rs`: eligibility first, then the hostname stage, then the
path stage, then passive ejection. The candidates travel with their services
here; `selectClientPool` gives the references the source returns.

`mem_selectClientPool` is the one place that opens the definition: it says
everything a pool's membership implies.
-/

namespace Aperio

/-- One service of one connection. -/
structure ServiceRef where
  client : String
  index : Nat
deriving Repr, DecidableEq

/-- The service a reference points at, if the connection is still there. -/
def ServiceRef.get (r : ServiceRef) (clients : Clients) : Option ServiceState :=
  (clients.lookup r.client).bind fun h => h.services[r.index]?

/-- The round-robin group: the hostname and the path bind that matched. -/
abbrev RouteGroupKey := Option String × Option String

/-- What routing asks of a service before anything else. -/
def ServiceState.serving (s : ServiceState) : Bool :=
  s.backendHealthy && s.adminEnabled && s.serverSideRefused.isNone && s.policyConflict.isNone

abbrev Candidate := ServiceRef × ServiceState

/-- Every service of every connection, with the reference to it. -/
def allServices (entries : List (Sigma fun _ : String => ClientHandle)) : List Candidate :=
  entries.flatMap fun e => e.2.services.zipIdx.map fun (s, i) => (⟨e.1, i⟩, s)

/-- Health and draining are asked of the connection, the rest of the
service. -/
def eligibleServices (clients : Clients) (now downThreshold : Nat) : List Candidate :=
  (allServices (clients.entries.filter fun e =>
    e.2.isHealthy now downThreshold && !e.2.draining)).filter (·.2.serving)

/-- The hostname stage: the services bound to the host, else those that
asked for every hostname nobody claims. -/
def hostStage (eligible : List Candidate) (host : Option String) :
    List Candidate × Option String :=
  let hostMatched := eligible.filter fun c => host.any c.2.matchesHost
  if hostMatched.isEmpty then (eligible.filter (·.2.catchAll), none)
  else (hostMatched, host)

/-- Keeps the longer of two binds, the later of two as long. -/
def longerBind : Option String → String → Option String
  | none, b => some b
  | some a, b => if a.utf8ByteSize ≤ b.utf8ByteSize then some b else some a

/-- `max_by_key` of the byte length: the last of the longest. -/
def longestBind (binds : List String) : Option String :=
  binds.foldl longerBind none

/-- The path stage: the services with the longest matching bind, else those
with none. -/
def pathStage (pool : List Candidate) (uriPath : String) : List Candidate × Option String :=
  let binds := pool.filterMap fun c => c.2.effectivePathBind.filter (pathMatchesBind uriPath)
  match longestBind binds with
  | some longest => (pool.filter fun c => c.2.effectivePathBind == some longest, some longest)
  | none => (pool.filter (·.2.effectivePathBind.isNone), none)

/-- Ejected services are dropped unless that leaves nobody. -/
def dropEjected (pool : List Candidate) (now : Nat) : List Candidate :=
  let live := pool.filter (!·.2.isEjected now)
  if live.isEmpty then pool else live

/-- The pool for a request, with its services. -/
def candidatePool (clients : Clients) (uriPath : String) (host : Option String)
    (now downThreshold : Nat) : List Candidate × RouteGroupKey :=
  let byHost := hostStage (eligibleServices clients now downThreshold) host
  let byPath := pathStage byHost.1 uriPath
  (dropEjected byPath.1 now, (byHost.2, byPath.2))

def selectClientPool (clients : Clients) (uriPath : String) (host : Option String)
    (now downThreshold : Nat) : Option (List ServiceRef × RouteGroupKey) :=
  let pool := candidatePool clients uriPath host now downThreshold
  if pool.1.isEmpty then none else some (pool.1.map (·.1), pool.2)

/-! ## Eligibility -/

variable {clients : Clients} {uriPath : String} {host : Option String} {now downThreshold : Nat}

theorem mem_allServices {entries : List (Sigma fun _ : String => ClientHandle)} {c : Candidate} :
    c ∈ allServices entries ↔
      ∃ e ∈ entries, e.1 = c.1.client ∧ e.2.services[c.1.index]? = some c.2 := by
  obtain ⟨⟨id, i⟩, s⟩ := c
  simp only [allServices, List.mem_flatMap, List.mem_map, Prod.mk.injEq, ServiceRef.mk.injEq,
    Prod.exists, List.mem_zipIdx_iff_getElem?]
  constructor
  · rintro ⟨e, he, t, j, hget, ⟨rfl, rfl⟩, rfl⟩
    exact ⟨e, he, rfl, hget⟩
  · rintro ⟨e, he, rfl, hget⟩
    exact ⟨e, he, s, i, hget, ⟨rfl, rfl⟩, rfl⟩

/-- A connection routing may choose from. -/
def ClientHandle.routable (h : ClientHandle) (now downThreshold : Nat) : Bool :=
  h.isHealthy now downThreshold && !h.draining

theorem mem_eligibleServices {c : Candidate} :
    c ∈ eligibleServices clients now downThreshold ↔
      ∃ h, clients.lookup c.1.client = some h ∧ h.services[c.1.index]? = some c.2 ∧
        h.routable now downThreshold = true ∧ c.2.serving = true := by
  simp only [eligibleServices, List.mem_filter, mem_allServices]
  constructor
  · rintro ⟨⟨⟨id, h⟩, ⟨he, hr⟩, hid, hget⟩, hs⟩
    obtain rfl : id = c.1.client := hid
    exact ⟨h, AList.mem_lookup_iff.mpr he, hget, hr, hs⟩
  · rintro ⟨h, hlook, hget, hr, hs⟩
    exact ⟨⟨⟨c.1.client, h⟩, ⟨AList.mem_lookup_iff.mp hlook, hr⟩, rfl, hget⟩, hs⟩

/-! ## The stages -/

theorem longerBind_cases (acc : Option String) (b : String) :
    longerBind acc b = some b ∨ ∃ a, acc = some a ∧ longerBind acc b = some a := by
  cases acc with
  | none =>
      exact Or.inl rfl
  | some a =>
      simp only [longerBind]
      split
      · exact Or.inl rfl
      · exact Or.inr ⟨a, rfl, rfl⟩

/-- The fold ends in one of the binds or in what it started from, and never
in nothing once it holds one. -/
theorem foldl_longerBind (binds : List String) :
    ∀ acc, (∀ b, binds.foldl longerBind acc = some b → b ∈ binds ∨ acc = some b) ∧
      (binds.foldl longerBind acc = none → binds = [] ∧ acc = none) := by
  induction binds with
  | nil =>
      intro acc
      exact ⟨fun b h => Or.inr h, fun h => ⟨rfl, h⟩⟩
  | cons a rest ih =>
      intro acc
      obtain ⟨hsome, hnone⟩ := ih (longerBind acc a)
      have hcases := longerBind_cases acc a
      constructor
      · intro b hb
        rcases hsome b hb with h | h
        · exact Or.inl (List.mem_cons_of_mem _ h)
        · rcases hcases with hc | ⟨x, hx, hc⟩
          · rw [hc, Option.some.injEq] at h
            exact Or.inl (by simp [h])
          · rw [hc] at h
            exact Or.inr (hx.trans h)
      · intro h
        have := (hnone h).2
        rcases hcases with hc | ⟨x, -, hc⟩ <;> rw [hc] at this <;> cases this

theorem longestBind_mem {binds : List String} {b : String} (h : longestBind binds = some b) :
    b ∈ binds := by
  rcases (foldl_longerBind binds none).1 b h with hb | hb
  · exact hb
  · cases hb

theorem longestBind_eq_none {binds : List String} : longestBind binds = none ↔ binds = [] := by
  constructor
  · intro h
    exact ((foldl_longerBind binds none).2 h).1
  · rintro rfl
    rfl

theorem mem_dropEjected {pool : List Candidate} {c : Candidate} (h : c ∈ dropEjected pool now) :
    c ∈ pool := by
  simp only [dropEjected] at h
  split at h
  · exact h
  · exact (List.mem_filter.mp h).1

theorem dropEjected_eq_nil {pool : List Candidate} : dropEjected pool now = [] ↔ pool = [] := by
  simp only [dropEjected]
  split
  · rfl
  · rename_i hne
    constructor
    · intro h
      exact absurd (by simp [h]) hne
    · rintro rfl
      rfl

/-- What the path stage keeps: services that all have the same bind, which
is none at all or one the path falls under. -/
theorem mem_pathStage {pool : List Candidate} {c : Candidate}
    (h : c ∈ (pathStage pool uriPath).1) :
    c ∈ pool ∧ c.2.effectivePathBind = (pathStage pool uriPath).2 ∧
      ∀ b, c.2.effectivePathBind = some b → pathMatchesBind uriPath b = true := by
  simp only [pathStage] at h ⊢
  cases hl : longestBind (pool.filterMap fun c =>
      c.2.effectivePathBind.filter (pathMatchesBind uriPath)) with
  | none =>
      rw [hl] at h
      simp only [List.mem_filter, Option.isNone_iff_eq_none] at h
      refine ⟨h.1, h.2, ?_⟩
      intro b hb
      rw [h.2] at hb
      cases hb
  | some longest =>
      rw [hl] at h
      simp only [List.mem_filter, beq_iff_eq] at h
      refine ⟨h.1, h.2, ?_⟩
      intro b hb
      obtain rfl : longest = b := Option.some.inj (h.2.symm.trans hb)
      obtain ⟨d, -, hd⟩ := List.mem_filterMap.mp (longestBind_mem hl)
      exact (Option.filter_eq_some_iff.mp hd).2

/-- The path stage keeps somebody exactly when somebody's bind is absent or
matches. -/
theorem pathStage_eq_nil {pool : List Candidate} :
    (pathStage pool uriPath).1 = [] ↔
      ∀ c ∈ pool, ∃ b, c.2.effectivePathBind = some b ∧ pathMatchesBind uriPath b = false := by
  simp only [pathStage]
  cases hl : longestBind (pool.filterMap fun c =>
      c.2.effectivePathBind.filter (pathMatchesBind uriPath)) with
  | none =>
      rw [longestBind_eq_none, List.filterMap_eq_nil_iff] at hl
      simp only [List.filter_eq_nil_iff]
      refine forall₂_congr fun c hc => ?_
      have hcl := hl c hc
      cases hb : c.2.effectivePathBind with
      | none =>
          simp
      | some b =>
          rw [hb] at hcl
          simpa [Option.filter] using hcl
  | some longest =>
      obtain ⟨d, hd, hdl⟩ := List.mem_filterMap.mp (longestBind_mem hl)
      obtain ⟨hbind, hmatch⟩ := Option.filter_eq_some_iff.mp hdl
      constructor
      · intro h
        simp only [List.filter_eq_nil_iff] at h
        exact absurd (by simp [hbind]) (h d hd)
      · intro h
        obtain ⟨b, hb, hnb⟩ := h d hd
        rw [hbind, Option.some.injEq] at hb
        rw [← hb, hmatch] at hnb
        cases hnb

/-- What the hostname stage keeps: services bound to the host, or, when no
eligible service is, those that catch all. -/
theorem hostStage_spec (eligible : List Candidate) (host : Option String) :
    (∀ c ∈ (hostStage eligible host).1, c ∈ eligible) ∧
      ((∃ x, host = some x ∧ ∀ c ∈ (hostStage eligible host).1, c.2.matchesHost x = true) ∨
        ((∀ c ∈ (hostStage eligible host).1, c.2.catchAll = true) ∧
          ∀ c ∈ eligible, host.any c.2.matchesHost = false)) := by
  simp only [hostStage]
  by_cases hm : (eligible.filter fun c => host.any c.2.matchesHost).isEmpty = true
  · rw [if_pos hm]
    refine ⟨fun c hc => (List.mem_filter.mp hc).1, Or.inr ⟨fun c hc => ?_, ?_⟩⟩
    · exact (List.mem_filter.mp hc).2
    · intro c hc
      rw [List.isEmpty_iff, List.filter_eq_nil_iff] at hm
      simpa using hm c hc
  · rw [if_neg hm]
    refine ⟨fun c hc => (List.mem_filter.mp hc).1, Or.inl ?_⟩
    cases host with
    | none =>
        exact absurd (by simp) hm
    | some x =>
        refine ⟨x, rfl, fun c hc => ?_⟩
        simpa using (List.mem_filter.mp hc).2

/-! ## The pool -/

/-- A pool is never empty. -/
theorem selectClientPool_ne_nil {pool : List ServiceRef} {key : RouteGroupKey}
    (h : selectClientPool clients uriPath host now downThreshold = some (pool, key)) :
    pool ≠ [] := by
  simp only [selectClientPool, Option.ite_none_left_eq_some, Option.some.injEq,
    Prod.mk.injEq, List.isEmpty_iff] at h
  obtain ⟨hne, rfl, -⟩ := h
  rwa [ne_eq, List.map_eq_nil_iff]

/-- **What membership in a pool says.** The candidates behind the references
are eligible, share one path bind the request falls under, and are all bound
to the host, or all catch-alls for a host no eligible service is bound
to. -/
theorem selectClientPool_spec {pool : List ServiceRef} {key : RouteGroupKey}
    (h : selectClientPool clients uriPath host now downThreshold = some (pool, key)) :
    ∃ cands : List Candidate, pool = cands.map (·.1) ∧
      (∀ c ∈ cands, c ∈ eligibleServices clients now downThreshold ∧
        c.2.effectivePathBind = key.2 ∧
        ∀ b, c.2.effectivePathBind = some b → pathMatchesBind uriPath b = true) ∧
      ((∃ x, host = some x ∧ ∀ c ∈ cands, c.2.matchesHost x = true) ∨
        ((∀ c ∈ cands, c.2.catchAll = true) ∧
          ∀ c ∈ eligibleServices clients now downThreshold,
            host.any c.2.matchesHost = false)) := by
  simp only [selectClientPool, Option.ite_none_left_eq_some, Option.some.injEq,
    Prod.mk.injEq] at h
  obtain ⟨-, hpool, hkey⟩ := h
  simp only [candidatePool] at hpool hkey
  obtain ⟨hmem, hhost⟩ := hostStage_spec (eligibleServices clients now downThreshold) host
  refine ⟨_, hpool.symm, ?_, ?_⟩
  · intro c hc
    obtain ⟨hin, hbind, hunder⟩ := mem_pathStage (mem_dropEjected hc)
    exact ⟨hmem c hin, by rw [hbind, ← hkey], hunder⟩
  · have hsub : ∀ c ∈ dropEjected (pathStage (hostStage
        (eligibleServices clients now downThreshold) host).1 uriPath).1 now,
        c ∈ (hostStage (eligibleServices clients now downThreshold) host).1 :=
      fun c hc => (mem_pathStage (mem_dropEjected hc)).1
    rcases hhost with ⟨x, hx, hall⟩ | ⟨hall, hnone⟩
    · exact Or.inl ⟨x, hx, fun c hc => hall c (hsub c hc)⟩
    · exact Or.inr ⟨fun c hc => hall c (hsub c hc), hnone⟩

theorem ServiceRef.get_eq_some {r : ServiceRef} {s : ServiceState} :
    r.get clients = some s ↔
      ∃ h, clients.lookup r.client = some h ∧ h.services[r.index]? = some s := by
  simp [ServiceRef.get, Option.bind_eq_some_iff]

end Aperio
