import Aperio.Select

/-!
# Catch-all services and claimed hostnames

A service that declares `hostname: "*"` asks for every hostname no other
service claims. Routing asks whether a service may serve at all before it
asks who is bound to the host, so a claimant that is down, draining,
disabled, refused or in conflict has no say, and the catch-all serves its
hostname. `claimRespected_iff` is the exact border.
-/

namespace Aperio

/-- Some connected service, whatever its state, binds the hostname. -/
def Claimed (clients : Clients) (host : String) : Prop :=
  ∃ id h, clients.lookup id = some h ∧ ∃ s ∈ h.services, host ∈ s.effectiveHostnames

/-- The service may be chosen at all: its connection is healthy and not
draining, and it is itself healthy, enabled, not refused and not in
conflict. -/
def Eligible (clients : Clients) (now downThreshold : Nat) (s : ServiceState) : Prop :=
  ∃ id h, clients.lookup id = some h ∧ s ∈ h.services ∧
    h.routable now downThreshold = true ∧ s.serving = true

/-- If anybody claims the hostname, only services bound to it are in its
pool. -/
def ClaimRespected (clients : Clients) (uriPath host : String) (now downThreshold : Nat) : Prop :=
  Claimed clients host →
    ∀ pool key, selectClientPool clients uriPath (some host) now downThreshold = some (pool, key) →
      ∀ r ∈ pool, ∃ s, r.get clients = some s ∧ host ∈ s.effectiveHostnames

/-- The service's path bind lets the request through: it has none, or the
path falls under it. -/
def ServesPath (s : ServiceState) (uriPath : String) : Prop :=
  ∀ b, s.effectivePathBind = some b → pathMatchesBind uriPath b = true

variable {clients : Clients} {uriPath host : String} {now downThreshold : Nat}

theorem eligible_iff {s : ServiceState} :
    Eligible clients now downThreshold s ↔
      ∃ r, (r, s) ∈ eligibleServices clients now downThreshold := by
  simp only [Eligible, mem_eligibleServices]
  constructor
  · rintro ⟨id, h, hlook, hs, hr, hserving⟩
    obtain ⟨i, hi⟩ := List.mem_iff_getElem?.mp hs
    exact ⟨⟨id, i⟩, h, hlook, hi, hr, hserving⟩
  · rintro ⟨r, h, hlook, hi, hr, hserving⟩
    exact ⟨r.client, h, hlook, List.mem_of_getElem? hi, hr, hserving⟩

/-- With no eligible claimant, an eligible catch-all that serves the path is
enough for a pool. -/
theorem selectClientPool_of_catchAll
    (hnone : ∀ s, Eligible clients now downThreshold s → host ∉ s.effectiveHostnames)
    {s : ServiceState} (hs : Eligible clients now downThreshold s) (hcatch : s.catchAll = true)
    (hpath : ServesPath s uriPath) :
    ∃ r pool key,
      selectClientPool clients uriPath (some host) now downThreshold = some (r :: pool, key) := by
  have hstage : (hostStage (eligibleServices clients now downThreshold) (some host)).1 =
      (eligibleServices clients now downThreshold).filter (·.2.catchAll) := by
    simp only [hostStage]
    rw [if_pos]
    rw [List.isEmpty_iff, List.filter_eq_nil_iff]
    intro c hc
    have := hnone c.2 (eligible_iff.mpr ⟨c.1, hc⟩)
    simpa [ServiceState.matchesHost] using this
  have hne : (candidatePool clients uriPath (some host) now downThreshold).1 ≠ [] := by
    simp only [candidatePool, hstage]
    rw [ne_eq, dropEjected_eq_nil, pathStage_eq_nil]
    intro h
    obtain ⟨r, hr⟩ := eligible_iff.mp hs
    obtain ⟨b, hb, hnb⟩ := h (r, s) (List.mem_filter.mpr ⟨hr, hcatch⟩)
    rw [hpath b hb] at hnb
    cases hnb
  obtain ⟨c, rest, hc⟩ := List.exists_cons_of_ne_nil hne
  refine ⟨c.1, rest.map (·.1), (candidatePool clients uriPath (some host) now downThreshold).2, ?_⟩
  simp only [selectClientPool]
  rw [if_neg (by simp [hc]), hc]
  rfl

/-- **When a claim is respected.** For every client map, host, path and
threshold: nobody claims the hostname, or an eligible service does, or no
eligible catch-all serves the path. -/
theorem claimRespected_iff :
    ClaimRespected clients uriPath host now downThreshold ↔
      ¬Claimed clients host ∨
      (∃ s, Eligible clients now downThreshold s ∧ host ∈ s.effectiveHostnames) ∨
      ∀ s, Eligible clients now downThreshold s → s.catchAll = true → ¬ServesPath s uriPath := by
  constructor
  · intro h
    by_cases hclaim : Claimed clients host
    · refine Or.inr ?_
      by_cases hel : ∃ s, Eligible clients now downThreshold s ∧ host ∈ s.effectiveHostnames
      · exact Or.inl hel
      · refine Or.inr fun s hs hcatch hpath => ?_
        have hnone : ∀ s, Eligible clients now downThreshold s → host ∉ s.effectiveHostnames :=
          fun s hs hmem => hel ⟨s, hs, hmem⟩
        obtain ⟨r, pool, key, hsel⟩ := selectClientPool_of_catchAll hnone hs hcatch hpath
        obtain ⟨t, hget, hbound⟩ := h hclaim _ _ hsel r List.mem_cons_self
        -- the member of the pool is eligible, so it cannot be bound to the host
        obtain ⟨cands, hpool, hcands, -⟩ := selectClientPool_spec hsel
        obtain ⟨c, hc, rfl⟩ := List.mem_map.mp (hpool ▸ List.mem_cons_self : r ∈ cands.map (·.1))
        obtain ⟨hlook, hl, hi, -⟩ := mem_eligibleServices.mp (hcands c hc).1
        have hct : c.2 = t := by
          rw [ServiceRef.get_eq_some] at hget
          obtain ⟨h', hl', hi'⟩ := hget
          rw [hl, Option.some.injEq] at hl'
          rw [← hl', hi, Option.some.injEq] at hi'
          exact hi'
        exact hnone t (eligible_iff.mpr ⟨c.1, hct ▸ (hcands c hc).1⟩) hbound
    · exact Or.inl hclaim
  · rintro hcond hclaim pool key hsel r hr
    obtain ⟨cands, rfl, hcands, hhost⟩ := selectClientPool_spec hsel
    obtain ⟨c, hc, rfl⟩ := List.mem_map.mp hr
    obtain ⟨hel, -, hunder⟩ := hcands c hc
    obtain ⟨h, hlook, hi, -⟩ := mem_eligibleServices.mp hel
    refine ⟨c.2, ServiceRef.get_eq_some.mpr ⟨h, hlook, hi⟩, ?_⟩
    rcases hhost with ⟨x, hx, hall⟩ | ⟨hall, hnone⟩
    · obtain rfl := Option.some.inj hx
      exact ServiceState.matchesHost_iff.mp (hall c hc)
    · rcases hcond with hcond | ⟨s, hs, hbound⟩ | hcond
      · exact absurd hclaim hcond
      · obtain ⟨r', hr'⟩ := eligible_iff.mp hs
        have := hnone _ hr'
        rw [Option.any_some, ServiceState.matchesHost_iff.mpr hbound] at this
        cases this
      · exact absurd hunder (hcond c.2 (eligible_iff.mpr ⟨c.1, hel⟩) (hall c hc))

/-! ## A tenant's probe fails and another tenant is served -/

/-- One connection claims `app.test` and its backend is down; the other
catches all. -/
def failedClaimant : Clients :=
  ((∅ : Clients).insert "claimant"
    { newHandle {} 0 { perms := ClientPerms.ofMaster } with
      services := [{ declaredHostname := some "app.test", backendHealthy := false }] }).insert
    "other"
    { newHandle {} 0 { perms := ClientPerms.ofMaster } with
      services := [{ catchAll := true }] }

/-- The pool for a claimed hostname holds a service that only catches
all. -/
theorem catchAll_serves_claimed :
    ¬ClaimRespected failedClaimant "/" "app.test" 0 15 ∧
      selectClientPool failedClaimant "/" (some "app.test") 0 15 =
        some ([⟨"other", 0⟩], (none, none)) := by
  have hsel : selectClientPool failedClaimant "/" (some "app.test") 0 15 =
      some ([⟨"other", 0⟩], (none, none)) := by decide
  refine ⟨?_, hsel⟩
  intro h
  have hclaim : Claimed failedClaimant "app.test" :=
    ⟨"claimant", _, rfl, _, List.mem_singleton.mpr rfl, by decide⟩
  obtain ⟨s, hget, hbound⟩ := h hclaim _ _ hsel ⟨"other", 0⟩ List.mem_cons_self
  obtain rfl : s = { catchAll := true } := by
    simpa [failedClaimant, ServiceRef.get] using hget.symm
  exact absurd hbound (by decide)

end Aperio
