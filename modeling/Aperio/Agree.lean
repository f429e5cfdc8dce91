import Aperio.Declare

/-!
# One route, one policy

`tunnel/ws/agree.rs`: after every declaration the services of a connection
are compared with what already serves their routes, and one that disagrees
is marked and kept out of routing. `verdict_eq_none` says what a service
that was not marked has been compared with.
-/

namespace Aperio

/-- What a service says about who reaches its route. -/
structure RoutePolicy where
  isPublic : Bool
  visitorAuth : Option String
  gate : Option Policy
  allowedIps : List String
  denied : Option String
deriving DecidableEq

namespace RoutePolicy

def of (s : ServiceState) : RoutePolicy where
  isPublic := s.isPublic
  visitorAuth := s.visitorAuth
  gate := s.visitorAuthPolicy
  allowedIps := s.allowedIps
  denied := s.denied

/-- The two say the same about `access`. -/
def SameAccess (a b : RoutePolicy) : Prop :=
  a.isPublic = b.isPublic ∧ a.visitorAuth = b.visitorAuth ∧ a.gate = b.gate

instance (a b : RoutePolicy) : Decidable (a.SameAccess b) :=
  inferInstanceAs (Decidable (_ ∧ _ ∧ _))

/-- The settings these two disagree on, by name. `access` is left out where
a site decides it. -/
def differences (a b : RoutePolicy) (siteDecides : Bool) : List String :=
  (if !siteDecides && !decide (a.SameAccess b) then ["access"] else []) ++
    (if a.allowedIps = b.allowedIps then [] else ["allowed_ips"]) ++
    (if a.denied = b.denied then [] else ["denied"])

theorem differences_eq_nil {a b : RoutePolicy} {siteDecides : Bool} :
    a.differences b siteDecides = [] ↔
      (siteDecides = true ∨ a.SameAccess b) ∧ a.allowedIps = b.allowedIps ∧
        a.denied = b.denied := by
  simp only [differences, List.append_eq_nil_iff, and_assoc]
  refine and_congr ?_ (and_congr (by simp) (by simp))
  cases siteDecides <;> simp

end RoutePolicy

/-- The route two services both serve, if they share one: the same path
bind, and a hostname in common or neither bound to any. -/
def sharedRoute (a b : ServiceState) : Option (Option String × String) :=
  if a.effectivePathBind ≠ b.effectivePathBind then none
  else
    let path := a.effectivePathBind.getD ""
    if a.effectiveHostnames = [] ∧ b.effectiveHostnames = [] then some (none, path)
    else
      (a.effectiveHostnames.find? (b.effectiveHostnames.contains ·)).map fun h => (some h, path)

/-- Whether a site's `access` covers a shared route. -/
def siteDecides (cfg : ServerConfig) (host : Option String) (path : String) : Bool :=
  (cfg.sites.accessFor host (if path = "" then "/" else path)).isSome

/-- What one other service has to say against `s`. -/
def conflictWith (cfg : ServerConfig) (s : ServiceState) (id : String) (c : ClientHandle)
    (t : ServiceState) : Option String :=
  (sharedRoute s t).bind fun (host, path) =>
    let differ := (RoutePolicy.of s).differences (RoutePolicy.of t) (siteDecides cfg host path)
    if differ = [] then none
    else
      let who := (t.displayName.or c.processName).getD id
      let route := host.getD "every hostname, " ++ path
      let names := "`, `".intercalate differ
      some ("not serving " ++ route ++ ": its `" ++ names ++ "` differs from " ++ who ++
        ", which already serves it, and one route has one policy. Write the same `" ++ names ++
        "` on both, or give this service a hostname or path of its own")

/-- Only a service of another declared connection that is itself serving the
route speaks for it. -/
def verdict (cfg : ServerConfig) (clients : Clients) (clientId : String) (s : ServiceState) :
    Option String :=
  (clients.entries.filter fun e => e.1 != clientId && !e.2.awaitingDeclaration).findSome? fun e =>
    (e.2.services.filter (·.policyConflict.isNone)).findSome? (conflictWith cfg s e.1 e.2)

/-- The service with its verdict written to it. -/
def ServiceState.marked (s : ServiceState) (why : Option String) : ServiceState :=
  { s with policyConflict := why }

@[simp] theorem ServiceState.marked_policyConflict (s : ServiceState) (why : Option String) :
    (s.marked why).policyConflict = why := rfl

/-- Settles the services of `clientId` against every other connection's. -/
def settle (cfg : ServerConfig) (clients : Clients) (clientId : String) : Clients :=
  match clients.lookup clientId with
  | none => clients
  | some this =>
    clients.insert clientId
      { this with
        services := this.services.map fun s => s.marked (verdict cfg clients clientId s) }

/-! ## What an unmarked service was compared with -/

/-- `s`, when it was settled, agreed with `t` on the route they share. -/
def Settled (cfg : ServerConfig) (s t : ServiceState) : Prop :=
  ∀ host path, sharedRoute s t = some (host, path) →
    (RoutePolicy.of s).differences (RoutePolicy.of t) (siteDecides cfg host path) = []

theorem conflictWith_eq_none {cfg : ServerConfig} {s t : ServiceState} {id : String}
    {c : ClientHandle} : conflictWith cfg s id c t = none ↔ Settled cfg s t := by
  simp only [conflictWith, Settled]
  cases sharedRoute s t with
  | none =>
      simp
  | some r =>
      obtain ⟨host, path⟩ := r
      simp

theorem verdict_eq_none {cfg : ServerConfig} {clients : Clients} {clientId : String}
    {s : ServiceState} :
    verdict cfg clients clientId s = none ↔
      ∀ id c, clients.lookup id = some c → id ≠ clientId → c.awaitingDeclaration = false →
        ∀ t ∈ c.services, t.policyConflict = none → Settled cfg s t := by
  simp only [verdict, List.findSome?_eq_none_iff, List.mem_filter, conflictWith_eq_none]
  constructor
  · intro h id c hc hne hdecl t ht hpc
    refine h ⟨id, c⟩ ⟨AList.mem_lookup_iff.mp hc, ?_⟩ t ⟨ht, ?_⟩
    · simp [hne, hdecl]
    · simp [hpc]
  · rintro h ⟨id, c⟩ ⟨he, hcond⟩ t ⟨ht, hpc⟩
    simp only [Bool.and_eq_true, bne_iff_ne, ne_eq, Bool.not_eq_eq_eq_not, Bool.not_true] at hcond
    exact h id c (AList.mem_lookup_iff.mpr he) hcond.1 hcond.2 t ht (by simpa using hpc)

end Aperio
