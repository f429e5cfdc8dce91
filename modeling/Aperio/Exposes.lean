import Mathlib.Data.List.Forall2
import Aperio.TunnelNames

/-!
# Public listeners as they are written down

The contract types of `aperio_config::expose` and `expose_policy`, and the
document of `store/exposes.rs` that holds them: what a listener's
specification may say, which two listeners cannot both be bound, and how much
of an organization's port allocation a list of specifications takes.

`ExposePolicy.fits_mono` is what the rest of the development uses of the
allocation: leaving specifications out, or switching them off, never makes a
list too large.
-/

namespace Aperio

/-! ## Listeners -/

inductive ExposeProtocol where
  | tcp
  | udp
deriving Repr, DecidableEq

def ExposeProtocol.asStr : ExposeProtocol → String
  | .tcp => "tcp"
  | .udp => "udp"

/-- Where a resource comes from; there is one source. -/
inductive ExposeSource where
  | api
deriving Repr, DecidableEq

structure ExposeError where
  field : String
  message : String
deriving Repr, DecidableEq

def ExposeError.display (e : ExposeError) : String :=
  e.field ++ ": " ++ e.message

namespace IpAddr

/-- `IpAddr::is_unspecified`. -/
def isUnspecified : IpAddr → Bool
  | .v4 a => a == 0#32
  | .v6 a => a == 0#128

/-- `IpAddr::is_multicast`: `224.0.0.0/4` and `ff00::/8`. -/
def isMulticast : IpAddr → Bool
  | .v4 a => a >>> 28 == 0xe#32
  | .v6 a => a >>> 120 == 0xff#128

/-- An IPv6 address that stands for an IPv4 one. -/
def isMapped : IpAddr → Bool
  | .v4 _ => false
  | .v6 a => (toIpv4Mapped a).isSome

end IpAddr

structure ExposeListener where
  address : IpAddr
  port : Nat
  protocol : ExposeProtocol
deriving Repr, DecidableEq

/-- Whether the two cannot both be bound. IPv6 listeners are v6-only. -/
def ExposeListener.conflictsWith (l other : ExposeListener) : Bool :=
  if l.port ≠ other.port ∨ l.protocol ≠ other.protocol then false
  else
    match l.address, other.address with
    | .v4 a, .v4 b => a == b || l.address.isUnspecified || other.address.isUnspecified
    | .v6 a, .v6 b => a == b || l.address.isUnspecified || other.address.isUnspecified
    | _, _ => false

inductive ExposeLimits where
  | tcp (maxConnections openTimeoutSecs drainTimeoutSecs ingressBytesPerSecond
      egressBytesPerSecond : Nat)
  | udp (maxSessions maxSessionsPerIp idleTimeoutSecs maxDatagramBytes queuePackets queueBytes
      newSessionsPerSecond ingressBytesPerSecond egressBytesPerSecond : Nat)
deriving Repr, DecidableEq

namespace ExposeLimits

def capacity : ExposeLimits → Nat
  | .tcp maxConnections .. => maxConnections
  | .udp maxSessions .. => maxSessions

def bandwidth : ExposeLimits → Nat × Nat
  | .tcp _ _ _ ingress egress => (ingress, egress)
  | .udp _ _ _ _ _ _ _ ingress egress => (ingress, egress)

end ExposeLimits

/-- Desired state of a listener. `orgId` is a stable id, or `master`. -/
structure ExposeSpec where
  orgId : String
  tunnel : String
  listener : ExposeListener
  enabled : Bool
  limits : ExposeLimits
  allowedIps : List String := []
  advertisedHost : Option String := none
deriving Repr, DecidableEq

/-! ## What a specification may say -/

/-- `str::parse::<u8>`: an optional `+`, then digits, below `2 ^ 8`. -/
def parseU8 (s : String) : Option Nat :=
  let digits :=
    match s.toList with
    | '+' :: rest => rest
    | cs => cs
  match readDigits 10 (toDigit 10) digits 0 0 with
  | (v, n, []) => if n = 0 ∨ 256 ≤ v then none else some v
  | _ => none

def IpAddr.width : IpAddr → Nat
  | .v4 _ => 32
  | .v6 _ => 128

/-- `parse_network`: an address, or an address and a prefix length. -/
def parseNetwork (raw : String) : Option (IpAddr × Nat) :=
  match splitOnce raw '/' with
  | some (ip, bits) => do
    let address ← parseIpAddr ip
    let bits ← parseU8 bits
    if bits ≤ address.width then some (address, bits) else none
  | none => do
    let address ← parseIpAddr raw
    some (address, address.width)

/-- A visitor's DNS name or address. -/
def advertisable (host : String) : Bool :=
  match parseIpAddr host with
  | some ip => !ip.isUnspecified && !ip.isMulticast
  | none =>
    decide (host.utf8ByteSize ≤ 253) && (split host '.').all fun label =>
      label != "" && decide (label.utf8ByteSize ≤ 63) && !startsWith label "-" &&
        !endsWith label "-" && label.toList.all fun c => isAsciiAlphanumeric c || c == '-'

/-- The error of a check that failed. -/
def exposeError (failed : Bool) (field message : String) : List ExposeError :=
  if failed then [⟨field, message⟩] else []

def checkPositive (field : String) (value : Nat) : List ExposeError :=
  exposeError (value == 0) field "must be positive"

def ExposeLimits.validate (limits : ExposeLimits) (protocol : ExposeProtocol) :
    List ExposeError :=
  match limits with
  | .tcp maxConnections openTimeoutSecs _ ingress egress =>
    checkPositive "limits.max_connections" maxConnections ++
    checkPositive "limits.open_timeout_secs" openTimeoutSecs ++
    checkPositive "limits.ingress_bytes_per_second" ingress ++
    checkPositive "limits.egress_bytes_per_second" egress ++
    exposeError (protocol != .tcp) "limits.protocol" "limits must match listener protocol"
  | .udp maxSessions maxSessionsPerIp idleTimeoutSecs maxDatagramBytes queuePackets queueBytes
      newSessionsPerSecond ingress egress =>
    checkPositive "limits.max_sessions" maxSessions ++
    checkPositive "limits.max_sessions_per_ip" maxSessionsPerIp ++
    checkPositive "limits.idle_timeout_secs" idleTimeoutSecs ++
    checkPositive "limits.max_datagram_bytes" maxDatagramBytes ++
    checkPositive "limits.queue_packets" queuePackets ++
    checkPositive "limits.queue_bytes" queueBytes ++
    checkPositive "limits.new_sessions_per_second" newSessionsPerSecond ++
    checkPositive "limits.ingress_bytes_per_second" ingress ++
    checkPositive "limits.egress_bytes_per_second" egress ++
    exposeError (65507 < maxDatagramBytes) "limits.max_datagram_bytes"
      "must not exceed 65507 bytes" ++
    exposeError (maxSessions < maxSessionsPerIp) "limits.max_sessions_per_ip"
      "must not exceed max_sessions" ++
    exposeError (queueBytes < maxDatagramBytes) "limits.queue_bytes"
      "must hold at least one maximum-sized datagram" ++
    exposeError (protocol != .udp) "limits.protocol" "limits must match listener protocol"

def ExposeSpec.validate (spec : ExposeSpec) : List ExposeError :=
  exposeError (spec.advertisedHost.any (!advertisable ·)) "advertised_host"
    "expected a visitor DNS name or non-wildcard IP, without scheme or port" ++
  (spec.allowedIps.zipIdx.flatMap fun (range, index) =>
    exposeError (parseNetwork range).isNone ("allowed_ips[" ++ toString index ++ "]")
      "expected an IP address or CIDR network") ++
  exposeError (trim spec.orgId == "" || trim spec.orgId != spec.orgId || spec.orgId == "*")
    "org_id" "a concrete organization id is required" ++
  (match validateName "tunnel" spec.tunnel with
    | .ok () => []
    | .error message => [⟨"tunnel", message⟩]) ++
  exposeError (spec.listener.port == 0) "listener.port" "port must be between 1 and 65535" ++
  exposeError spec.listener.address.isMapped "listener.address"
    "use an IPv4 address instead of mapped IPv6" ++
  spec.limits.validate spec.listener.protocol

structure ExposeResource where
  id : String
  revision : Nat
  source : ExposeSource := .api
  spec : ExposeSpec
deriving Repr, DecidableEq

/-! ## Allocations -/

structure ExposeAllocation where
  address : IpAddr
  protocol : ExposeProtocol
  firstPort : Nat
  lastPort : Nat
deriving Repr, DecidableEq

structure ExposePolicy where
  orgId : String
  revision : Nat
  allocations : List ExposeAllocation
  reserved : List ExposeListener := []
  maxRules : Nat
  maxTcpConnections : Nat
  maxUdpSessions : Nat
  ingressBytesPerSecond : Nat
  egressBytesPerSecond : Nat
deriving Repr, DecidableEq

/-- `u64::saturating_add`. -/
def satAdd (a b : Nat) : Nat :=
  min (a + b) 18446744073709551615

/-- What a list of specifications takes of an allocation. -/
structure ExposeTotals where
  rules : Nat := 0
  tcp : Nat := 0
  udp : Nat := 0
  up : Nat := 0
  down : Nat := 0
deriving Repr, DecidableEq

namespace ExposePolicy

variable (policy : ExposePolicy)

def validate : List ExposeError :=
  exposeError (policy.orgId == "" || trim policy.orgId != policy.orgId || policy.orgId == "*")
    "org_id" "a concrete organization id is required" ++
  (policy.allocations.zipIdx.flatMap fun (allocation, i) =>
    exposeError (allocation.firstPort == 0 || allocation.lastPort < allocation.firstPort)
      ("allocations[" ++ toString i ++ "]") "invalid port range" ++
    exposeError allocation.address.isMapped ("allocations[" ++ toString i ++ "].address")
      "use an IPv4 address instead of mapped IPv6") ++
  policy.reserved.zipIdx.flatMap fun (port, i) =>
    exposeError (port.port == 0) ("reserved[" ++ toString i ++ "].port")
      "port zero cannot be reserved"

def allows (spec : ExposeSpec) : Bool :=
  spec.orgId == policy.orgId &&
    (policy.allocations.any fun a =>
      a.address == spec.listener.address && a.protocol == spec.listener.protocol &&
        decide (a.firstPort ≤ spec.listener.port) && decide (spec.listener.port ≤ a.lastPort)) &&
    !policy.reserved.any (·.conflictsWith spec.listener)

/-- One pass of the loop of `fits`, which ends early at a specification that
is not allowed. -/
def charge (t : ExposeTotals) (spec : ExposeSpec) : Option ExposeTotals :=
  if spec.orgId ≠ policy.orgId then some t
  else
    let t := { t with rules := satAdd t.rules 1 }
    if !policy.allows spec then none
    else if !spec.enabled then some t
    else
      let t :=
        match spec.listener.protocol with
        | .tcp => { t with tcp := satAdd t.tcp spec.limits.capacity }
        | .udp => { t with udp := satAdd t.udp spec.limits.capacity }
      some { t with
        up := satAdd t.up spec.limits.bandwidth.1
        down := satAdd t.down spec.limits.bandwidth.2 }

def within (t : ExposeTotals) : Bool :=
  decide (t.rules ≤ policy.maxRules) && decide (t.tcp ≤ policy.maxTcpConnections) &&
    decide (t.udp ≤ policy.maxUdpSessions) && decide (t.up ≤ policy.ingressBytesPerSecond) &&
    decide (t.down ≤ policy.egressBytesPerSecond)

/-- Capacity is reserved for every enabled specification of the
organization. -/
def fits (specs : List ExposeSpec) : Bool :=
  (specs.foldlM policy.charge {}).any policy.within

end ExposePolicy

/-! ## The stored document -/

structure ExposeDocument where
  version : Nat := 1
  revision : Nat := 1
  resources : List ExposeResource := []
  policies : List ExposePolicy := []
deriving Repr, DecidableEq

namespace ExposeDocument

/-- The resources, next to the ids already taken. -/
def validateResources : List String → List ExposeResource → Except String Unit
  | _, [] => .ok ()
  | ids, r :: rest =>
    if r.id = "" ∨ startsWith r.id "file:" ∨ r.revision = 0 ∨ r.source ≠ .api ∨ r.id ∈ ids then
      .error "invalid or repeated expose identity"
    else
      match r.spec.validate with
      | [] => validateResources (r.id :: ids) rest
      | errors => .error (r.id ++ ": " ++ join (errors.map ExposeError.display) ", ")

def validatePolicies : List String → List ExposePolicy → Except String Unit
  | _, [] => .ok ()
  | orgs, p :: rest =>
    if p.revision = 0 ∨ p.orgId ∈ orgs ∨ p.validate ≠ [] then
      .error "invalid or repeated expose policy"
    else validatePolicies (p.orgId :: orgs) rest

def validate (d : ExposeDocument) : Except String Unit := do
  if d.version ≠ 1 ∨ d.revision = 0 then
    throw "unsupported expose document version/revision"
  validateResources [] d.resources
  validatePolicies [] d.policies

/-- The policy of an organization. -/
def policyOf (d : ExposeDocument) (org : String) : Option ExposePolicy :=
  d.policies.find? (·.orgId == org)

end ExposeDocument

/-! ## What a valid document is -/

namespace ExposeDocument

theorem validateResources_ok :
    ∀ {ids : List String} {resources : List ExposeResource},
      validateResources ids resources = .ok () →
        (∀ r ∈ resources, r.id ∉ ids) ∧ (resources.map (·.id)).Nodup := by
  intro ids resources
  induction resources generalizing ids with
  | nil =>
      intro _
      exact ⟨nofun, List.nodup_nil⟩
  | cons r rest ih =>
      intro h
      simp only [validateResources] at h
      split at h
      · cases h
      · next hbad =>
          push Not at hbad
          split at h
          · obtain ⟨hfresh, hnodup⟩ := ih h
            refine ⟨?_, List.nodup_cons.mpr ⟨?_, hnodup⟩⟩
            · intro x hx
              rcases List.mem_cons.mp hx with rfl | hx
              · exact hbad.2.2.2.2
              · exact fun hids => hfresh x hx (List.mem_cons_of_mem _ hids)
            · intro hmem
              obtain ⟨x, hx, hid⟩ := List.mem_map.mp hmem
              exact hfresh x hx (by rw [hid]; exact List.mem_cons_self)
          · cases h

theorem validate_ok {d : ExposeDocument} (h : d.validate = .ok ()) :
    validateResources [] d.resources = .ok () := by
  simp only [validate, bind, Except.bind] at h
  split at h
  · cases h
  · split at h
    · cases h
    · next hresources => exact hresources

theorem nodup_ids {d : ExposeDocument} (h : d.validate = .ok ()) :
    (d.resources.map (·.id)).Nodup :=
  (validateResources_ok (validate_ok h)).2

theorem validateResources_revision {ids : List String} {resources : List ExposeResource}
    (h : validateResources ids resources = .ok ()) : ∀ r ∈ resources, r.revision ≠ 0 := by
  induction resources generalizing ids with
  | nil => exact nofun
  | cons r rest ih =>
      simp only [validateResources] at h
      split at h
      · cases h
      · next hbad =>
          push Not at hbad
          split at h
          · exact List.forall_mem_cons.mpr ⟨hbad.2.2.1, ih h⟩
          · cases h

theorem revision_ne_zero {d : ExposeDocument} (h : d.validate = .ok ()) {r : ExposeResource}
    (hr : r ∈ d.resources) : r.revision ≠ 0 :=
  validateResources_revision (validate_ok h) r hr

theorem mem_of_policyOf {d : ExposeDocument} {org : String} {policy : ExposePolicy}
    (h : d.policyOf org = some policy) : policy ∈ d.policies ∧ policy.orgId = org :=
  ⟨List.mem_of_find?_eq_some h, by simpa using List.find?_some h⟩

end ExposeDocument

/-! ## Smaller lists fit -/

/-- The same specification, or the same switched off. -/
def ExposeSpec.Below (a b : ExposeSpec) : Prop :=
  a = b ∨ a = { b with enabled := false }

/-- One sum is at most another, and is one that saturation gives. -/
def SatLe (a b : Nat) : Prop :=
  a ≤ b ∧ a ≤ 18446744073709551615

theorem SatLe.add {a b : Nat} (h : SatLe a b) (n : Nat) : SatLe (satAdd a n) (satAdd b n) := by
  obtain ⟨hle, -⟩ := h
  simp only [SatLe, satAdd]
  omega

theorem SatLe.add_right {a b : Nat} (h : SatLe a b) (n : Nat) : SatLe a (satAdd b n) := by
  obtain ⟨hle, hcap⟩ := h
  simp only [SatLe, satAdd]
  omega

structure ExposeTotals.Le (t t' : ExposeTotals) : Prop where
  rules : SatLe t.rules t'.rules
  tcp : SatLe t.tcp t'.tcp
  udp : SatLe t.udp t'.udp
  up : SatLe t.up t'.up
  down : SatLe t.down t'.down

namespace ExposePolicy

variable {policy : ExposePolicy}

theorem allows_below {a b : ExposeSpec} (h : a.Below b) : policy.allows a = policy.allows b := by
  rcases h with rfl | rfl
  · rfl
  · rfl

theorem charge_mono {t t' u' : ExposeTotals} {a b : ExposeSpec} (hle : t.Le t')
    (hbelow : a.Below b) (h : policy.charge t' b = some u') :
    ∃ u, policy.charge t a = some u ∧ u.Le u' := by
  have hallows : policy.allows a = policy.allows b := allows_below hbelow
  have horg : a.orgId = b.orgId := by
    rcases hbelow with rfl | rfl
    · rfl
    · rfl
  simp only [charge, hallows, horg] at h ⊢
  split at h
  · obtain rfl := Option.some.inj h
    exact ⟨t, if_pos ‹_›, hle⟩
  · next hown =>
      rw [if_neg hown]
      split at h
      · cases h
      · next hallowed =>
          rw [if_neg hallowed]
          split at h
          · next hoff =>
              obtain rfl := Option.some.inj h
              have hoff' : (!a.enabled) = true := by
                rcases hbelow with rfl | rfl
                · exact hoff
                · rfl
              exact ⟨_, if_pos hoff', hle.rules.add 1, hle.tcp, hle.udp, hle.up, hle.down⟩
          · next hon =>
              obtain rfl := Option.some.inj h
              rcases hbelow with rfl | rfl
              · rw [if_neg hon]
                refine ⟨_, rfl, ?_⟩
                cases a.listener.protocol with
                | tcp => exact ⟨hle.rules.add 1, hle.tcp.add _, hle.udp, hle.up.add _, hle.down.add _⟩
                | udp => exact ⟨hle.rules.add 1, hle.tcp, hle.udp.add _, hle.up.add _, hle.down.add _⟩
              · refine ⟨_, if_pos rfl, ?_⟩
                cases b.listener.protocol with
                | tcp =>
                    exact ⟨hle.rules.add 1, hle.tcp.add_right _, hle.udp, hle.up.add_right _,
                      hle.down.add_right _⟩
                | udp =>
                    exact ⟨hle.rules.add 1, hle.tcp, hle.udp.add_right _, hle.up.add_right _,
                      hle.down.add_right _⟩

/-- Another specification only adds. -/
theorem charge_le {t t' u' : ExposeTotals} {b : ExposeSpec} (hle : t.Le t')
    (h : policy.charge t' b = some u') : t.Le u' := by
  simp only [charge] at h
  split at h
  · obtain rfl := Option.some.inj h
    exact hle
  · split at h
    · cases h
    · split at h
      · obtain rfl := Option.some.inj h
        exact ⟨hle.rules.add_right 1, hle.tcp, hle.udp, hle.up, hle.down⟩
      · obtain rfl := Option.some.inj h
        cases b.listener.protocol with
        | tcp =>
            exact ⟨hle.rules.add_right 1, hle.tcp.add_right _, hle.udp, hle.up.add_right _,
              hle.down.add_right _⟩
        | udp =>
            exact ⟨hle.rules.add_right 1, hle.tcp, hle.udp.add_right _, hle.up.add_right _,
              hle.down.add_right _⟩

theorem foldlM_charge_mono {specs specs' : List ExposeSpec}
    (h : List.SublistForall₂ ExposeSpec.Below specs specs') {t t' u' : ExposeTotals}
    (hle : t.Le t') (hfold : specs'.foldlM policy.charge t' = some u') :
    ∃ u, specs.foldlM policy.charge t = some u ∧ u.Le u' := by
  induction h generalizing t t' with
  | nil =>
      refine ⟨t, rfl, ?_⟩
      rename_i rest
      induction rest generalizing t' with
      | nil =>
          obtain rfl := Option.some.inj hfold
          exact hle
      | cons b rest ih =>
          obtain ⟨v', hv', hrest⟩ := Option.bind_eq_some_iff.mp hfold
          exact ih (charge_le hle hv') hrest
  | cons hbelow _ ih =>
      obtain ⟨v', hv', hrest⟩ := Option.bind_eq_some_iff.mp hfold
      obtain ⟨v, hv, hvle⟩ := charge_mono hle hbelow hv'
      obtain ⟨u, hu, hule⟩ := ih hvle hrest
      exact ⟨u, Option.bind_eq_some_iff.mpr ⟨v, hv, hu⟩, hule⟩
  | cons_right _ ih =>
      obtain ⟨v', hv', hrest⟩ := Option.bind_eq_some_iff.mp hfold
      exact ih (charge_le hle hv') hrest

/-- **A smaller list fits where a larger one does**: leaving specifications
out, or switching them off, gives capacity back. -/
theorem fits_mono {specs specs' : List ExposeSpec}
    (h : List.SublistForall₂ ExposeSpec.Below specs specs') (hfits : policy.fits specs' = true) :
    policy.fits specs = true := by
  simp only [fits, Option.any_eq_true] at hfits ⊢
  obtain ⟨u', hu', hwithin⟩ := hfits
  have hzero : SatLe 0 0 := ⟨Nat.le_refl 0, Nat.zero_le _⟩
  have hempty : ExposeTotals.Le {} {} := ⟨hzero, hzero, hzero, hzero, hzero⟩
  obtain ⟨u, hu, hle⟩ := foldlM_charge_mono h hempty hu'
  refine ⟨u, hu, ?_⟩
  simp only [within, Bool.and_eq_true, decide_eq_true_eq] at hwithin ⊢
  obtain ⟨⟨⟨⟨hrules, htcp⟩, hudp⟩, hup⟩, hdown⟩ := hwithin
  exact ⟨⟨⟨⟨Nat.le_trans hle.rules.1 hrules, Nat.le_trans hle.tcp.1 htcp⟩,
    Nat.le_trans hle.udp.1 hudp⟩, Nat.le_trans hle.up.1 hup⟩, Nat.le_trans hle.down.1 hdown⟩

theorem foldlM_charge_own (specs : List ExposeSpec) (t : ExposeTotals) :
    (specs.filter (·.orgId == policy.orgId)).foldlM policy.charge t = specs.foldlM policy.charge t := by
  induction specs generalizing t with
  | nil => rfl
  | cons b rest ih =>
      by_cases hown : b.orgId = policy.orgId
      · rw [List.filter_cons_of_pos (by simpa using hown), List.foldlM_cons, List.foldlM_cons]
        exact congrArg _ (funext ih)
      · rw [List.filter_cons_of_neg (by simpa using hown), List.foldlM_cons, ih]
        simp [charge, hown]

/-- Only the organization's own specifications are looked at. -/
theorem fits_own (specs : List ExposeSpec) :
    policy.fits (specs.filter (·.orgId == policy.orgId)) = policy.fits specs := by
  simp only [fits, foldlM_charge_own]

theorem foldlM_charge_allows {specs : List ExposeSpec} {t u : ExposeTotals}
    (h : specs.foldlM policy.charge t = some u) {spec : ExposeSpec} (hspec : spec ∈ specs)
    (horg : spec.orgId = policy.orgId) : policy.allows spec = true := by
  induction specs generalizing t with
  | nil => cases hspec
  | cons b rest ih =>
      obtain ⟨v, hv, hrest⟩ := Option.bind_eq_some_iff.mp h
      rcases List.mem_cons.mp hspec with rfl | hspec
      · simp only [charge, horg, ne_eq, not_true_eq_false, if_false] at hv
        split at hv
        · cases hv
        · next hallowed => simpa using hallowed
      · exact ih hrest hspec

/-- What fits is allowed. -/
theorem allows_of_fits {specs : List ExposeSpec} (h : policy.fits specs = true)
    {spec : ExposeSpec} (hspec : spec ∈ specs) (horg : spec.orgId = policy.orgId) :
    policy.allows spec = true := by
  simp only [fits, Option.any_eq_true] at h
  obtain ⟨u, hu, -⟩ := h
  exact foldlM_charge_allows hu hspec horg

end ExposePolicy

end Aperio
