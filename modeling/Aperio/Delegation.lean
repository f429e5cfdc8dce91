import Aperio.Exposes

/-!
# Delegated allocations

`ExposePolicy::intersection` and `contains` (`expose_policy.rs`): the
allocation of a user in two identity-provider groups, and whether an
allocation handed on is part of the one it is cut from.

`ExposePolicy.Narrower` says what both are for: nothing the narrower policy
allows is refused by the other, and none of its ceilings is higher. A list of
specifications that fits a policy fits every wider one
(`ExposePolicy.Narrower.fits`), so the two operations only have to be shown to
narrow.
-/

namespace Aperio

/-! ## The operations -/

namespace ExposeAllocation

/-- The allocation holds the listener's socket. -/
def covers (a : ExposeAllocation) (l : ExposeListener) : Bool :=
  a.address == l.address && a.protocol == l.protocol && decide (a.firstPort ≤ l.port) &&
    decide (l.port ≤ a.lastPort)

/-- The ports two allocations share, when they are for one address and
protocol. -/
def overlap (a b : ExposeAllocation) : Option ExposeAllocation :=
  let firstPort := max a.firstPort b.firstPort
  let lastPort := min a.lastPort b.lastPort
  if a.address = b.address ∧ a.protocol = b.protocol ∧ firstPort ≤ lastPort then
    some { address := a.address, protocol := a.protocol, firstPort, lastPort }
  else none

end ExposeAllocation

/-- `Vec::push`, unless the value is there already. -/
def pushDistinct {α : Type} [DecidableEq α] (l : List α) (x : α) : List α :=
  if x ∈ l then l else l ++ [x]

namespace ExposePolicy

/-- Allocations shared with those of `others`, each pair looked at in turn. -/
def sharedAllocations (own others : List ExposeAllocation) : List ExposeAllocation :=
  own.foldl (fun found a =>
    others.foldl (fun found b => ((a.overlap b).map (pushDistinct found)).getD found) found) []

def intersection (policy other : ExposePolicy) : ExposePolicy where
  orgId := policy.orgId
  revision := 1
  allocations := sharedAllocations policy.allocations other.allocations
  reserved := other.reserved.foldl pushDistinct policy.reserved
  maxRules := min policy.maxRules other.maxRules
  maxTcpConnections := min policy.maxTcpConnections other.maxTcpConnections
  maxUdpSessions := min policy.maxUdpSessions other.maxUdpSessions
  ingressBytesPerSecond := min policy.ingressBytesPerSecond other.ingressBytesPerSecond
  egressBytesPerSecond := min policy.egressBytesPerSecond other.egressBytesPerSecond

/-- Whether `child` may be delegated by an administrator of `policy`. -/
def contains (policy child : ExposePolicy) : Bool :=
  policy.orgId == child.orgId && decide (child.maxRules ≤ policy.maxRules) &&
    decide (child.maxTcpConnections ≤ policy.maxTcpConnections) &&
    decide (child.maxUdpSessions ≤ policy.maxUdpSessions) &&
    decide (child.ingressBytesPerSecond ≤ policy.ingressBytesPerSecond) &&
    decide (child.egressBytesPerSecond ≤ policy.egressBytesPerSecond) &&
    policy.reserved.all (fun p => decide (p ∈ child.reserved)) &&
    child.allocations.all fun c => policy.allocations.any fun a =>
      a.address == c.address && a.protocol == c.protocol && decide (a.firstPort ≤ c.firstPort) &&
        decide (c.lastPort ≤ a.lastPort)

end ExposePolicy

/-! ## What an allocation covers -/

theorem mem_pushDistinct {α : Type} [DecidableEq α] {l : List α} {x y : α} :
    y ∈ pushDistinct l x ↔ y ∈ l ∨ y = x := by
  unfold pushDistinct
  split
  · next hmem =>
      constructor
      · exact Or.inl
      · rintro (hy | rfl)
        · exact hy
        · exact hmem
  · rw [List.mem_append, List.mem_singleton]

theorem mem_foldl_pushDistinct {α : Type} [DecidableEq α] {l xs : List α} {y : α} :
    y ∈ xs.foldl pushDistinct l ↔ y ∈ l ∨ y ∈ xs := by
  induction xs generalizing l with
  | nil => simp
  | cons x xs ih =>
      rw [List.foldl_cons, ih, mem_pushDistinct, List.mem_cons, or_assoc]

namespace ExposeAllocation

variable {a b : ExposeAllocation} {l : ExposeListener}

theorem covers_iff : a.covers l = true ↔
    a.address = l.address ∧ a.protocol = l.protocol ∧ a.firstPort ≤ l.port ∧
      l.port ≤ a.lastPort := by
  simp [covers, and_assoc]

/-- A socket is in both allocations where it is in their overlap. -/
theorem covers_overlap :
    (∃ r, a.overlap b = some r ∧ r.covers l = true) ↔ a.covers l = true ∧ b.covers l = true := by
  simp only [covers_iff, overlap]
  constructor
  · rintro ⟨r, hr, haddress, hprotocol, hfirst, hlast⟩
    split at hr
    · next hsame =>
        obtain rfl := Option.some.inj hr
        have hle := Nat.max_le.mp hfirst
        have hge := Nat.le_min.mp hlast
        exact ⟨⟨haddress, hprotocol, hle.1, hge.1⟩,
          hsame.1.symm.trans haddress, hsame.2.1.symm.trans hprotocol, hle.2, hge.2⟩
    · cases hr
  · rintro ⟨⟨haddress, hprotocol, hfirst, hlast⟩, haddress', hprotocol', hfirst', hlast'⟩
    have hmax : max a.firstPort b.firstPort ≤ l.port := Nat.max_le.mpr ⟨hfirst, hfirst'⟩
    have hmin : l.port ≤ min a.lastPort b.lastPort := Nat.le_min.mpr ⟨hlast, hlast'⟩
    rw [if_pos ⟨haddress.trans haddress'.symm, hprotocol.trans hprotocol'.symm, hmax.trans hmin⟩]
    exact ⟨_, rfl, haddress, hprotocol, hmax, hmin⟩

end ExposeAllocation

namespace ExposePolicy

theorem mem_foldl_overlap {a r : ExposeAllocation} {found others : List ExposeAllocation} :
    r ∈ others.foldl (fun found b => ((a.overlap b).map (pushDistinct found)).getD found) found ↔
      r ∈ found ∨ ∃ b ∈ others, a.overlap b = some r := by
  induction others generalizing found with
  | nil => simp
  | cons b rest ih =>
      rw [List.foldl_cons, ih, List.exists_mem_cons_iff]
      cases hover : a.overlap b with
      | none => simp
      | some r' =>
          rw [Option.map_some, Option.getD_some, mem_pushDistinct, or_assoc, Option.some.injEq,
            eq_comm (a := r)]

theorem mem_sharedAllocations {r : ExposeAllocation} {own others : List ExposeAllocation} :
    r ∈ sharedAllocations own others ↔ ∃ a ∈ own, ∃ b ∈ others, a.overlap b = some r := by
  suffices hfold : ∀ found : List ExposeAllocation,
      r ∈ own.foldl (fun found a =>
        others.foldl (fun found b => ((a.overlap b).map (pushDistinct found)).getD found)
          found) found ↔
        r ∈ found ∨ ∃ a ∈ own, ∃ b ∈ others, a.overlap b = some r by
    rw [sharedAllocations, hfold]
    simp
  induction own with
  | nil => simp
  | cons a rest ih =>
      intro found
      rw [List.foldl_cons, ih, mem_foldl_overlap, or_assoc, List.exists_mem_cons_iff]

variable {policy other child : ExposePolicy} {spec : ExposeSpec}

theorem allows_iff : policy.allows spec = true ↔
    spec.orgId = policy.orgId ∧ (∃ a ∈ policy.allocations, a.covers spec.listener = true) ∧
      ∀ p ∈ policy.reserved, p.conflictsWith spec.listener = false := by
  simp [allows, ExposeAllocation.covers, and_assoc]

/-! ## Narrower policies -/

/-- A policy gives nothing another does not. -/
structure Narrower (child policy : ExposePolicy) : Prop where
  org : child.orgId = policy.orgId
  allows : ∀ spec, child.allows spec = true → policy.allows spec = true
  rules : child.maxRules ≤ policy.maxRules
  tcp : child.maxTcpConnections ≤ policy.maxTcpConnections
  udp : child.maxUdpSessions ≤ policy.maxUdpSessions
  ingress : child.ingressBytesPerSecond ≤ policy.ingressBytesPerSecond
  egress : child.egressBytesPerSecond ≤ policy.egressBytesPerSecond

/-- A wider policy charges a specification what a narrower one does. -/
theorem Narrower.charge (h : child.Narrower policy) {t u : ExposeTotals}
    (hcharge : child.charge t spec = some u) : policy.charge t spec = some u := by
  simp only [ExposePolicy.charge, h.org] at hcharge ⊢
  split at hcharge
  · rw [if_pos ‹_›]
    exact hcharge
  · next hown =>
      rw [if_neg hown]
      split at hcharge
      · cases hcharge
      · next hallowed =>
          have hallows : policy.allows spec = true := h.allows spec (by simpa using hallowed)
          rw [hallows]
          exact hcharge

theorem Narrower.foldlM_charge (h : child.Narrower policy) {specs : List ExposeSpec}
    {t u : ExposeTotals} (hfold : specs.foldlM child.charge t = some u) :
    specs.foldlM policy.charge t = some u := by
  induction specs generalizing t with
  | nil => exact hfold
  | cons spec rest ih =>
      obtain ⟨v, hv, hrest⟩ := Option.bind_eq_some_iff.mp hfold
      exact Option.bind_eq_some_iff.mpr ⟨v, h.charge hv, ih hrest⟩

theorem Narrower.within (h : child.Narrower policy) {t : ExposeTotals}
    (hwithin : child.within t = true) : policy.within t = true := by
  simp only [ExposePolicy.within, Bool.and_eq_true, decide_eq_true_eq] at hwithin ⊢
  obtain ⟨⟨⟨⟨hrules, htcp⟩, hudp⟩, hup⟩, hdown⟩ := hwithin
  exact ⟨⟨⟨⟨hrules.trans h.rules, htcp.trans h.tcp⟩, hudp.trans h.udp⟩, hup.trans h.ingress⟩,
    hdown.trans h.egress⟩

/-- What fits a policy fits every wider one. -/
theorem Narrower.fits (h : child.Narrower policy) {specs : List ExposeSpec}
    (hfits : child.fits specs = true) : policy.fits specs = true := by
  simp only [ExposePolicy.fits, Option.any_eq_true] at hfits ⊢
  obtain ⟨u, hu, hwithin⟩ := hfits
  exact ⟨u, h.foldlM_charge hu, h.within hwithin⟩

/-! ## Both operations narrow -/

/-- The overlaps cover what both policies cover. -/
theorem covers_sharedAllocations {own others : List ExposeAllocation} {l : ExposeListener} :
    (∃ r ∈ sharedAllocations own others, r.covers l = true) ↔
      (∃ a ∈ own, a.covers l = true) ∧ ∃ b ∈ others, b.covers l = true := by
  constructor
  · rintro ⟨r, hr, hcovers⟩
    obtain ⟨a, ha, b, hb, hover⟩ := mem_sharedAllocations.mp hr
    obtain ⟨hl, hr⟩ := ExposeAllocation.covers_overlap.mp ⟨r, hover, hcovers⟩
    exact ⟨⟨a, ha, hl⟩, b, hb, hr⟩
  · rintro ⟨⟨a, ha, hl⟩, b, hb, hr⟩
    obtain ⟨r, hover, hcovers⟩ := ExposeAllocation.covers_overlap.mpr ⟨hl, hr⟩
    exact ⟨r, mem_sharedAllocations.mpr ⟨a, ha, b, hb, hover⟩, hcovers⟩

theorem allows_intersection_iff (horg : policy.orgId = other.orgId) (spec : ExposeSpec) :
    (policy.intersection other).allows spec = true ↔
      policy.allows spec = true ∧ other.allows spec = true := by
  have hreserved : (∀ p ∈ (policy.intersection other).reserved,
      p.conflictsWith spec.listener = false) ↔
      (∀ p ∈ policy.reserved, p.conflictsWith spec.listener = false) ∧
        ∀ p ∈ other.reserved, p.conflictsWith spec.listener = false := by
    simp only [intersection, mem_foldl_pushDistinct, or_imp, forall_and]
  rw [allows_iff, allows_iff, allows_iff, hreserved, ← horg]
  simp only [intersection, covers_sharedAllocations]
  tauto

theorem intersection_narrower_left (horg : policy.orgId = other.orgId) :
    (policy.intersection other).Narrower policy where
  org := rfl
  allows spec h := ((allows_intersection_iff horg spec).mp h).1
  rules := Nat.min_le_left _ _
  tcp := Nat.min_le_left _ _
  udp := Nat.min_le_left _ _
  ingress := Nat.min_le_left _ _
  egress := Nat.min_le_left _ _

theorem intersection_narrower_right (horg : policy.orgId = other.orgId) :
    (policy.intersection other).Narrower other where
  org := horg
  allows spec h := ((allows_intersection_iff horg spec).mp h).2
  rules := Nat.min_le_right _ _
  tcp := Nat.min_le_right _ _
  udp := Nat.min_le_right _ _
  ingress := Nat.min_le_right _ _
  egress := Nat.min_le_right _ _

/-- An allocation handed on is part of the one it is cut from. -/
theorem Narrower.of_contains (h : policy.contains child = true) : child.Narrower policy := by
  simp only [contains, Bool.and_eq_true, beq_iff_eq, decide_eq_true_eq, List.all_eq_true,
    List.any_eq_true] at h
  obtain ⟨⟨⟨⟨⟨⟨⟨horg, hrules⟩, htcp⟩, hudp⟩, hup⟩, hdown⟩, hreserved⟩, hallocations⟩ := h
  refine ⟨horg.symm, fun spec hallows => ?_, hrules, htcp, hudp, hup, hdown⟩
  obtain ⟨hown, ⟨c, hc, hcovers⟩, hfree⟩ := allows_iff.mp hallows
  obtain ⟨a, ha, ⟨⟨haddress, hprotocol⟩, hfirst⟩, hlast⟩ := hallocations c hc
  obtain ⟨hl, hp, hlow, hhigh⟩ := ExposeAllocation.covers_iff.mp hcovers
  refine allows_iff.mpr ⟨hown.trans horg.symm, ⟨a, ha, ExposeAllocation.covers_iff.mpr ?_⟩, ?_⟩
  · exact ⟨haddress.trans hl, hprotocol.trans hp, hfirst.trans hlow, hhigh.trans hlast⟩
  · exact fun p hp => hfree p (hreserved p hp)

/-- **Delegation narrows.** The intersection of two policies of one
organization allows what both allow, and what fits it fits both; what a
contained policy allows its parent allows, no ceiling of it is higher, and
what fits it fits the parent. -/
theorem delegation_narrows (policy other : ExposePolicy) (spec : ExposeSpec)
    (specs : List ExposeSpec) :
    (policy.orgId = other.orgId →
      ((policy.intersection other).allows spec = true ↔
        policy.allows spec = true ∧ other.allows spec = true) ∧
      ((policy.intersection other).fits specs = true →
        policy.fits specs = true ∧ other.fits specs = true)) ∧
    (policy.contains other = true →
      other.Narrower policy ∧ (other.allows spec = true → policy.allows spec = true) ∧
      (other.fits specs = true → policy.fits specs = true)) := by
  refine ⟨fun horg => ⟨allows_intersection_iff horg spec, fun hfits => ?_⟩, fun hcontains => ?_⟩
  · exact ⟨(intersection_narrower_left horg).fits hfits,
      (intersection_narrower_right horg).fits hfits⟩
  · have hnarrower := Narrower.of_contains hcontains
    exact ⟨hnarrower, hnarrower.allows spec, hnarrower.fits⟩

/-- Everything on one address, of which a part is handed on. -/
def acmePolicy (first last rules : Nat) : ExposePolicy where
  orgId := "acme"
  revision := 1
  allocations := [⟨.v4 0#32, .tcp, first, last⟩]
  maxRules := rules
  maxTcpConnections := 100
  maxUdpSessions := 0
  ingressBytesPerSecond := 1000
  egressBytesPerSecond := 1000

def acmeSpec : ExposeSpec where
  orgId := "acme"
  tunnel := "db"
  listener := ⟨.v4 0#32, 5000, .tcp⟩
  enabled := true
  limits := .tcp 10 5 5 100 100

theorem delegation_narrows_acme :
    ((acmePolicy 4000 6000 2).intersection (acmePolicy 5000 7000 3)).fits [acmeSpec] = true ∧
      (acmePolicy 4000 6000 2).fits [acmeSpec] = true ∧
      (acmePolicy 5000 7000 3).fits [acmeSpec] = true ∧
      (acmePolicy 4000 7000 3).allows acmeSpec = true := by
  have hshared :
      ((acmePolicy 4000 6000 2).intersection (acmePolicy 5000 7000 3)).fits [acmeSpec] = true := by
    decide
  obtain ⟨hleft, hright⟩ := ((delegation_narrows (acmePolicy 4000 6000 2) (acmePolicy 5000 7000 3)
    acmeSpec [acmeSpec]).1 rfl).2 hshared
  have hchild : (acmePolicy 4000 7000 3).contains (acmePolicy 4000 6000 2) = true := by decide
  have hparent := (delegation_narrows (acmePolicy 4000 7000 3) (acmePolicy 4000 6000 2)
    acmeSpec [acmeSpec]).2 hchild
  exact ⟨hshared, hleft, hright, hparent.2.1 (by decide)⟩

end ExposePolicy

end Aperio
