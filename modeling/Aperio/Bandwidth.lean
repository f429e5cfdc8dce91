import Mathlib.Algebra.GroupWithZero.Nat
import Mathlib.Algebra.BigOperators.Group.List.Basic
import Mathlib.Algebra.Order.BigOperators.Group.List
import Mathlib.Algebra.Order.Group.Nat
import Mathlib.Data.List.Dedup
import Mathlib.Data.List.Sort

/-!
# The bandwidth budget

`allocate_bandwidth` of the client settles what each service asked for against
the budget of the whole file and hands every parallel connection its share;
`settle_multiplexed_bandwidth` then makes the services of one connection
announce one rate, their sum, since the server shapes the socket.

A rate is a `u64`. The sum of the rates that were asked for answers `none`
where it would not be one. The notes both functions leave for the dashboard
are left out.
-/

namespace Aperio

/-- What the two functions read of a service. -/
structure BandwidthSpec where
  /-- What it asked for, and then what one connection of it announces. -/
  bandwidthBps : Option Nat
  connections : Nat
  multiplexGroup : Option Nat := none
  /-- A pool has a connection. -/
  connected : 0 < connections := by decide
deriving DecidableEq

namespace BandwidthSpec

def withRate (s : BandwidthSpec) (rate : Option Nat) : BandwidthSpec :=
  { s with bandwidthBps := rate }

@[simp] theorem withRate_bandwidthBps (s : BandwidthSpec) (rate : Option Nat) :
    (s.withRate rate).bandwidthBps = rate := rfl

@[simp] theorem withRate_connections (s : BandwidthSpec) (rate : Option Nat) :
    (s.withRate rate).connections = s.connections := rfl

@[simp] theorem withRate_multiplexGroup (s : BandwidthSpec) (rate : Option Nat) :
    (s.withRate rate).multiplexGroup = s.multiplexGroup := rfl

end BandwidthSpec

/-! ## The budget -/

def maxRate : Nat := 18446744073709551615

def ratesAsked (specs : List BandwidthSpec) : Nat :=
  (specs.filterMap (·.bandwidthBps)).sum

def unspecifiedCount (specs : List BandwidthSpec) : Nat :=
  specs.countP fun s => s.bandwidthBps.isNone

/-- What each service gets of the budget. -/
def settleBudget (specs : List BandwidthSpec) (budget : Nat) : Option (List BandwidthSpec) :=
  let asked := ratesAsked specs
  let unspecified := unspecifiedCount specs
  if maxRate < asked then none
  else if 0 < unspecified ∧ budget ≤ asked then
    -- nothing would be left for the others: the named rates are dropped
    some (specs.map fun s => s.withRate (some (budget / specs.length)))
  else if unspecified = 0 ∧ budget < asked then
    some (specs.map fun s => s.withRate (some (s.bandwidthBps.getD 0 * budget / asked)))
  else if 0 < unspecified then
    some (specs.map fun s =>
      if s.bandwidthBps.isNone then s.withRate (some ((budget - asked) / unspecified)) else s)
  else some specs

/-- A share is split over the parallel connections. Zero is never announced:
the server reads it as unlimited. -/
def splitRate (s : BandwidthSpec) : BandwidthSpec :=
  s.withRate (s.bandwidthBps.map fun bps => max (bps / s.connections) 1)

def allocateBandwidth (specs : List BandwidthSpec) (budget : Option Nat) :
    Option (List BandwidthSpec) :=
  if specs.isEmpty then some specs
  else
    let settled := match budget with
      | some budget => settleBudget specs budget
      | none => some specs
    settled.map (List.map splitRate)

/-! ## Groups -/

def inGroup (group : Nat) (s : BandwidthSpec) : Bool :=
  s.multiplexGroup == some group

def saturatingSum (rates : List Nat) : Nat :=
  rates.foldl (fun acc n => min (acc + n) maxRate) 0

def settleGroup (specs : List BandwidthSpec) (group : Nat) : List BandwidthSpec :=
  let declared := (specs.filter (inGroup group)).map (·.bandwidthBps)
  if declared.all (·.isNone) then specs
  else
    let total := if declared.all (·.isSome) then some (saturatingSum (declared.filterMap id))
      -- a member without a limit lifts it for the connection
      else none
    specs.map fun s => if inGroup group s then s.withRate total else s

def multiplexGroups (specs : List BandwidthSpec) : List Nat :=
  ((specs.filterMap (·.multiplexGroup)).insertionSort (· ≤ ·)).dedup

def settleMultiplexedBandwidth (specs : List BandwidthSpec) : List BandwidthSpec :=
  (multiplexGroups specs).foldl settleGroup specs

/-- Both, in the order a configuration goes through them. -/
def announceBandwidth (specs : List BandwidthSpec) (budget : Option Nat) :
    Option (List BandwidthSpec) :=
  (allocateBandwidth specs budget).map settleMultiplexedBandwidth

/-! ## Shares of the budget -/

def ratesSum (specs : List BandwidthSpec) : Nat :=
  (specs.map fun s => s.bandwidthBps.getD 0).sum

theorem ratesAsked_eq (specs : List BandwidthSpec) : ratesAsked specs = ratesSum specs := by
  unfold ratesAsked ratesSum
  induction specs with
  | nil => rfl
  | cons s specs ih =>
      cases h : s.bandwidthBps with
      | none => simp [h, ih]
      | some rate => simp [h, ih]

/-- Parts of a budget in proportion to what was asked. -/
theorem proportional_le (specs : List BandwidthSpec) (budget asked : Nat) :
    (specs.map fun s => s.bandwidthBps.getD 0 * budget / asked).sum ≤
      ratesSum specs * budget / asked := by
  unfold ratesSum
  induction specs with
  | nil => simp
  | cons s specs ih =>
      simp only [List.map_cons, List.sum_cons, Nat.add_mul]
      exact (Nat.add_le_add_left ih _).trans Nat.div_add_div_le_add_div

/-- What was named, and one share for each service that named nothing. -/
theorem shared_sum (specs : List BandwidthSpec) (share : Nat) :
    ratesSum (specs.map fun s =>
        if s.bandwidthBps.isNone then s.withRate (some share) else s) =
      ratesSum specs + unspecifiedCount specs * share := by
  unfold ratesSum unspecifiedCount
  induction specs with
  | nil => simp
  | cons s specs ih =>
      simp only [List.map_cons, List.sum_cons, ih]
      cases h : s.bandwidthBps with
      | none =>
          simp [h, Nat.add_mul]
          omega
      | some rate =>
          simp [h]
          omega

/-- **The budget is not exceeded**, whichever way it is settled, and every
service has a rate. -/
theorem settleBudget_spec {specs : List BandwidthSpec} {budget : Nat}
    (hasked : ratesAsked specs ≤ maxRate) :
    ∃ settled, settleBudget specs budget = some settled ∧ ratesSum settled ≤ budget ∧
      (∀ s ∈ settled, s.bandwidthBps.isSome) ∧
      settled.map (·.connections) = specs.map (·.connections) ∧
      settled.map (·.multiplexGroup) = specs.map (·.multiplexGroup) := by
  unfold settleBudget
  dsimp only
  rw [if_neg (Nat.not_lt.mpr hasked)]
  split
  · refine ⟨_, rfl, ?_, ?_, ?_, ?_⟩
    · have hshare : specs.length * (budget / specs.length) ≤ budget :=
        Nat.mul_div_le budget specs.length
      simpa [ratesSum, Function.comp_def] using hshare
    · simp
    · simp
    · simp
  · split
    · rename_i hover
      refine ⟨_, rfl, ?_, ?_, ?_, ?_⟩
      · have hparts := proportional_le specs budget (ratesAsked specs)
        rw [← ratesAsked_eq, Nat.mul_div_cancel_left _ (by omega)] at hparts
        simpa [ratesSum, Function.comp_def] using hparts
      · simp
      · simp
      · simp
    · split
      · rename_i hdrop hscale hsome
        refine ⟨_, rfl, ?_, ?_, ?_, ?_⟩
        · rw [shared_sum, ← ratesAsked_eq]
          have hshare := Nat.mul_div_le (budget - ratesAsked specs) (unspecifiedCount specs)
          omega
        · intro s hs
          obtain ⟨s', -, rfl⟩ := List.mem_map.mp hs
          cases h : s'.bandwidthBps <;> simp [h]
        · rw [List.map_map]
          refine List.map_congr_left fun s _ => ?_
          dsimp only [Function.comp_apply]
          split <;> rfl
        · rw [List.map_map]
          refine List.map_congr_left fun s _ => ?_
          dsimp only [Function.comp_apply]
          split <;> rfl
      · rename_i hdrop hscale hnone
        refine ⟨specs, rfl, ?_, ?_, rfl, rfl⟩
        · rw [← ratesAsked_eq]
          omega
        · intro s hs
          have hzero : unspecifiedCount specs = 0 := by omega
          have hnot := List.countP_eq_zero.mp hzero s hs
          cases h : s.bandwidthBps with
          | none => rw [h] at hnot; simp at hnot
          | some rate => rfl

/-! ## Settling the groups -/

/-- The rate of a group: the sum, unless a member has none. -/
def groupRate (specs : List BandwidthSpec) (group : Nat) : Option Nat :=
  let declared := (specs.filter (inGroup group)).map (·.bandwidthBps)
  if declared.all (·.isSome) then some (saturatingSum (declared.filterMap id)) else none

theorem settleGroup_eq (specs : List BandwidthSpec) (group : Nat) :
    settleGroup specs group =
      specs.map fun s => if inGroup group s then s.withRate (groupRate specs group) else s := by
  unfold settleGroup groupRate
  dsimp only
  split
  · rename_i hnone
    rw [List.all_map, List.all_eq_true] at hnone
    have hsame : ∀ s ∈ specs, (if inGroup group s then s.withRate
        (if (((specs.filter (inGroup group)).map (·.bandwidthBps)).all (·.isSome)) = true then
          some (saturatingSum (((specs.filter (inGroup group)).map (·.bandwidthBps)).filterMap id))
        else none) else s) = s := by
      intro s hs
      split
      · rename_i hin
        have hbw : s.bandwidthBps = none := by
          simpa using hnone s (List.mem_filter.mpr ⟨hs, hin⟩)
        rw [if_neg]
        · cases s
          simp only [BandwidthSpec.withRate] at hbw ⊢
          rw [hbw]
        · intro hall
          have hsome := List.all_eq_true.mp hall none
            (List.mem_map.mpr ⟨s, List.mem_filter.mpr ⟨hs, hin⟩, hbw⟩)
          cases hsome
      · rfl
    exact (List.map_congr_left hsame).trans (List.map_id _) |>.symm
  · rfl

/-- What a service announces in the end. -/
def settledSpec (specs : List BandwidthSpec) (groups : List Nat) (s : BandwidthSpec) :
    BandwidthSpec :=
  match s.multiplexGroup with
  | some group => if group ∈ groups then s.withRate (groupRate specs group) else s
  | none => s

theorem inGroup_iff {group : Nat} {s : BandwidthSpec} :
    inGroup group s = true ↔ s.multiplexGroup = some group := by
  simp [inGroup]

/-- Settling one group leaves the others' members as they were. -/
theorem groupRate_settleGroup {specs : List BandwidthSpec} {group other : Nat}
    (h : other ≠ group) : groupRate (settleGroup specs group) other = groupRate specs other := by
  have hsame : ((settleGroup specs group).filter (inGroup other)).map (·.bandwidthBps) =
      (specs.filter (inGroup other)).map (·.bandwidthBps) := by
    rw [settleGroup_eq]
    generalize groupRate specs group = rate
    induction specs with
    | nil => rfl
    | cons s specs ih =>
        rw [List.map_cons]
        by_cases hin : inGroup group s = true
        · have hout : inGroup other s = false := by
            rw [inGroup_iff] at hin
            simp [inGroup, hin, Ne.symm h]
          have hout' : inGroup other (s.withRate rate) = false := hout
          rw [if_pos hin, List.filter_cons_of_neg (by rw [hout']; decide),
            List.filter_cons_of_neg (by rw [hout]; decide), ih]
        · rw [if_neg hin]
          by_cases ho : inGroup other s = true
          · rw [List.filter_cons_of_pos ho, List.filter_cons_of_pos ho, List.map_cons,
              List.map_cons, ih]
          · rw [List.filter_cons_of_neg ho, List.filter_cons_of_neg ho, ih]
  unfold groupRate
  dsimp only
  rw [hsame]

theorem foldl_settleGroup {groups : List Nat} (hnodup : groups.Nodup)
    (specs : List BandwidthSpec) :
    groups.foldl settleGroup specs = specs.map (settledSpec specs groups) := by
  induction groups generalizing specs with
  | nil =>
      have hsame : ∀ s, settledSpec specs [] s = s := by
        intro s
        unfold settledSpec
        split
        · simp
        · rfl
      exact ((List.map_congr_left fun s _ => hsame s).trans (List.map_id _)).symm
  | cons group groups ih =>
      obtain ⟨hnot, hrest⟩ := List.nodup_cons.mp hnodup
      rw [List.foldl_cons, ih hrest]
      nth_rewrite 2 [settleGroup_eq]
      rw [List.map_map]
      refine List.map_congr_left fun s _ => ?_
      dsimp only [Function.comp_apply]
      cases hg : s.multiplexGroup with
      | none =>
          have hout : ¬inGroup group s = true := by simp [inGroup, hg]
          rw [if_neg hout]
          simp [settledSpec, hg]
      | some g =>
          by_cases hsame : g = group
          · subst hsame
            have hin : inGroup g s = true := inGroup_iff.mpr hg
            rw [if_pos hin]
            simp [settledSpec, hg, hnot]
          · have hout : ¬inGroup group s = true := by simp [inGroup, hg, hsame]
            rw [if_neg hout]
            simp only [settledSpec, hg, List.mem_cons, hsame, false_or]
            rw [groupRate_settleGroup hsame]

theorem mem_multiplexGroups {specs : List BandwidthSpec} {group : Nat} :
    group ∈ multiplexGroups specs ↔ ∃ s ∈ specs, s.multiplexGroup = some group := by
  simp [multiplexGroups]

/-- **Settled groups.** A service of a group announces the group's rate. -/
theorem settleMultiplexedBandwidth_eq (specs : List BandwidthSpec) :
    settleMultiplexedBandwidth specs = specs.map fun s =>
      match s.multiplexGroup with
      | some group => s.withRate (groupRate specs group)
      | none => s := by
  have hnodup : (multiplexGroups specs).Nodup := List.nodup_dedup _
  rw [settleMultiplexedBandwidth, foldl_settleGroup hnodup]
  refine List.map_congr_left fun s hs => ?_
  unfold settledSpec
  cases hg : s.multiplexGroup with
  | none => rfl
  | some group =>
      dsimp only
      rw [if_pos (mem_multiplexGroups.mpr ⟨s, hs, hg⟩)]

/-! ## What is announced on each connection -/

/-- The rate a group announces on its connection. -/
def connectionRate (announced : List BandwidthSpec) (group : Nat) : Nat :=
  ((announced.find? (inGroup group)).bind (·.bandwidthBps)).getD 0

/-- The rates of all tunnel connections: one for each group, and `connections`
for every other service. -/
def tunnelSum (announced : List BandwidthSpec) : Nat :=
  ((announced.filter fun s => s.multiplexGroup.isNone).map fun s =>
      s.connections * s.bandwidthBps.getD 0).sum +
    ((multiplexGroups announced).map (connectionRate announced)).sum

/-- The connections of the services, a service of a group having one. -/
def slack (specs : List BandwidthSpec) : Nat :=
  (specs.map fun s => if s.multiplexGroup.isNone then s.connections else 1).sum

theorem foldl_saturating_le (rates : List Nat) (acc : Nat) :
    rates.foldl (fun acc n => min (acc + n) maxRate) acc ≤ acc + rates.sum := by
  induction rates generalizing acc with
  | nil => simp
  | cons n rates ih =>
      rw [List.foldl_cons, List.sum_cons]
      have hstep := ih (min (acc + n) maxRate)
      have hmin := min_le_left (acc + n) maxRate
      omega

theorem le_foldl_saturating (rates : List Nat) (acc : Nat) (hacc : acc ≤ maxRate) :
    acc ≤ rates.foldl (fun acc n => min (acc + n) maxRate) acc := by
  induction rates generalizing acc with
  | nil => exact Nat.le_refl acc
  | cons n rates ih =>
      rw [List.foldl_cons]
      have hstep := ih (min (acc + n) maxRate) (min_le_right _ _)
      have hmin : acc ≤ min (acc + n) maxRate := le_min (by omega) hacc
      exact hmin.trans hstep

theorem one_le_saturating {rates : List Nat} {n : Nat} (hn : n ∈ rates) (hone : 1 ≤ n)
    (acc : Nat) : 1 ≤ rates.foldl (fun acc n => min (acc + n) maxRate) acc := by
  induction rates generalizing acc with
  | nil => exact absurd hn List.not_mem_nil
  | cons m rates ih =>
      rw [List.foldl_cons]
      rcases List.mem_cons.mp hn with rfl | hn
      · have hfirst : 1 ≤ min (acc + n) maxRate := le_min (by omega) (by decide)
        exact hfirst.trans (le_foldl_saturating rates _ (min_le_right _ _))
      · exact ih hn _

/-- The members of a group and their rates. -/
def memberSum (specs : List BandwidthSpec) (group : Nat) : Nat :=
  ((specs.filter (inGroup group)).map fun s => s.bandwidthBps.getD 0).sum

theorem groupRate_le {specs : List BandwidthSpec} {group rate : Nat}
    (h : groupRate specs group = some rate) : rate ≤ memberSum specs group := by
  unfold groupRate at h
  dsimp only at h
  split at h
  · obtain rfl := Option.some.inj h
    have hsum : ∀ l : List BandwidthSpec, ((l.map (·.bandwidthBps)).filterMap id).sum =
        (l.map fun s => s.bandwidthBps.getD 0).sum := by
      intro l
      rw [List.filterMap_map]
      exact ratesAsked_eq l
    have hle := foldl_saturating_le
      (((specs.filter (inGroup group)).map (·.bandwidthBps)).filterMap id) 0
    rw [hsum, Nat.zero_add] at hle
    exact hle
  · cases h

/-- Each grouped service belongs to one group. -/
theorem memberSums_le {groups : List Nat} (hnodup : groups.Nodup) (specs : List BandwidthSpec) :
    (groups.map (memberSum specs)).sum ≤
      (specs.map fun s => if s.multiplexGroup.isNone then 0 else s.bandwidthBps.getD 0).sum := by
  induction specs with
  | nil =>
      refine Nat.le_of_eq (List.sum_eq_zero fun n hn => ?_)
      obtain ⟨g, -, rfl⟩ := List.mem_map.mp hn
      rfl
  | cons s specs ih =>
      have hsplit : ∀ g, memberSum (s :: specs) g =
          (if inGroup g s then s.bandwidthBps.getD 0 else 0) + memberSum specs g := by
        intro g
        unfold memberSum
        by_cases hin : inGroup g s = true
        · simp [hin]
        · simp [hin]
      have hone : ∀ gs : List Nat, gs.Nodup →
          (gs.map fun g => if inGroup g s then s.bandwidthBps.getD 0 else 0).sum ≤
            if s.multiplexGroup.isNone then 0 else s.bandwidthBps.getD 0 := by
        intro gs hgs
        induction gs with
        | nil => simp
        | cons g gs ih =>
            obtain ⟨hnot, hrest⟩ := List.nodup_cons.mp hgs
            by_cases hin : inGroup g s = true
            · have hzero : ∀ g' ∈ gs, inGroup g' s = false := by
                intro g' hg'
                rw [inGroup_iff] at hin
                have hne : g ≠ g' := fun he => hnot (he ▸ hg')
                simp [inGroup, hin, hne]
              have hrestSum : (gs.map fun g =>
                  if inGroup g s then s.bandwidthBps.getD 0 else 0).sum = 0 := by
                refine List.sum_eq_zero fun n hn => ?_
                obtain ⟨g', hg', rfl⟩ := List.mem_map.mp hn
                rw [if_neg (by rw [hzero g' hg']; decide)]
              have hgrouped := inGroup_iff.mp hin
              simp [hin, hrestSum, hgrouped]
            · simpa [hin] using ih hrest
      have hmap : groups.map (memberSum (s :: specs)) = groups.map fun g =>
          (if inGroup g s then s.bandwidthBps.getD 0 else 0) + memberSum specs g :=
        List.map_congr_left fun g _ => hsplit g
      rw [hmap, List.sum_map_add, List.map_cons, List.sum_cons]
      exact Nat.add_le_add (hone groups hnodup) ih

/-- What a service's connections carry before the groups are settled. -/
def carriedRate (s : BandwidthSpec) : Nat :=
  if s.multiplexGroup.isNone then s.connections * s.bandwidthBps.getD 0
  else s.bandwidthBps.getD 0

theorem settled_multiplexGroup (specs : List BandwidthSpec) :
    (settleMultiplexedBandwidth specs).map (·.multiplexGroup) = specs.map (·.multiplexGroup) := by
  rw [settleMultiplexedBandwidth_eq, List.map_map]
  refine List.map_congr_left fun s _ => ?_
  dsimp only [Function.comp_apply]
  split <;> rfl

theorem multiplexGroups_congr {specs specs' : List BandwidthSpec}
    (h : specs'.map (·.multiplexGroup) = specs.map (·.multiplexGroup)) :
    multiplexGroups specs' = multiplexGroups specs := by
  have hread : ∀ l : List BandwidthSpec,
      l.filterMap (·.multiplexGroup) = (l.map (·.multiplexGroup)).filterMap id := by
    intro l
    rw [List.filterMap_map]
    rfl
  rw [multiplexGroups, multiplexGroups, hread, hread, h]

theorem settled_filter (specs : List BandwidthSpec) :
    (settleMultiplexedBandwidth specs).filter (fun s => s.multiplexGroup.isNone) =
      specs.filter fun s => s.multiplexGroup.isNone := by
  rw [settleMultiplexedBandwidth_eq]
  generalize hrates : groupRate specs = rates
  clear hrates
  induction specs with
  | nil => rfl
  | cons s specs ih =>
      rw [List.map_cons]
      cases hg : s.multiplexGroup with
      | none =>
          rw [List.filter_cons_of_pos (by simp [hg]), List.filter_cons_of_pos (by simp [hg]), ih]
      | some group =>
          rw [List.filter_cons_of_neg (by simp [hg]), List.filter_cons_of_neg (by simp [hg]), ih]

theorem connectionRate_le (specs : List BandwidthSpec) (group : Nat) :
    connectionRate (settleMultiplexedBandwidth specs) group ≤ memberSum specs group := by
  unfold connectionRate
  cases hfind : (settleMultiplexedBandwidth specs).find? (inGroup group) with
  | none => exact Nat.zero_le _
  | some s =>
      have hin := inGroup_iff.mp (List.find?_some hfind)
      have hmem := List.mem_of_find?_eq_some hfind
      rw [settleMultiplexedBandwidth_eq] at hmem
      obtain ⟨s', -, rfl⟩ := List.mem_map.mp hmem
      cases hg : s'.multiplexGroup with
      | none =>
          simp only [hg] at hin
          cases hin
      | some g =>
          simp only [hg, BandwidthSpec.withRate_multiplexGroup] at hin
          obtain rfl := Option.some.inj hin
          simp only [Option.bind_some, BandwidthSpec.withRate_bandwidthBps]
          cases hrate : groupRate specs g with
          | none => exact Nat.zero_le _
          | some rate => exact groupRate_le hrate

/-- Settling the groups adds nothing to what the services carried. -/
theorem tunnelSum_le (specs : List BandwidthSpec) :
    tunnelSum (settleMultiplexedBandwidth specs) ≤ (specs.map carriedRate).sum := by
  have hgroups : ((multiplexGroups specs).map
      (connectionRate (settleMultiplexedBandwidth specs))).sum ≤
        (specs.map fun s => if s.multiplexGroup.isNone then 0 else s.bandwidthBps.getD 0).sum := by
    have hnodup : (multiplexGroups specs).Nodup := List.nodup_dedup _
    exact (List.sum_le_sum fun g _ => connectionRate_le specs g).trans (memberSums_le hnodup specs)
  have hsplit : ((specs.filter fun s => s.multiplexGroup.isNone).map fun s =>
      s.connections * s.bandwidthBps.getD 0).sum +
        (specs.map fun s => if s.multiplexGroup.isNone then 0 else s.bandwidthBps.getD 0).sum =
      (specs.map carriedRate).sum := by
    clear hgroups
    induction specs with
    | nil => rfl
    | cons s specs ih =>
        rw [List.map_cons, List.map_cons, List.sum_cons, List.sum_cons, ← ih]
        by_cases hnone : s.multiplexGroup.isNone = true
        · rw [List.filter_cons_of_pos (p := fun s : BandwidthSpec => s.multiplexGroup.isNone) hnone,
            List.map_cons, List.sum_cons]
          simp only [carriedRate, hnone, if_true]
          omega
        · rw [List.filter_cons_of_neg (p := fun s : BandwidthSpec => s.multiplexGroup.isNone) hnone]
          simp only [carriedRate, if_neg hnone]
          omega
  rw [tunnelSum, settled_filter, multiplexGroups_congr (settled_multiplexGroup specs), ← hsplit]
  exact Nat.add_le_add_left hgroups _

/-- The floor of one costs a connection at most one. -/
theorem carriedRate_splitRate_le (s : BandwidthSpec) :
    carriedRate (splitRate s) ≤
      s.bandwidthBps.getD 0 + if s.multiplexGroup.isNone then s.connections else 1 := by
  obtain ⟨rate, connections, group, hconnected⟩ := s
  cases rate with
  | none => cases group <;> simp [carriedRate, splitRate]
  | some bps =>
      have hmul : connections * max (bps / connections) 1 ≤ bps + connections := by
        rcases Nat.le_total (bps / connections) 1 with h | h
        · rw [max_eq_right h]
          omega
        · rw [max_eq_left h]
          exact (Nat.mul_div_le bps connections).trans (Nat.le_add_right _ _)
      have hone : max (bps / connections) 1 ≤ bps + 1 := by
        have hdiv := Nat.div_le_self bps connections
        omega
      cases group with
      | none => simpa [carriedRate, splitRate] using hmul
      | some g => simpa [carriedRate, splitRate] using hone

theorem carriedSum_le (settled : List BandwidthSpec) :
    ((settled.map splitRate).map carriedRate).sum ≤ ratesSum settled + slack settled := by
  unfold ratesSum slack
  rw [List.map_map, ← List.sum_map_add]
  exact List.sum_le_sum fun s _ => carriedRate_splitRate_le s

/-! ## What is announced -/

/-- Every rate is at least one, and the members of a group announce the
same. -/
structure AnnouncedRates (announced : List BandwidthSpec) : Prop where
  positive : ∀ s ∈ announced, ∀ rate, s.bandwidthBps = some rate → 1 ≤ rate
  same : ∀ s ∈ announced, ∀ s' ∈ announced, s.multiplexGroup = s'.multiplexGroup →
    s.multiplexGroup.isSome → s.bandwidthBps = s'.bandwidthBps

theorem announced_settled {settled : List BandwidthSpec} :
    AnnouncedRates (settleMultiplexedBandwidth (settled.map splitRate)) := by
  have hone : ∀ s ∈ settled.map splitRate, ∀ rate, s.bandwidthBps = some rate → 1 ≤ rate := by
    intro s hs rate hrate
    obtain ⟨s', -, rfl⟩ := List.mem_map.mp hs
    obtain ⟨bps, -, rfl⟩ := Option.map_eq_some_iff.mp hrate
    exact le_max_right _ _
  rw [settleMultiplexedBandwidth_eq]
  constructor
  · intro s hs rate hrate
    obtain ⟨s', hs', rfl⟩ := List.mem_map.mp hs
    cases hg : s'.multiplexGroup with
    | none =>
        simp only [hg] at hrate
        exact hone s' hs' rate hrate
    | some group =>
        simp only [hg, BandwidthSpec.withRate_bandwidthBps] at hrate
        -- the member itself is a part of the sum
        unfold groupRate at hrate
        dsimp only at hrate
        split at hrate
        · rename_i hall
          obtain rfl := Option.some.inj hrate
          have hmember : s'.bandwidthBps ∈
              ((settled.map splitRate).filter (inGroup group)).map (·.bandwidthBps) :=
            List.mem_map.mpr ⟨s', List.mem_filter.mpr ⟨hs', inGroup_iff.mpr hg⟩, rfl⟩
          obtain ⟨own, hown⟩ := Option.isSome_iff_exists.mp (List.all_eq_true.mp hall _ hmember)
          refine one_le_saturating (n := own) ?_ (hone s' hs' own hown) 0
          exact List.mem_filterMap.mpr ⟨_, hmember, hown⟩
        · cases hrate
  · intro s hs s' hs' hgroup hsome
    obtain ⟨t, ht, rfl⟩ := List.mem_map.mp hs
    obtain ⟨t', ht', rfl⟩ := List.mem_map.mp hs'
    cases hg : t.multiplexGroup with
    | none =>
        simp only [hg] at hsome
        cases hsome
    | some group =>
        cases hg' : t'.multiplexGroup with
        | none =>
            simp only [hg, hg', BandwidthSpec.withRate_multiplexGroup] at hgroup
            cases hgroup
        | some group' =>
            simp only [hg, hg', BandwidthSpec.withRate_multiplexGroup, Option.some.injEq] at hgroup
            subst hgroup
            simp only [BandwidthSpec.withRate_bandwidthBps]

theorem slack_settled (specs : List BandwidthSpec) :
    slack (settleMultiplexedBandwidth specs) = slack specs := by
  rw [settleMultiplexedBandwidth_eq, slack, slack, List.map_map]
  congr 1
  refine List.map_congr_left fun s _ => ?_
  dsimp only [Function.comp_apply]
  split <;> rfl

theorem slack_split (specs : List BandwidthSpec) : slack (specs.map splitRate) = slack specs := by
  rw [slack, slack, List.map_map]
  rfl

/-- Where every service has a rate, it still has one as part of a group. -/
theorem settled_isSome {specs : List BandwidthSpec} (h : ∀ s ∈ specs, s.bandwidthBps.isSome) :
    ∀ s ∈ settleMultiplexedBandwidth specs, s.bandwidthBps.isSome := by
  intro s hs
  rw [settleMultiplexedBandwidth_eq] at hs
  obtain ⟨s', hs', rfl⟩ := List.mem_map.mp hs
  cases hg : s'.multiplexGroup with
  | none => exact h s' hs'
  | some group =>
      have hall : (((specs.filter (inGroup group)).map (·.bandwidthBps)).all (·.isSome)) =
          true := by
        rw [List.all_map, List.all_eq_true]
        intro t ht
        exact h t (List.mem_filter.mp ht).1
      simp only [BandwidthSpec.withRate_bandwidthBps, groupRate]
      rw [if_pos hall]
      rfl

/-- **The budget.** Whatever the rates, the pools and the groups: as long as the
rates that were asked for add up to a `u64`, every announced rate is at least
one, a group announces one rate, and all tunnel connections together announce
at most the budget and one more for each connection a service asked for or, in
a group, has. Without a budget a service of its own announces its rate over
its connections. -/
theorem bandwidth_within_budget (specs : List BandwidthSpec) (budget : Option Nat)
    (hasked : budget.isSome → ratesAsked specs ≤ maxRate) :
    ∃ announced, announceBandwidth specs budget = some announced ∧ AnnouncedRates announced ∧
      (∀ b, budget = some b → (∀ s ∈ announced, s.bandwidthBps.isSome) ∧
        tunnelSum announced ≤ b + slack announced) ∧
      (budget = none → announced.filter (fun s => s.multiplexGroup.isNone) =
        (specs.map splitRate).filter fun s => s.multiplexGroup.isNone) := by
  obtain ⟨settled, hsettled, hrates, hnone⟩ : ∃ settled,
      allocateBandwidth specs budget = some (settled.map splitRate) ∧
      (∀ b, budget = some b → ratesSum settled ≤ b ∧ (∀ s ∈ settled, s.bandwidthBps.isSome)) ∧
      (budget = none → settled = specs) := by
    unfold allocateBandwidth
    by_cases hempty : specs = []
    · subst hempty
      refine ⟨[], rfl, fun b _ => ⟨Nat.zero_le _, fun s hs => absurd hs List.not_mem_nil⟩,
        fun _ => rfl⟩
    · rw [if_neg (by simpa using hempty)]
      cases budget with
      | none => exact ⟨specs, rfl, nofun, fun _ => rfl⟩
      | some b =>
          obtain ⟨settled, hsettled, hsum, hsome, -⟩ := @settleBudget_spec specs b (hasked rfl)
          refine ⟨settled, by simp [hsettled], ?_, nofun⟩
          intro b' hb'
          obtain rfl := Option.some.inj hb'
          exact ⟨hsum, hsome⟩
  refine ⟨settleMultiplexedBandwidth (settled.map splitRate), by
    rw [announceBandwidth, hsettled]; rfl, announced_settled, ?_, ?_⟩
  · intro b hb
    obtain ⟨hsum, hsome⟩ := hrates b hb
    refine ⟨settled_isSome fun s hs => ?_, ?_⟩
    · obtain ⟨s', hs', rfl⟩ := List.mem_map.mp hs
      simpa [splitRate] using hsome s' hs'
    · rw [slack_settled, slack_split]
      exact (tunnelSum_le _).trans ((carriedSum_le settled).trans (Nat.add_le_add_right hsum _))
  · intro hb
    rw [settled_filter, hnone hb]

/-- Two services of their own and a connection of two share a budget. -/
theorem bandwidth_within_budget_four : ∃ announced,
    announceBandwidth [⟨some 600, 2, none, by decide⟩, ⟨none, 1, none, by decide⟩,
      ⟨some 100, 1, some 0, by decide⟩, ⟨none, 1, some 0, by decide⟩] (some 1000) =
        some announced ∧ tunnelSum announced ≤ 1000 + slack announced := by
  obtain ⟨announced, hannounced, -, hbudget, -⟩ := bandwidth_within_budget
    [⟨some 600, 2, none, by decide⟩, ⟨none, 1, none, by decide⟩,
      ⟨some 100, 1, some 0, by decide⟩, ⟨none, 1, some 0, by decide⟩] (some 1000)
    (fun _ => by decide)
  exact ⟨announced, hannounced, (hbudget 1000 rfl).2⟩

/-- Three services on one connection announce three bytes a second on a budget
of one, which leaves a slack of one. -/
theorem group_over_budget : ∃ announced,
    announceBandwidth [⟨none, 1, some 0, by decide⟩, ⟨none, 1, some 0, by decide⟩,
      ⟨none, 1, some 0, by decide⟩] (some 1) = some announced ∧
    multiplexGroups announced = [0] ∧ ¬tunnelSum announced ≤ 1 + 1 := by
  refine ⟨_, rfl, ?_, ?_⟩
  · decide +kernel
  · decide +kernel

end Aperio
