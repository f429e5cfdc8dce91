import Mathlib.Algebra.GroupWithZero.Nat
import Mathlib.Algebra.BigOperators.Group.List.Basic
import Mathlib.Algebra.Order.Ring.Rat
import Aperio.Scaling
import Aperio.Select
import Aperio.Units

/-!
# The numbers of autoscaling

`record_from_decl` of `api/scaling.rs` and the arithmetic of `scaling.rs`: the
sums `measure` takes over the clients of a bind, the deadline `finish` sets,
the windows the sampler compares with and the count `request_capacity` asks
for. The numbers come from what clients declare; an operation here answers
`none` where the source's would leave its type.

What the `url` crate makes of an address, and how a float is written, are
given from outside; a utilization is only ever compared, and the outcome of
the comparison is given too.
-/

namespace Aperio

/-! ## Declarations -/

structure ScalingDecl where
  url : String
  secret : Option String := none
  min : Nat := 0
  /-- A `u32`, like `min` and `max`. -/
  minFits : min < 4294967296 := by decide
  max : Nat := 0
  coldStart : Option String := none
  targetUtilization : Option ℚ := none
  window : Option String := none
  cooldown : Option String := none

structure DeclaredScaling extends ScalingRecord where
  orgId : Option String
  path : Option String
  url : String
  secret : Option String
  max : Nat
  coldStartSecs : Nat
  targetUtilization : ℚ
  windowSecs : Nat
deriving DecidableEq

/-- What the declaration's reader is given from outside. -/
structure ScalingEnv where
  /-- `Url::parse`: the scheme, or why it is no URL. -/
  urlScheme : String → Except String String
  showFloat : ℚ → String

def defaultColdStartSecs : Nat := 45

def defaultTargetUtilization : ℚ := 4 / 5

def defaultWindowSecs : Nat := 15

def defaultCooldownSecs : Nat := 60

def maxColdStartSecs : Nat := 300

/-- `ScalingRecord::key`. -/
def scalingKey (orgId : Option String) (hostname : String) (path : Option String) : String :=
  orgId.getD "master" ++ "|" ++ hostname ++ "|" ++ path.getD ""

/-- A duration of the declaration, or its default, and what is made of it. -/
def declaredSecs (raw : Option String) (default : Nat) (bound : Nat → Nat) : Except String Nat :=
  match raw with
  | some raw => (parseDurationSecs raw).map bound
  | none => .ok default

def declaredUtilization (env : ScalingEnv) (v : Option ℚ) : Except String ℚ :=
  match v with
  | some v =>
    if 0 < v ∧ v ≤ 1 then .ok v
    else .error ("scaling.target_utilization must be in (0, 1], got " ++ env.showFloat v)
  | none => .ok defaultTargetUtilization

/-- The address of the endpoint: one that could be called. -/
def declaredUrl (env : ScalingEnv) (raw : String) : Except String String :=
  let url := trim raw
  if url = "" then .error "scaling.url is required"
  else
    match env.urlScheme url with
    | .error e => .error ("scaling.url is not a URL: " ++ e)
    | .ok scheme =>
      if scheme = "http" ∨ scheme = "https" then .ok url
      else .error ("scaling.url must be http(s), got " ++ scheme)

def checkScalingMax (decl : ScalingDecl) : Except String Unit :=
  if 0 < decl.max ∧ decl.max < decl.min then
    .error ("scaling.max (" ++ toString decl.max ++ ") is below scaling.min (" ++
      toString decl.min ++ ")")
  else .ok ()

def recordFromDecl (env : ScalingEnv) (decl : ScalingDecl) (orgId : Option String)
    (hostname : String) (path : Option String) : Except String DeclaredScaling := do
  let url ← declaredUrl env decl.url
  let coldStartSecs ← declaredSecs decl.coldStart defaultColdStartSecs (Nat.min · maxColdStartSecs)
  let windowSecs ← declaredSecs decl.window defaultWindowSecs (Nat.max · 1)
  let cooldownSecs ← declaredSecs decl.cooldown defaultCooldownSecs (Nat.max · 1)
  let targetUtilization ← declaredUtilization env decl.targetUtilization
  checkScalingMax decl
  return {
    id := scalingKey orgId hostname path
    hostname := hostname
    min := decl.min
    cooldownSecs := cooldownSecs
    orgId := orgId
    path := path
    url := url
    secret := decl.secret.filter fun s => trim s != ""
    max := decl.max
    coldStartSecs := coldStartSecs
    targetUtilization := targetUtilization
    windowSecs := windowSecs }

/-! ## Sums of `u32` -/

def u32Bound : Nat := 4294967296

/-- `a + b`, where it is a `u32`. -/
def addU32 (a b : Nat) : Option Nat :=
  if a + b < u32Bound then some (a + b) else none

/-- Live capacity of one bind's pool. -/
structure PoolCapacity where
  instances : Nat := 0
  capacity : Nat := 0
  inflight : Nat := 0
deriving DecidableEq

section Measure

variable (hostname : String) (path : Option String)

/-- The services `measure` counts. -/
def ServiceState.measured (s : ServiceState) : Bool :=
  s.backendHealthy && s.adminEnabled && decide (s.priority = 0) && s.matchesHost hostname &&
    path.all fun p => s.effectivePathBind == some p

def measureService (out : PoolCapacity) (s : ServiceState) : Option PoolCapacity :=
  if s.measured hostname path then
    match s.maxConcurrent, s.inflightLimiter with
    | some limit, some free => do
      let capacity ← addU32 out.capacity limit
      let inflight ← addU32 out.inflight (limit - free % u32Bound)
      return { out with capacity := capacity, inflight := inflight }
    | _, _ => some out
  else some out

/-- A connection is one instance however many of its services match. -/
def measureClient (out : PoolCapacity) (h : ClientHandle) : Option PoolCapacity := do
  let out ← h.services.foldlM (measureService hostname path) out
  if h.services.any (·.measured hostname path) then
    let instances ← addU32 out.instances 1
    return { out with instances := instances }
  else return out

/-- The connections `measure` looks at. -/
def upClients (clients : Clients) (now downThreshold : Nat) : List ClientHandle :=
  (clients.entries.map (·.2)).filter fun h => h.isHealthy now downThreshold && !h.draining

def measure (clients : Clients) (now downThreshold : Nat) : Option PoolCapacity :=
  (upClients clients now downThreshold).foldlM (measureClient hostname path) {}

end Measure

/-! ## Instants and windows -/

/-- The seconds of an `Instant` are an `i64`. -/
def instantBound : Nat := 9223372036854775808

/-- A reading of the monotonic clock. It counts from the start of the machine,
and stays far from the end of its type. -/
structure ClockReading where
  secs : Nat
  far : secs + maxBackoffSecs < instantBound

/-- `now + Duration::from_secs(secs)`, which panics past the last instant. -/
def instantAdd (now : ClockReading) (secs : Nat) : Option Nat :=
  if now.secs + secs < instantBound then some (now.secs + secs) else none

/-- How long a bind has to stay idle. -/
def idleWindowSecs (record : DeclaredScaling) : Nat :=
  min (record.windowSecs * 4) (u64Bound - 1)

/-- What the sampler keeps of a bind. -/
structure BindSamples where
  saturatedSince : Option Nat := none
  idleSince : Option Nat := none
deriving DecidableEq

structure SampledRuntime where
  runtime : ScalingRuntime := {}
  samples : AList fun _ : String => BindSamples := ∅

namespace SampledRuntime

variable (s : SampledRuntime)

def samplesOf (id : String) : BindSamples :=
  (s.samples.lookup id).getD {}

def putSamples (id : String) (samples : BindSamples) : SampledRuntime :=
  { s with samples := s.samples.insert id samples }

/-- `below` is whether the utilization is below the target. -/
def saturationReached (record : DeclaredScaling) (below : Bool) (now : ClockReading) :
    Bool × SampledRuntime :=
  let state := s.samplesOf record.id
  if below then (false, s.putSamples record.id { state with saturatedSince := none })
  else
    match state.saturatedSince with
    | some since => (decide (record.windowSecs ≤ now.secs - since),
        s.putSamples record.id { state with idleSince := none })
    | none => (false, s.putSamples record.id
        { saturatedSince := some now.secs, idleSince := none })

/-- `busy` is whether the utilization is at least half the target. -/
def idleReached (record : DeclaredScaling) (busy : Bool) (now : ClockReading) :
    Bool × SampledRuntime :=
  let state := s.samplesOf record.id
  if busy then (false, s.putSamples record.id { state with idleSince := none })
  else
    match state.idleSince with
    | some since => (decide (idleWindowSecs record ≤ now.secs - since), s)
    | none => (false, s.putSamples record.id { state with idleSince := some now.secs })

/-- `finish`, with the deadline it adds up. -/
def finish (record : DeclaredScaling) (success : Bool) (now : ClockReading) :
    Option SampledRuntime := do
  let failures := min ((s.runtime.entry record.id).failures + 1) (u32Bound - 1)
  let _ ← instantAdd now
    (if success then record.cooldownSecs else ScalingRuntime.backoff record.cooldownSecs failures)
  return { s with
    runtime := s.runtime.finish record.id success record.cooldownSecs now.secs }

end SampledRuntime

/-- What happens to the runtime. -/
inductive ScalingOp where
  | begin (record : DeclaredScaling) (now : ClockReading)
  | finish (record : DeclaredScaling) (success : Bool) (now : ClockReading)
  | saturation (record : DeclaredScaling) (below : Bool) (now : ClockReading)
  | idle (record : DeclaredScaling) (busy : Bool) (now : ClockReading)
  | rearm (id : String)
  | forget (id : String)

def SampledRuntime.step (s : SampledRuntime) : ScalingOp → Option SampledRuntime
  | .begin record now => some { s with
      runtime := (s.runtime.begin record.toScalingRecord now.secs).2 }
  | .finish record success now => s.finish record success now
  | .saturation record below now => some (s.saturationReached record below now).2
  | .idle record busy now => some (s.idleReached record busy now).2
  | .rearm id => some { s with runtime := s.runtime.rearm id }
  | .forget id => some { runtime := s.runtime.forget id, samples := s.samples.erase id }

/-! ## What a declaration is accepted with -/

theorem recordFromDecl_min {env : ScalingEnv} {decl : ScalingDecl} {orgId : Option String}
    {hostname : String} {path : Option String} {record : DeclaredScaling}
    (h : recordFromDecl env decl orgId hostname path = .ok record) :
    record.min = decl.min := by
  unfold recordFromDecl at h
  cases hurl : declaredUrl env decl.url with
  | error e => rw [hurl] at h; cases h
  | ok url =>
  cases hcold : declaredSecs decl.coldStart defaultColdStartSecs (Nat.min · maxColdStartSecs) with
  | error e => rw [hurl, hcold] at h; cases h
  | ok cold =>
  cases hwindow : declaredSecs decl.window defaultWindowSecs (Nat.max · 1) with
  | error e => rw [hurl, hcold, hwindow] at h; cases h
  | ok window =>
  cases hcool : declaredSecs decl.cooldown defaultCooldownSecs (Nat.max · 1) with
  | error e => rw [hurl, hcold, hwindow, hcool] at h; cases h
  | ok cooldown =>
  cases htarget : declaredUtilization env decl.targetUtilization with
  | error e => rw [hurl, hcold, hwindow, hcool, htarget] at h; cases h
  | ok target =>
  cases hmax : checkScalingMax decl with
  | error e => rw [hurl, hcold, hwindow, hcool, htarget, hmax] at h; cases h
  | ok done =>
      rw [hurl, hcold, hwindow, hcool, htarget, hmax] at h
      obtain rfl := Except.ok.inj h
      rfl

/-! ## Folds that may fail -/

section Counted

variable {σ α ι : Type} {f : σ → α → Option σ} {Inv : σ → Prop} {size : σ → ι → Nat}
  {weight : α → ι → Nat} {bound : Nat}

/-- What each element adds fits: the fold goes through and adds it all. -/
theorem foldlM_counted
    (hok : ∀ s a, Inv s → (∀ i, size s i + weight a i < bound) →
      ∃ s', f s a = some s' ∧ Inv s' ∧ size s' = size s + weight a)
    {l : List α} {s : σ} (hs : Inv s) (h : ∀ i, size s i + (l.map weight).sum i < bound) :
    ∃ s', l.foldlM f s = some s' ∧ Inv s' ∧ size s' = size s + (l.map weight).sum := by
  induction l generalizing s with
  | nil => exact ⟨s, rfl, hs, by simp⟩
  | cons a l ih =>
      have hsum : ((a :: l).map weight).sum = weight a + (l.map weight).sum := by simp
      have hfirst : ∀ i, size s i + weight a i < bound := by
        intro i
        have hi := h i
        rw [hsum, Pi.add_apply] at hi
        omega
      obtain ⟨s', hstep, hs', hsize⟩ := hok s a hs hfirst
      obtain ⟨out, hout, hinv, htotal⟩ := ih hs' (by
        intro i
        have hi := h i
        rw [hsum, Pi.add_apply] at hi
        rw [hsize, Pi.add_apply]
        omega)
      refine ⟨out, ?_, hinv, ?_⟩
      · rw [List.foldlM_cons, hstep]
        exact hout
      · rw [htotal, hsize, hsum, add_assoc]

/-- One count runs over: the fold stops. -/
theorem foldlM_over
    (hok : ∀ s a, Inv s → (∀ i, size s i + weight a i < bound) →
      ∃ s', f s a = some s' ∧ Inv s' ∧ size s' = size s + weight a)
    (hfail : ∀ s a i, Inv s → bound ≤ size s i + weight a i → f s a = none)
    {l : List α} {s : σ} {i : ι} (hs : Inv s) (hfits : size s i < bound)
    (h : bound ≤ size s i + (l.map weight).sum i) : l.foldlM f s = none := by
  induction l generalizing s with
  | nil =>
      simp only [List.map_nil, List.sum_nil, Pi.zero_apply] at h
      omega
  | cons a l ih =>
      rw [List.foldlM_cons]
      by_cases hall : ∀ j, size s j + weight a j < bound
      · obtain ⟨s', hstep, hs', hsize⟩ := hok s a hs hall
        have hi : size s' i = size s i + weight a i := by rw [hsize, Pi.add_apply]
        rw [hstep]
        refine ih hs' (by rw [hi]; exact hall i) ?_
        have hsum : ((a :: l).map weight).sum = weight a + (l.map weight).sum := by simp
        rw [hsum, Pi.add_apply] at h
        omega
      · push Not at hall
        obtain ⟨j, hj⟩ := hall
        rw [hfail s a j hs hj]
        rfl

end Counted

/-! ## The sum of the announced limits -/

section Measure

variable {hostname : String} {path : Option String}

/-- The limit of a service that is counted. -/
def ServiceState.countedLimit (hostname : String) (path : Option String) (s : ServiceState) : Nat :=
  if s.measured hostname path then
    match s.maxConcurrent, s.inflightLimiter with
    | some limit, some _ => limit
    | _, _ => 0
  else 0

/-- The limits of a connection that are counted. -/
def ClientHandle.countedLimits (hostname : String) (path : Option String)
    (h : ClientHandle) : Nat :=
  (h.services.map (·.countedLimit hostname path)).sum

/-- A connection with a service that is counted. -/
def ClientHandle.counted (hostname : String) (path : Option String) (h : ClientHandle) : Nat :=
  if h.services.any (·.measured hostname path) then 1 else 0

/-- What `measure` adds up, and what it may hold. -/
inductive PoolCount where
  | capacity
  | instances

def PoolCapacity.count (out : PoolCapacity) : PoolCount → Nat
  | .capacity => out.capacity
  | .instances => out.instances

def PoolCapacity.Held (out : PoolCapacity) : Prop :=
  out.inflight ≤ out.capacity ∧ ∀ i, out.count i < u32Bound

def serviceWeight (hostname : String) (path : Option String) (s : ServiceState) : PoolCount → Nat
  | .capacity => s.countedLimit hostname path
  | .instances => 0

def clientWeight (hostname : String) (path : Option String) (h : ClientHandle) : PoolCount → Nat
  | .capacity => h.countedLimits hostname path
  | .instances => h.counted hostname path

theorem addU32_eq {a b : Nat} (h : a + b < u32Bound) : addU32 a b = some (a + b) :=
  if_pos h

theorem addU32_none {a b : Nat} (h : u32Bound ≤ a + b) : addU32 a b = none :=
  if_neg (Nat.not_lt.mpr h)

/-- One service: its limit is added, and what is taken of it is no more. -/
theorem measureService_cases (hostname : String) (path : Option String) {out : PoolCapacity}
    (s : ServiceState) (hout : out.Held) :
    (u32Bound ≤ out.capacity + s.countedLimit hostname path ∧
      measureService hostname path out s = none) ∨
    ∃ out', measureService hostname path out s = some out' ∧ out'.Held ∧
      out'.capacity = out.capacity + s.countedLimit hostname path ∧
      out'.instances = out.instances := by
  obtain ⟨hheld, hfits⟩ := hout
  have hcapacity : out.capacity < u32Bound := hfits .capacity
  unfold measureService ServiceState.countedLimit
  split
  · split
    · rename_i limit free hlimit hfree
      by_cases hadd : out.capacity + limit < u32Bound
      · have htaken : out.inflight + (limit - free % u32Bound) < u32Bound := by omega
        rw [addU32_eq hadd, addU32_eq htaken]
        refine Or.inr ⟨_, rfl, ⟨?_, ?_⟩, rfl, rfl⟩
        · show out.inflight + (limit - free % u32Bound) ≤ out.capacity + limit
          omega
        · rintro (_ | _)
          · exact hadd
          · exact hfits .instances
      · have hover := Nat.not_lt.mp hadd
        rw [addU32_none hover]
        exact Or.inl ⟨hover, rfl⟩
    · exact Or.inr ⟨out, rfl, ⟨hheld, hfits⟩, rfl, rfl⟩
  · exact Or.inr ⟨out, rfl, ⟨hheld, hfits⟩, rfl, rfl⟩

theorem measureService_ok {out : PoolCapacity} {s : ServiceState} (hout : out.Held)
    (h : ∀ i, out.count i + serviceWeight hostname path s i < u32Bound) :
    ∃ out', measureService hostname path out s = some out' ∧ out'.Held ∧
      out'.count = out.count + serviceWeight hostname path s := by
  rcases measureService_cases hostname path s hout with ⟨hover, -⟩ | ⟨out', hstep, hheld, hc, hi⟩
  · have hfits := h .capacity
    exact absurd hfits (Nat.not_lt.mpr hover)
  · refine ⟨out', hstep, hheld, ?_⟩
    funext i
    cases i with
    | capacity => exact hc
    | instances => exact hi

theorem measureService_none {out : PoolCapacity} {s : ServiceState} (i : PoolCount)
    (hout : out.Held) (h : u32Bound ≤ out.count i + serviceWeight hostname path s i) :
    measureService hostname path out s = none := by
  rcases measureService_cases hostname path s hout with ⟨-, hnone⟩ | ⟨out', -, hheld, hc, hi⟩
  · exact hnone
  · have hfits := hheld.2 i
    cases i with
    | capacity =>
        have hcount : out'.capacity < u32Bound := hfits
        have hsum : u32Bound ≤ out.capacity + s.countedLimit hostname path := h
        omega
    | instances =>
        have hcount : out'.instances < u32Bound := hfits
        have hsum : u32Bound ≤ out.instances + 0 := h
        omega

theorem sum_serviceWeight (services : List ServiceState) (i : PoolCount) :
    (services.map (serviceWeight hostname path)).sum i =
      match i with
      | .capacity => (services.map (·.countedLimit hostname path)).sum
      | .instances => 0 := by
  induction services with
  | nil => cases i <;> rfl
  | cons s services ih =>
      rw [List.map_cons, List.sum_cons, Pi.add_apply, ih]
      cases i <;> rfl

/-- A connection: its services' limits, and one instance if one counts. -/
theorem measureClient_ok {out : PoolCapacity} {h : ClientHandle} (hout : out.Held)
    (hfits : ∀ i, out.count i + clientWeight hostname path h i < u32Bound) :
    ∃ out', measureClient hostname path out h = some out' ∧ out'.Held ∧
      out'.count = out.count + clientWeight hostname path h := by
  obtain ⟨mid, hmid, hheld, hcount⟩ := @foldlM_counted _ _ _ _ _ _ (serviceWeight hostname path) _
    (fun _ _ => @measureService_ok hostname path _ _) h.services out hout (by
      intro i
      rw [sum_serviceWeight]
      cases i with
      | capacity => exact hfits .capacity
      | instances => exact hout.2 .instances)
  have hcapacity : mid.capacity = out.capacity + h.countedLimits hostname path := by
    have hc := congrFun hcount .capacity
    rwa [Pi.add_apply, sum_serviceWeight] at hc
  have hinstances : mid.instances = out.instances := by
    have hi := congrFun hcount .instances
    rwa [Pi.add_apply, sum_serviceWeight] at hi
  have hnext : out.instances + h.counted hostname path < u32Bound := hfits .instances
  unfold measureClient
  rw [hmid]
  by_cases hany : h.services.any (·.measured hostname path) = true
  · have hone : h.counted hostname path = 1 := if_pos hany
    rw [hone] at hnext
    have hadd : addU32 mid.instances 1 = some (mid.instances + 1) :=
      addU32_eq (by rw [hinstances]; exact hnext)
    refine ⟨{ mid with instances := mid.instances + 1 }, ?_, ⟨hheld.1, ?_⟩, ?_⟩
    · simp [hany, hadd]
    · rintro (_ | _)
      · exact hheld.2 .capacity
      · show mid.instances + 1 < u32Bound
        rw [hinstances]
        exact hnext
    · funext i
      cases i with
      | capacity => exact hcapacity
      | instances =>
          show mid.instances + 1 = out.instances + h.counted hostname path
          rw [hinstances, hone]
  · have hzero : h.counted hostname path = 0 := if_neg hany
    refine ⟨mid, ?_, hheld, ?_⟩
    · simp [hany]
    · funext i
      cases i with
      | capacity => exact hcapacity
      | instances =>
          show mid.instances = out.instances + h.counted hostname path
          rw [hinstances, hzero, Nat.add_zero]

theorem measureClient_none {out : PoolCapacity} {h : ClientHandle} (i : PoolCount)
    (hout : out.Held) (hover : u32Bound ≤ out.count i + clientWeight hostname path h i) :
    measureClient hostname path out h = none := by
  unfold measureClient
  by_cases hlimits : out.capacity + h.countedLimits hostname path < u32Bound
  · obtain ⟨mid, hmid, -, hcount⟩ := @foldlM_counted _ _ _ _ _ _ (serviceWeight hostname path) _
      (fun _ _ => @measureService_ok hostname path _ _) h.services out hout (by
        intro i
        rw [sum_serviceWeight]
        cases i with
        | capacity => exact hlimits
        | instances => exact hout.2 .instances)
    have hinstances : mid.instances = out.instances := by
      have hi := congrFun hcount .instances
      rwa [Pi.add_apply, sum_serviceWeight] at hi
    cases i with
    | capacity => exact absurd hlimits (Nat.not_lt.mpr hover)
    | instances =>
        have hsum : u32Bound ≤ out.instances + h.counted hostname path := hover
        have hfits : out.instances < u32Bound := hout.2 .instances
        by_cases hany : h.services.any (·.measured hostname path) = true
        · have hone : h.counted hostname path = 1 := if_pos hany
          have hadd : addU32 mid.instances 1 = none := addU32_none (by omega)
          simp [hmid, hany, hadd]
        · have hzero : h.counted hostname path = 0 := if_neg hany
          omega
  · have hnone := @foldlM_over _ _ _ (measureService hostname path) _ _
      (serviceWeight hostname path) u32Bound
      (fun _ _ => @measureService_ok hostname path _ _)
      (fun _ _ i => measureService_none i) h.services out .capacity hout (hout.2 .capacity) (by
        rw [sum_serviceWeight]
        exact Nat.not_lt.mp hlimits)
    rw [hnone]
    rfl

theorem sum_clientWeight (clients : List ClientHandle) (i : PoolCount) :
    (clients.map (clientWeight hostname path)).sum i =
      match i with
      | .capacity => (clients.map (·.countedLimits hostname path)).sum
      | .instances => (clients.map (·.counted hostname path)).sum := by
  induction clients with
  | nil => cases i <;> rfl
  | cons h clients ih =>
      rw [List.map_cons, List.sum_cons, Pi.add_apply, ih]
      cases i <;> rfl

/-- What starts the sums. -/
theorem PoolCapacity.held_empty : ({} : PoolCapacity).Held := by
  refine ⟨Nat.le_refl 0, ?_⟩
  rintro (_ | _) <;> decide

theorem measure_ok {clients : Clients} {now downThreshold : Nat}
    (hlimits : ((upClients clients now downThreshold).map
      (·.countedLimits hostname path)).sum < u32Bound)
    (hcounted : ((upClients clients now downThreshold).map
      (·.counted hostname path)).sum < u32Bound) :
    ∃ out, measure hostname path clients now downThreshold = some out ∧ out.Held := by
  obtain ⟨out, hout, hheld, -⟩ := @foldlM_counted _ _ _ _ _ _ (clientWeight hostname path) u32Bound
    (fun _ _ => @measureClient_ok hostname path _ _)
    (upClients clients now downThreshold) {} PoolCapacity.held_empty (by
      intro i
      rw [sum_clientWeight]
      cases i with
      | capacity =>
          show 0 + _ < _
          rw [Nat.zero_add]
          exact hlimits
      | instances =>
          show 0 + _ < _
          rw [Nat.zero_add]
          exact hcounted)
  exact ⟨out, hout, hheld⟩

/-- **The sums of `measure` are `u32`** exactly where the limits of the counted
services, and the connections that carry them, add up to one. -/
theorem measure_isSome_iff (clients : Clients) (now downThreshold : Nat) :
    (measure hostname path clients now downThreshold).isSome = true ↔
      ((upClients clients now downThreshold).map (·.countedLimits hostname path)).sum < u32Bound ∧
      ((upClients clients now downThreshold).map (·.counted hostname path)).sum < u32Bound := by
  constructor
  · intro h
    by_contra hover
    have hsome : ∃ i, u32Bound ≤ ({} : PoolCapacity).count i +
        ((upClients clients now downThreshold).map (clientWeight hostname path)).sum i := by
      rw [not_and_or, not_lt, not_lt] at hover
      rcases hover with hover | hover
      · exact ⟨.capacity, by rw [sum_clientWeight]; exact Nat.le_add_left_of_le hover⟩
      · exact ⟨.instances, by rw [sum_clientWeight]; exact Nat.le_add_left_of_le hover⟩
    obtain ⟨i, hi⟩ := hsome
    have hnone := @foldlM_over _ _ _ (measureClient hostname path) _ _
      (clientWeight hostname path) u32Bound
      (fun _ _ => @measureClient_ok hostname path _ _)
      (fun _ _ i => measureClient_none i) _ _ i PoolCapacity.held_empty
      (PoolCapacity.held_empty.2 i) hi
    rw [measure, hnone] at h
    cases h
  · rintro ⟨hlimits, hcounted⟩
    obtain ⟨out, hout, -⟩ := measure_ok hlimits hcounted
    rw [hout]
    rfl

/-- The instances that were counted are a `u32`. -/
theorem measure_instances {clients : Clients} {now downThreshold : Nat} {out : PoolCapacity}
    (h : measure hostname path clients now downThreshold = some out) :
    out.instances < u32Bound := by
  obtain ⟨hlimits, hcounted⟩ :=
    (measure_isSome_iff clients now downThreshold).mp (Option.isSome_iff_exists.mpr ⟨out, h⟩)
  obtain ⟨out', hout, hheld⟩ := measure_ok hlimits hcounted
  obtain rfl := Option.some.inj (h.symm.trans hout)
  exact hheld.2 .instances

end Measure

/-! ## Every run of the runtime -/

/-- The deadline of a successful call can be reached. -/
def ScalingOp.Fits : ScalingOp → Prop
  | .finish record true now => now.secs + record.cooldownSecs < instantBound
  | _ => True

theorem backoff_le (cooldown failures : Nat) :
    ScalingRuntime.backoff cooldown failures ≤ maxBackoffSecs := by
  unfold ScalingRuntime.backoff
  exact max_le (min_le_right _ _) (by decide)

theorem instantAdd_isSome {now : ClockReading} {secs : Nat} :
    (instantAdd now secs).isSome = true ↔ now.secs + secs < instantBound := by
  unfold instantAdd
  split
  · rename_i h
    simp [h]
  · rename_i h
    simp [h]

theorem SampledRuntime.step_isSome (s : SampledRuntime) (op : ScalingOp) :
    (s.step op).isSome = true ↔ op.Fits := by
  cases op with
  | finish record success now =>
      have hbind : (s.step (.finish record success now)).isSome =
          (instantAdd now (if success then record.cooldownSecs
            else ScalingRuntime.backoff record.cooldownSecs
              (min ((s.runtime.entry record.id).failures + 1) (u32Bound - 1)))).isSome := by
        show (s.finish record success now).isSome = _
        unfold SampledRuntime.finish
        dsimp only
        cases instantAdd now _ <;> rfl
      rw [hbind, instantAdd_isSome]
      cases success with
      | true => exact Iff.rfl
      | false =>
          rw [if_neg Bool.false_ne_true]
          have hbackoff := backoff_le record.cooldownSecs
            (min ((s.runtime.entry record.id).failures + 1) (u32Bound - 1))
          refine iff_of_true ?_ trivial
          exact Nat.lt_of_le_of_lt (Nat.add_le_add_left hbackoff now.secs) now.far
  | _ => exact iff_of_true rfl trivial

theorem SampledRuntime.run_isSome (ops : List ScalingOp) (s : SampledRuntime) :
    (ops.foldlM SampledRuntime.step s).isSome = true ↔ ∀ op ∈ ops, op.Fits := by
  induction ops generalizing s with
  | nil => simp
  | cons op ops ih =>
      rw [List.foldlM_cons, List.forall_mem_cons, ← s.step_isSome op]
      cases hstep : s.step op with
      | none => simp
      | some s' =>
          simp only [Option.bind_eq_bind, Option.bind_some, Option.isSome_some, true_and]
          exact ih s'

/-! ## The counts that are asked for -/

theorem idleWindowSecs_lt (record : DeclaredScaling) : idleWindowSecs record < u64Bound :=
  Nat.lt_of_le_of_lt (Nat.min_le_right _ _) (by decide)

theorem desiredCapacity_lt {record : ScalingRecord} {reason : Reason} {current : Nat}
    (hmin : record.min < u32Bound) (hcurrent : current < u32Bound) :
    desiredCapacity record reason current < u32Bound := by
  unfold desiredCapacity u32Bound at *
  cases reason with
  | coldStart => dsimp only; omega
  | scaleOut => dsimp only; omega
  | scaleIn => dsimp only; omega

/-- **The numbers of autoscaling stay in their types**, as far as the limits
that are announced add up to a `u32`, and as far as every cooldown after a
successful call ends at an instant there is. -/
theorem scaling_in_range_iff (hostname : String) (path : Option String) (clients : Clients)
    (now downThreshold : Nat) (ops : List ScalingOp) :
    ((measure hostname path clients now downThreshold).isSome = true ↔
      ((upClients clients now downThreshold).map (·.countedLimits hostname path)).sum < u32Bound ∧
      ((upClients clients now downThreshold).map (·.counted hostname path)).sum < u32Bound) ∧
    ((ops.foldlM SampledRuntime.step {}).isSome = true ↔ ∀ op ∈ ops, op.Fits) ∧
    (∀ record, idleWindowSecs record < u64Bound) ∧
    ∀ env decl orgId record, recordFromDecl env decl orgId hostname path = .ok record →
      ∀ out, measure hostname path clients now downThreshold = some out →
        ∀ reason, desiredCapacity record.toScalingRecord reason out.instances < u32Bound := by
  refine ⟨measure_isSome_iff clients now downThreshold, SampledRuntime.run_isSome ops {},
    idleWindowSecs_lt, ?_⟩
  intro env decl orgId record hrecord out hout reason
  refine desiredCapacity_lt ?_ (measure_instances hout)
  rw [recordFromDecl_min hrecord]
  exact decl.minFits

/-! ## Two declarations -/

/-- A URL reader that takes every text for an HTTPS address. -/
def httpsEnv : ScalingEnv where
  urlScheme _ := .ok "https"
  showFloat _ := ""

/-- A connection that announces two thousand million requests at once. -/
def broadClient : ClientHandle where
  connectedAt := 0
  clientIp := "198.51.100.7"
  perms := .ofMaster
  services := [{ declaredHostname := some "app.test"
                 maxConcurrent := some 2147483648
                 inflightLimiter := some 2147483648 }]

def broadClients : Clients :=
  ((∅ : Clients).insert "a" broadClient).insert "b" broadClient

def longCooldown : ScalingDecl where
  url := "https://api.test/scale"
  cooldown := some "18446744073709551615"

def boot : ClockReading where
  secs := 1
  far := by decide

theorem scaling_in_range_single :
    (measure "app.test" none ((∅ : Clients).insert "a" broadClient) 0 30).isSome = true ∧
    (([.rearm "|app.test|"] : List ScalingOp).foldlM SampledRuntime.step {}).isSome = true ∧
    ∃ record, recordFromDecl httpsEnv longCooldown none "app.test" none = .ok record ∧
      desiredCapacity record.toScalingRecord .scaleOut 1 < u32Bound := by
  obtain ⟨hmeasure, hrun, -, hdesired⟩ := scaling_in_range_iff "app.test" none
    ((∅ : Clients).insert "a" broadClient) 0 30 [.rearm "|app.test|"]
  refine ⟨hmeasure.mpr (by decide +kernel), hrun.mpr ?_, _, rfl, ?_⟩
  · intro op hop
    rw [List.mem_singleton.mp hop]
    trivial
  · exact hdesired httpsEnv longCooldown none _ rfl ⟨1, 2147483648, 0⟩ (by decide +kernel) .scaleOut

/-- Two such connections are more than the capacity holds, and the cooldown of
an accepted declaration has no end. -/
theorem scaling_out_of_range :
    measure "app.test" none broadClients 0 30 = none ∧
    ∃ record, recordFromDecl httpsEnv longCooldown none "app.test" none = .ok record ∧
      SampledRuntime.step {} (.finish record true boot) = none := by
  refine ⟨by decide +kernel, _, rfl, by decide +kernel⟩

end Aperio
