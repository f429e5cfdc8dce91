import Aperio.Ip
import Aperio.Sites
import Mathlib.Data.Rat.Defs
import Mathlib.Algebra.Order.Ring.Rat

/-!
# What a caller may do right now

The budgets of `state/admission.rs`: token buckets for a visitor's address,
for a site and for a token, the bytes a token may move in a day and those an
organization may move in a month. The numbers of a bucket are exact here,
where the source has `f64`.
-/

namespace Aperio

/-- Everything that answers `429`. -/
inductive Limit where
  | ip
  | serverConcurrency
  | route
  | clientConcurrency
  | tokenRate
  | tokenQuota
  | orgQuota
  | streamsPerIp
deriving Repr, DecidableEq

/-- Where the number lives. -/
def Limit.setting : Limit → String
  | .ip => "limits.ip_rate"
  | .serverConcurrency => "limits.concurrent_requests"
  | .route => "sites"
  | .clientConcurrency => "service.limits.concurrent_requests"
  | .tokenRate => "token.max_rps"
  | .tokenQuota => "token.daily_max_bytes"
  | .orgQuota => "organization.monthly_max_bytes"
  | .streamsPerIp => "limits.streams_per_ip"

/-! ## Buckets -/

structure RateLimitState where
  tokens : ℚ
  lastUpdated : ℚ
deriving Repr, DecidableEq

abbrev Buckets (K : Type) := List (K × RateLimitState)

/-- Seconds since an instant, none of them negative. -/
def secondsSince (now earlier : ℚ) : ℚ := max 0 (now - earlier)

namespace Buckets

variable {K : Type} [DecidableEq K]

/-- The size failsafe: a large map loses what has been idle for ten
minutes. -/
def swept (buckets : Buckets K) (now : ℚ) : Buckets K :=
  if 1000 < buckets.length then buckets.filter fun e => secondsSince now e.2.lastUpdated < 600
  else buckets

def put (buckets : Buckets K) (key : K) (state : RateLimitState) : Buckets K :=
  (key, state) :: buckets.filter (·.1 ≠ key)

/-- What the key's bucket holds now: a new one is full. -/
def refilled (buckets : Buckets K) (key : K) (rate burst now : ℚ) : ℚ :=
  let state := ((buckets.swept now).lookup key).getD ⟨burst, now⟩
  min (state.tokens + secondsSince now state.lastUpdated * rate) burst

/-- Takes the cost of a request out of the key's bucket, if it is there. -/
def charge (buckets : Buckets K) (key : K) (rate burst cost now : ℚ) : Bool × Buckets K :=
  let tokens := buckets.refilled key rate burst now
  if tokens < cost then (false, (buckets.swept now).put key ⟨tokens, now⟩)
  else (true, (buckets.swept now).put key ⟨tokens - cost, now⟩)

end Buckets

/-! ## The settings -/

/-- A site's `rate_limit`. -/
structure RateLimit where
  rps : ℚ
  burst : ℚ
  methods : Option (List String) := none
  key : String
deriving Repr, DecidableEq

def RateLimit.counts (limit : RateLimit) (method : Option String) : Bool :=
  match limit.methods, method with
  | some list, some m => list.any (eqIgnoreAsciiCase · m)
  | _, _ => true

/-- The limits a token carries. -/
structure TokenLimits where
  id : String
  maxRps : Option ℚ := none
  dailyMaxBytes : Option Nat := none
deriving Repr, DecidableEq

structure OrgQuota where
  id : String
  maxBytesMonth : Option Nat := none
deriving Repr, DecidableEq

/-- Bytes sent and received. -/
structure PeriodBytes where
  bytesSent : Nat
  bytesReceived : Nat
deriving Repr, DecidableEq

/-- The settings and the stores the limits are read from, and the names of
the day and the month. -/
structure LimitSettings where
  ipLimitMax : ℚ
  ipLimitRefill : ℚ
  rateLimits : List (Site × Option RateLimit) := []
  tokens : List TokenLimits := []
  orgs : List OrgQuota := []
  today : String := ""
  month : String := ""

namespace LimitSettings

/-- `rate_limit_for`: the most specific matching site whose limit counts the
method. -/
def rateLimitFor (L : LimitSettings) (host : Option String) (path : String)
    (method : Option String) : Option RateLimit :=
  ((L.rateLimits.filter (·.1.matchesRoute host path)).filterMap (·.2)).find? (·.counts method)

end LimitSettings

/-! ## The checks -/

/-- What the limits count. -/
structure Budgets where
  rateLimiter : Buckets IpAddr := []
  routeRate : Buckets String := []
  tokenRate : Buckets String := []
  tokenDailyBytes : List (String × String × Nat) := []
  orgPeriods : List (String × List (String × PeriodBytes)) := []
deriving DecidableEq

namespace Budgets

variable (b : Budgets) (L : LimitSettings)

def checkRateLimit (ip : IpAddr) (now : ℚ) : Bool × Budgets :=
  let charged := b.rateLimiter.charge ip L.ipLimitRefill L.ipLimitMax 1 now
  (charged.1, { b with rateLimiter := charged.2 })

def checkRouteRateLimit (host : Option String) (path method : String) (now : ℚ) :
    Bool × Budgets :=
  match L.rateLimitFor host path (some method) with
  | none => (true, b)
  | some limit =>
    let charged := b.routeRate.charge limit.key limit.rps limit.burst 1 now
    (charged.1, { b with routeRate := charged.2 })

/-- The rate of a token that has one. -/
def checkTokenRate (token : TokenLimits) (now : ℚ) : Bool × Budgets :=
  match token.maxRps.filter (0 < ·) with
  | none => (true, b)
  | some rps =>
    let charged := b.tokenRate.charge token.id rps (max rps 1) 1 now
    (charged.1, { b with tokenRate := charged.2 })

/-- The token has moved its bytes of the day. -/
def overDailyBytes (token : TokenLimits) : Bool :=
  (token.dailyMaxBytes.filter (0 < ·)).any fun quota =>
    (b.tokenDailyBytes.lookup token.id).any fun (day, used) =>
      day == L.today && decide (quota ≤ used)

/-- The limits are read from the store: a token that was revoked while its
tunnel stays up has none. -/
def checkTokenLimits (tokenId : Option String) (now : ℚ) : Option Limit × Budgets :=
  match tokenId.bind fun id => L.tokens.find? (·.id == id) with
  | none => (none, b)
  | some token =>
    let rate := b.checkTokenRate token now
    if !rate.1 then (some .tokenRate, rate.2)
    else if rate.2.overDailyBytes L token then (some .tokenQuota, rate.2)
    else (none, rate.2)

def orgOverMonthBytes (org : Option String) : Bool :=
  match org.bind fun id => (L.orgs.find? (·.id == id)).bind fun o => o.maxBytesMonth.map (id, ·) with
  | none => false
  | some (id, max) =>
    let used := ((b.orgPeriods.lookup id).bind (·.lookup L.month)).map fun p =>
      p.bytesSent + p.bytesReceived
    decide (max ≤ used.getD 0)

/-! ## Each check reads and writes its own budget -/

variable {b} {b' : Budgets} {L}

theorem checkRouteRateLimit_congr {host : Option String} {path method : String} {now : ℚ}
    (h : b.routeRate = b'.routeRate) :
    (b.checkRouteRateLimit L host path method now).1 =
      (b'.checkRouteRateLimit L host path method now).1 := by
  simp only [checkRouteRateLimit]
  split
  · rfl
  · rw [h]

theorem checkRouteRateLimit_frame (host : Option String) (path method : String) (now : ℚ) :
    (b.checkRouteRateLimit L host path method now).2 =
      { b with routeRate := (b.checkRouteRateLimit L host path method now).2.routeRate } := by
  simp only [checkRouteRateLimit]
  split
  · rfl
  · rfl

theorem checkTokenRate_frame (token : TokenLimits) (now : ℚ) :
    (b.checkTokenRate token now).2 =
      { b with tokenRate := (b.checkTokenRate token now).2.tokenRate } := by
  simp only [checkTokenRate]
  split
  · rfl
  · rfl

theorem checkTokenRate_congr {token : TokenLimits} {now : ℚ} (h : b.tokenRate = b'.tokenRate) :
    (b.checkTokenRate token now).1 = (b'.checkTokenRate token now).1 := by
  simp only [checkTokenRate]
  split
  · rfl
  · rw [h]

theorem overDailyBytes_congr {token : TokenLimits}
    (h : b.tokenDailyBytes = b'.tokenDailyBytes) :
    b.overDailyBytes L token = b'.overDailyBytes L token := by
  simp only [overDailyBytes, h]

theorem overDailyBytes_after_rate (token : TokenLimits) (now : ℚ) :
    (b.checkTokenRate token now).2.overDailyBytes L token = b.overDailyBytes L token := by
  rw [checkTokenRate_frame]
  exact overDailyBytes_congr rfl

theorem checkTokenLimits_congr {tokenId : Option String} {now : ℚ}
    (hrate : b.tokenRate = b'.tokenRate) (hdaily : b.tokenDailyBytes = b'.tokenDailyBytes) :
    (b.checkTokenLimits L tokenId now).1 = (b'.checkTokenLimits L tokenId now).1 := by
  simp only [checkTokenLimits]
  cases tokenId.bind fun id => L.tokens.find? (·.id == id) with
  | none => rfl
  | some token =>
      simp only [overDailyBytes_after_rate, checkTokenRate_congr hrate, overDailyBytes_congr hdaily]
      split
      · rfl
      · split
        · rfl
        · rfl

theorem checkTokenLimits_orgPeriods (tokenId : Option String) (now : ℚ) :
    (b.checkTokenLimits L tokenId now).2.orgPeriods = b.orgPeriods := by
  simp only [checkTokenLimits]
  cases tokenId.bind fun id => L.tokens.find? (·.id == id) with
  | none => rfl
  | some token =>
      have hrate : (b.checkTokenRate token now).2.orgPeriods = b.orgPeriods := by
        rw [checkTokenRate_frame]
      simp only
      split
      · exact hrate
      · split
        · exact hrate
        · exact hrate

/-- A token that is turned away is over its rate or over its bytes. -/
theorem checkTokenLimits_some {tokenId : Option String} {now : ℚ} {limit : Limit}
    (h : (b.checkTokenLimits L tokenId now).1 = some limit) :
    limit = .tokenRate ∨ limit = .tokenQuota := by
  simp only [checkTokenLimits] at h
  split at h
  · cases h
  · split at h
    · cases h
      exact .inl rfl
    · split at h
      · cases h
        exact .inr rfl
      · cases h

theorem orgOverMonthBytes_congr {org : Option String} (h : b.orgPeriods = b'.orgPeriods) :
    b.orgOverMonthBytes L org = b'.orgOverMonthBytes L org := by
  simp only [orgOverMonthBytes, h]

end Budgets

end Aperio
