import Mathlib.Algebra.Group.Nat.Defs
import Aperio.ResponseCache

/-!
# The cache's clock

The lifetimes a response advertises are any number of seconds below `2 ^ 64`,
and an `Instant` counts its seconds in an `i64`. `Instant + Duration` panics
where the sum is past that. `insert`, `lookup` and `get_for_outage` of
`cache.rs` are here once more with that panic in its place: the readings are
whole seconds, which is exact, since every duration that is added is.

`insert` reads the clock twice, once to evict and once for the entry, and it
has counted the body by the time it adds the lifetime. A panic there leaves
the cache as it stands: the lock is not poisoned, and the task that panicked
is answered with an error and forgotten.
-/

namespace Aperio

/-- The last second of the monotonic clock. -/
def clockMax : Nat := 2 ^ 63 - 1

/-- `Instant + Duration`, where `none` is the panic. -/
def addInstant (instant duration : Nat) : Option Nat :=
  if instant + duration ≤ clockMax then some (instant + duration) else none

theorem addInstant_eq_none {instant duration : Nat} :
    addInstant instant duration = none ↔ clockMax < instant + duration := by
  unfold addInstant
  split
  · rename_i hfits
    constructor
    · intro h
      cases h
    · intro h
      omega
  · rename_i hfits
    constructor
    · intro _
      omega
    · intro _
      rfl

theorem addInstant_eq_some {instant duration sum : Nat}
    (h : addInstant instant duration = some sum) :
    sum = instant + duration ∧ instant + duration ≤ clockMax := by
  unfold addInstant at h
  split at h
  · rename_i hfits
    exact ⟨(Option.some.inj h).symm, hfits⟩
  · cases h

/-! ## The operations -/

/-- What an insertion is called with, and its two readings of the clock. -/
structure Insertion (σ : Type) where
  key : String
  status : Nat := 200
  headers : List (String × String)
  body : List UInt8
  ttl : Nat
  maxBytes : Nat
  resilient : Bool := false
  swr : Nat
  evictedAt : Nat
  now : Nat
  origin : σ

inductive InsertEnd where
  /-- One of the early exits. -/
  | refused
  | stored
  | panicked
deriving DecidableEq

namespace ResponseCache

variable {σ : Type}

/-- The body is within its share of the budget, and fits once there is room
for it. -/
def admits (c : ResponseCache σ) (i : Insertion σ) : Bool :=
  decide (i.body.length ≤ i.maxBytes / 4) &&
    decide ((c.makeRoom i.key i.body.length i.maxBytes i.evictedAt).totalBytes + i.body.length
      ≤ i.maxBytes)

def insertAt (c : ResponseCache σ) (etagOf : List UInt8 → String) (i : Insertion σ) :
    InsertEnd × ResponseCache σ :=
  if i.maxBytes / 4 < i.body.length then (.refused, c)
  else
    let room := c.makeRoom i.key i.body.length i.maxBytes i.evictedAt
    if i.maxBytes < room.totalBytes + i.body.length then (.refused, room)
    else
      let counted := { room with totalBytes := room.totalBytes + i.body.length }
      match addInstant i.now i.ttl with
      | none => (.panicked, counted)
      | some expiresAt =>
        (.stored,
          { counted with
            entries := counted.entries.insert i.key
              { status := i.status
                headers := withEtag etagOf i.headers i.body
                body := i.body
                storedAt := i.now
                expiresAt := expiresAt
                resilient := i.resilient
                swr := i.swr
                origin := i.origin } })

/-- `lookup`, where `none` is the panic. -/
def lookupAt (c : ResponseCache σ) (key : String) (maxStale now : Nat) :
    Option (SwrLookup × ResponseCache σ) :=
  match c.entries.lookup key with
  | none => some (.miss, { c with misses := c.misses + 1 })
  | some e =>
    if now < e.expiresAt then some (.fresh (e.hit now false), { c with hits := c.hits + 1 })
    else
      (addInstant e.expiresAt e.swr).bind fun revalidateUntil =>
        if now < revalidateUntil then
          let lead := e.revalidateStarted.all (revalidateRetry ≤ now - ·)
          let e' := if lead then { e with revalidateStarted := some now } else e
          some (.staleRevalidate (e.hit now true) lead,
            { c with entries := c.entries.insert key e', hits := c.hits + 1 })
        else if e.resilient then
          (addInstant e.expiresAt maxStale).map fun staleUntil =>
            let c' := if now < staleUntil then c else c.remove key
            (.miss, { c' with misses := c'.misses + 1 })
        else
          let c' := c.remove key
          some (.miss, { c' with misses := c'.misses + 1 })

def getForOutageAt (c : ResponseCache σ) (key : String) (maxStale now : Nat) :
    Option (Option CacheHit × ResponseCache σ) :=
  match c.entries.lookup key with
  | none => some (none, c)
  | some e =>
    if e.resilient then
      (addInstant e.expiresAt maxStale).map fun staleUntil =>
        if staleUntil ≤ now then (none, if e.expiresAt ≤ now then c.remove key else c)
        else (some (e.hit now (decide (e.expiresAt ≤ now))), c)
    else some (none, if e.expiresAt ≤ now then c.remove key else c)

/-! ## Within the clock -/

variable {c : ResponseCache σ} {etagOf : List UInt8 → String} {i : Insertion σ} {key : String}
  {maxStale now : Nat}

theorem lookupAt_eq_lookup {r : SwrLookup × ResponseCache σ}
    (h : c.lookupAt key maxStale now = some r) : r = c.lookup key maxStale now := by
  unfold lookupAt at h
  unfold lookup
  cases he : c.entries.lookup key with
  | none =>
      rw [he] at h
      exact (Option.some.inj h).symm
  | some e =>
      simp only [he] at h ⊢
      by_cases hfresh : now < e.expiresAt
      · rw [if_pos hfresh] at h ⊢
        exact (Option.some.inj h).symm
      · rw [if_neg hfresh] at h ⊢
        obtain ⟨revalidateUntil, hadd, h⟩ := Option.bind_eq_some_iff.mp h
        obtain ⟨rfl, -⟩ := addInstant_eq_some hadd
        by_cases hswr : now < e.expiresAt + e.swr
        · rw [if_pos hswr] at h ⊢
          exact (Option.some.inj h).symm
        · rw [if_neg hswr] at h ⊢
          cases hres : e.resilient with
          | false =>
              simp only [hres] at h
              exact (Option.some.inj h).symm
          | true =>
              simp only [hres, if_true] at h
              obtain ⟨staleUntil, hadd', rfl⟩ := Option.map_eq_some_iff.mp h
              obtain ⟨rfl, -⟩ := addInstant_eq_some hadd'
              simp only [Bool.true_and, decide_eq_true_eq]

theorem getForOutageAt_eq_getForOutage {r : Option CacheHit × ResponseCache σ}
    (h : c.getForOutageAt key maxStale now = some r) : r = c.getForOutage key maxStale now := by
  unfold getForOutageAt at h
  unfold getForOutage
  cases he : c.entries.lookup key with
  | none =>
      rw [he] at h
      exact (Option.some.inj h).symm
  | some e =>
      simp only [he] at h ⊢
      cases hres : e.resilient with
      | false =>
          simp only [hres] at h
          exact (Option.some.inj h).symm
      | true =>
          simp only [hres, if_true] at h
          obtain ⟨staleUntil, hadd, rfl⟩ := Option.map_eq_some_iff.mp h
          obtain ⟨rfl, -⟩ := addInstant_eq_some hadd
          simp only [Bool.not_true, Bool.false_or, decide_eq_true_eq]

/-! ## Where the clock ends -/

variable {e : CachedResponse σ}

/-- How an insertion ends. -/
theorem insertAt_fst (c : ResponseCache σ) (etagOf : List UInt8 → String) (i : Insertion σ) :
    (c.insertAt etagOf i).1 =
      if c.admits i then (if i.now + i.ttl ≤ clockMax then .stored else .panicked)
      else .refused := by
  unfold insertAt admits
  by_cases hshare : i.maxBytes / 4 < i.body.length
  · have hnot : ¬i.body.length ≤ i.maxBytes / 4 := by omega
    simp [hshare, hnot]
  · have hle : i.body.length ≤ i.maxBytes / 4 := by omega
    rw [if_neg hshare]
    simp only [hle, decide_true, Bool.true_and, decide_eq_true_eq]
    by_cases hfits : i.maxBytes <
        (c.makeRoom i.key i.body.length i.maxBytes i.evictedAt).totalBytes + i.body.length
    · rw [if_pos hfits, if_neg (by omega)]
    · rw [if_neg hfits, if_pos (by omega)]
      by_cases hclock : i.now + i.ttl ≤ clockMax
      · simp [addInstant, hclock]
      · simp [addInstant, hclock]

/-- The entry of an insertion that is stored. -/
theorem insertAt_stored (h : (c.insertAt etagOf i).1 = .stored) :
    ∃ e, (c.insertAt etagOf i).2.entries.lookup i.key = some e ∧
      e.expiresAt = i.now + i.ttl ∧ e.swr = i.swr ∧ e.resilient = i.resilient := by
  unfold insertAt at h ⊢
  split at h
  · cases h
  · rename_i hshare
    rw [if_neg hshare]
    simp only at h ⊢
    split at h
    · cases h
    · rename_i hfits
      rw [if_neg hfits]
      cases hadd : addInstant i.now i.ttl with
      | none =>
          rw [hadd] at h
          cases h
      | some expiresAt =>
          obtain ⟨rfl, -⟩ := addInstant_eq_some hadd
          exact ⟨_, AList.lookup_insert _, rfl, rfl, rfl⟩

/-- An entry whose windows end within the clock can be looked up at any
time. -/
theorem lookupAt_ne_none (he : c.entries.lookup key = some e)
    (hswr : e.expiresAt + e.swr ≤ clockMax)
    (hstale : e.resilient = true → e.expiresAt + maxStale ≤ clockMax) :
    c.lookupAt key maxStale now ≠ none := by
  unfold lookupAt
  simp only [he]
  split
  · simp
  · simp only [addInstant, if_pos hswr, Option.bind_some]
    split
    · simp
    · cases hres : e.resilient with
      | false => simp
      | true => simp [hstale hres]

theorem getForOutageAt_ne_none (he : c.entries.lookup key = some e)
    (hstale : e.resilient = true → e.expiresAt + maxStale ≤ clockMax) :
    c.getForOutageAt key maxStale now ≠ none := by
  unfold getForOutageAt
  simp only [he]
  cases hres : e.resilient with
  | false => simp
  | true => simp [addInstant, hstale hres]

/-- A lookup once the entry has expired adds its window. -/
theorem swr_of_lookupAt (he : c.entries.lookup key = some e)
    (h : c.lookupAt key maxStale e.expiresAt ≠ none) : e.expiresAt + e.swr ≤ clockMax := by
  by_contra hover
  apply h
  unfold lookupAt
  simp only [he, if_neg (Nat.lt_irrefl _)]
  rw [addInstant_eq_none.mpr (by omega)]
  rfl

/-- The outage path adds the stale window of every entry that has one. -/
theorem stale_of_getForOutageAt (he : c.entries.lookup key = some e) (hres : e.resilient = true)
    (h : c.getForOutageAt key maxStale now ≠ none) : e.expiresAt + maxStale ≤ clockMax := by
  by_contra hover
  apply h
  unfold getForOutageAt
  simp only [he, hres, if_true]
  rw [addInstant_eq_none.mpr (by omega)]
  rfl

/-! ## Storing a response and looking it up -/

/-- No addition of storing the response and of looking it up later leaves the
clock's range, and an insertion that fails midway leaves the cache as it was.
The entry is found in any later state of the cache, under its key. -/
structure LifetimesInRange (c : ResponseCache σ) (etagOf : List UInt8 → String) (i : Insertion σ)
    (maxStale : Nat) : Prop where
  stores : (c.insertAt etagOf i).1 ≠ .panicked
  finds : (c.insertAt etagOf i).1 = .stored → ∀ (c' : ResponseCache σ) (e : CachedResponse σ),
    c'.entries.lookup i.key = some e →
      e.expiresAt = i.now + i.ttl ∧ e.swr = i.swr ∧ e.resilient = i.resilient →
        ∀ later, i.now ≤ later → later ≤ clockMax →
          c'.lookupAt i.key maxStale later ≠ none ∧ c'.getForOutageAt i.key maxStale later ≠ none
  unchanged : (c.insertAt etagOf i).1 = .panicked → (c.insertAt etagOf i).2 = c

theorem lifetimesInRange_of_refused {maxStale : Nat} (hend : (c.insertAt etagOf i).1 = .refused) :
    c.LifetimesInRange etagOf i maxStale := by
  refine ⟨?_, ?_, ?_⟩
  · rw [hend]
    decide
  · intro h
    rw [hend] at h
    cases h
  · intro h
    rw [hend] at h
    cases h

theorem lifetimesInRange_of_stored {maxStale : Nat} (hend : (c.insertAt etagOf i).1 = .stored)
    (hswr : i.now + i.ttl + i.swr ≤ clockMax)
    (hstale : i.resilient = true → i.now + i.ttl + maxStale ≤ clockMax) :
    c.LifetimesInRange etagOf i maxStale := by
  refine ⟨?_, ?_, ?_⟩
  · rw [hend]
    decide
  · rintro - c' e hlook ⟨hexp, hwin, hres⟩ later - -
    have hstale' : e.resilient = true → e.expiresAt + maxStale ≤ clockMax := by
      intro h
      have hends := hstale (hres ▸ h)
      omega
    exact ⟨lookupAt_ne_none hlook (by omega) hstale', getForOutageAt_ne_none hlook hstale'⟩
  · intro h
    rw [hend] at h
    cases h

/-- **Lifetimes.** A response that `response_cache_ttl` lets in is stored and
found within the clock exactly when it is not stored at all, or its lifetime
and its window end within the clock, and so does the stale window where the
service asked for one. -/
theorem lifetimes_in_range_iff (c : ResponseCache σ) (etagOf : List UInt8 → String)
    (i : Insertion σ) (maxStale : Nat) :
    responseCacheTtl i.headers = some i.ttl → i.swr = responseSwrWindow i.headers →
      (c.LifetimesInRange etagOf i maxStale ↔
        (c.admits i = true → i.now + i.ttl + i.swr ≤ clockMax ∧
          (i.resilient = true → i.now + i.ttl + maxStale ≤ clockMax))) := by
  intro _ _
  have hend := c.insertAt_fst etagOf i
  constructor
  · intro hrange hadmits
    rw [if_pos hadmits] at hend
    have hfits : i.now + i.ttl ≤ clockMax := by
      by_contra hover
      rw [if_neg hover] at hend
      exact hrange.stores hend
    rw [if_pos hfits] at hend
    obtain ⟨e, hlook, hfrom⟩ := insertAt_stored hend
    have hfound := hrange.finds hend _ e hlook hfrom e.expiresAt (by omega) (by omega)
    have hswr := swr_of_lookupAt hlook hfound.1
    refine ⟨by omega, fun hres => ?_⟩
    have hstale := stale_of_getForOutageAt hlook (hfrom.2.2.trans hres) hfound.2
    omega
  · intro hcond
    cases hadmits : c.admits i with
    | false =>
        rw [hadmits] at hend
        exact lifetimesInRange_of_refused hend
    | true =>
        obtain ⟨hswr, hstale⟩ := hcond hadmits
        rw [if_pos hadmits, if_pos (by omega)] at hend
        exact lifetimesInRange_of_stored hend hswr hstale

end ResponseCache

/-- A response with a validator of its own, and the lifetime its headers
name. -/
def pageInsertion (cacheControl : String) (ttl swr : Nat) : Insertion Unit where
  key := "app.test|/"
  headers := [("Cache-Control", cacheControl), ("ETag", "\"v1\"")]
  body := [104, 105]
  ttl := ttl
  maxBytes := 4096
  swr := swr
  evictedAt := 100
  now := 100
  origin := ()

/-- A minute, and half a minute more while somebody refreshes it. -/
def oneMinute : Insertion Unit :=
  pageInsertion "max-age=60, stale-while-revalidate=30" 60 30

theorem lifetimes_in_range_one_minute :
    ({} : ResponseCache Unit).LifetimesInRange (fun _ => "") oneMinute 3600 := by
  refine (ResponseCache.lifetimes_in_range_iff {} (fun _ => "") oneMinute 3600 ?_ ?_).mpr ?_
  · decide +kernel
  · decide +kernel
  · intro _
    refine ⟨?_, fun h => by cases h⟩
    show 100 + 60 + 30 ≤ 2 ^ 63 - 1
    omega

/-- The longest lifetime a header can name. -/
def longestLifetime : Insertion Unit :=
  pageInsertion "max-age=18446744073709551615" 18446744073709551615 0

/-- It is past the clock: the insertion fails once the body is counted, and
the cache is left with bytes of no entry. -/
theorem longest_lifetime_panics :
    responseCacheTtl longestLifetime.headers = some longestLifetime.ttl ∧
      longestLifetime.swr = responseSwrWindow longestLifetime.headers ∧
      ¬({} : ResponseCache Unit).LifetimesInRange (fun _ => "") longestLifetime 3600 ∧
      (({} : ResponseCache Unit).insertAt (fun _ => "") longestLifetime).1 = .panicked ∧
      (({} : ResponseCache Unit).insertAt (fun _ => "") longestLifetime).2.totalBytes = 2 ∧
      (({} : ResponseCache Unit).insertAt (fun _ => "") longestLifetime).2.entries = ∅ := by
  have hend : (({} : ResponseCache Unit).insertAt (fun _ => "") longestLifetime).1 = .panicked := by
    rfl
  refine ⟨by decide +kernel, by decide +kernel, ?_, hend, rfl, rfl⟩
  intro hrange
  exact hrange.stores hend

end Aperio
