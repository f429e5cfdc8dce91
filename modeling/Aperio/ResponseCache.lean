import Mathlib.Data.List.AList
import Mathlib.Data.List.Sort
import Aperio.CacheControl

/-!
# The response cache

`ResponseCache` of `cache.rs`: one response per host and address, kept for
its advertised lifetime, served a little longer while somebody refreshes it,
and longer still during an outage when the service that answered asked for
that. `origin` is not in the source: it says what an entry was stored from,
and nothing here reads it. The surrogate keys, which only a purge reads, are
left out, and the digest of `synthesize_etag` is an argument.
-/

namespace Aperio

/-! ## Keys -/

def trackingParams : List String :=
  ["gclid", "fbclid", "gbraid", "wbraid", "mc_cid", "mc_eid", "_ga", "igshid"]

def isTrackingParam (name : String) : Bool :=
  let n := toAsciiLowercase name
  startsWith n "utm_" || trackingParams.contains n

/-- The address without the parameters that only track. -/
def normalizeCacheUri (uri : String) : String :=
  match splitOnce uri '?' with
  | none => uri
  | some (path, query) =>
    let kept := (split query '&').filter fun p =>
      p != "" && !isTrackingParam ((split p '=').headD "")
    if kept.isEmpty then path else path ++ "?" ++ join kept "&"

def cacheKey (host : Option String) (uri : String) : String :=
  host.getD "" ++ "|" ++ normalizeCacheUri uri

example : cacheKey (some "app.test") "/a?utm_source=x&b=1" = "app.test|/a?b=1" := by decide

/-- `response_swr_window`, in seconds. -/
def responseSwrWindow (headers : List (String × String)) : Nat :=
  (headers.findSome? fun (name, value) =>
    if eqIgnoreAsciiCase name "cache-control" then
      (split value ',').findSome? fun d => directiveSecs "stale-while-revalidate=" (directiveText d)
    else none).getD 0

/-! ## Entries -/

structure CachedResponse (σ : Type) where
  status : Nat
  headers : List (String × String)
  body : List UInt8
  storedAt : Nat
  expiresAt : Nat
  resilient : Bool
  swr : Nat
  revalidateStarted : Option Nat := none
  origin : σ

structure CacheHit where
  status : Nat
  headers : List (String × String)
  body : List UInt8
  ageSecs : Nat
  stale : Bool
deriving Repr, DecidableEq

def CachedResponse.hit {σ : Type} (e : CachedResponse σ) (now : Nat) (stale : Bool) : CacheHit where
  status := e.status
  headers := e.headers
  body := e.body
  ageSecs := now - e.storedAt
  stale := stale

inductive SwrLookup where
  | fresh (hit : CacheHit)
  | staleRevalidate (hit : CacheHit) (lead : Bool)
  | miss
deriving Repr, DecidableEq

/-- A refresh that has not come back for this long is presumed lost. -/
def revalidateRetry : Nat := 15

structure ResponseCache (σ : Type) where
  entries : AList fun _ : String => CachedResponse σ := ∅
  totalBytes : Nat := 0
  hits : Nat := 0
  misses : Nat := 0

namespace ResponseCache

variable {σ : Type}

def remove (c : ResponseCache σ) (key : String) : ResponseCache σ :=
  match c.entries.lookup key with
  | none => c
  | some e => { c with entries := c.entries.erase key, totalBytes := c.totalBytes - e.body.length }

def lookup (c : ResponseCache σ) (key : String) (maxStale now : Nat) :
    SwrLookup × ResponseCache σ :=
  match c.entries.lookup key with
  | none => (.miss, { c with misses := c.misses + 1 })
  | some e =>
    if now < e.expiresAt then (.fresh (e.hit now false), { c with hits := c.hits + 1 })
    else if now < e.expiresAt + e.swr then
      let lead := e.revalidateStarted.all (revalidateRetry ≤ now - ·)
      let e' := if lead then { e with revalidateStarted := some now } else e
      (.staleRevalidate (e.hit now true) lead,
        { c with entries := c.entries.insert key e', hits := c.hits + 1 })
    else
      let c' := if e.resilient && decide (now < e.expiresAt + maxStale) then c else c.remove key
      (.miss, { c' with misses := c'.misses + 1 })

/-- The outage path: an entry whose service asked for it, within the window
past its lifetime. -/
def getForOutage (c : ResponseCache σ) (key : String) (maxStale now : Nat) :
    Option CacheHit × ResponseCache σ :=
  match c.entries.lookup key with
  | none => (none, c)
  | some e =>
    if !e.resilient || decide (e.expiresAt + maxStale ≤ now) then
      (none, if e.expiresAt ≤ now then c.remove key else c)
    else (some (e.hit now (decide (e.expiresAt ≤ now))), c)

/-- The expired ones first, then those closest to expiry, until there is
room. -/
def evict (size maxBytes now : Nat) : List (String × Nat) → ResponseCache σ → ResponseCache σ
  | [], c => c
  | (key, expiresAt) :: rest, c =>
    if c.totalBytes + size ≤ maxBytes ∧ now < expiresAt then c
    else evict size maxBytes now rest (c.remove key)

def byExpiry (c : ResponseCache σ) : List (String × Nat) :=
  (c.entries.entries.map fun e => (e.1, e.2.expiresAt)).insertionSort (·.2 ≤ ·.2)

/-- The old entry goes, and others when the new one does not fit. -/
def makeRoom (c : ResponseCache σ) (key : String) (size maxBytes now : Nat) : ResponseCache σ :=
  let c := c.remove key
  if maxBytes < c.totalBytes + size then evict size maxBytes now c.byExpiry c else c

/-- Fills in a validator where the backend sent none. -/
def withEtag (etagOf : List UInt8 → String) (headers : List (String × String))
    (body : List UInt8) : List (String × String) :=
  if headers.any fun h => eqIgnoreAsciiCase h.1 "etag" then headers
  else headers ++ [("etag", etagOf body)]

def insert (c : ResponseCache σ) (etagOf : List UInt8 → String) (key : String) (status : Nat)
    (headers : List (String × String)) (body : List UInt8) (ttl maxBytes : Nat) (resilient : Bool)
    (swr now : Nat) (origin : σ) : ResponseCache σ :=
  if maxBytes / 4 < body.length then c
  else
    let c := c.makeRoom key body.length maxBytes now
    if maxBytes < c.totalBytes + body.length then c
    else
      { c with
        totalBytes := c.totalBytes + body.length
        entries := c.entries.insert key
          { status := status
            headers := withEtag etagOf headers body
            body := body
            storedAt := now
            expiresAt := now + ttl
            resilient := resilient
            swr := swr
            origin := origin } }

/-! ## Where an entry comes from -/

variable {c : ResponseCache σ} {key k : String} {e : CachedResponse σ} {maxStale now : Nat}

theorem lookup_remove (h : (c.remove key).entries.lookup k = some e) :
    c.entries.lookup k = some e := by
  unfold remove at h
  split at h
  · exact h
  · by_cases hk : k = key
    · subst hk
      simp at h
    · rwa [AList.lookup_erase_ne hk] at h

theorem lookup_evict {size maxBytes : Nat} {order : List (String × Nat)} :
    ∀ {c : ResponseCache σ}, (evict size maxBytes now order c).entries.lookup k = some e →
      c.entries.lookup k = some e := by
  induction order with
  | nil =>
      intro c h
      exact h
  | cons x rest ih =>
      intro c h
      rw [evict] at h
      split at h
      · exact h
      · exact lookup_remove (ih h)

theorem lookup_makeRoom {size maxBytes : Nat}
    (h : (c.makeRoom key size maxBytes now).entries.lookup k = some e) :
    c.entries.lookup k = some e := by
  simp only [makeRoom] at h
  split at h
  · exact lookup_remove (lookup_evict h)
  · exact lookup_remove h

/-- A lookup keeps every entry's origin and whether it outlives its
lifetime. -/
theorem lookup_lookup (h : (c.lookup key maxStale now).2.entries.lookup k = some e) :
    ∃ e₀, c.entries.lookup k = some e₀ ∧ e.origin = e₀.origin ∧ e.resilient = e₀.resilient := by
  unfold lookup at h
  split at h
  · exact ⟨e, h, rfl, rfl⟩
  · rename_i e₀ he₀
    split at h
    · exact ⟨e, h, rfl, rfl⟩
    · split at h
      · by_cases hk : k = key
        · subst hk
          rw [AList.lookup_insert, Option.some.injEq] at h
          refine ⟨e₀, he₀, ?_, ?_⟩
          · rw [← h]
            split <;> rfl
          · rw [← h]
            split <;> rfl
        · rw [AList.lookup_insert_ne hk] at h
          exact ⟨e, h, rfl, rfl⟩
      · refine ⟨e, ?_, rfl, rfl⟩
        simp only at h
        split at h
        · exact h
        · exact lookup_remove h

theorem lookup_getForOutage (h : (c.getForOutage key maxStale now).2.entries.lookup k = some e) :
    c.entries.lookup k = some e := by
  unfold getForOutage at h
  split at h
  · exact h
  · split at h
    · simp only at h
      split at h
      · exact lookup_remove h
      · exact h
    · exact h

/-- The outage path serves an entry that is there and was stored for it. -/
theorem getForOutage_eq_some {hit : CacheHit} (h : (c.getForOutage key maxStale now).1 = some hit) :
    ∃ e, c.entries.lookup key = some e ∧ e.resilient = true := by
  unfold getForOutage at h
  split at h
  · cases h
  · rename_i e he
    refine ⟨e, he, ?_⟩
    split at h
    · cases h
    · rename_i hcond
      simp only [Bool.or_eq_true, Bool.not_eq_true', not_or, Bool.not_eq_false] at hcond
      exact hcond.1

/-- An insertion adds one entry and changes none. -/
theorem lookup_insert {etagOf : List UInt8 → String} {status ttl maxBytes swr : Nat}
    {headers : List (String × String)} {body : List UInt8} {resilient : Bool} {origin : σ}
    (h : (c.insert etagOf key status headers body ttl maxBytes resilient swr now
      origin).entries.lookup k = some e) :
    c.entries.lookup k = some e ∨ (e.origin = origin ∧ e.resilient = resilient) := by
  unfold insert at h
  split at h
  · exact Or.inl h
  · simp only at h
    split at h
    · exact Or.inl (lookup_makeRoom h)
    · by_cases hk : k = key
      · subst hk
        rw [AList.lookup_insert, Option.some.injEq] at h
        rw [← h]
        exact Or.inr ⟨rfl, rfl⟩
      · rw [AList.lookup_insert_ne hk] at h
        exact Or.inl (lookup_makeRoom h)

end ResponseCache

end Aperio
