import Aperio.CacheClock
import Aperio.KeyedSum
import Aperio.Run

/-!
# What the cache thinks it holds

`total_bytes` of `ResponseCache` (`cache.rs`) is adjusted by hand in every
operation that adds or drops an entry. It is meant to be the sum of the stored
bodies, which is `storedBytes`. An entry's origin is its surrogate keys here,
which is what `purge_by_surrogate` reads of it.

The numbers are those of bodies the process holds, so their sums are below
`2 ^ 64`. An operation that panics ends where it panicked.
-/

namespace Aperio

namespace ResponseCache

variable {σ : Type}

/-! ## Purging -/

/-- Drops every entry. -/
def clear (c : ResponseCache σ) : ResponseCache σ :=
  { c with entries := ∅, totalBytes := 0 }

def removeAll (c : ResponseCache σ) (keys : List String) : ResponseCache σ :=
  keys.foldl remove c

/-- Purges one request hostname. Every purge also says how many entries it
picked. -/
def purgeHost (c : ResponseCache σ) (host : String) : Nat × ResponseCache σ :=
  let keys := c.entries.keys.filter fun k => startsWith k (host ++ "|")
  (keys.length, c.removeAll keys)

def purgeBySurrogate (c : ResponseCache (List String)) (tag : String) :
    Nat × ResponseCache (List String) :=
  let keys := (c.entries.entries.filter fun e => e.2.origin.any (· == tag)).map (·.1)
  (keys.length, c.removeAll keys)

/-- Purges by hostname and by the start of the address; with neither, all of
it. -/
def purgeMatching (c : ResponseCache σ) (host pathPrefix : Option String) :
    Nat × ResponseCache σ :=
  if host.isNone && pathPrefix.isNone then (c.entries.entries.length, c.clear)
  else
    let keys := c.entries.keys.filter fun k =>
      let (keyHost, keyUri) := (splitOnce k '|').getD ("", k)
      host.all (fun h => eqIgnoreAsciiCase keyHost h) && pathPrefix.all (startsWith keyUri)
    (keys.length, c.removeAll keys)

/-! ## The account -/

/-- The bytes of the stored bodies. -/
def storedBytes (c : ResponseCache σ) : Nat :=
  sumOver (fun _ e => e.body.length) c.entries

def Accounted (c : ResponseCache σ) : Prop :=
  c.totalBytes = c.storedBytes

variable {c : ResponseCache σ} {key : String} {e : CachedResponse σ} {i : Insertion σ}
  {etagOf : List UInt8 → String} {maxStale now size maxBytes : Nat}

/-- A removal takes off what was counted, so the subtraction never
saturates. -/
theorem Accounted.remove (hc : c.Accounted) (key : String) : (c.remove key).Accounted := by
  unfold ResponseCache.remove
  split
  · exact hc
  · rename_i e he
    have hsum : c.storedBytes = e.body.length + sumOver _ (c.entries.erase key) :=
      sumOver_of_lookup _ he
    have htotal : c.totalBytes = c.storedBytes := hc
    show c.totalBytes - e.body.length = sumOver _ (c.entries.erase key)
    omega

theorem Accounted.removeAll (hc : c.Accounted) (keys : List String) :
    (c.removeAll keys).Accounted := by
  induction keys generalizing c with
  | nil => exact hc
  | cons key rest ih => exact ih (hc.remove key)

theorem Accounted.evict {order : List (String × Nat)} (hc : c.Accounted) :
    (ResponseCache.evict size maxBytes now order c).Accounted := by
  induction order generalizing c with
  | nil => exact hc
  | cons x rest ih =>
      rw [ResponseCache.evict]
      split
      · exact hc
      · exact ih (hc.remove x.1)

theorem Accounted.makeRoom (hc : c.Accounted) :
    (c.makeRoom key size maxBytes now).Accounted := by
  simp only [ResponseCache.makeRoom]
  split
  · exact (hc.remove key).evict
  · exact hc.remove key

theorem accounted_clear : c.clear.Accounted := rfl

/-- The counters of hits and misses are no part of the account. -/
theorem Accounted.counters (hc : c.Accounted) (hits misses : Nat) :
    Accounted { c with hits := hits, misses := misses } := hc

theorem Accounted.lookup (hc : c.Accounted) : (c.lookup key maxStale now).2.Accounted := by
  unfold ResponseCache.lookup
  split
  · exact hc.counters _ _
  · rename_i e he
    split
    · exact hc.counters _ _
    · split
      · -- the entry is put back with its refresh marked, and its body is the same
        have hsum : c.storedBytes = e.body.length + sumOver _ (c.entries.erase key) :=
          sumOver_of_lookup _ he
        show c.totalBytes = sumOver _ (c.entries.insert key _)
        rw [sumOver_insert]
        refine (hc.trans hsum).trans ?_
        congr 1
        split <;> rfl
      · simp only
        split
        · exact hc.counters _ _
        · exact (hc.remove key).counters _ _

theorem Accounted.getForOutage (hc : c.Accounted) :
    (c.getForOutage key maxStale now).2.Accounted := by
  unfold ResponseCache.getForOutage
  split
  · exact hc
  · split
    · simp only
      split
      · exact hc.remove key
      · exact hc
    · exact hc

/-! ## Room for one more -/

theorem mem_remove {k : String} : k ∈ (c.remove key).entries ↔ k ≠ key ∧ k ∈ c.entries := by
  unfold ResponseCache.remove
  split
  · rename_i hnone
    have hkey : key ∉ c.entries := AList.lookup_eq_none.mp hnone
    constructor
    · intro hk
      exact ⟨fun h => hkey (h ▸ hk), hk⟩
    · intro hk
      exact hk.2
  · exact AList.mem_erase

/-- An eviction that has every entry in its list ends with room, or with
nothing. -/
theorem evict_fits {order : List (String × Nat)} (hc : c.Accounted) (hsize : size ≤ maxBytes)
    (hall : ∀ k ∈ c.entries, k ∈ order.map (·.1)) :
    (ResponseCache.evict size maxBytes now order c).totalBytes + size ≤ maxBytes := by
  induction order generalizing c with
  | nil =>
      have hnone : c.entries.entries = [] := by
        rw [List.eq_nil_iff_forall_not_mem]
        intro e he
        exact absurd (hall e.1 (List.mem_map_of_mem he)) List.not_mem_nil
      have hzero : c.storedBytes = 0 := by
        rw [storedBytes, sumOver, hnone]
        rfl
      have htotal : c.totalBytes = c.storedBytes := hc
      show c.totalBytes + size ≤ maxBytes
      omega
  | cons x rest ih =>
      rw [ResponseCache.evict]
      split
      · rename_i hroom
        exact hroom.1
      · refine ih (hc.remove x.1) fun k hk => ?_
        obtain ⟨hne, hmem⟩ := mem_remove.mp hk
        exact (List.mem_cons.mp (hall k hmem)).resolve_left hne

theorem makeRoom_fits (hc : c.Accounted) (hsize : size ≤ maxBytes) :
    (c.makeRoom key size maxBytes now).totalBytes + size ≤ maxBytes := by
  simp only [ResponseCache.makeRoom]
  split
  · refine evict_fits (hc.remove key) hsize fun k hk => ?_
    rw [byExpiry]
    obtain ⟨e, he, rfl⟩ := List.mem_map.mp (AList.mem_keys.mp hk)
    refine List.mem_map.mpr ⟨(e.1, e.2.expiresAt), ?_, rfl⟩
    rw [List.mem_insertionSort]
    exact List.mem_map_of_mem he
  · rename_i hroom
    exact Nat.le_of_not_lt hroom

/-- There is no entry for the key once there is room. -/
theorem lookup_makeRoom_self :
    (c.makeRoom key size maxBytes now).entries.lookup key = none := by
  have hgone : (c.remove key).entries.lookup key = none := by
    rw [AList.lookup_eq_none, mem_remove]
    exact fun h => h.1 rfl
  simp only [ResponseCache.makeRoom]
  split
  · cases hlook : (evict size maxBytes now (c.remove key).byExpiry (c.remove key)).entries.lookup
        key with
    | none => rfl
    | some e =>
        rw [lookup_evict hlook] at hgone
        cases hgone
  · exact hgone

/-! ## One insertion -/

/-- The insertion does not reach the clock, or stays within it, or has no
bytes to lose. -/
def WithinClock (i : Insertion σ) : Prop :=
  i.maxBytes / 4 < i.body.length ∨ i.body.length = 0 ∨ i.now + i.ttl ≤ clockMax

instance (i : Insertion σ) : Decidable (WithinClock i) :=
  inferInstanceAs (Decidable (_ ∨ _ ∨ _))

/-- What a stored or a panicking insertion counts. -/
theorem insertAt_totalBytes (hend : (c.insertAt etagOf i).1 ≠ .refused) :
    (c.insertAt etagOf i).2.totalBytes =
      (c.makeRoom i.key i.body.length i.maxBytes i.evictedAt).totalBytes + i.body.length := by
  unfold insertAt at hend ⊢
  split
  · rename_i hshare
    rw [if_pos hshare] at hend
    exact absurd rfl hend
  · rename_i hshare
    rw [if_neg hshare] at hend
    simp only at hend ⊢
    split
    · rename_i hfits
      rw [if_pos hfits] at hend
      exact absurd rfl hend
    · cases addInstant i.now i.ttl <;> rfl

/-- An insertion keeps the account exactly within the clock. -/
theorem accounted_insertAt_iff (hc : c.Accounted) :
    (c.insertAt etagOf i).2.Accounted ↔ WithinClock i := by
  have hroom : (c.makeRoom i.key i.body.length i.maxBytes i.evictedAt).Accounted := hc.makeRoom
  unfold insertAt WithinClock
  by_cases hshare : i.maxBytes / 4 < i.body.length
  · simp [hshare, hc]
  · have hfits := @makeRoom_fits σ c i.key i.evictedAt i.body.length i.maxBytes hc (by omega)
    rw [if_neg hshare]
    simp only [if_neg (Nat.not_lt.mpr hfits)]
    rw [or_iff_right hshare]
    have htotal := hroom
    unfold Accounted at htotal
    cases hadd : addInstant i.now i.ttl with
    | none =>
        have hpast := addInstant_eq_none.mp hadd
        simp only [Accounted, storedBytes] at htotal ⊢
        rw [htotal]
        omega
    | some expiresAt =>
        obtain ⟨-, hclock⟩ := addInstant_eq_some hadd
        simp only [Accounted, storedBytes, hclock, or_true, iff_true] at htotal ⊢
        rw [sumOver_insert, erase_of_lookup_eq_none lookup_makeRoom_self, htotal]
        exact Nat.add_comm _ _

/-- What is stored is within the budget of the insertion that stored it. -/
theorem totalBytes_le_of_stored (h : (c.insertAt etagOf i).1 = .stored) :
    (c.insertAt etagOf i).2.totalBytes ≤ i.maxBytes := by
  rw [insertAt_totalBytes (by rw [h]; decide)]
  rw [insertAt_fst] at h
  split at h
  · rename_i hadmits
    simp only [admits, Bool.and_eq_true, decide_eq_true_eq] at hadmits
    exact hadmits.2
  · cases h

/-! ## Every sequence of operations -/

end ResponseCache

inductive CacheOp where
  | insert (i : Insertion (List String))
  | lookup (key : String) (maxStale now : Nat)
  | getForOutage (key : String) (maxStale now : Nat)
  | purgeHost (host : String)
  | purgeBySurrogate (tag : String)
  | purgeMatching (host pathPrefix : Option String)
  | clear

/-- The cache after one operation. A lookup that panics has changed
nothing. -/
def ResponseCache.perform (etagOf : List UInt8 → String) (c : ResponseCache (List String)) :
    CacheOp → ResponseCache (List String)
  | .insert i => (c.insertAt etagOf i).2
  | .lookup key maxStale now => ((c.lookupAt key maxStale now).map (·.2)).getD c
  | .getForOutage key maxStale now => ((c.getForOutageAt key maxStale now).map (·.2)).getD c
  | .purgeHost host => (c.purgeHost host).2
  | .purgeBySurrogate tag => (c.purgeBySurrogate tag).2
  | .purgeMatching host pathPrefix => (c.purgeMatching host pathPrefix).2
  | .clear => c.clear

def CacheOp.WithinClock : CacheOp → Prop
  | .insert i => ResponseCache.WithinClock i
  | _ => True

instance (op : CacheOp) : Decidable op.WithinClock :=
  match op with
  | .insert i => inferInstanceAs (Decidable (ResponseCache.WithinClock i))
  | .lookup .. => .isTrue trivial
  | .getForOutage .. => .isTrue trivial
  | .purgeHost _ => .isTrue trivial
  | .purgeBySurrogate _ => .isTrue trivial
  | .purgeMatching .. => .isTrue trivial
  | .clear => .isTrue trivial

def cacheSys (etagOf : List UInt8 → String) : Sys (ResponseCache (List String)) CacheOp where
  init c := c = {}
  step c op c' := c' = c.perform etagOf op

/-- The sequences whose insertions all stay within the clock. -/
def clockedSys (etagOf : List UInt8 → String) : Sys (ResponseCache (List String)) CacheOp :=
  (cacheSys etagOf).restrict fun _ op _ => op.WithinClock

theorem accounted_perform {etagOf : List UInt8 → String} {c : ResponseCache (List String)}
    {op : CacheOp} (hc : c.Accounted) (hop : op.WithinClock) :
    (c.perform etagOf op).Accounted := by
  cases op with
  | insert i => exact (ResponseCache.accounted_insertAt_iff hc).mpr hop
  | lookup key maxStale now =>
      simp only [ResponseCache.perform]
      cases h : c.lookupAt key maxStale now with
      | none => exact hc
      | some r =>
          rw [ResponseCache.lookupAt_eq_lookup h]
          exact hc.lookup
  | getForOutage key maxStale now =>
      simp only [ResponseCache.perform]
      cases h : c.getForOutageAt key maxStale now with
      | none => exact hc
      | some r =>
          rw [ResponseCache.getForOutageAt_eq_getForOutage h]
          exact hc.getForOutage
  | purgeHost host => exact hc.removeAll _
  | purgeBySurrogate tag => exact hc.removeAll _
  | purgeMatching host pathPrefix =>
      simp only [ResponseCache.perform, ResponseCache.purgeMatching]
      split
      · exact ResponseCache.accounted_clear
      · exact hc.removeAll _
  | clear => exact ResponseCache.accounted_clear

/-- **The ledger.** After every sequence of operations whose insertions stay
within the clock, the bytes counted are those stored and no key is stored
twice. From there an insertion that stores its entry ends within its budget,
and an insertion keeps the count right exactly when it stays within the
clock. -/
theorem cache_accounting (etagOf : List UInt8 → String) :
    ∀ c, (clockedSys etagOf).Reachable c →
      c.totalBytes = c.storedBytes ∧ c.entries.keys.Nodup ∧
      ∀ i, ((c.insertAt etagOf i).1 = .stored →
          (c.insertAt etagOf i).2.totalBytes ≤ i.maxBytes) ∧
        ((c.insertAt etagOf i).2.totalBytes = (c.insertAt etagOf i).2.storedBytes ↔
          ResponseCache.WithinClock i) := by
  intro c hc
  have hacc : c.Accounted := by
    refine hc.invariant (P := ResponseCache.Accounted) ?_ ?_
    · rintro _ rfl
      exact rfl
    · rintro c op _ - hacc ⟨rfl, hop⟩
      exact accounted_perform hacc hop
  exact ⟨hacc, c.entries.keys_nodup, fun i =>
    ⟨ResponseCache.totalBytes_le_of_stored, ResponseCache.accounted_insertAt_iff hacc⟩⟩

/-- A page of four bytes with a validator of its own. -/
def taggedPage (ttl : Nat) : Insertion (List String) where
  key := "app.test|/"
  headers := [("ETag", "\"v1\"")]
  body := [112, 97, 103, 101]
  ttl := ttl
  maxBytes := 4096
  swr := 0
  evictedAt := 100
  now := 100
  origin := ["front"]

theorem cache_accounting_page : ∃ c, (clockedSys fun _ => "").Reachable c ∧
    c.totalBytes = 4 ∧ c.totalBytes = c.storedBytes := by
  have hrun : (clockedSys fun _ => "").Reachable
      ((({} : ResponseCache (List String)).perform (fun _ => "") (.insert (taggedPage 60))).perform
        (fun _ => "") (.lookup "app.test|/" 3600 130)) :=
    .step (.step (.init rfl) ⟨rfl, by decide⟩) ⟨rfl, trivial⟩
  exact ⟨_, hrun, rfl, (cache_accounting (fun _ => "") _ hrun).1⟩

/-- A lifetime past the clock leaves bytes of no entry in the count. -/
theorem lifetime_past_clock_drifts :
    ∃ c, (cacheSys fun _ => "").Reachable c ∧ c.totalBytes = 4 ∧ c.storedBytes = 0 :=
  ⟨_, .step (.init rfl)
    (rfl : _ = ({} : ResponseCache (List String)).perform (fun _ => "")
      (.insert (taggedPage 18446744073709551615))), rfl, rfl⟩

end Aperio
