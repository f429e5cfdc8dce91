import Aperio.CacheLedger
import Aperio.HostPatterns
import Aperio.Passwords

/-!
# Keys of the response cache

`cache_key` puts a `|` between the host of a request and its address, and the
purges of one hostname find its entries by what stands before it. An address in
its cached spelling can be taken apart again; a key can where the host holds no
bar, and `extract_request_host` lets bars through. What two hosts need of each
other is that neither is the start of the other with a bar behind it.
-/

namespace Aperio

/-! ## Addresses -/

/-- The path of an address. -/
def cachedPath (uri : String) : String :=
  ((splitOnce uri '?').map (·.1)).getD uri

/-- The parameters of an address that count. -/
def cachedParams (uri : String) : List String :=
  match splitOnce uri '?' with
  | none => []
  | some (_, query) => (split query '&').filter fun p =>
      p != "" && !isTrackingParam ((split p '=').headD "")

theorem normalizeCacheUri_eq (uri : String) :
    normalizeCacheUri uri =
      if cachedParams uri = [] then cachedPath uri
      else cachedPath uri ++ "?" ++ join (cachedParams uri) "&" := by
  unfold normalizeCacheUri cachedParams cachedPath
  split
  · rename_i hnone
    simp [hnone]
  · rename_i path query hsome
    simp only [hsome, Option.map_some, Option.getD_some, List.isEmpty_iff]

theorem not_mem_cachedPath (uri : String) : '?' ∉ (cachedPath uri).toList := by
  unfold cachedPath
  cases h : splitOnce uri '?' with
  | none =>
      unfold splitOnce at h
      split at h
      · cases h
      · assumption
  | some parts => exact (splitOnce_eq_some.mp h).2

theorem not_mem_of_mem_cachedParams {uri p : String} (h : p ∈ cachedParams uri) :
    '&' ∉ p.toList := by
  unfold cachedParams at h
  split at h
  · cases h
  · exact not_mem_of_mem_split (List.mem_filter.mp h).1

theorem splitOnce_query {uri : String} (h : cachedParams uri ≠ []) :
    splitOnce (normalizeCacheUri uri) '?' = some (cachedPath uri, join (cachedParams uri) "&") := by
  rw [normalizeCacheUri_eq, if_neg h, splitOnce_eq_some]
  exact ⟨by simp, not_mem_cachedPath uri⟩

theorem splitOnce_plain {uri : String} (h : cachedParams uri = []) :
    splitOnce (normalizeCacheUri uri) '?' = none := by
  rw [normalizeCacheUri_eq, if_pos h]
  exact if_neg (not_mem_cachedPath uri)

/-- The cached spelling says the path and the parameters that count. -/
theorem normalizeCacheUri_spec {u₁ u₂ : String} (h : normalizeCacheUri u₁ = normalizeCacheUri u₂) :
    cachedPath u₁ = cachedPath u₂ ∧ cachedParams u₁ = cachedParams u₂ := by
  by_cases h₁ : cachedParams u₁ = []
  · by_cases h₂ : cachedParams u₂ = []
    · rw [normalizeCacheUri_eq, normalizeCacheUri_eq, if_pos h₁, if_pos h₂] at h
      exact ⟨h, by rw [h₁, h₂]⟩
    · have hsplit := splitOnce_query h₂
      rw [← h, splitOnce_plain h₁] at hsplit
      cases hsplit
  · by_cases h₂ : cachedParams u₂ = []
    · have hsplit := splitOnce_query h₁
      rw [h, splitOnce_plain h₂] at hsplit
      cases hsplit
    · have hsplit := splitOnce_query h₁
      rw [h, splitOnce_query h₂, Option.some_inj, Prod.mk.injEq] at hsplit
      have hjoin {u : String} (hu : cachedParams u ≠ []) :
          split (join (cachedParams u) "&") '&' = cachedParams u := by
        rw [show "&" = String.singleton '&' by decide]
        exact split_join hu fun p hp => not_mem_of_mem_cachedParams hp
      refine ⟨hsplit.1.symm, ?_⟩
      rw [← hjoin h₁, ← hjoin h₂, hsplit.2]

/-! ## Bars -/

/-- A host is the start of another, with a bar behind it. -/
def startsWithBar (host start : String) : Bool :=
  startsWith host (start ++ "|")

/-- One front goes on behind the other: by nothing, or by a bar first. -/
theorem startsWithBar_of_more {h₁ h₂ r₁ r₂ : String} {more : List Char}
    (hmore : h₂.toList = h₁.toList ++ more)
    (hrest : "|".toList ++ r₁.toList = more ++ ("|".toList ++ r₂.toList)) :
    h₁ = h₂ ∧ r₁ = r₂ ∨ startsWithBar h₂ h₁ = true := by
  have hbar : "|".toList = ['|'] := rfl
  rw [hbar, List.singleton_append, List.singleton_append] at hrest
  cases more with
  | nil =>
      rw [List.append_nil] at hmore
      rw [List.nil_append, List.cons.injEq] at hrest
      exact Or.inl ⟨(String.toList_inj.mp hmore).symm, String.toList_inj.mp hrest.2⟩
  | cons c more =>
      rw [List.cons_append, List.cons.injEq] at hrest
      refine Or.inr ?_
      rw [startsWithBar, startsWith_iff, String.toList_append, hmore, hbar, ← hrest.1]
      exact ⟨more, by rw [List.append_assoc, List.singleton_append]⟩

/-- Two texts around bars: the fronts are the same, or one goes on with a bar
behind the other. -/
theorem fronts_of_eq {h₁ h₂ r₁ r₂ : String} (h : h₁ ++ "|" ++ r₁ = h₂ ++ "|" ++ r₂) :
    h₁ = h₂ ∧ r₁ = r₂ ∨ startsWithBar h₂ h₁ = true ∨ startsWithBar h₁ h₂ = true := by
  have hlist := congrArg String.toList h
  simp only [String.toList_append, List.append_assoc] at hlist
  rcases List.append_eq_append_iff.mp hlist with ⟨more, hmore, hrest⟩ | ⟨more, hmore, hrest⟩
  · exact (startsWithBar_of_more hmore hrest).imp_right Or.inl
  · rcases startsWithBar_of_more hmore hrest with ⟨hhost, hsame⟩ | hbar
    · exact Or.inl ⟨hhost.symm, hsame.symm⟩
    · exact Or.inr (Or.inr hbar)

/-! ## Purging -/

namespace ResponseCache

variable {σ : Type} {c : ResponseCache σ} {key : String}

theorem lookup_remove_ne {k : String} (h : key ≠ k) :
    (c.remove k).entries.lookup key = c.entries.lookup key := by
  unfold remove
  split
  · rfl
  · exact AList.lookup_erase_ne h

theorem lookup_removeAll {keys : List String} (h : key ∉ keys) :
    (c.removeAll keys).entries.lookup key = c.entries.lookup key := by
  induction keys generalizing c with
  | nil => rfl
  | cons k keys ih =>
      have hk : key ≠ k := fun heq => h (heq ▸ List.mem_cons_self)
      have hkeys : key ∉ keys := fun hmem => h (List.mem_cons_of_mem _ hmem)
      rw [removeAll, List.foldl_cons, ← removeAll, ih hkeys, lookup_remove_ne hk]

theorem lookup_remove_self : (c.remove key).entries.lookup key = none := by
  unfold remove
  split
  · assumption
  · exact AList.lookup_erase key c.entries

theorem lookup_removeAll_none {keys : List String} (h : c.entries.lookup key = none) :
    (c.removeAll keys).entries.lookup key = none := by
  induction keys generalizing c with
  | nil => exact h
  | cons k keys ih =>
      refine ih ?_
      by_cases hk : key = k
      · subst hk
        exact lookup_remove_self
      · rw [lookup_remove_ne hk, h]

theorem lookup_removeAll_mem {keys : List String} (h : key ∈ keys) :
    (c.removeAll keys).entries.lookup key = none := by
  induction keys generalizing c with
  | nil => cases h
  | cons k keys ih =>
      rw [removeAll, List.foldl_cons, ← removeAll]
      rcases List.mem_cons.mp h with rfl | hmem
      · exact lookup_removeAll_none lookup_remove_self
      · exact ih hmem

end ResponseCache

/-- A purge of `host` leaves what is stored for the host `other`. -/
def Spares (host : String) (other : Option String) : Prop :=
  ∀ (c : ResponseCache (List String)) (uri : String), startsWith uri "/" = true →
    (c.purgeHost host).2.entries.lookup (cacheKey other uri) =
        c.entries.lookup (cacheKey other uri) ∧
      ∀ pathPrefix, (c.purgeMatching (some host) pathPrefix).2.entries.lookup (cacheKey other uri) =
        c.entries.lookup (cacheKey other uri)

/-- Requests under the two hosts share a key where they are one request to the
cache, and neither host's entries are purged as the other's. -/
def KeysSeparate (h₁ h₂ : Option String) : Prop :=
  (∀ u₁ u₂, startsWith u₁ "/" = true → startsWith u₂ "/" = true →
    cacheKey h₁ u₁ = cacheKey h₂ u₂ →
    h₁ = h₂ ∧ cachedPath u₁ = cachedPath u₂ ∧ cachedParams u₁ = cachedParams u₂) ∧
  (h₁ ≠ h₂ → Spares (h₁.getD "") h₂ ∧ Spares (h₂.getD "") h₁)

/-! ## Hosts -/

theorem extractRequestHost_ne_empty (raw : Option String) : extractRequestHost raw ≠ some "" := by
  intro h
  have hfilter := (Option.filter_eq_some_iff.mp h).2
  simp at hfilter

theorem extractRequestHost_lower {raw : Option String} {host : String}
    (h : extractRequestHost raw = some host) : ∀ c ∈ host.toList, c.toLower = c := by
  have hpart {s d : String} {sep : Char} (hs : ∀ c ∈ s.toList, c.toLower = c)
      (hd : (split s sep).headD "" = d) : ∀ c ∈ d.toList, c.toLower = c := by
    intro c hc
    cases hsplit : split s sep with
    | nil => exact absurd hsplit (split_ne_nil s sep)
    | cons first rest =>
        rw [hsplit, List.headD_cons] at hd
        subst hd
        exact hs c (mem_of_mem_split (hsplit ▸ List.mem_cons_self) hc).1
  have hmap := (Option.filter_eq_some_iff.mp h).1
  obtain ⟨text, -, hhost⟩ := Option.map_eq_some_iff.mp hmap
  have hlower : ∀ c ∈ (toAsciiLowercase (trim text)).toList, c.toLower = c :=
    fun c hc => toLower_of_mem_toAsciiLowercase hc
  dsimp only at hhost
  split at hhost
  · rename_i stripped hstrip
    refine hpart (fun c hc => hlower c ?_) hhost
    rw [stripPrefix_eq_some.mp hstrip]
    exact List.mem_append_right _ hc
  · exact hpart hlower hhost

/-! ## One host's entries -/

section

variable {host : String} {other : Option String}

theorem spares_of_not (hne : host ≠ other.getD "") (hhost : ∀ c ∈ host.toList, c.toLower = c)
    (hother : ∀ c ∈ (other.getD "").toList, c.toLower = c)
    (hbar : startsWithBar (other.getD "") host = false)
    (hbar' : startsWithBar host (other.getD "") = false) : Spares host other := by
  intro c uri _
  -- a front of the key that is the host
  have hfront : ∀ rest, cacheKey other uri ≠ host ++ "|" ++ rest := by
    intro rest hkey
    rcases fronts_of_eq hkey with ⟨heq, -⟩ | h | h
    · exact hne heq.symm
    · cases hbar'.symm.trans h
    · cases hbar.symm.trans h
  refine ⟨ResponseCache.lookup_removeAll fun hmem => ?_, fun pathPrefix =>
    ResponseCache.lookup_removeAll fun hmem => ?_⟩
  · have hstart := (List.mem_filter.mp hmem).2
    obtain ⟨rest, hrest⟩ := startsWith_iff.mp hstart
    refine hfront (String.ofList rest) (String.toList_inj.mp ?_)
    rw [String.toList_append, String.toList_ofList, hrest]
  · have hpicked := (List.mem_filter.mp hmem).2
    rw [Bool.and_eq_true, Option.all_some] at hpicked
    obtain ⟨hsame, -⟩ := hpicked
    cases hsplit : splitOnce (cacheKey other uri) '|' with
    | none =>
        unfold splitOnce at hsplit
        split at hsplit
        · cases hsplit
        · rename_i hnone
          exact hnone (by simp [cacheKey])
    | some parts =>
        obtain ⟨keyHost, keyUri⟩ := parts
        rw [hsplit, Option.getD_some] at hsame
        obtain ⟨hkey, hnobar⟩ := splitOnce_eq_some.mp hsplit
        have htext : cacheKey other uri = keyHost ++ "|" ++ keyUri :=
          String.toList_inj.mp (by simpa using hkey)
        have hlower : ∀ c ∈ keyHost.toList, c.toLower = c := by
          rcases fronts_of_eq htext with ⟨heq, -⟩ | h | h
          · exact heq ▸ hother
          · rw [startsWithBar, startsWith_iff, String.toList_append] at h
            exact absurd (h.subset (List.mem_append_right _ (by decide))) hnobar
          · rw [startsWithBar, startsWith_iff, String.toList_append] at h
            exact fun c hc => hother c (h.subset (List.mem_append_left _ hc))
        rw [(eqIgnoreAsciiCase_iff hlower hhost).mp hsame] at htext
        exact hfront keyUri htext

/-- The purge of a host takes the entries of one that goes on with a bar. -/
theorem not_spares (h : startsWithBar (other.getD "") host = true) : ¬Spares host other := by
  intro hspares
  let stored : CachedResponse (List String) :=
    { status := 200, headers := [], body := [], storedAt := 0, expiresAt := 0, resilient := false,
      swr := 0, origin := [] }
  let c : ResponseCache (List String) :=
    { entries := (∅ : AList fun _ : String => CachedResponse (List String)).insert
        (cacheKey other "/") stored }
  have hlookup : c.entries.lookup (cacheKey other "/") = some stored := AList.lookup_insert _
  have hstart : startsWith (cacheKey other "/") (host ++ "|") = true := by
    rw [startsWithBar, startsWith_iff] at h
    rw [startsWith_iff, cacheKey, String.append_assoc, String.toList_append (s := other.getD "")]
    exact h.trans (List.prefix_append _ _)
  have hmem : cacheKey other "/" ∈ c.entries.keys.filter fun k => startsWith k (host ++ "|") := by
    refine List.mem_filter.mpr ⟨?_, hstart⟩
    exact AList.mem_keys.mp (AList.lookup_isSome.mp (by rw [hlookup]; rfl))
  have hkept := (hspares c "/" (by decide)).1
  rw [ResponseCache.purgeHost, ResponseCache.lookup_removeAll_mem hmem, hlookup] at hkept
  cases hkept

end

/-- **Keys separate requests** under two hosts exactly where neither goes on
with a bar behind the other. -/
theorem cache_keys_separate (raw₁ raw₂ : Option String) :
    KeysSeparate (extractRequestHost raw₁) (extractRequestHost raw₂) ↔
      startsWithBar ((extractRequestHost raw₂).getD "") ((extractRequestHost raw₁).getD "") = false ∧
      startsWithBar ((extractRequestHost raw₁).getD "") ((extractRequestHost raw₂).getD "") =
        false := by
  have hnobar : ∀ h : String, startsWithBar h h = false := by
    intro h
    rw [startsWithBar, Bool.eq_false_iff]
    intro hstart
    have hlen := (startsWith_iff.mp hstart).length_le
    rw [String.toList_append, List.length_append] at hlen
    exact absurd hlen (by simp)
  have hname {raw raw' : Option String}
      (h : (extractRequestHost raw).getD "" = (extractRequestHost raw').getD "") :
      extractRequestHost raw = extractRequestHost raw' := by
    have hempty := extractRequestHost_ne_empty raw
    have hempty' := extractRequestHost_ne_empty raw'
    cases hx : extractRequestHost raw <;> cases hy : extractRequestHost raw' <;> simp_all
  have hlower (raw : Option String) :
      ∀ c ∈ ((extractRequestHost raw).getD "").toList, c.toLower = c := by
    cases h : extractRequestHost raw with
    | none => simp
    | some host => exact extractRequestHost_lower h
  have hapart {h h' : Option String} (hspares : h ≠ h' → Spares (h.getD "") h') :
      startsWithBar (h'.getD "") (h.getD "") = false := by
    by_contra hbar
    rw [Bool.not_eq_false] at hbar
    refine not_spares hbar (hspares ?_)
    rintro rfl
    rw [hnobar] at hbar
    cases hbar
  constructor
  · rintro ⟨-, hpurge⟩
    exact ⟨hapart fun hne => (hpurge hne).1, hapart fun hne => (hpurge hne.symm).2⟩
  · rintro ⟨hbar, hbar'⟩
    refine ⟨fun u₁ u₂ _ _ hkey => ?_, fun hne => ⟨?_, ?_⟩⟩
    · rcases fronts_of_eq hkey with ⟨hhost, huri⟩ | h | h
      · exact ⟨hname hhost, normalizeCacheUri_spec huri⟩
      · cases hbar.symm.trans h
      · cases hbar'.symm.trans h
    · exact spares_of_not (fun h => hne (hname h)) (hlower raw₁) (hlower raw₂) hbar hbar'
    · exact spares_of_not (fun h => hne (hname h.symm)) (hlower raw₂) (hlower raw₁) hbar' hbar

/-- Two hosts a request can name, one key; and a purge of the one takes what is
stored for the other. -/
theorem cache_keys_bar :
    extractRequestHost (some "a|/x") = some "a|/x" ∧ extractRequestHost (some "a") = some "a" ∧
      cacheKey (some "a|/x") "/y" = cacheKey (some "a") "/x|/y" ∧
      ¬KeysSeparate (extractRequestHost (some "a|/x")) (extractRequestHost (some "a")) := by
  have h₁ : extractRequestHost (some "a|/x") = some "a|/x" := by decide
  have h₂ : extractRequestHost (some "a") = some "a" := by decide
  have hkey : cacheKey (some "a|/x") "/y" = cacheKey (some "a") "/x|/y" := by decide
  refine ⟨h₁, h₂, hkey, fun h => ?_⟩
  rw [h₁, h₂] at h
  have hsame := (h.1 _ _ (by decide) (by decide) hkey).1
  exact absurd hsame (by decide)

end Aperio
