import Aperio.Run
import Mathlib.Logic.Function.Basic

/-!
# How often a key set is fetched

`find_key` and `fetch` of `jwt.rs`, called once or twice by every `verify`
with an issuer: the cache is read under its lock, a fetch runs without it, and
what the fetch brought is stored under it again. A call is at one of these
points while others are at theirs.

The floor between two fetches is read off the cached set, so it is the fetches
that brought nothing yet, or nothing at all, that it does not hold for
(`jwks_floor`, `failing_fetch_repeated`).
-/

namespace Aperio

/-! ## Keys -/

structure Jwk where
  keyId : Option String
  key : String
deriving Repr, DecidableEq

structure CachedJwks where
  keys : List Jwk
  fetched : Nat
deriving Repr, DecidableEq

/-- In nanoseconds. -/
def jwksTtl : Nat := 3600000000000

def jwksMinRefetch : Nat := 30000000000

def jwksUrls : Nat := 32

namespace JwksState

/-- The key a token names, or the only one there is. -/
def pick (keys : List Jwk) : Option String → Option Jwk
  | some kid => keys.find? (·.keyId == some kid)
  | none =>
    match keys with
    | [only] => some only
    | _ => none

/-- What `fetch` leaves in the cache; a map of too many URLs starts over. -/
def store (cache : List (String × CachedJwks)) (url : String) (entry : CachedJwks) :
    List (String × CachedJwks) :=
  (url, entry) :: (if jwksUrls < cache.length then [] else cache).filter (·.1 != url)

end JwksState

/-! ## Calls -/

/-- Before a lookup, in a fetch, which is the so-manieth started, and with the
key that was found or not. -/
inductive JwksPhase where
  | ready (refetch : Bool)
  | fetching (refetch : Bool) (fetch : Nat)
  | done (key : Option Jwk)
deriving DecidableEq

structure JwksCall where
  url : String
  kid : Option String
  phase : JwksPhase
deriving DecidableEq

/-- A set that a fetch brought, and when. -/
structure Brought where
  url : String
  keys : List Jwk
  fetch : Nat
  time : Nat
deriving DecidableEq

/-- `fetches` are the ones started, each with its URL and time. -/
structure JwksState where
  now : Nat := 0
  cache : List (String × CachedJwks) := []
  calls : Nat → Option JwksCall := fun _ => none
  fetches : List (String × Nat) := []
  brought : List Brought := []

inductive JwksAct where
  | tick (elapsed : Nat)
  | verify (r : Nat) (url : String) (kid : Option String)
  | lookup (r : Nat)
  /-- The fetch is over: a key set, or refused, failed or too large. -/
  | finish (r : Nat) (outcome : Option (List Jwk))
  /-- The call goes away. -/
  | drop (r : Nat)

namespace JwksState

variable (s : JwksState)

def setCall (r : Nat) (call : Option JwksCall) : JwksState :=
  { s with calls := Function.update s.calls r call }

/-- The set `find_key` goes on with; where there is none it fetches. -/
def findCached (url : String) (refetch : Bool) : Option (List Jwk) :=
  (s.cache.lookup url).bind fun entry =>
    if !refetch && decide (s.now - entry.fetched < jwksTtl) then some entry.keys
    else if refetch && decide (s.now - entry.fetched < jwksMinRefetch) then some entry.keys
    else none

/-- A key that is not found is looked up once more. -/
def after (refetch : Bool) : Option Jwk → JwksPhase
  | some key => .done (some key)
  | none => if refetch then .done none else .ready true

def act : JwksAct → Option JwksState
  | .tick elapsed => some { s with now := s.now + elapsed }
  | .verify r url kid =>
    match s.calls r with
    | none => some (s.setCall r (some ⟨url, kid, .ready false⟩))
    | some _ => none
  | .lookup r =>
    match s.calls r with
    | some ⟨url, kid, .ready refetch⟩ =>
      match s.findCached url refetch with
      | some keys => some (s.setCall r (some ⟨url, kid, after refetch (pick keys kid)⟩))
      | none =>
        some { s.setCall r (some ⟨url, kid, .fetching refetch s.fetches.length⟩) with
          fetches := s.fetches ++ [(url, s.now)] }
    | _ => none
  | .finish r outcome =>
    match s.calls r with
    | some ⟨url, kid, .fetching refetch n⟩ =>
      match outcome with
      | none => some (s.setCall r (some ⟨url, kid, after refetch none⟩))
      | some keys =>
        some { s.setCall r (some ⟨url, kid, after refetch (pick keys kid)⟩) with
          cache := store s.cache url ⟨keys, s.now⟩
          brought := s.brought ++ [⟨url, keys, n, s.now⟩] }
    | _ => none
  | .drop r =>
    match s.calls r with
    | some _ => some (s.setCall r none)
    | none => none

/-- The set has a key with this id. -/
def Holds (keys : List Jwk) (kid : String) : Prop :=
  (pick keys (some kid)).isSome

/-- Two fetches of one URL are started at least the floor apart. -/
def Spaced : Prop :=
  ∀ (i j : Nat) (url : String) (t u : Nat), i < j → s.fetches[i]? = some (url, t) →
    s.fetches[j]? = some (url, u) → t + jwksMinRefetch ≤ u

/-- The lookup that call `r` makes starts no fetch and finds the key, where a
set with the key was brought and is not yet out of date. -/
def Finds (r : Nat) (s' : JwksState) : Prop :=
  ∀ url kid refetch, s.calls r = some ⟨url, some kid, .ready refetch⟩ →
    ∀ b ∈ s.brought, b.url = url → s.now < b.time + jwksTtl → Holds b.keys kid →
      s'.fetches = s.fetches ∧ ∃ key, s'.calls r = some ⟨url, some kid, .done (some key)⟩

/-- What the steps of a run must meet.

A lookup that finds no usable set comes when every fetch of the URL that was
started less than the floor ago has brought one, and a second lookup of a key
the cached set holds comes before that set is older than the floor. A set that
is stored has the keys that sets of its URL brought while they are not yet out
of date, and no other URL's set is dropped before it is. -/
def Paced (s : JwksState) (a : JwksAct) (_ : JwksState) : Prop :=
  match a with
  | .lookup r => ∀ url kid refetch, s.calls r = some ⟨url, kid, .ready refetch⟩ →
      (s.findCached url refetch = none → ∀ n t, s.fetches[n]? = some (url, t) →
        s.now < t + jwksMinRefetch → ∃ b ∈ s.brought, b.fetch = n) ∧
      (refetch = true → ∀ id entry, kid = some id → s.cache.lookup url = some entry →
        Holds entry.keys id → s.now < entry.fetched + jwksTtl →
          s.now < entry.fetched + jwksMinRefetch)
  | .finish r (some keys) => ∀ url kid refetch n,
      s.calls r = some ⟨url, kid, .fetching refetch n⟩ →
        (∀ b ∈ s.brought, b.url = url → s.now < b.time + jwksTtl →
          ∀ id, Holds b.keys id → Holds keys id) ∧
        (jwksUrls < s.cache.length →
          ∀ e ∈ s.cache, e.1 ≠ url → e.2.fetched + jwksTtl ≤ s.now)
  | _ => True

end JwksState

/-- The process starts with an empty cache and nothing under way. -/
def jwksSys : Sys JwksState JwksAct where
  init s := ∃ now, s = { now := now }
  step s a s' := s.act a = some s'

/-! ## Every step -/

namespace JwksState

variable {s s' : JwksState} {a : JwksAct}

/-- What every paced run keeps. -/
structure Kept (s : JwksState) : Prop where
  fetching : ∀ r url kid refetch n, s.calls r = some ⟨url, kid, .fetching refetch n⟩ →
    ∃ t, s.fetches[n]? = some (url, t)
  started : ∀ (n : Nat) url t, s.fetches[n]? = some (url, t) → t ≤ s.now
  brought : ∀ b ∈ s.brought, b.time ≤ s.now ∧
    ∃ t, s.fetches[b.fetch]? = some (b.url, t) ∧ t ≤ b.time
  cached : ∀ b ∈ s.brought, s.now < b.time + jwksTtl →
    ∃ entry, s.cache.lookup b.url = some entry ∧ b.time ≤ entry.fetched ∧
      entry.fetched ≤ s.now ∧ ∀ id, Holds b.keys id → Holds entry.keys id
  spaced : s.Spaced

theorem lookup_filter_ne {cache : List (String × CachedJwks)} {url other : String}
    (h : other ≠ url) : (cache.filter (·.1 != url)).lookup other = cache.lookup other := by
  induction cache with
  | nil => rfl
  | cons e rest ih =>
      obtain ⟨key, entry⟩ := e
      by_cases hkey : key = url
      · have hother : (other == key) = false := by simpa [hkey] using h
        rw [List.filter_cons_of_neg (by simp [hkey]), ih, List.lookup_cons, hother]
      · rw [List.filter_cons_of_pos (by simp [hkey]), List.lookup_cons, List.lookup_cons, ih]

theorem store_self {cache : List (String × CachedJwks)} {url : String} {entry : CachedJwks} :
    (store cache url entry).lookup url = some entry :=
  List.lookup_cons_self

/-- Another URL's entry survives, or the map was too large. -/
theorem store_other {cache : List (String × CachedJwks)} {url other : String}
    {entry : CachedJwks} (h : other ≠ url) (hsize : ¬ jwksUrls < cache.length) :
    (store cache url entry).lookup other = cache.lookup other := by
  have hother : (other == url) = false := by simpa using h
  rw [store, if_neg hsize, List.lookup_cons, hother]
  exact lookup_filter_ne h

theorem mem_of_lookup {cache : List (String × CachedJwks)} {url : String} {entry : CachedJwks}
    (h : cache.lookup url = some entry) : (url, entry) ∈ cache := by
  obtain ⟨before, rest, rfl, -⟩ := List.lookup_eq_some_iff.mp h
  simp

theorem getElem?_snoc {α : Type} {l : List α} {x y : α} {n : Nat} :
    (l ++ [x])[n]? = some y ↔ l[n]? = some y ∨ n = l.length ∧ x = y := by
  rcases Nat.lt_trichotomy n l.length with hn | hn | hn
  · rw [List.getElem?_append_left hn]
    simp [Nat.ne_of_lt hn]
  · rw [hn, List.getElem?_concat_length]
    simp
  · have hlength : (l ++ [x]).length ≤ n := by
      rw [List.length_append, List.length_singleton]
      omega
    rw [List.getElem?_eq_none hlength, List.getElem?_eq_none (Nat.le_of_lt hn)]
    simp [Nat.ne_of_gt hn]

theorem after_ne_fetching {refetch refetch' : Bool} {found : Option Jwk} {n : Nat} :
    after refetch found ≠ .fetching refetch' n := by
  cases found with
  | some key => simp [after]
  | none => cases refetch <;> simp [after]

/-- What a step can do: let time pass, start a fetch, store a set, or put a
call at a point outside a fetch. -/
theorem act_cases (h : s.act a = some s') :
    (∃ elapsed, s' = { s with now := s.now + elapsed }) ∨
    (∃ r url kid refetch, a = .lookup r ∧ s.calls r = some ⟨url, kid, .ready refetch⟩ ∧
      s.findCached url refetch = none ∧
      s' = { s.setCall r (some ⟨url, kid, .fetching refetch s.fetches.length⟩) with
        fetches := s.fetches ++ [(url, s.now)] }) ∨
    (∃ r url kid refetch n keys, a = .finish r (some keys) ∧
      s.calls r = some ⟨url, kid, .fetching refetch n⟩ ∧
      s' = { s.setCall r (some ⟨url, kid, after refetch (pick keys kid)⟩) with
        cache := store s.cache url ⟨keys, s.now⟩
        brought := s.brought ++ [⟨url, keys, n, s.now⟩] }) ∨
    ∃ r call, (∀ url kid refetch n, call ≠ some ⟨url, kid, .fetching refetch n⟩) ∧
      s' = s.setCall r call := by
  cases a with
  | tick elapsed =>
      obtain rfl := Option.some.inj h
      exact .inl ⟨elapsed, rfl⟩
  | verify r url kid =>
      unfold act at h
      dsimp only at h
      split at h
      · obtain rfl := Option.some.inj h
        exact .inr (.inr (.inr ⟨r, _, by simp, rfl⟩))
      · cases h
  | lookup r =>
      unfold act at h
      dsimp only at h
      split at h
      · rename_i url kid refetch hcall
        split at h
        · obtain rfl := Option.some.inj h
          refine .inr (.inr (.inr ⟨r, _, ?_, rfl⟩))
          intro _ _ _ _ heq
          exact after_ne_fetching (JwksCall.mk.inj (Option.some.inj heq)).2.2
        · rename_i hcached
          obtain rfl := Option.some.inj h
          exact .inr (.inl ⟨r, url, kid, refetch, rfl, hcall, hcached, rfl⟩)
      · cases h
  | finish r outcome =>
      unfold act at h
      dsimp only at h
      split at h
      · rename_i url kid refetch n hcall
        cases outcome with
        | none =>
            obtain rfl := Option.some.inj h
            refine .inr (.inr (.inr ⟨r, _, ?_, rfl⟩))
            intro _ _ _ _ heq
            exact after_ne_fetching (JwksCall.mk.inj (Option.some.inj heq)).2.2
        | some keys =>
            obtain rfl := Option.some.inj h
            exact .inr (.inr (.inl ⟨r, url, kid, refetch, n, keys, rfl, hcall, rfl⟩))
      · cases h
  | drop r =>
      unfold act at h
      dsimp only at h
      split at h
      · obtain rfl := Option.some.inj h
        exact .inr (.inr (.inr ⟨r, none, by simp, rfl⟩))
      · cases h

/-- A call in a fetch after another call has moved was in it before. -/
theorem setCall_fetching {r r' : Nat} {call : Option JwksCall} {url : String}
    {kid : Option String} {refetch : Bool} {n : Nat}
    (hcall : ∀ url kid refetch n, call ≠ some ⟨url, kid, .fetching refetch n⟩)
    (h : (s.setCall r call).calls r' = some ⟨url, kid, .fetching refetch n⟩) :
    s.calls r' = some ⟨url, kid, .fetching refetch n⟩ := by
  by_cases hr : r' = r
  · subst hr
    simp only [setCall, Function.update_self] at h
    exact absurd h (hcall _ _ _ _)
  · simpa only [setCall, Function.update_of_ne hr] using h

/-- Less than the floor after a fetch that has brought a set, nothing is
fetched. -/
theorem Kept.findCached_ne_none (h : s.Kept) {b : Brought} (hb : b ∈ s.brought)
    {t : Nat} (hfetch : s.fetches[b.fetch]? = some (b.url, t)) (ht : s.now < t + jwksMinRefetch)
    (refetch : Bool) : s.findCached b.url refetch ≠ none := by
  have hlt : jwksMinRefetch < jwksTtl := by decide
  obtain ⟨-, t', hfetch', hle⟩ := h.brought b hb
  obtain ⟨-, rfl⟩ := Prod.mk.inj (Option.some.inj (hfetch.symm.trans hfetch'))
  obtain ⟨entry, hentry, hfrom, hto, -⟩ := h.cached b hb (by omega)
  have hfloor : s.now - entry.fetched < jwksMinRefetch := by omega
  have httl : s.now - entry.fetched < jwksTtl := by omega
  rw [findCached, hentry]
  cases refetch <;> simp [hfloor, httl]

theorem Kept.tick (h : s.Kept) (elapsed : Nat) :
    ({ s with now := s.now + elapsed } : JwksState).Kept := by
  refine ⟨h.fetching, ?_, ?_, ?_, h.spaced⟩
  · intro n url t hfetch
    have hle := h.started n url t hfetch
    dsimp only
    omega
  · intro b hb
    obtain ⟨hle, hfetch⟩ := h.brought b hb
    dsimp only
    exact ⟨by omega, hfetch⟩
  · intro b hb hfresh
    dsimp only at hfresh ⊢
    obtain ⟨entry, hentry, hfrom, hto, hholds⟩ := h.cached b hb (by omega)
    exact ⟨entry, hentry, hfrom, by omega, hholds⟩

/-- A fetch that is started comes the floor after every other of its URL. -/
theorem Kept.spaced_start (h : s.Kept) {r : Nat} {url : String} {kid : Option String}
    {refetch : Bool} (hcall : s.calls r = some ⟨url, kid, .ready refetch⟩)
    (hmiss : s.findCached url refetch = none) (hpaced : s.Paced (.lookup r) s') {i t : Nat}
    (hfetch : s.fetches[i]? = some (url, t)) : t + jwksMinRefetch ≤ s.now := by
  by_contra hsoon
  obtain ⟨b, hb, rfl⟩ := (hpaced url kid refetch hcall).1 hmiss i t hfetch (by omega)
  obtain ⟨-, t', hbrought, -⟩ := h.brought b hb
  obtain ⟨rfl, -⟩ := Prod.mk.inj (Option.some.inj (hfetch.symm.trans hbrought))
  exact h.findCached_ne_none hb hfetch (by omega) refetch hmiss

theorem Kept.start (h : s.Kept) {r : Nat} {url : String} {kid : Option String} {refetch : Bool}
    (hcall : s.calls r = some ⟨url, kid, .ready refetch⟩)
    (hmiss : s.findCached url refetch = none) (hpaced : s.Paced (.lookup r) s') :
    ({ s.setCall r (some ⟨url, kid, .fetching refetch s.fetches.length⟩) with
      fetches := s.fetches ++ [(url, s.now)] } : JwksState).Kept := by
  refine ⟨?_, ?_, ?_, h.cached, ?_⟩
  · intro r' url' kid' refetch' n hfetching
    by_cases hr : r' = r
    · subst hr
      simp only [setCall, Function.update_self, Option.some.injEq, JwksCall.mk.injEq,
        JwksPhase.fetching.injEq] at hfetching
      obtain ⟨rfl, -, -, rfl⟩ := hfetching
      exact ⟨s.now, getElem?_snoc.mpr (.inr ⟨rfl, rfl⟩)⟩
    · simp only [setCall, Function.update_of_ne hr] at hfetching
      obtain ⟨t, hfetch⟩ := h.fetching r' url' kid' refetch' n hfetching
      exact ⟨t, getElem?_snoc.mpr (.inl hfetch)⟩
  · intro n url' t hfetch
    rcases getElem?_snoc.mp hfetch with hfetch | ⟨-, heq⟩
    · exact h.started n url' t hfetch
    · exact Nat.le_of_eq (Prod.mk.inj heq).2.symm
  · intro b hb
    obtain ⟨hle, t, hfetch, ht⟩ := h.brought b hb
    exact ⟨hle, t, getElem?_snoc.mpr (.inl hfetch), ht⟩
  · intro i j url' t u hij hi hj
    rcases getElem?_snoc.mp hj with hj | ⟨rfl, heq⟩
    · rcases getElem?_snoc.mp hi with hi | ⟨rfl, -⟩
      · exact h.spaced i j url' t u hij hi hj
      · rw [List.getElem?_eq_none (by omega)] at hj
        cases hj
    · obtain ⟨rfl, rfl⟩ := Prod.mk.inj heq
      rcases getElem?_snoc.mp hi with hi | ⟨rfl, -⟩
      · exact h.spaced_start hcall hmiss hpaced hi
      · omega

/-- A set that is stored keeps the keys of those before it in reach. -/
theorem Kept.stored (h : s.Kept) {r n : Nat} {url : String} {kid : Option String} {refetch : Bool}
    {keys : List Jwk} (hcall : s.calls r = some ⟨url, kid, .fetching refetch n⟩)
    (hpaced : s.Paced (.finish r (some keys)) s') :
    ({ s.setCall r (some ⟨url, kid, after refetch (pick keys kid)⟩) with
      cache := store s.cache url ⟨keys, s.now⟩
      brought := s.brought ++ [⟨url, keys, n, s.now⟩] } : JwksState).Kept := by
  obtain ⟨hsame, hsize⟩ := hpaced url kid refetch n hcall
  obtain ⟨t, hfetch⟩ := h.fetching r url kid refetch n hcall
  refine ⟨?_, h.started, ?_, ?_, h.spaced⟩
  · intro r' url' kid' refetch' n' hfetching
    refine h.fetching r' url' kid' refetch' n' (setCall_fetching ?_ hfetching)
    intro _ _ _ _ heq
    exact after_ne_fetching (JwksCall.mk.inj (Option.some.inj heq)).2.2
  · rw [List.forall_mem_append, List.forall_mem_singleton]
    exact ⟨h.brought, Nat.le_refl _, t, hfetch, h.started n url t hfetch⟩
  · intro b hb hfresh
    rcases List.mem_append.mp hb with hb | hb
    · by_cases hurl : b.url = url
      · rw [hurl]
        exact ⟨_, store_self, (h.brought b hb).1, Nat.le_refl _, hsame b hb hurl hfresh⟩
      · obtain ⟨entry, hentry, hfrom, hto, hholds⟩ := h.cached b hb hfresh
        refine ⟨entry, ?_, hfrom, hto, hholds⟩
        rw [store_other hurl, hentry]
        intro htoo
        have hold : entry.fetched + jwksTtl ≤ s.now :=
          hsize htoo _ (mem_of_lookup hentry) hurl
        have hnow : s.now < b.time + jwksTtl := hfresh
        omega
    · rw [List.mem_singleton.mp hb]
      exact ⟨_, store_self, Nat.le_refl _, Nat.le_refl _, fun _ => id⟩

theorem Kept.moved (h : s.Kept) {r : Nat} {call : Option JwksCall}
    (hcall : ∀ url kid refetch n, call ≠ some ⟨url, kid, .fetching refetch n⟩) :
    (s.setCall r call).Kept := by
  refine ⟨?_, h.started, h.brought, h.cached, h.spaced⟩
  intro r' url kid refetch n hfetching
  exact h.fetching r' url kid refetch n (setCall_fetching hcall hfetching)

theorem Kept.step (h : s.Kept) (hact : s.act a = some s') (hpaced : s.Paced a s') : s'.Kept := by
  rcases act_cases hact with ⟨elapsed, rfl⟩ | ⟨r, url, kid, refetch, rfl, hcall, hmiss, rfl⟩ |
    ⟨r, url, kid, refetch, n, keys, rfl, hcall, rfl⟩ | ⟨r, call, hcall, rfl⟩
  · exact h.tick elapsed
  · exact h.start hcall hmiss hpaced
  · exact h.stored hcall hpaced
  · exact h.moved hcall

theorem Kept.of_reachable (h : (jwksSys.restrict Paced).Reachable s) : s.Kept := by
  refine h.invariant ?_ ?_
  · rintro _ ⟨now, rfl⟩
    refine ⟨by simp, by simp, by simp, by simp, ?_⟩
    intro i j url t u hij hi
    simp at hi
  · rintro s a s' - h ⟨hact, hpaced⟩
    exact h.step hact hpaced

/-- A key that a set has brought is found in the cache. -/
theorem Kept.finds (h : s.Kept) {r : Nat} (hact : s.act (.lookup r) = some s')
    (hpaced : s.Paced (.lookup r) s') : s.Finds r s' := by
  intro url kid refetch hcall b hb hurl hfresh hholds
  subst hurl
  obtain ⟨entry, hentry, hfrom, hto, hkept⟩ := h.cached b hb hfresh
  have hkey := hkept kid hholds
  have httl : s.now - entry.fetched < jwksTtl := by omega
  have hcached : s.findCached b.url refetch = some entry.keys := by
    rw [findCached, hentry]
    cases refetch with
    | false => simp [httl]
    | true =>
        have hsoon := (hpaced _ _ _ hcall).2 rfl kid entry rfl hentry hkey (by omega)
        have hfloor : s.now - entry.fetched < jwksMinRefetch := by
          have hpos : 0 < jwksMinRefetch := by decide
          omega
        simp [hfloor]
  obtain ⟨key, hpick⟩ := Option.isSome_iff_exists.mp hkey
  simp only [act, hcall, hcached, hpick, after] at hact
  obtain rfl := Option.some.inj hact
  exact ⟨rfl, key, Function.update_self ..⟩

end JwksState

/-- In every run whose steps are all paced, two fetches of one URL are started
at least the floor apart, and a key that was brought is found without another
fetch until it is out of date. -/
theorem jwks_floor (s : JwksState) (hs : (jwksSys.restrict JwksState.Paced).Reachable s) :
    s.Spaced ∧ ∀ r s', (jwksSys.restrict JwksState.Paced).step s (.lookup r) s' → s.Finds r s' :=
  have h := JwksState.Kept.of_reachable hs
  ⟨h.spaced, fun _ _ hstep => h.finds hstep.1 hstep.2⟩

namespace JwksState

def issuer : String := "https://issuer.test/keys"

def issuerKeys : List Jwk := [{ keyId := some "a", key := "n" }]

end JwksState

/-- Two tokens with one key: the second is verified with what the first has
fetched. -/
theorem jwks_floor_issuer : ∃ s s' : JwksState,
    s.fetches = [(JwksState.issuer, 0)] ∧ s.act (.lookup 1) = some s' ∧ s.Spaced ∧
      s.Finds 1 s' := by
  have h₀ : (jwksSys.restrict JwksState.Paced).Reachable { now := 0 } := .init ⟨0, rfl⟩
  have h₁ := h₀.step ⟨show JwksState.act _ (.verify 0 JwksState.issuer (some "a")) = some _
    from rfl, trivial⟩
  have h₂ := h₁.step ⟨show JwksState.act _ (.lookup 0) = some _ from rfl, by
    intro url kid refetch hcall
    refine ⟨fun _ n t hfetch => by simp [JwksState.setCall] at hfetch, ?_⟩
    intro hrefetch
    simp [JwksState.setCall, hrefetch] at hcall⟩
  have h₃ := h₂.step ⟨show JwksState.act _ (.finish 0 (some JwksState.issuerKeys)) = some _
    from rfl, fun _ _ _ _ _ => ⟨fun b hb => by simp [JwksState.setCall] at hb,
      fun hsize => by simp [JwksState.setCall, jwksUrls] at hsize⟩⟩
  have h₄ := h₃.step ⟨show JwksState.act _ (.verify 1 JwksState.issuer (some "a")) = some _
    from rfl, trivial⟩
  obtain ⟨hspaced, hfinds⟩ := jwks_floor _ h₄
  refine ⟨_, _, rfl, rfl, hspaced, hfinds 1 _ ⟨rfl, ?_⟩⟩
  intro url kid refetch hcall
  have hready := JwksCall.mk.inj (Option.some.inj hcall)
  refine ⟨?_, ?_⟩
  · obtain ⟨rfl, -, hphase⟩ := hready
    obtain rfl := JwksPhase.ready.inj hphase
    intro hmiss
    cases hmiss
  · intro hrefetch
    cases hrefetch.symm.trans (JwksPhase.ready.inj hready.2.2).symm

/-- A fetch that fails is repeated by the same call at once. -/
theorem failing_fetch_repeated : ∃ s, jwksSys.Reachable s ∧ ¬ s.Spaced := by
  have h₀ : jwksSys.Reachable { now := 0 } := .init ⟨0, rfl⟩
  have h₁ := h₀.step (show JwksState.act _ (.verify 0 JwksState.issuer (some "a")) = some _
    from rfl)
  have h₂ := h₁.step (show JwksState.act _ (.lookup 0) = some _ from rfl)
  have h₃ := h₂.step (show JwksState.act _ (.finish 0 none) = some _ from rfl)
  have h₄ := h₃.step (show JwksState.act _ (.lookup 0) = some _ from rfl)
  refine ⟨_, h₄, fun hspaced => ?_⟩
  have hfloor := hspaced 0 1 JwksState.issuer 0 0 (by decide) rfl rfl
  exact absurd hfloor (by decide)

end Aperio
