import Mathlib.Data.Prod.Lex
import Aperio.Explain
import Aperio.HostPatterns
import Aperio.Results
import Aperio.StableSort

/-!
# The most specific site

`Sites::compile` and `host_rank` (`sites.rs`). A site's rank is a number for
its hostname's kind and length, then the length of its path, and a request is
answered from the first site of a stable sort by rank. Which pattern covers
which is decided elsewhere, on the patterns themselves: `hostRank_lt_of_covers`
is that the numbers follow it, and `find?_byDescending` what the sort makes of
them.

What a site sets besides its match is compiled by functions of its own, which
`SiteSettings` stands for. A rate limit is spelled out, since the name of its
bucket holds the position the site was written at.
-/

namespace Aperio

/-! ## Ranks -/

/-- How specific a hostname pattern is. A longer one of a kind is narrower. -/
def hostRank (pattern : String) : Nat :=
  let len := pattern.utf8ByteSize
  if pattern = "*" then 0
  else if startsWith pattern "*." then 1000 + len
  else if pattern.toList.contains '*' then 2000 + len
  else 3000 + len

namespace HostPattern

theorem utf8ByteSize_eq (s : String) : s.utf8ByteSize = (utf8Bytes s).length := by
  rw [← String.size_toByteArray, toByteArray_eq_utf8Bytes]
  simp

theorem hostRank_subtree (suffix : PlainName) :
    hostRank (subtree suffix).text = 1002 + (utf8Bytes suffix.text).length := by
  have hstart : startsWith ("*." ++ suffix.text) "*." = true := by
    simp [startsWith]
  have hsize : ("*." ++ suffix.text).utf8ByteSize = 2 + (utf8Bytes suffix.text).length := by
    rw [utf8ByteSize_eq, utf8Bytes_append, List.length_append]
    rfl
  simp only [hostRank, text, if_neg (subtree_ne_star suffix.text), hstart, if_true, hsize]
  omega

theorem hostRank_label (parts : LabelPattern) :
    hostRank (label parts).text = 2002 + (utf8Bytes parts.before).length +
      (utf8Bytes parts.after).length + (utf8Bytes parts.rest).length := by
  have hstart : startsWith parts.text "*." = false := by
    have hnone := parts.wildcardSuffix_eq
    rw [Bool.eq_false_iff]
    intro hstart
    simp [wildcardSuffix, stripPrefix, hstart] at hnone
  have hstar : parts.text.toList.contains '*' = true := by
    simp [LabelPattern.text]
  have hsize : parts.text.utf8ByteSize = (utf8Bytes parts.before).length + 1 +
      (utf8Bytes parts.after).length + 1 + (utf8Bytes parts.rest).length := by
    simp only [utf8ByteSize_eq, LabelPattern.text, utf8Bytes_append, List.length_append]
    rfl
  simp only [hostRank, text, if_neg parts.ne_star, hstart, hstar, if_true, Bool.false_eq_true,
    if_false, hsize]
  omega

theorem hostRank_exact (name : PlainName) :
    hostRank (exact name).text = 3000 + (utf8Bytes name.text).length := by
  have hstart : startsWith name.text "*." = false := by
    have hnone := name.wildcardSuffix_eq
    rw [Bool.eq_false_iff]
    intro hstart
    simp [wildcardSuffix, stripPrefix, hstart] at hnone
  have hstar : name.text.toList.contains '*' = false := by
    simpa using name.noStar
  simp only [hostRank, text, if_neg name.ne_star, hstart, hstar, Bool.false_eq_true, if_false,
    utf8ByteSize_eq]

/-- The numbers follow the relation between the patterns. -/
theorem hostRank_lt {P Q : HostPattern} (h : NamePattern.Covers 0x2E P.shape Q.shape)
    (hne : P.text ≠ Q.text) : hostRank P.text < hostRank Q.text := by
  cases P with
  | any =>
      cases Q with
      | any => exact absurd rfl hne
      | subtree inner =>
          rw [hostRank_subtree]
          exact Nat.lt_of_lt_of_le (by decide) (Nat.le_add_right 1002 _)
      | label parts =>
          rw [hostRank_label]
          exact Nat.lt_of_lt_of_le (Nat.zero_lt_succ 0) (by omega)
      | exact name =>
          rw [hostRank_exact]
          exact Nat.lt_of_lt_of_le (by decide) (Nat.le_add_right 3000 _)
  | subtree outer =>
      rw [hostRank_subtree]
      cases Q with
      | any => exact h.elim
      | subtree inner =>
          rw [hostRank_subtree]
          rcases h with hsame | hunder
          · exact absurd (congrArg ("*." ++ ·) (utf8Bytes_injective hsame).symm) hne
          · have hlen := hunder.length_le
            rw [List.length_cons] at hlen
            omega
      | label parts =>
          rw [hostRank_label]
          rcases h with hsame | hunder
          · rw [← hsame]
            omega
          · have hlen := hunder.length_le
            rw [List.length_cons] at hlen
            omega
      | exact name =>
          rw [hostRank_exact]
          obtain ⟨pre, -, hname⟩ := h
          rw [hname, List.length_append, List.length_cons]
          omega
  | label parts =>
      rw [hostRank_label]
      cases Q with
      | any => exact h.elim
      | subtree inner => exact h.elim
      | label parts' =>
          obtain ⟨hbefore, hafter, hrest⟩ := h
          refine absurd ?_ hne
          rw [text, text, LabelPattern.text, LabelPattern.text, utf8Bytes_injective hbefore,
            utf8Bytes_injective hafter, utf8Bytes_injective hrest]
      | exact name =>
          rw [hostRank_exact]
          obtain ⟨mid, -, -, hname⟩ := h
          rw [hname]
          simp only [List.length_append, List.length_cons]
          omega
  | exact name =>
      cases Q with
      | any => exact h.elim
      | subtree inner => exact h.elim
      | label parts => exact h.elim
      | exact name' => exact absurd (utf8Bytes_injective h).symm hne

end HostPattern

/-- **A covering pattern ranks lower.** -/
theorem hostRank_lt_of_covers {ra rb a b : String} (ha : normalizeOrgHostnamePattern ra = some a)
    (hb : normalizeOrgHostnamePattern rb = some b) (hcovers : patternCoversPattern a b = true)
    (hne : a ≠ b) : hostRank a < hostRank b := by
  obtain ⟨P, rfl⟩ := normalizeOrgHostnamePattern_eq_some ha
  obtain ⟨Q, rfl⟩ := normalizeOrgHostnamePattern_eq_some hb
  exact HostPattern.hostRank_lt ((HostPattern.covers_iff P Q).mp hcovers) hne

/-! ## Compiling -/

/-- A site's `rate_limit` as it is written. A number that is not finite is
`none`. -/
structure RateLimitSpec where
  rps : Option ℚ
  burst : Option (Option ℚ) := none
  methods : Option (List String) := none

/-- One site of the configuration, its other settings in `said`. -/
structure SiteSpec (D : Type) where
  hostname : String
  path : Option String := none
  rateLimit : Option RateLimitSpec := none
  said : D

/-- How the settings besides the match and the rate limit are compiled. What
they may be together is asked of the site and its compiled path. -/
structure SiteSettings (D C : Type) where
  compile : SiteSpec D → Option String → Except String (Option SiteAccess × C)
  nothing : C → Bool

/-- A compiled site with its rank, the hostname's first. -/
structure RankedSite (C : Type) extends Site where
  rateLimit : Option RateLimit
  settled : C
  rank : Nat ×ₗ Nat

def RateLimit.bucket (limit : RateLimit) (i : Nat) (s : Site) : String :=
  "site#" ++ toString i ++ ":" ++ s.hostname ++ ":" ++ s.path.getD "*" ++ ":" ++
    (limit.methods.map (join · ",")).getD "*"

section Compile

variable {D C : Type}

namespace RankedSite

/-- The bucket of a rate limit is named by the site's position and match. -/
def named (i : Nat) (s : RankedSite C) : RankedSite C :=
  { s with rateLimit := s.rateLimit.map fun rl => { rl with key := rl.bucket i s.toSite } }

/-- The site without the name of its bucket. -/
def unnamed (s : RankedSite C) : RankedSite C :=
  { s with rateLimit := s.rateLimit.map fun rl => { rl with key := "" } }

end RankedSite

/-- A burst below one token could never pay for a request. -/
def compileRateLimit (rl : RateLimitSpec) : Except String RateLimit :=
  match rl.rps.filter (0 < ·) with
  | none => .error "`rate_limit.rps` must be a positive number"
  | some rps =>
    match (rl.burst.getD (some rps)).filter (0 < ·) with
    | none =>
      .error ("`rate_limit.burst` must be a positive number; leave it out for one second's " ++
        "worth")
    | some burst =>
      if rl.methods = some [] then
        .error ("`rate_limit.methods` is empty, which would count nothing; leave it out to " ++
          "count every method")
      else
        .ok { rps, burst := max burst 1, key := "",
              methods := rl.methods.map (·.map fun m => toAsciiUppercase (trim m)) }

/-- A site's path prefix; the root is no path. -/
def compilePath (raw : SiteSpec D) :
    Except String { path : Option String // ∀ p ∈ path, ∃ raw, normalizePathBind raw = some p } :=
  match raw.path.map trim with
  | none => .ok ⟨none, Site.noPath_normal⟩
  | some p =>
    if p = "" ∨ p = "/" then .ok ⟨none, Site.noPath_normal⟩
    else
      match h : normalizePathBind p with
      | some bind => .ok ⟨some bind, fun _ hq => ⟨p, h.trans hq⟩⟩
      | none =>
        .error ("`path: " ++ p ++ "` is not a path prefix (letters, digits, `-`, `_`, `.`, `~` " ++
          "between slashes)")

variable (settings : SiteSettings D C)

def compileLimit : Option RateLimitSpec → Except String (Option RateLimit)
  | none => .ok none
  | some rl => (compileRateLimit rl).map some

/-- What a site compiles to at any position. -/
def siteOf (raw : SiteSpec D) : Except String (RankedSite C) :=
  match normalizeOrgHostnamePattern raw.hostname with
  | none =>
    .error ("`hostname: " ++ raw.hostname ++ "` is not a hostname, a pattern like " ++
      "`*.example.com`, or `*`")
  | some hostname => do
    let path ← compilePath raw
    let (access, settled) ← settings.compile raw path.1
    let rateLimit ← compileLimit raw.rateLimit
    if access.isNone && rateLimit.isNone && settings.nothing settled then
      .error ("sets nothing; a site needs who may reach it (`access`), an answer (`redirect`, " ++
        "`respond`), policy (`timeout`, `headers`, `rate_limit`, `canary`, `waf`), or what its " ++
        "hostname says (`fallback`, `pages`, `maintenance`)")
    else
      .ok { hostname, path := path.1, access, path_normal := path.2, rateLimit, settled,
            rank := toLex (hostRank hostname, (path.1.map String.utf8ByteSize).getD 0) }

def compileSite (i : Nat) (raw : SiteSpec D) : Except String (RankedSite C) :=
  let shown := trim raw.hostname ++ (raw.path.map trim).getD ""
  match siteOf settings raw with
  | .error what => .error ("sites[" ++ toString i ++ "] (" ++ shown ++ "): " ++ what)
  | .ok site => .ok (site.named i)

/-- The sites in written order, the first of them at position `i`. -/
def compileFrom : Nat → List (SiteSpec D) → Except String (List (RankedSite C))
  | _, [] => .ok []
  | i, raw :: rest => do
    let site ← compileSite settings i raw
    let sites ← compileFrom (i + 1) rest
    .ok (site :: sites)

/-- Compiles the `sites` setting, most specific first. Sites of one rank keep
the order they were written in. -/
def compileSites (raw : List (SiteSpec D)) : Except String (List (RankedSite C)) :=
  (compileFrom settings 0 raw).map (byDescending RankedSite.rank)

/-- The rank of a site as it is written. -/
def SiteSpec.rank (raw : SiteSpec D) : Option (Nat ×ₗ Nat) :=
  ((siteOf settings raw).toOption).map (·.rank)

/-- The site a setting is taken from: the first of the looked at that has
it. -/
def takenFrom {α : Type} (sites : List (RankedSite C)) (looked : Site → Bool)
    (setting : RankedSite C → Option α) : Option (RankedSite C) :=
  (sites.filter (looked ·.toSite)).find? fun s => (setting s).isSome

/-- A setting for a request, from the sites looked at for it. -/
def settingFor {α : Type} (sites : List (RankedSite C)) (looked : Site → Bool)
    (setting : RankedSite C → Option α) : Option α :=
  (sites.filter (looked ·.toSite)).findSome? setting

/-- The sites a request falls under. -/
def matching (host : Option String) (path : String) (s : Site) : Bool :=
  s.matchesRoute host path

/-- The sites that cover a whole hostname and match it. -/
def hostwide (host : Option String) (s : Site) : Bool :=
  s.path.isNone && s.hostMatches host

variable {settings}

theorem settingFor_eq {α : Type} (sites : List (RankedSite C)) (looked : Site → Bool)
    (setting : RankedSite C → Option α) :
    settingFor sites looked setting = (takenFrom sites looked setting).bind setting := by
  unfold settingFor takenFrom
  induction sites.filter (looked ·.toSite) with
  | nil => rfl
  | cons s rest ih =>
      rw [List.findSome?_cons, List.find?_cons]
      cases h : setting s with
      | none => exact ih
      | some a => simp [h]

/-! ## What a compiled site is -/

theorem siteOf_ok {raw : SiteSpec D} {s : RankedSite C} (h : siteOf settings raw = .ok s) :
    normalizeOrgHostnamePattern raw.hostname = some s.hostname ∧
      s.rank = toLex (hostRank s.hostname, (s.path.map String.utf8ByteSize).getD 0) := by
  unfold siteOf at h
  split at h
  · cases h
  · next hostname hhost =>
      rw [hhost]
      obtain ⟨path, -, h⟩ := bind_eq_ok.mp h
      obtain ⟨⟨access, settled⟩, -, h⟩ := bind_eq_ok.mp h
      obtain ⟨rateLimit, -, h⟩ := bind_eq_ok.mp h
      split at h
      · cases h
      · cases h
        exact ⟨rfl, rfl⟩

theorem compileSite_ok {i : Nat} {raw : SiteSpec D} {s : RankedSite C}
    (h : compileSite settings i raw = .ok s) :
    ∃ bare, siteOf settings raw = .ok bare ∧ s = bare.named i := by
  unfold compileSite at h
  dsimp only at h
  split at h
  · cases h
  · next bare hbare =>
      cases h
      exact ⟨bare, hbare, rfl⟩

theorem RankedSite.unnamed_named (i : Nat) (s : RankedSite C) :
    (s.named i).unnamed = s.unnamed := by
  simp only [named, unnamed, Option.map_map]
  rfl

theorem compileFrom_ok {i : Nat} {raw : List (SiteSpec D)} {sites : List (RankedSite C)}
    (h : compileFrom settings i raw = .ok sites) :
    (∀ s ∈ sites, ∃ r ∈ raw, normalizeOrgHostnamePattern r.hostname = some s.hostname ∧
      s.rank = toLex (hostRank s.hostname, (s.path.map String.utf8ByteSize).getD 0)) ∧
    raw.filterMap (fun r => (siteOf settings r).toOption.map RankedSite.unnamed) =
      sites.map RankedSite.unnamed := by
  induction raw generalizing i sites with
  | nil =>
      cases h
      exact ⟨nofun, rfl⟩
  | cons r rest ih =>
      obtain ⟨s, hs, h⟩ := bind_eq_ok.mp h
      obtain ⟨tail, htail, h⟩ := bind_eq_ok.mp h
      cases h
      obtain ⟨bare, hbare, rfl⟩ := compileSite_ok hs
      obtain ⟨hranks, hmap⟩ := ih htail
      refine ⟨fun t ht => ?_, ?_⟩
      · rcases List.mem_cons.mp ht with rfl | ht
        · have hrank := siteOf_ok hbare
          exact ⟨r, List.mem_cons_self, hrank⟩
        · obtain ⟨r', hr', hrank⟩ := hranks t ht
          exact ⟨r', List.mem_cons_of_mem _ hr', hrank⟩
      · rw [List.filterMap_cons, hbare, hmap, List.map_cons, RankedSite.unnamed_named]
        rfl

/-- A list compiles when each of its sites does. -/
theorem compileFrom_isOk_iff {i : Nat} {raw : List (SiteSpec D)} :
    (∃ sites, compileFrom settings i raw = .ok sites) ↔
      ∀ r ∈ raw, ∃ bare, siteOf settings r = .ok bare := by
  induction raw generalizing i with
  | nil => exact iff_of_true ⟨[], rfl⟩ nofun
  | cons r rest ih =>
      rw [List.forall_mem_cons, ← @ih (i + 1)]
      constructor
      · rintro ⟨sites, h⟩
        obtain ⟨s, hs, h⟩ := bind_eq_ok.mp h
        obtain ⟨tail, htail, -⟩ := bind_eq_ok.mp h
        obtain ⟨bare, hbare, -⟩ := compileSite_ok hs
        exact ⟨⟨bare, hbare⟩, tail, htail⟩
      · rintro ⟨⟨bare, hbare⟩, tail, htail⟩
        have hsite : compileSite settings i r = .ok (bare.named i) := by
          unfold compileSite
          rw [hbare]
        refine ⟨bare.named i :: tail, ?_⟩
        rw [compileFrom, hsite, htail]
        rfl

/-! ## Which site decides -/

/-- A site that is strictly narrower than another: by its hostname pattern,
and under one pattern by its longer path. -/
def Site.Narrower (s t : Site) : Prop :=
  (patternCoversPattern t.hostname s.hostname = true ∧ t.hostname ≠ s.hostname) ∨
    (s.hostname = t.hostname ∧
      (t.path.map String.utf8ByteSize).getD 0 < (s.path.map String.utf8ByteSize).getD 0)

/-- Compiled sites that are ranked the way their narrowness goes. -/
theorem rank_lt_of_narrower {i : Nat} {raw : List (SiteSpec D)} {sites : List (RankedSite C)}
    (h : compileFrom settings i raw = .ok sites) {s t : RankedSite C} (hs : s ∈ sites)
    (ht : t ∈ sites) (hnarrower : s.toSite.Narrower t.toSite) : t.rank < s.rank := by
  obtain ⟨rs, -, hhost, hrank⟩ := (compileFrom_ok h).1 s hs
  obtain ⟨rt, -, hhost', hrank'⟩ := (compileFrom_ok h).1 t ht
  rw [hrank, hrank', Prod.Lex.toLex_lt_toLex]
  rcases hnarrower with ⟨hcovers, hne⟩ | ⟨hsame, hlonger⟩
  · exact Or.inl (hostRank_lt_of_covers hhost' hhost hcovers hne)
  · exact Or.inr ⟨congrArg hostRank hsame.symm, hlonger⟩

/-- The site a setting is taken from, in the written order. -/
theorem takenFrom_spec {α : Type} {raw : List (SiteSpec D)} {sites : List (RankedSite C)}
    (h : compileSites settings raw = .ok sites) {looked : Site → Bool}
    {setting : RankedSite C → Option α} {s : RankedSite C}
    (htaken : takenFrom sites looked setting = some s) :
    ∃ before after, compileFrom settings 0 raw = .ok (before ++ s :: after) ∧
      (∀ t ∈ before ++ after, looked t.toSite = true → (setting t).isSome = true →
        ¬t.toSite.Narrower s.toSite) ∧
      ∀ t ∈ before, looked t.toSite = true → (setting t).isSome = true →
        ¬(t.hostname = s.hostname ∧ t.path = s.path) := by
  unfold compileSites at h
  cases hwritten : compileFrom settings 0 raw with
  | error e =>
      rw [hwritten] at h
      cases h
  | ok written =>
      rw [hwritten] at h
      cases h
      rw [takenFrom, List.find?_filter] at htaken
      obtain ⟨before, after, rfl, -, hbefore, hafter⟩ := find?_byDescending htaken
      have hsite : s ∈ before ++ s :: after := by simp
      refine ⟨before, after, rfl, fun t ht hlooked hset hnarrower => ?_,
        fun t ht hlooked hset hsame => ?_⟩
      · have hmem : t ∈ before ++ s :: after := by
          rcases List.mem_append.mp ht with ht | ht
          · exact List.mem_append_left _ ht
          · exact List.mem_append_right _ (List.mem_cons_of_mem _ ht)
        have hlt := rank_lt_of_narrower hwritten hmem hsite hnarrower
        have hle : t.rank ≤ s.rank := by
          rcases List.mem_append.mp ht with ht | ht
          · exact (hbefore t ht (by rw [hlooked, hset]; rfl)).le
          · exact hafter t ht (by rw [hlooked, hset]; rfl)
        exact absurd hlt (not_lt.mpr hle)
      · have hlt := hbefore t ht (by rw [hlooked, hset]; rfl)
        have hmem : t ∈ before ++ s :: after := List.mem_append_left _ ht
        obtain ⟨-, -, -, hrank⟩ := (compileFrom_ok hwritten).1 t hmem
        obtain ⟨-, -, -, hrank'⟩ := (compileFrom_ok hwritten).1 s hsite
        rw [hrank, hrank', hsame.1, hsame.2] at hlt
        exact lt_irrefl _ hlt

/-- Exchanging sites of different rank compiles to the same sites, the names
of their buckets apart. -/
theorem compileSites_exchanged {raw raw' : List (SiteSpec D)} {sites sites' : List (RankedSite C)}
    (h : compileSites settings raw = .ok sites) (h' : compileSites settings raw' = .ok sites')
    (hexchanged : Exchanged (SiteSpec.rank settings) raw raw') :
    sites.map RankedSite.unnamed = sites'.map RankedSite.unnamed := by
  unfold compileSites at h h'
  cases hwritten : compileFrom settings 0 raw with
  | error e =>
      rw [hwritten] at h
      cases h
  | ok written =>
      cases hwritten' : compileFrom settings 0 raw' with
      | error e =>
          rw [hwritten'] at h'
          cases h'
      | ok written' =>
          rw [hwritten] at h
          rw [hwritten'] at h'
          cases h
          cases h'
          have hkey : ∀ {r r' : SiteSpec D} {s s' : RankedSite C},
              (siteOf settings r).toOption.map RankedSite.unnamed = some s →
              (siteOf settings r').toOption.map RankedSite.unnamed = some s' →
              r.rank settings ≠ r'.rank settings → s.rank ≠ s'.rank := by
            intro r r' s s' hs hs' hne hsame
            obtain ⟨bare, hbare, rfl⟩ := Option.map_eq_some_iff.mp hs
            obtain ⟨bare', hbare', rfl⟩ := Option.map_eq_some_iff.mp hs'
            refine hne ?_
            rw [SiteSpec.rank, SiteSpec.rank, hbare, hbare']
            exact congrArg some hsame
          have hsorted := (hexchanged.filterMap hkey).byDescending
          rw [(compileFrom_ok hwritten).2, (compileFrom_ok hwritten').2] at hsorted
          have hmap : ∀ l : List (RankedSite C),
              (byDescending RankedSite.rank l).map RankedSite.unnamed =
                byDescending RankedSite.rank (l.map RankedSite.unnamed) :=
            map_byDescending RankedSite.unnamed fun _ => rfl
          exact (hmap written).trans (hsorted.trans (hmap written').symm)

/-- And the exchanged list compiles too. -/
theorem compileSites_isOk {raw raw' : List (SiteSpec D)} {sites : List (RankedSite C)}
    (h : compileSites settings raw = .ok sites)
    (hexchanged : Exchanged (SiteSpec.rank settings) raw raw') :
    ∃ sites', compileSites settings raw' = .ok sites' := by
  unfold compileSites at h
  cases hwritten : compileFrom settings 0 raw with
  | error e =>
      rw [hwritten] at h
      cases h
  | ok written =>
      have hall := compileFrom_isOk_iff.mp ⟨written, hwritten⟩
      obtain ⟨written', hwritten'⟩ := (@compileFrom_isOk_iff _ _ settings 0 raw').mpr
        fun r hr => hall r (hexchanged.perm.mem_iff.mpr hr)
      exact ⟨byDescending RankedSite.rank written', by rw [compileSites, hwritten']; rfl⟩

/-- What does not look at the bucket's name is answered alike. -/
theorem settingFor_unnamed {α : Type} (sites : List (RankedSite C)) (looked : Site → Bool)
    (setting : RankedSite C → Option α) :
    settingFor (sites.map RankedSite.unnamed) looked setting =
      settingFor sites looked fun s => setting s.unnamed := by
  rw [settingFor, List.filter_map, List.findSome?_map]
  rfl

/-- **The most specific site decides.** A covering pattern ranks lower than
what it covers. A setting is taken from a site that no other matching site
setting it is narrower than, the first written of those with one match; and
sites of different rank may be written in any order, where the name of a
bucket is not looked at. -/
theorem most_specific_site (settings : SiteSettings D C) :
    (∀ ra rb a b, normalizeOrgHostnamePattern ra = some a →
      normalizeOrgHostnamePattern rb = some b → patternCoversPattern a b = true → a ≠ b →
      hostRank a < hostRank b) ∧
    ∀ raw sites, compileSites settings raw = .ok sites → ∀ (host : Option String) (path : String)
      (looked : Site → Bool), looked = matching host path ∨ looked = hostwide host →
      ∀ (α : Type) (setting : RankedSite C → Option α),
        settingFor sites looked setting = (takenFrom sites looked setting).bind setting ∧
        (∀ s, takenFrom sites looked setting = some s →
          ∃ before after, compileFrom settings 0 raw = .ok (before ++ s :: after) ∧
            (∀ t ∈ before ++ after, looked t.toSite = true → (setting t).isSome = true →
              ¬t.toSite.Narrower s.toSite) ∧
            ∀ t ∈ before, looked t.toSite = true → (setting t).isSome = true →
              ¬(t.hostname = s.hostname ∧ t.path = s.path)) ∧
        ∀ raw', Exchanged (SiteSpec.rank settings) raw raw' →
          ∃ sites', compileSites settings raw' = .ok sites' ∧
            settingFor sites looked (fun s => setting s.unnamed) =
              settingFor sites' looked fun s => setting s.unnamed := by
  refine ⟨fun ra rb a b => hostRank_lt_of_covers, ?_⟩
  intro raw sites h host path looked _ α setting
  refine ⟨settingFor_eq sites looked setting, fun s => takenFrom_spec h, ?_⟩
  intro raw' hexchanged
  obtain ⟨sites', h'⟩ := compileSites_isOk h hexchanged
  refine ⟨sites', h', ?_⟩
  rw [← settingFor_unnamed, ← settingFor_unnamed, compileSites_exchanged h h' hexchanged]

end Compile

/-- Sites that set a rate limit and nothing else. -/
def onlyLimits : SiteSettings Unit Unit where
  compile _ _ := .ok (none, ())
  nothing _ := true

/-- A site for one hostname and one for every hostname, each with a limit. -/
def limitedApp : SiteSpec Unit where
  hostname := "app.test"
  rateLimit := some { rps := some 5 }
  said := ()

def limitedAll : SiteSpec Unit where
  hostname := "*"
  rateLimit := some { rps := some 9 }
  said := ()

/-- The compiled sites of a list that compiles. -/
def sitesOf (raw : List (SiteSpec Unit)) : List (RankedSite Unit) :=
  (compileSites onlyLimits raw).toOption.getD []

theorem compileSites_sitesOf {raw : List (SiteSpec Unit)}
    (h : (compileSites onlyLimits raw).toOption.isSome = true) :
    compileSites onlyLimits raw = .ok (sitesOf raw) := by
  unfold sitesOf
  cases hsites : compileSites onlyLimits raw with
  | error e =>
      rw [hsites] at h
      cases h
  | ok sites => rfl

def limitOf (s : RankedSite Unit) : Option (String × ℚ) :=
  s.rateLimit.map fun rl => (rl.key, rl.rps)

theorem exchanged_app :
    Exchanged (SiteSpec.rank onlyLimits) [limitedApp, limitedAll] [limitedAll, limitedApp] :=
  .swap limitedApp limitedAll [] (by decide +kernel)

theorem most_specific_site_app :
    hostRank "*.acme.com" < hostRank "eu.acme.com" ∧
      settingFor (sitesOf [limitedApp, limitedAll]) (matching (some "app.test") "/")
          (fun s => limitOf s.unnamed) =
        settingFor (sitesOf [limitedAll, limitedApp]) (matching (some "app.test") "/")
          fun s => limitOf s.unnamed := by
  refine ⟨(most_specific_site onlyLimits).1 "*.acme.com" "eu.acme.com" _ _ (by decide +kernel)
    (by decide +kernel) (by decide +kernel) (by decide), ?_⟩
  have hraw : compileSites onlyLimits [limitedApp, limitedAll] =
      .ok (sitesOf [limitedApp, limitedAll]) := compileSites_sitesOf (by decide +kernel)
  have hraw' : compileSites onlyLimits [limitedAll, limitedApp] =
      .ok (sitesOf [limitedAll, limitedApp]) := compileSites_sitesOf (by decide +kernel)
  have hsites := (most_specific_site onlyLimits).2 _ _ hraw (some "app.test") "/" _ (.inl rfl) _
    limitOf
  obtain ⟨sites', hsites', hsame⟩ := hsites.2.2 _ exchanged_app
  rwa [← Except.ok.inj (hraw'.symm.trans hsites')] at hsame

/-- The bucket of a limit is named by where its site stands, so the exchange
renames it. -/
theorem bucket_by_position :
    Exchanged (SiteSpec.rank onlyLimits) [limitedApp, limitedAll] [limitedAll, limitedApp] ∧
      settingFor (sitesOf [limitedApp, limitedAll]) (matching (some "app.test") "/") limitOf =
        some ("site#0:app.test:*:*", 5) ∧
      settingFor (sitesOf [limitedAll, limitedApp]) (matching (some "app.test") "/") limitOf =
        some ("site#1:app.test:*:*", 5) :=
  ⟨exchanged_app, by decide +kernel, by decide +kernel⟩

end Aperio
