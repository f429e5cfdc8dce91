import Aperio.Exchanges
import Aperio.PlainRequest

/-!
# A refresh beside a visitor's request

Two places put an answer into the response cache: `Attempt::run`, with the
answer it hands to the visitor, and `spawn_swr_revalidation`, with the answer
to a request nobody waits for. The first one edits the headers before it looks
at them, as the operator's sites and the preview rule say, and keeps a missing
page for the negative lifetime. The second one takes the answer as it came and
replaces the entry by a 200 only.

The base64 decoder of bodies is an argument.
-/

namespace Aperio

/-! ## The answer -/

/-- The answer once its body has been read: bytes, or base64 from an older
client. -/
def TunnelResponse.read (decode : String → Option Bytes) (res : TunnelResponse) : ServiceAnswer where
  status := res.status
  headers := res.headers
  body :=
    match res.bodyRaw with
    | some raw => raw
    | none => (res.body.bind decode).getD []
  streamed := res.streamRx.isSome

/-- What is read of the configuration when an answer has come. -/
structure AnswerConfig where
  sites : List (Site × Option HeaderTransform) := []
  previewNoindex : Bool := false
  randomSubdomainSuffix : Option String := none
  cache : CacheSettings

/-- `HeaderTransform::apply`, to an answer. -/
def HeaderTransform.edit (t : HeaderTransform) (headers : List (String × String)) :
    List (String × String) :=
  if t.add = [] ∧ t.remove = [] then headers
  else headers.filter (fun h => !t.remove.contains (toAsciiLowercase h.1)) ++ t.add

/-- `Sites::response_headers`: the edits of the matching sites, broadest
first. -/
def responseHeaders (sites : List (Site × Option HeaderTransform)) (host : Option String)
    (path : String) (headers : List (String × String)) : List (String × String) :=
  (requestEdits sites host path).foldl (fun acc t => t.edit acc) headers

namespace AnswerConfig

variable (cfg : AnswerConfig) (host : Option String) (path : String)

/-- Previews ask not to be indexed. -/
def noindexed (headers : List (String × String)) : List (String × String) :=
  if cfg.previewNoindex && cfg.randomSubdomainSuffix.any fun pattern =>
      host.any (hostMatchesRandomPattern · pattern) then
    headers.filter (fun h => !eqIgnoreAsciiCase h.1 "x-robots-tag") ++
      [("x-robots-tag", "noindex, nofollow")]
  else headers

/-- The headers as the visitor, the cache and the inspector see them. -/
def edited (headers : List (String × String)) : List (String × String) :=
  cfg.noindexed host (responseHeaders cfg.sites host path headers)

end AnswerConfig

/-! ## The two writes -/

/-- `str::split_whitespace`. -/
def splitWhitespace (s : String) : List String :=
  (splitBy isWhiteSpace s).filter (· != "")

def responseSurrogateKeys (headers : List (String × String)) : List String :=
  (headers.filter fun h => eqIgnoreAsciiCase h.1 "surrogate-key").flatMap fun h =>
    splitWhitespace h.2

/-- What `ResponseCache::insert` is given of an answer. -/
structure CacheWrite where
  key : String
  status : Nat
  headers : List (String × String)
  body : Bytes
  ttl : Nat
  swr : Nat
  surrogateKeys : List String
deriving Repr, DecidableEq

/-- An answer under a key, for a lifetime. -/
def CacheWrite.of (key : String) (res : ServiceAnswer) (ttl : Nat) : CacheWrite where
  key := key
  status := res.status
  headers := res.headers
  body := res.body
  ttl := ttl
  swr := responseSwrWindow res.headers
  surrogateKeys := responseSurrogateKeys res.headers

section Writes

variable (cfg : AnswerConfig) (decode : String → Option Bytes) (host : Option String)
  (path key : String)

/-- What `Attempt::run` stores of an answer it hands to the visitor. -/
def dispatchWrites (eligible : Bool) (res : TunnelResponse) : Option CacheWrite :=
  let res := { res.read decode with headers := cfg.edited host path res.headers }
  if eligible && !res.streamed then (res.ttl cfg.cache).map (CacheWrite.of key res) else none

/-- What `spawn_swr_revalidation` stores. -/
def refreshWrites (res : TunnelResponse) : Option CacheWrite :=
  let res := res.read decode
  if !res.streamed && res.status == 200 then
    (responseCacheTtl res.headers).map (CacheWrite.of key res)
  else none

end Writes

/-! ## Where they agree -/

section Agree

variable {cfg : AnswerConfig} {decode : String → Option Bytes} {host : Option String}
  {path key : String} {res : TunnelResponse}

/-- Nothing edits the headers of a page that either side would keep, and no
other answer is kept for the negative lifetime. -/
def AnswerConfig.KeepsAsCame (cfg : AnswerConfig) (host : Option String) (path : String)
    (res : TunnelResponse) : Prop :=
  res.streamRx = none →
    if res.status = 200 then
      (responseCacheTtl res.headers = none ∧
        responseCacheTtl (cfg.edited host path res.headers) = none) ∨
      cfg.edited host path res.headers = res.headers
    else
      (res.status = 404 ∨ res.status = 410) →
        responseUncacheable (cfg.edited host path res.headers) = true ∨ cfg.cache.negativeTtl = 0

theorem CacheWrite.of_headers {answer answer' : ServiceAnswer} {ttl ttl' : Nat}
    (h : CacheWrite.of key answer ttl = CacheWrite.of key answer' ttl') :
    answer.headers = answer'.headers :=
  congrArg CacheWrite.headers h

/-- Two answers that differ in their headers are kept alike if neither is
kept, or they do not differ after all. -/
theorem map_of_eq_iff {answer : ServiceAnswer} {headers : List (String × String)} :
    (responseCacheTtl answer.headers).map (CacheWrite.of key answer) =
        (responseCacheTtl headers).map (CacheWrite.of key { answer with headers := headers }) ↔
      (responseCacheTtl answer.headers = none ∧ responseCacheTtl headers = none) ∨
        headers = answer.headers := by
  constructor
  · intro h
    cases hcame : responseCacheTtl answer.headers with
    | none =>
        rw [hcame] at h
        exact Or.inl ⟨rfl, Option.map_eq_none_iff.mp h.symm⟩
    | some ttl =>
        rw [hcame] at h
        obtain ⟨ttl', -, hsame⟩ := Option.map_eq_some_iff.mp h.symm
        exact Or.inr (CacheWrite.of_headers hsame)
  · rintro (⟨hcame, hedited⟩ | rfl)
    · rw [hcame, hedited]
      rfl
    · rfl

theorem positive_eq_none_iff {n : Nat} : positive n = none ↔ n = 0 := by
  rw [positive]
  split
  · rename_i hpos
    exact iff_of_false (Option.some_ne_none n) hpos.ne'
  · rename_i hzero
    exact iff_of_true rfl (Nat.eq_zero_of_not_pos hzero)

/-- An answer that is no page is kept for the negative lifetime, or not at
all. -/
theorem ttl_eq_none_iff {S : CacheSettings} {answer : ServiceAnswer} (hstatus : answer.status ≠ 200) :
    answer.ttl S = none ↔
      ((answer.status = 404 ∨ answer.status = 410) →
        responseUncacheable answer.headers = true ∨ S.negativeTtl = 0) := by
  rw [ServiceAnswer.ttl, if_neg hstatus]
  split
  · rename_i hkept
    rw [positive_eq_none_iff]
    constructor
    · exact fun hzero _ => Or.inr hzero
    · intro h
      rcases h hkept.1 with huncacheable | hzero
      · rw [hkept.2] at huncacheable
        cases huncacheable
      · exact hzero
  · rename_i hnot
    refine iff_of_true rfl fun hgone => Or.inl ?_
    by_contra hcacheable
    exact hnot ⟨hgone, by simpa using hcacheable⟩

/-- **A refresh stores what a visitor's request would store**, of any answer
to it, exactly where the answer is kept as it came. -/
theorem refresh_writes_iff :
    refreshWrites decode key res = dispatchWrites cfg decode host path key true res ↔
      cfg.KeepsAsCame host path res := by
  unfold refreshWrites dispatchWrites AnswerConfig.KeepsAsCame
  cases hstream : res.streamRx with
  | some chan => simp [TunnelResponse.read, hstream]
  | none =>
      by_cases hok : res.status = 200
      · have hpage := @map_of_eq_iff key (res.read decode) (cfg.edited host path res.headers)
        simpa [TunnelResponse.read, ServiceAnswer.ttl, hstream, hok] using hpage
      · have hother := @ttl_eq_none_iff cfg.cache
          { res.read decode with headers := cfg.edited host path res.headers } hok
        have hread : (res.read decode).streamed = false := by
          simp [TunnelResponse.read, hstream]
        have hstatus : ((res.read decode).status == 200) = false := by
          simpa [TunnelResponse.read] using hok
        simp only [hread, hstatus, Bool.and_false, Bool.false_eq_true, if_false, Bool.not_false,
          Bool.and_true, if_true, forall_const, if_neg hok]
        rw [eq_comm, Option.map_eq_none_iff]
        exact hother

theorem HeaderTransform.edit_of_untouched {t : HeaderTransform} {headers : List (String × String)}
    (hadd : t.add = []) (hremove : ∀ h ∈ headers, toAsciiLowercase h.1 ∉ t.remove) :
    t.edit headers = headers := by
  rw [HeaderTransform.edit]
  split
  · rfl
  · rw [hadd, List.append_nil, List.filter_eq_self]
    intro h hh
    simpa using hremove h hh

/-- Rules that add nothing, and remove nothing the answer has, leave it as it
is. -/
theorem edited_of_untouched
    (hrules : ∀ t ∈ requestEdits cfg.sites host path, t.add = [] ∧
      ∀ h ∈ res.headers, toAsciiLowercase h.1 ∉ t.remove)
    (hpreview : cfg.previewNoindex = false) :
    cfg.edited host path res.headers = res.headers := by
  have hfold : ∀ rules : List HeaderTransform, (∀ t ∈ rules, t.add = [] ∧
      ∀ h ∈ res.headers, toAsciiLowercase h.1 ∉ t.remove) →
      rules.foldl (fun acc t => t.edit acc) res.headers = res.headers := by
    intro rules hall
    induction rules with
    | nil => rfl
    | cons t rest ih =>
        obtain ⟨⟨hadd, hremove⟩, hrest⟩ := List.forall_mem_cons.mp hall
        rw [List.foldl_cons, HeaderTransform.edit_of_untouched hadd hremove]
        exact ih hrest
  rw [AnswerConfig.edited, responseHeaders, hfold _ hrules, AnswerConfig.noindexed, hpreview,
    Bool.false_and, if_neg Bool.false_ne_true]

end Agree

/-! ## A page whose header a site removes -/

/-- A missing page is kept for a minute. -/
def keepsMissing : AnswerConfig where
  cache := { maxBytes := 1024, negativeTtl := 60, etagOf _ := "" }

def appSite : Site where
  hostname := "app.test"
  path := none
  access := none
  path_normal := Site.noPath_normal

/-- The site removes a header its backend sets. -/
def hidesInternal : AnswerConfig :=
  { keepsMissing with sites := [(appSite, some { remove := ["x-internal"] })] }

def freshPage : TunnelResponse where
  status := 200
  headers := [("cache-control", "max-age=60, stale-while-revalidate=30")]
  bodyRaw := some [104, 105]

/-- The refresh of a page without that header is what a visitor's request
keeps. -/
theorem refresh_writes_page :
    refreshWrites (fun _ => none) "app.test|/" freshPage =
        dispatchWrites hidesInternal (fun _ => none) (some "app.test") "/" "app.test|/" true
          freshPage ∧
      refreshWrites (fun _ => none) "app.test|/" freshPage =
        some ⟨"app.test|/", 200, freshPage.headers, [104, 105], 60, 30, []⟩ := by
  have hplain : hidesInternal.edited (some "app.test") "/" freshPage.headers = freshPage.headers :=
    edited_of_untouched (by decide) rfl
  exact ⟨refresh_writes_iff.mpr fun _ => Or.inr hplain, by decide⟩

def tellingPage : TunnelResponse :=
  { freshPage with headers := freshPage.headers ++ [("x-internal", "secret")] }

/-- With it, the refresh puts into the cache what no visitor is to see. -/
theorem refresh_keeps_removed :
    refreshWrites (fun _ => none) "app.test|/" tellingPage ≠
      dispatchWrites hidesInternal (fun _ => none) (some "app.test") "/" "app.test|/" true
        tellingPage := by
  decide

end Aperio
