import Aperio.Headers
import Aperio.Run
import Mathlib.Logic.Function.Basic

/-!
# Remembered verdicts of `forward` endpoints

`forward_auth.rs` and `forward_auth_tunnel.rs`: a request is described to an
endpoint, dialed from here or asked of a connection, and an admission is
remembered under a digest of what the subrequest carries. Asks of every
method of the server share one cache and interleave freely.

The key knows the URL and what is sent, with a dash for a host that is absent
and nothing for a header that is; it does not know which response headers the
method carries on. `verdicts_faithful` is what holds of every run in which
none of the three is met.
-/

namespace Aperio

/-! ## The question -/

/-- A text without NUL, as a method, an address or a header value is. -/
abbrev NulFree := { s : String // 0 ∉ utf8Bytes s }

/-- A header of the visitor: a name in lower case and the bytes of a value. -/
structure AuthHeader where
  name : String
  value : Bytes
  valid : 0 ∉ value
deriving DecidableEq

/-- `HeaderValue::to_str`: visible characters and tabs. -/
def visibleByte (b : UInt8) : Bool :=
  (32 ≤ b && b < 127) || b == 9

theorem zero_notMem_of_visible {value : Bytes} (h : value.all visibleByte = true) : 0 ∉ value :=
  fun hmem => absurd (List.all_eq_true.mp h 0 hmem) (by decide)

def headerText (value : Bytes) : Option String :=
  if value.all visibleByte then some (String.ofList (value.map fun b => Char.ofNat b.toNat))
  else none

/-- What is asked about: a request and the address it came from, which is no
dash. -/
structure AuthQuestion where
  method : NulFree
  pathAndQuery : Option NulFree := none
  host : Option NulFree := none
  visitorIp : Option { ip : NulFree // ip.1 ≠ "-" } := none
  headers : List AuthHeader := []

namespace AuthQuestion

variable (q : AuthQuestion)

def uri : String := (q.pathAndQuery.map (·.1)).getD "/"

def hostText : String := (q.host.map (·.1)).getD "-"

def ipText : String := (q.visitorIp.map (·.1.1)).getD "-"

/-- `HeaderMap::get`: the first value of the name. -/
def get (name : String) : Option Bytes :=
  (q.headers.find? (·.name == toAsciiLowercase name)).map (·.value)

/-- The headers that travel, where the visitor sent them in readable text. -/
def named (names : List String) : List (String × String) :=
  names.filterMap fun name => ((q.get name).bind headerText).map (name, ·)

/-- One cookie header without Aperio's own cookies. -/
def keptCookie (value : Bytes) : Option AuthHeader :=
  (headerText value).bind fun text =>
    let kept := utf8Bytes (cookiesWithoutAperios text)
    if h : kept ≠ [] ∧ kept.all visibleByte = true then
      some ⟨"cookie", kept, zero_notMem_of_visible h.2⟩
    else none

/-- `without_aperio_cookies`. -/
def withoutAperioCookies : AuthQuestion :=
  { q with
    headers := q.headers.filter (·.name != "cookie") ++
      (q.headers.filter (·.name == "cookie")).filterMap fun h => keptCookie h.value }

end AuthQuestion

/-- The request headers a method names, or the two that carry an identity. -/
def ForwardConfig.names (cfg : ForwardConfig) : List String :=
  if cfg.requestHeaders = [] then ["cookie", "authorization"] else cfg.requestHeaders

/-! ## Asking -/

/-- The id of a connection. -/
abbrev ConnectionId := { id : String // '\x00' ∉ id.toList }

/-- A method, what it asks about, and the connection it asks, if any. -/
structure Ask where
  via : Option ConnectionId
  cfg : ForwardConfig
  question : AuthQuestion

/-- What an endpoint is sent. -/
structure Subrequest where
  url : String
  headers : List (String × String)
deriving Repr, DecidableEq

/-- SHA-256 in hexadecimal digits, assumed to collide nowhere. -/
structure Sha where
  hash : Bytes → String
  injective : Function.Injective hash
  hex : ∀ bytes, '\x00' ∉ (hash bytes).toList

namespace Ask

/-- A connection's endpoint sees no cookie of Aperio's. -/
def of (via : Option ConnectionId) (cfg : ForwardConfig) (question : AuthQuestion) : Ask :=
  ⟨via, cfg, if via.isSome then question.withoutAperioCookies else question⟩

variable (a : Ask)

/-- The subrequest, in the spelling of the two paths. -/
def subrequest : Subrequest where
  url := a.cfg.url
  headers :=
    let q := a.question
    match a.via with
    | none =>
      [("X-Forwarded-Method", q.method.1), ("X-Forwarded-Proto", "https"),
        ("X-Forwarded-Uri", q.uri)] ++
      (q.host.map fun h => ("X-Forwarded-Host", h.1)).toList ++
      (q.visitorIp.map fun ip => ("X-Forwarded-For", ip.1.1)).toList ++ q.named a.cfg.names
    | some _ =>
      [("x-forwarded-method", q.method.1), ("x-forwarded-proto", "https"),
        ("x-forwarded-uri", q.uri), ("x-forwarded-for", q.ipText)] ++
      (q.host.map fun h => ("x-forwarded-host", h.1)).toList ++ q.named a.cfg.names

/-- One header in the key: an absent one has no bytes. -/
def keyHeader (name : String) : Bytes :=
  utf8Bytes name ++ 61 :: (a.question.get name).getD []

/-- What is hashed, between NULs. -/
def keyFields : List Bytes :=
  [utf8Bytes a.cfg.url, utf8Bytes a.question.hostText, utf8Bytes a.question.method.1,
    utf8Bytes a.question.uri, utf8Bytes a.question.ipText] ++ a.cfg.names.map a.keyHeader

def key (H : Sha) : String :=
  H.hash ([0].intercalate a.keyFields)

/-- A method without a window has no key. -/
def cacheKey (H : Sha) : Option String :=
  if a.cfg.cache = 0 then none
  else
    match a.via with
    | none => some (a.key H)
    | some client => some (client.1 ++ String.singleton '\x00' ++ a.key H)

/-- What the client sends back of an endpoint's headers. -/
def relayed (headers : InboundHeaders) : List (String × String) :=
  (headers.filter fun h =>
    (["location", "content-type", "www-authenticate", "set-cookie"] ++ a.cfg.responseHeaders).any
      (eqIgnoreAsciiCase · h.name)).filterMap fun h => h.value.map (h.name, ·)

/-- What an admission carries on: the headers the method names. -/
def carried (headers : InboundHeaders) : List (String × String) :=
  match a.via with
  | none =>
    a.cfg.responseHeaders.filterMap fun name =>
      (headers.get (toAsciiLowercase name)).map (name, ·)
  | some _ => (a.relayed headers).filter fun kv =>
      a.cfg.responseHeaders.any (eqIgnoreAsciiCase · kv.1)

end Ask

/-! ## The cache -/

structure CachedVerdict where
  headers : List (String × String)
  decided : Nat
deriving Repr, DecidableEq

abbrev VerdictCache := List (String × CachedVerdict)

namespace VerdictCache

def maxCached : Nat := 4096

/-- `cached`: an entry that is fresh by the window of whoever asks. -/
def fresh (cache : VerdictCache) (window : Nat) (key : String) (now : Nat) :
    Option (List (String × String)) :=
  ((cache.lookup key).filter fun v => now - v.decided < window).map (·.headers)

/-- Room for one more, by the window of whoever stores. -/
def room (cache : VerdictCache) (window now : Nat) : VerdictCache :=
  if cache.length < maxCached then cache
  else
    let kept := cache.filter fun e => now - e.2.decided < window
    if kept.length < maxCached then kept else []

def remember (cache : VerdictCache) (window : Nat) (key : String)
    (headers : List (String × String)) (now : Nat) : VerdictCache :=
  (key, ⟨headers, now⟩) :: (cache.room window now).filter (·.1 != key)

end VerdictCache

/-! ## Runs -/

/-- An endpoint answered success, with these headers. -/
structure EndpointAnswer where
  ask : Ask
  headers : InboundHeaders
  time : Nat

/-- An admission out of the cache. -/
structure FromCache where
  ask : Ask
  headers : List (String × String)
  time : Nat

structure AskState where
  now : Nat := 0
  cache : VerdictCache := []
  pending : Nat → Option Ask := fun _ => none
  answered : List EndpointAnswer := []
  fromCache : List FromCache := []

inductive AskAct where
  | tick (secs : Nat)
  | ask (i : Nat) (via : Option ConnectionId) (cfg : ForwardConfig) (question : AuthQuestion)
  | admitted (i : Nat) (headers : InboundHeaders)
  | failed (i : Nat)

namespace AskState

/-- What the cache says to an ask. -/
def remembered (s : AskState) (H : Sha) (a : Ask) : Option (List (String × String)) :=
  (a.cacheKey H).bind fun key => s.cache.fresh a.cfg.cache key s.now

/-- Remembers an admission of a method that has a window. -/
def keep (s : AskState) (H : Sha) (a : Ask) (headers : InboundHeaders) : VerdictCache :=
  match a.cacheKey H with
  | none => s.cache
  | some key => s.cache.remember a.cfg.cache key (a.carried headers) s.now

/-- An ask is answered out of the cache or goes out; one that is out may be
admitted, or come to nothing in any of the ways it can. -/
inductive Step (H : Sha) : AskState → AskAct → AskState → Prop
  | tick {s : AskState} {secs : Nat} : Step H s (.tick secs) { s with now := s.now + secs }
  | hit {s : AskState} {i : Nat} {via : Option ConnectionId} {cfg : ForwardConfig}
      {question : AuthQuestion} {headers : List (String × String)}
      (hhit : s.remembered H (Ask.of via cfg question) = some headers) :
      Step H s (.ask i via cfg question)
        { s with fromCache := ⟨Ask.of via cfg question, headers, s.now⟩ :: s.fromCache }
  | miss {s : AskState} {i : Nat} {via : Option ConnectionId} {cfg : ForwardConfig}
      {question : AuthQuestion} (hfree : s.pending i = none)
      (hmiss : s.remembered H (Ask.of via cfg question) = none) :
      Step H s (.ask i via cfg question)
        { s with pending := Function.update s.pending i (some (Ask.of via cfg question)) }
  | admitted {s : AskState} {i : Nat} {a : Ask} {headers : InboundHeaders}
      (hopen : s.pending i = some a) :
      Step H s (.admitted i headers)
        { s with
          cache := s.keep H a headers
          pending := Function.update s.pending i none
          answered := ⟨a, headers, s.now⟩ :: s.answered }
  | failed {s : AskState} {i : Nat} :
      Step H s (.failed i) { s with pending := Function.update s.pending i none }

end AskState

def askSys (H : Sha) : Sys AskState AskAct where
  init s := s = {}
  step := AskState.Step H

/-- Every admission out of the cache is what an endpoint answered within the
window to the same subrequest, over the same connection, and carries what the
method selects from that answer. -/
def VerdictsFaithful (s : AskState) : Prop :=
  ∀ x ∈ s.fromCache, ∃ e ∈ s.answered, e.ask.via = x.ask.via ∧
    e.ask.subrequest = x.ask.subrequest ∧ e.time ≤ x.time ∧ x.time < e.time + x.ask.cfg.cache ∧
    x.headers = x.ask.carried e.headers

/-! ## What the key tells apart -/

/-- Nothing in the ask is spelled like the key's own marks: no NUL in the URL
or in a name, no `=` in a name, no host that is a dash, and no header that is
there and empty. -/
structure Ask.Plain (a : Ask) : Prop where
  url : 0 ∉ utf8Bytes a.cfg.url
  names : ∀ name ∈ a.cfg.names, 0 ∉ utf8Bytes name ∧ 61 ∉ utf8Bytes name
  host : ∀ h ∈ a.question.host, h.1 ≠ "-"
  values : ∀ name ∈ a.cfg.names, a.question.get name ≠ some []

theorem intercalate_inj {sep : UInt8} {xs ys : List Bytes} (hx : ∀ l ∈ xs, sep ∉ l)
    (hy : ∀ l ∈ ys, sep ∉ l) (hxs : xs ≠ []) (hys : ys ≠ [])
    (h : [sep].intercalate xs = [sep].intercalate ys) : xs = ys := by
  rw [← List.splitOn_intercalate sep hx hxs, h, List.splitOn_intercalate sep hy hys]

/-- The first separator ends what stands before it. -/
theorem append_cons_inj {sep : UInt8} {x y v w : Bytes} (hx : sep ∉ x) (hy : sep ∉ y)
    (h : x ++ sep :: v = y ++ sep :: w) : x = y ∧ v = w := by
  have htake : ∀ {z u : Bytes}, sep ∉ z → (z ++ sep :: u).takeWhile (· != sep) = z := by
    intro z u hz
    rw [List.takeWhile_append_of_pos]
    · simp
    · intro b hb
      rw [bne_iff_ne]
      rintro rfl
      exact hz hb
  have hxy : x = y := by
    rw [← @htake x v hx, h, htake hy]
  subst hxy
  exact ⟨rfl, List.cons.inj (List.append_cancel_left h) |>.2⟩

namespace AuthQuestion

variable {q : AuthQuestion}

theorem get_noNul {name : String} {value : Bytes} (h : q.get name = some value) : 0 ∉ value := by
  obtain ⟨header, -, rfl⟩ := Option.map_eq_some_iff.mp h
  exact header.valid

theorem uri_noNul : 0 ∉ utf8Bytes q.uri := by
  rw [uri]
  cases q.pathAndQuery with
  | none => decide
  | some text => exact text.2

theorem hostText_noNul : 0 ∉ utf8Bytes q.hostText := by
  rw [hostText]
  cases q.host with
  | none => decide
  | some text => exact text.2

theorem ipText_noNul : 0 ∉ utf8Bytes q.ipText := by
  rw [ipText]
  cases q.visitorIp with
  | none => decide
  | some ip => exact ip.1.2

/-- A host that is no dash is told from none. -/
theorem host_eq_of_text {r : AuthQuestion} (hq : ∀ h ∈ q.host, h.1 ≠ "-")
    (hr : ∀ h ∈ r.host, h.1 ≠ "-") (h : q.hostText = r.hostText) : q.host = r.host := by
  rw [hostText, hostText] at h
  cases hqh : q.host with
  | none =>
      cases hrh : r.host with
      | none => rfl
      | some host =>
          rw [hqh, hrh] at h
          exact absurd h.symm (hr host hrh)
  | some host =>
      cases hrh : r.host with
      | none =>
          rw [hqh, hrh] at h
          exact absurd h (hq host hqh)
      | some other =>
          rw [hqh, hrh] at h
          exact congrArg some (Subtype.ext h)

theorem visitorIp_eq_of_text {r : AuthQuestion} (h : q.ipText = r.ipText) :
    q.visitorIp = r.visitorIp := by
  rw [ipText, ipText] at h
  cases hqip : q.visitorIp with
  | none =>
      cases hrip : r.visitorIp with
      | none => rfl
      | some ip =>
          rw [hqip, hrip] at h
          exact absurd h.symm ip.2
  | some ip =>
      cases hrip : r.visitorIp with
      | none =>
          rw [hqip, hrip] at h
          exact absurd h ip.2
      | some other =>
          rw [hqip, hrip] at h
          exact congrArg some (Subtype.ext (Subtype.ext h))

end AuthQuestion

namespace Ask

variable {a b : Ask} {H : Sha}

theorem keyFields_noNul (ha : a.Plain) : ∀ l ∈ a.keyFields, (0 : UInt8) ∉ l := by
  intro l hl
  simp only [keyFields, List.mem_append, List.mem_cons, List.not_mem_nil, or_false,
    List.mem_map] at hl
  rcases hl with (rfl | rfl | rfl | rfl | rfl) | ⟨name, hname, rfl⟩
  · exact ha.url
  · exact AuthQuestion.hostText_noNul
  · exact a.question.method.2
  · exact AuthQuestion.uri_noNul
  · exact AuthQuestion.ipText_noNul
  · simp only [keyHeader, List.mem_append, List.mem_cons, not_or]
    refine ⟨(ha.names name hname).1, by decide, ?_⟩
    cases hget : a.question.get name with
    | none => exact List.not_mem_nil
    | some value => exact AuthQuestion.get_noNul hget

/-- A header that is there is not empty, so its bytes say whether it is. -/
theorem get_eq_of_getD {name other : String} (ha : a.question.get name ≠ some [])
    (hb : b.question.get other ≠ some [])
    (h : (a.question.get name).getD [] = (b.question.get other).getD []) :
    a.question.get name = b.question.get other := by
  cases hget : a.question.get name with
  | none =>
      cases hother : b.question.get other with
      | none => rfl
      | some value =>
          rw [hget, hother] at h
          rw [hother] at hb
          exact absurd (congrArg some h.symm) hb
  | some value =>
      cases hother : b.question.get other with
      | none =>
          rw [hget, hother] at h
          rw [hget] at ha
          exact absurd (congrArg some h) ha
      | some otherValue =>
          rw [hget, hother] at h
          exact congrArg some h

/-- The header part of the key gives the names and what is sent under
each. -/
theorem named_of_keyHeaders {names others : List String}
    (ha : ∀ name ∈ names, 61 ∉ utf8Bytes name ∧ a.question.get name ≠ some [])
    (hb : ∀ name ∈ others, 61 ∉ utf8Bytes name ∧ b.question.get name ≠ some [])
    (h : names.map a.keyHeader = others.map b.keyHeader) :
    names = others ∧ a.question.named names = b.question.named others := by
  induction names generalizing others with
  | nil =>
      obtain rfl : others = [] := by simpa using h.symm
      exact ⟨rfl, rfl⟩
  | cons name rest ih =>
      cases others with
      | nil => cases h
      | cons other rest' =>
          obtain ⟨hhead, htail⟩ := List.cons.inj h
          obtain ⟨hname, hvalue⟩ := append_cons_inj (ha name List.mem_cons_self).1
            (hb other List.mem_cons_self).1 hhead
          obtain rfl := utf8Bytes_injective hname
          have hget := get_eq_of_getD (ha name List.mem_cons_self).2
            (hb name List.mem_cons_self).2 hvalue
          obtain ⟨rfl, hnamed⟩ := ih (fun n hn => ha n (List.mem_cons_of_mem _ hn))
            (fun n hn => hb n (List.mem_cons_of_mem _ hn)) htail
          refine ⟨rfl, ?_⟩
          simp only [AuthQuestion.named, List.filterMap_cons, hget] at hnamed ⊢
          rw [hnamed]

/-- **The key is the subrequest.** Two plain asks with one key, over one
connection or both from here, send the same and name the same headers. -/
theorem subrequest_of_key (ha : a.Plain) (hb : b.Plain) (hvia : a.via = b.via)
    (h : a.key H = b.key H) :
    a.subrequest = b.subrequest ∧ a.cfg.url = b.cfg.url ∧ a.cfg.names = b.cfg.names := by
  have hfields : a.keyFields = b.keyFields :=
    intercalate_inj (keyFields_noNul ha) (keyFields_noNul hb) (by simp [keyFields])
      (by simp [keyFields]) (H.injective h)
  simp only [keyFields, List.cons_append, List.nil_append, List.cons.injEq] at hfields
  obtain ⟨hurl, hhost, hmethod, huri, hip, hheaders⟩ := hfields
  obtain ⟨hnames, hnamed⟩ := named_of_keyHeaders
    (fun name hname => ⟨(ha.names name hname).2, ha.values name hname⟩)
    (fun name hname => ⟨(hb.names name hname).2, hb.values name hname⟩) hheaders
  have hurl := utf8Bytes_injective hurl
  have hip := utf8Bytes_injective hip
  refine ⟨?_, hurl, hnames⟩
  simp only [subrequest, hvia, hurl, utf8Bytes_injective hmethod, utf8Bytes_injective huri, hip,
    AuthQuestion.host_eq_of_text ha.host hb.host (utf8Bytes_injective hhost),
    AuthQuestion.visitorIp_eq_of_text hip, hnamed]

/-- A key is the connection, if there is one, and the digest. -/
theorem split_cacheKey {key : String} (h : a.cacheKey H = some key) :
    split key '\x00' = (a.via.map (·.1)).toList ++ [a.key H] := by
  have hparts : ∀ d ∈ (a.via.map (·.1)).toList ++ [a.key H], '\x00' ∉ d.toList := by
    intro d hd
    rcases List.mem_append.mp hd with hd | hd
    · obtain ⟨client, -, rfl⟩ := Option.map_eq_some_iff.mp (Option.mem_toList.mp hd)
      exact client.2
    · rw [List.mem_singleton.mp hd]
      exact H.hex _
  have hkey : key = join ((a.via.map (·.1)).toList ++ [a.key H]) (String.singleton '\x00') := by
    rw [cacheKey] at h
    split at h
    · cases h
    · split at h
      · rename_i hvia
        rw [hvia]
        simpa [join] using (Option.some.inj h).symm
      · rename_i client hvia
        rw [hvia, ← Option.some.inj h]
        simp [join, List.intercalate, ← String.toList_inj]
  rw [hkey]
  exact split_join (by simp) hparts

theorem cacheKey_inj {key : String} (ha : a.cacheKey H = some key) (hb : b.cacheKey H = some key) :
    a.via = b.via ∧ a.key H = b.key H := by
  have hsplit := (split_cacheKey ha).symm.trans (split_cacheKey hb)
  obtain ⟨hvia, hkeys⟩ := List.append_inj' hsplit rfl
  refine ⟨?_, (List.cons.inj hkeys).1⟩
  have hids : a.via.map (·.1) = b.via.map (·.1) := by
    cases hav : a.via with
    | none =>
        cases hbv : b.via with
        | none => rfl
        | some other => simp [hav, hbv] at hvia
    | some client =>
        cases hbv : b.via with
        | none => simp [hav, hbv] at hvia
        | some other => simpa [hav, hbv] using hvia
  exact Option.map_injective Subtype.val_injective hids

end Ask

/-! ## Every run -/

section Runs

variable {H : Sha} {M : Option ConnectionId → ForwardConfig → Prop}

/-- The methods that are asked one way, with one URL and one list of request
headers, carry the same response headers on. -/
def MethodsAgree (M : Option ConnectionId → ForwardConfig → Prop) : Prop :=
  ∀ via cfg other, M via cfg → M via other → cfg.url = other.url → cfg.names = other.names →
    cfg.responseHeaders = other.responseHeaders

/-- A method with a window is one of these, and asks plainly. -/
def Ask.Mindful (M : Option ConnectionId → ForwardConfig → Prop) (a : Ask) : Prop :=
  a.cfg.cache ≠ 0 → M a.via a.cfg ∧ a.Plain

/-- The step's ask is mindful, if it is one. -/
def mindfulStep (M : Option ConnectionId → ForwardConfig → Prop) (_ : AskState) (act : AskAct)
    (_ : AskState) : Prop :=
  ∀ i via cfg question, act = .ask i via cfg question → (Ask.of via cfg question).Mindful M

theorem Ask.mindful_of_cacheKey {a : Ask} {key : String} (ha : a.Mindful M)
    (hkey : a.cacheKey H = some key) : M a.via a.cfg ∧ a.Plain := by
  refine ha fun hzero => ?_
  rw [Ask.cacheKey, if_pos hzero] at hkey
  cases hkey

theorem Ask.carried_congr {a b : Ask} (hvia : a.via = b.via)
    (h : a.cfg.responseHeaders = b.cfg.responseHeaders) (headers : InboundHeaders) :
    a.carried headers = b.carried headers := by
  simp only [Ask.carried, Ask.relayed, hvia, h]

namespace VerdictCache

variable {cache : VerdictCache} {window now : Nat} {key : String}

theorem mem_of_fresh {headers : List (String × String)}
    (h : cache.fresh window key now = some headers) :
    ∃ v, (key, v) ∈ cache ∧ now - v.decided < window ∧ v.headers = headers := by
  obtain ⟨v, hv, rfl⟩ := Option.map_eq_some_iff.mp h
  obtain ⟨hlook, hfresh⟩ := Option.filter_eq_some_iff.mp hv
  obtain ⟨front, back, rfl, -⟩ := List.lookup_eq_some_iff.mp hlook
  exact ⟨v, by simp, by simpa using hfresh, rfl⟩

theorem mem_of_mem_room {e : String × CachedVerdict} (h : e ∈ cache.room window now) :
    e ∈ cache := by
  simp only [room] at h
  split at h
  · exact h
  · split at h
    · exact List.mem_of_mem_filter h
    · exact absurd h List.not_mem_nil

theorem mem_remember {headers : List (String × String)} {k : String} {v : CachedVerdict}
    (h : (k, v) ∈ cache.remember window key headers now) :
    k = key ∧ v = ⟨headers, now⟩ ∨ (k, v) ∈ cache := by
  rcases List.mem_cons.mp h with hnew | hold
  · exact .inl (Prod.mk.inj hnew)
  · exact .inr (mem_of_mem_room (List.mem_of_mem_filter hold))

end VerdictCache

/-- Every entry is an endpoint's answer to an ask with its key, and every ask
that got an answer was mindful. -/
structure AskInv (H : Sha) (M : Option ConnectionId → ForwardConfig → Prop) (s : AskState) :
    Prop where
  pending : ∀ i a, s.pending i = some a → a.Mindful M
  answered : ∀ e ∈ s.answered, e.ask.Mindful M ∧ e.time ≤ s.now
  cache : ∀ k v, (k, v) ∈ s.cache → ∃ e ∈ s.answered, e.ask.cacheKey H = some k ∧
    e.time = v.decided ∧ v.headers = e.ask.carried e.headers
  faithful : VerdictsFaithful s

namespace AskState

variable {s s' : AskState}

theorem mem_keep {a : Ask} {headers : InboundHeaders} {k : String} {v : CachedVerdict}
    (h : (k, v) ∈ s.keep H a headers) :
    a.cacheKey H = some k ∧ v = ⟨a.carried headers, s.now⟩ ∨ (k, v) ∈ s.cache := by
  rw [keep] at h
  split at h
  · exact .inr h
  · rename_i key hkey
    rcases VerdictCache.mem_remember h with ⟨rfl, hv⟩ | hold
    · exact .inl ⟨hkey, hv⟩
    · exact .inr hold

/-- What the cache says to a mindful ask is an endpoint's word on it. -/
theorem remembered_faithful (hinv : AskInv H M s) (hM : MethodsAgree M) {a : Ask}
    (ha : a.Mindful M) {headers : List (String × String)} (h : s.remembered H a = some headers) :
    ∃ e ∈ s.answered, e.ask.via = a.via ∧ e.ask.subrequest = a.subrequest ∧ e.time ≤ s.now ∧
      s.now < e.time + a.cfg.cache ∧ headers = a.carried e.headers := by
  obtain ⟨key, hkey, hfresh⟩ := Option.bind_eq_some_iff.mp h
  obtain ⟨v, hmem, hage, rfl⟩ := VerdictCache.mem_of_fresh hfresh
  obtain ⟨e, he, hekey, htime, hheaders⟩ := hinv.cache key v hmem
  obtain ⟨hvia, hdigest⟩ := Ask.cacheKey_inj hekey hkey
  obtain ⟨hmethod, hplain⟩ := Ask.mindful_of_cacheKey ha hkey
  obtain ⟨hmethod', hplain'⟩ := Ask.mindful_of_cacheKey (hinv.answered e he).1 hekey
  obtain ⟨hsub, hurl, hnames⟩ := Ask.subrequest_of_key hplain' hplain hvia hdigest
  have hresponse : e.ask.cfg.responseHeaders = a.cfg.responseHeaders :=
    hM a.via _ _ (hvia ▸ hmethod') hmethod hurl hnames
  have hle := (hinv.answered e he).2
  refine ⟨e, he, hvia, hsub, hle, by omega, ?_⟩
  rw [hheaders, Ask.carried_congr hvia hresponse]

theorem pending_cases {pending : Nat → Option Ask} {i j : Nat} {x : Option Ask} {a : Ask}
    (h : Function.update pending i x j = some a) : x = some a ∨ pending j = some a := by
  by_cases hji : j = i
  · subst hji
    rw [Function.update_self] at h
    exact .inl h
  · rw [Function.update_of_ne hji] at h
    exact .inr h

theorem Step.inv (hM : MethodsAgree M) {act : AskAct} (hstep : Step H s act s')
    (hmindful : mindfulStep M s act s') (hinv : AskInv H M s) : AskInv H M s' := by
  cases hstep with
  | tick =>
      refine ⟨hinv.pending, fun e he => ?_, hinv.cache, hinv.faithful⟩
      obtain ⟨hask, htime⟩ := hinv.answered e he
      exact ⟨hask, Nat.le_add_right_of_le htime⟩
  | @hit i via cfg question headers hhit =>
      refine ⟨hinv.pending, hinv.answered, hinv.cache, fun x hx => ?_⟩
      rcases List.mem_cons.mp hx with rfl | hx
      · exact remembered_faithful hinv hM (hmindful i via cfg question rfl) hhit
      · exact hinv.faithful x hx
  | @miss i via cfg question hfree hmiss =>
      refine ⟨fun j a hj => ?_, hinv.answered, hinv.cache, hinv.faithful⟩
      rcases pending_cases hj with hnew | hold
      · rw [← Option.some.inj hnew]
        exact hmindful i via cfg question rfl
      · exact hinv.pending j a hold
  | @admitted i a headers hopen =>
      refine ⟨fun j b hj => ?_, fun e he => ?_, fun k v hkv => ?_, fun x hx => ?_⟩
      · rcases pending_cases hj with hnew | hold
        · cases hnew
        · exact hinv.pending j b hold
      · rcases List.mem_cons.mp he with rfl | he
        · exact ⟨hinv.pending i a hopen, Nat.le_refl _⟩
        · exact hinv.answered e he
      · rcases mem_keep hkv with ⟨hkey, rfl⟩ | hold
        · exact ⟨_, List.mem_cons_self, hkey, rfl, rfl⟩
        · obtain ⟨e, he, hrest⟩ := hinv.cache k v hold
          exact ⟨e, List.mem_cons_of_mem _ he, hrest⟩
      · obtain ⟨e, he, hrest⟩ := hinv.faithful x hx
        exact ⟨e, List.mem_cons_of_mem _ he, hrest⟩
  | @failed i =>
      refine ⟨fun j b hj => ?_, hinv.answered, hinv.cache, hinv.faithful⟩
      rcases pending_cases hj with hnew | hold
      · cases hnew
      · exact hinv.pending j b hold

end AskState

/-- **A remembered verdict is the endpoint's.** In every run of methods that
agree and asks that are plain, whoever is admitted out of the cache was
admitted by the endpoint, on the same subrequest, within the window. -/
theorem verdicts_faithful (hM : MethodsAgree M) {s : AskState}
    (hs : ((askSys H).restrict (mindfulStep M)).Reachable s) : VerdictsFaithful s := by
  have hinv : AskInv H M s := by
    refine hs.invariant (P := AskInv H M) ?_ ?_
    · rintro s rfl
      refine ⟨fun i a hpending => ?_, fun e he => ?_, fun k v hkv => ?_, fun x hx => ?_⟩
      · cases hpending
      · cases he
      · cases hkv
      · cases hx
    · intro s act s' _ hinv hstep
      exact hstep.1.inv hM hstep.2 hinv
  exact hinv.faithful

end Runs

/-! ## One endpoint, two methods -/

/-- The letter that stands for a byte. -/
def byteLetter (b : UInt8) : Char := Char.ofNat (b.toNat + 256)

theorem toNat_byteLetter (b : UInt8) : (byteLetter b).toNat = b.toNat + 256 := by
  have hvalid : (b.toNat + 256).isValidChar := .inl (by have := b.toNat_lt; omega)
  rw [byteLetter, Char.ofNat, dif_pos hvalid]
  rfl

/-- A digest that spells its input out. -/
def spelledOut : Sha where
  hash bytes := String.ofList (bytes.map byteLetter)
  injective := by
    intro x y h
    refine List.map_injective_iff.mpr ?_ (String.ofList_injective h)
    intro b c hbc
    have hnat := congrArg Char.toNat hbc
    rw [toNat_byteLetter, toNat_byteLetter] at hnat
    exact UInt8.toNat_inj.mp (Nat.add_right_cancel hnat)
  hex bytes h := by
    rw [String.toList_ofList] at h
    obtain ⟨b, -, hb⟩ := List.mem_map.mp h
    have hnat := congrArg Char.toNat hb
    rw [toNat_byteLetter] at hnat
    exact absurd hnat (by simp)

/-- A method that asks one endpoint and carries these headers on. -/
def asksFor (responseHeaders : List String) : ForwardConfig where
  url := "http://auth.internal/"
  requestHeaders := []
  responseHeaders := responseHeaders
  timeout := 5
  cache := 30
  viaClient := false

def aboutPage : AuthQuestion where
  method := ⟨"GET", by decide⟩
  headers := [⟨"cookie", [115, 105, 100], by decide⟩]

def isAlice : InboundHeaders := [⟨"x-auth-user", some "alice", by decide⟩]

def aliceAsk (responseHeaders : List String) : Ask :=
  Ask.of none (asksFor responseHeaders) aboutPage

theorem aliceAsk_plain (responseHeaders : List String) : (aliceAsk responseHeaders).Plain := by
  have hnames : (aliceAsk responseHeaders).cfg.names = ["cookie", "authorization"] := rfl
  refine ⟨?_, ?_, ?_, ?_⟩
  · change 0 ∉ utf8Bytes "http://auth.internal/"
    decide
  · rw [hnames]
    decide
  · intro h hh
    cases hh
  · rw [hnames]
    change ∀ name ∈ ["cookie", "authorization"], aboutPage.get name ≠ some []
    decide

/-- The key of both asks. -/
def pageKey : String := (aliceAsk []).key spelledOut

theorem cacheKey_aliceAsk (responseHeaders : List String) :
    (aliceAsk responseHeaders).cacheKey spelledOut = some pageKey := rfl

/-- The first method asks. -/
def aliceAsked : AskState where
  pending := Function.update (fun _ => none) 0 (some (aliceAsk ["x-auth-user"]))

/-- The endpoint says who it is. -/
def aliceKnown : AskState where
  cache := [(pageKey, ⟨[("x-auth-user", "alice")], 0⟩)]
  pending := Function.update aliceAsked.pending 0 none
  answered := [⟨aliceAsk ["x-auth-user"], isAlice, 0⟩]

theorem remembered_aliceKnown (responseHeaders : List String) :
    aliceKnown.remembered spelledOut (aliceAsk responseHeaders) =
      some [("x-auth-user", "alice")] := by
  rw [AskState.remembered, cacheKey_aliceAsk]
  simp [VerdictCache.fresh, aliceKnown, aliceAsk, Ask.of, asksFor]

theorem admitted_alice : AskState.Step spelledOut aliceAsked (.admitted 0 isAlice) aliceKnown := by
  have hopen : aliceAsked.pending 0 = some (aliceAsk ["x-auth-user"]) := rfl
  have hcarried : (aliceAsk ["x-auth-user"]).carried isAlice = [("x-auth-user", "alice")] := by
    decide
  have hkeep : aliceAsked.keep spelledOut (aliceAsk ["x-auth-user"]) isAlice =
      aliceKnown.cache := by
    rw [AskState.keep, cacheKey_aliceAsk]
    simp only [hcarried]
    rfl
  have hstep : AskState.Step spelledOut aliceAsked (.admitted 0 isAlice) _ := .admitted hopen
  rw [hkeep] at hstep
  exact hstep

theorem reachable_aliceKnown {M : Option ConnectionId → ForwardConfig → Prop}
    (hM : M none (asksFor ["x-auth-user"])) :
    ((askSys spelledOut).restrict (mindfulStep M)).Reachable aliceKnown := by
  have hmiss : AskState.Step spelledOut {} (.ask 0 none (asksFor ["x-auth-user"]) aboutPage)
      aliceAsked := .miss rfl rfl
  have hmindful : mindfulStep M {} (.ask 0 none (asksFor ["x-auth-user"]) aboutPage)
      aliceAsked := by
    rintro i via cfg question ⟨⟩ -
    exact ⟨hM, aliceAsk_plain _⟩
  refine .step (.step (.init rfl) ⟨hmiss, hmindful⟩) ⟨admitted_alice, ?_⟩
  rintro i via cfg question ⟨⟩

/-- The method that asked is answered out of the cache, as the endpoint
answered it. -/
theorem verdicts_faithful_alice : ∃ s,
    ((askSys spelledOut).restrict (mindfulStep fun _ cfg => cfg = asksFor ["x-auth-user"])).Reachable
      s ∧ s.fromCache ≠ [] ∧ VerdictsFaithful s := by
  have hhit := AskState.Step.hit (i := 0) (remembered_aliceKnown ["x-auth-user"])
  have hs := (reachable_aliceKnown (M := fun _ cfg => cfg = asksFor ["x-auth-user"]) rfl).step
    ⟨hhit, by
      rintro i via cfg question ⟨⟩ -
      exact ⟨rfl, aliceAsk_plain _⟩⟩
  refine ⟨_, hs, List.cons_ne_nil _ _, verdicts_faithful ?_ hs⟩
  rintro via cfg other rfl rfl - -
  rfl

/-- A method that carries nothing on is handed what the other one carries. -/
theorem verdict_of_other_method :
    ∃ s, (askSys spelledOut).Reachable s ∧ ¬VerdictsFaithful s := by
  have hhit := AskState.Step.hit (i := 0) (remembered_aliceKnown [])
  have hs := (reachable_aliceKnown (M := fun _ _ => True) trivial).of_restrict.step hhit
  refine ⟨_, hs, fun h => ?_⟩
  obtain ⟨e, -, -, -, -, -, hcarried⟩ := h _ List.mem_cons_self
  cases hcarried

end Aperio
