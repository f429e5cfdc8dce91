import Aperio.CacheControl
import Aperio.Headers
import Aperio.Upload

/-!
# The sites' firewall

`sites/waf.rs` and the places of `proxy_http_request` that ask it: deny rules
before anything is read, size rules once a body is buffered. A rule's regular
expressions are the `regex` crate's; here any type of them with a match.

What is dispatched is not quite what was judged. A body that is streamed is
bounded by the body limit of its service alone, which is how the dispatch
means it, and a header is judged by the first value the visitor sent.
`screened_judged` is what holds of every request that is dispatched.
-/

namespace Aperio

/-! ## Rules -/

/-- One compiled rule: `maxBody` makes it a size rule. -/
structure WafRule (R : Type) where
  path : Option R := none
  methods : Option (List String) := none
  header : Option (String × R) := none
  maxBody : Option Nat := none
  desc : String := ""
deriving Repr, DecidableEq

/-- The compiled sites with their rules, most specific first. -/
abbrev Firewall (R : Type) := List (Site × List (WafRule R))

section Rules

variable {R : Type} (isMatch : R → String → Bool)

namespace WafRule

/-- The conditions on the path and the method. -/
def onRoute (r : WafRule R) (method path : String) : Bool :=
  r.path.all (isMatch · path) && r.methods.all (·.contains method)

def conditionsMatch (r : WafRule R) (method path : String) (headers : InboundHeaders) : Bool :=
  r.onRoute isMatch method path &&
    r.header.all fun (name, re) => (headers.get name).any (isMatch re)

def denies (r : WafRule R) (method path : String) (headers : InboundHeaders) : Bool :=
  r.maxBody.isNone && r.conditionsMatch isMatch method path headers

def refusesBody (r : WafRule R) (method path : String) (headers : InboundHeaders)
    (bodyLen : Nat) : Bool :=
  r.maxBody.any fun limit =>
    decide (limit < bodyLen) && r.conditionsMatch isMatch method path headers

end WafRule

namespace Firewall

def hasWaf (fw : Firewall R) : Bool :=
  fw.any fun s => !s.2.isEmpty

/-- The rules of the sites over a route. -/
def matching (fw : Firewall R) (host : Option String) (path : String) : List (WafRule R) :=
  (fw.filter (·.1.matchesRoute host path)).flatMap (·.2)

def wafDeny (fw : Firewall R) (host : Option String) (method path : String)
    (headers : InboundHeaders) : Option String :=
  ((fw.matching host path).find? (·.denies isMatch method path headers)).map (·.desc)

def wafBody (fw : Firewall R) (host : Option String) (method path : String)
    (headers : InboundHeaders) (bodyLen : Nat) : Option String :=
  ((fw.matching host path).find? (·.refusesBody isMatch method path headers bodyLen)).map (·.desc)

variable {isMatch} {fw : Firewall R} {host : Option String} {method path : String}
  {headers : InboundHeaders}

theorem denies_of_wafDeny_none (h : fw.wafDeny isMatch host method path headers = none) :
    ∀ r ∈ fw.matching host path, r.denies isMatch method path headers = false := by
  rw [wafDeny, Option.map_eq_none_iff, List.find?_eq_none] at h
  intro r hr
  simpa using h r hr

theorem refusesBody_of_wafBody_none {bodyLen : Nat}
    (h : fw.wafBody isMatch host method path headers bodyLen = none) :
    ∀ r ∈ fw.matching host path, r.refusesBody isMatch method path headers bodyLen = false := by
  rw [wafBody, Option.map_eq_none_iff, List.find?_eq_none] at h
  intro r hr
  simpa using h r hr

theorem matching_of_no_waf (h : fw.hasWaf = false) : fw.matching host path = [] := by
  rw [matching, List.flatMap_eq_nil_iff]
  intro s hs
  rw [hasWaf, List.any_eq_false] at h
  simpa using h s (List.mem_of_mem_filter hs)

end Firewall

end Rules

/-! ## The body -/

def requestStreamThreshold : Nat := 256 * 1024

/-- A visitor's body as it arrives, under the server's limit and the one its
service declares. -/
structure RequestBody where
  items : List BodyItem
  maxBodySize : Nat
  maxRequestBody : Option Nat := none
deriving Repr, DecidableEq

namespace RequestBody

/-- `effective_body_limit`. -/
def limit (body : RequestBody) : Nat :=
  (body.maxRequestBody.map (min · body.maxBodySize)).getD body.maxBodySize

/-- `axum::body::to_bytes`: everything, unless it is too much or breaks off. -/
def whole (limit : Nat) : List BodyItem → Option Bytes
  | [] => some []
  | .error :: _ => none
  | .chunk bytes :: rest =>
    if limit < bytes.length then none
    else (whole (limit - bytes.length) rest).map (bytes ++ ·)

/-- What the pump of a streamed body relays before it is done or aborts. -/
def relayed (limit : Nat) : List BodyItem → Bytes
  | [] => []
  | .error :: _ => []
  | .chunk bytes :: rest =>
    if limit < bytes.length then [] else bytes ++ relayed (limit - bytes.length) rest

theorem whole_length {limit : Nat} {items : List BodyItem} {bytes : Bytes}
    (h : whole limit items = some bytes) : bytes.length ≤ limit := by
  induction items generalizing limit bytes with
  | nil =>
      cases h
      exact Nat.zero_le _
  | cons item rest ih =>
      cases item with
      | error => cases h
      | chunk front =>
          rw [whole] at h
          split at h
          · cases h
          · obtain ⟨back, hback, rfl⟩ := Option.map_eq_some_iff.mp h
            have hlen := ih hback
            rw [List.length_append]
            omega

theorem relayed_length {limit : Nat} {items : List BodyItem} :
    (relayed limit items).length ≤ limit := by
  induction items generalizing limit with
  | nil => exact Nat.zero_le _
  | cons item rest ih =>
      cases item with
      | error => exact Nat.zero_le _
      | chunk front =>
          rw [relayed]
          split
          · exact Nat.zero_le _
          · have hlen := @ih (limit - front.length)
            rw [List.length_append]
            omega

end RequestBody

/-! ## The checks of a request -/

namespace Dispatch

variable (d : Dispatch)

def contentLength : Option Nat :=
  (d.headers.get "content-length").bind parseU64

def chunkedUpload : Bool :=
  (d.headers.get "transfer-encoding").any fun v => containsText (toAsciiLowercase v) "chunked"

def streamRequest : Bool :=
  d.chunkedUpload || d.contentLength.any (requestStreamThreshold < ·)

/-- The headers as they are offered to the sites' edits. -/
def offeredHeaders : List SentHeader :=
  d.headers.filterMap d.serialize ++ d.traceHeaders.map (SentHeader.of .server)

end Dispatch

/-- What goes to a client, before the sites' edits. -/
structure Offered where
  headers : List SentHeader
  body : Bytes
deriving Repr, DecidableEq

section Screen

variable {R : Type} (isMatch : R → String → Bool) (fw : Firewall R) (d : Dispatch)
  (body : RequestBody)

def blocked : Nat × String := (403, "403 Forbidden - Blocked by WAF")

def overLimit : Nat × String :=
  (413, "413 Payload Too Large - Request body size exceeds limit")

def bodyBlocked : Nat × String := (413, "413 Payload Too Large - Blocked by WAF")

/-- The firewall's part in what happens to a request, in its order: a request
that is dispatched has passed all of it. -/
def screen : Except (Nat × String) Offered :=
  if (fw.hasWaf && (fw.wafDeny isMatch d.host d.method d.path d.headers).isSome) = true then
    .error blocked
  else if (d.contentLength.any (body.limit < ·)) = true then .error overLimit
  else if d.streamRequest = true then
    .ok ⟨d.offeredHeaders, RequestBody.relayed body.limit body.items⟩
  else
    match RequestBody.whole body.limit body.items with
    | none => .error overLimit
    | some bytes =>
      if (fw.hasWaf &&
          (fw.wafBody isMatch d.host d.method d.path d.headers bytes.length).isSome) = true then
        .error bodyBlocked
      else .ok ⟨d.offeredHeaders, bytes⟩

/-! ## What a rule is about -/

/-- Every condition of the rule is met by what is sent: some value of the
header it names matches. -/
def WafRule.Meets (r : WafRule R) (method path : String) (sent : List SentHeader) : Prop :=
  r.onRoute isMatch method path = true ∧
    ∀ name re, r.header = some (name, re) →
      ∃ h ∈ sent, toAsciiLowercase h.name = name ∧ isMatch re h.value = true

/-- No rule of the route has its conditions met by what is dispatched. -/
def FirewallJudges : Prop :=
  ∀ sent, screen isMatch fw d body = .ok sent →
    ∀ r ∈ fw.matching d.host d.path, r.Meets isMatch d.method d.path sent.headers →
      ∃ limit, r.maxBody = some limit ∧ sent.body.length ≤ limit

end Screen

/-- The visitor sent the header once, and it is sent on as it came: the
cookies hold none of Aperio's, and the server writes no header of the name. -/
structure Dispatch.SentAlone (d : Dispatch) (name : String) : Prop where
  once : (d.headers.filter (·.name == name)).length ≤ 1
  cookies : name = "cookie" → ∀ val, d.headers.get name = some val → cookiesWithoutAperios val = val
  trace : ∀ kv ∈ d.traceHeaders, toAsciiLowercase kv.1 ≠ name

/-! ## What was judged is what is sent -/

namespace Dispatch

variable {d : Dispatch} {h : SentHeader}

/-- A header sent once is the first of its name. -/
theorem get_of_once {i : InboundHeader} (hi : i ∈ d.headers)
    (honce : (d.headers.filter (·.name == i.name)).length ≤ 1) : d.headers.get i.name = i.value := by
  have hmem : i ∈ d.headers.filter (·.name == i.name) := List.mem_filter.mpr ⟨hi, by simp⟩
  have hsingle : d.headers.filter (·.name == i.name) = [i] := by
    cases hfilter : d.headers.filter (·.name == i.name) with
    | nil =>
        rw [hfilter] at hmem
        exact absurd hmem List.not_mem_nil
    | cons first rest =>
        rw [hfilter] at hmem honce
        have hrest : rest = [] := List.eq_nil_of_length_eq_zero (by simpa using honce)
        rw [hrest] at hmem ⊢
        rw [List.mem_singleton.mp hmem]
  rw [InboundHeaders.get, ← List.head?_filter, hsingle]
  rfl

/-- What is offered of a header that was sent alone is what was judged. -/
theorem SentAlone.get_eq (hh : h ∈ d.offeredHeaders)
    (halone : d.SentAlone (toAsciiLowercase h.name)) :
    d.headers.get (toAsciiLowercase h.name) = some h.value := by
  rcases List.mem_append.mp hh with hvisitor | hserver
  · obtain ⟨i, hi, hs⟩ := List.mem_filterMap.mp hvisitor
    obtain ⟨val, hval, -, rfl⟩ := serialize_eq_some hs
    simp only [i.lower] at halone ⊢
    have hget : d.headers.get i.name = some val := by
      rw [get_of_once hi halone.once, hval]
    rw [hget]
    split
    · rename_i hcookie
      rw [halone.cookies hcookie val hget]
    · rfl
  · obtain ⟨kv, hkv, rfl⟩ := List.mem_map.mp hserver
    exact absurd rfl (halone.trace kv hkv)

end Dispatch

section Judged

variable {R : Type} {isMatch : R → String → Bool} {fw : Firewall R} {d : Dispatch}
  {body : RequestBody} {sent : Offered} {r : WafRule R}

/-- Where every header it names was sent alone, a rule judges what is
offered. -/
theorem WafRule.conditionsMatch_of_meets
    (halone : ∀ name re, r.header = some (name, re) → d.SentAlone name)
    (hmeets : r.Meets isMatch d.method d.path d.offeredHeaders) :
    r.conditionsMatch isMatch d.method d.path d.headers = true := by
  obtain ⟨hroute, hheader⟩ := hmeets
  rw [conditionsMatch, hroute, Bool.true_and]
  cases hr : r.header with
  | none => rfl
  | some cond =>
      obtain ⟨name, re⟩ := cond
      obtain ⟨h, hmem, rfl, hmatch⟩ := hheader name re hr
      have hget := Dispatch.SentAlone.get_eq hmem (halone _ re hr)
      simp [hget, hmatch]

/-- What a request that is dispatched has passed. -/
structure Screened (isMatch : R → String → Bool) (fw : Firewall R) (d : Dispatch)
    (body : RequestBody) (sent : Offered) : Prop where
  headers : sent.headers = d.offeredHeaders
  denied : ∀ r ∈ fw.matching d.host d.path, r.denies isMatch d.method d.path d.headers = false
  body_le : sent.body.length ≤ body.limit
  refused : d.streamRequest = false → ∀ r ∈ fw.matching d.host d.path,
    r.refusesBody isMatch d.method d.path d.headers sent.body.length = false

theorem screened (h : screen isMatch fw d body = .ok sent) :
    Screened isMatch fw d body sent := by
  unfold screen at h
  split at h
  · cases h
  · rename_i hdeny
    have hdenied : ∀ r ∈ fw.matching d.host d.path,
        r.denies isMatch d.method d.path d.headers = false := by
      cases hwaf : fw.hasWaf with
      | false =>
          rw [Firewall.matching_of_no_waf hwaf]
          exact fun r hr => absurd hr List.not_mem_nil
      | true => exact Firewall.denies_of_wafDeny_none (by simpa [hwaf] using hdeny)
    split at h
    · cases h
    · split at h
      · rename_i hstream
        cases h
        refine ⟨rfl, hdenied, RequestBody.relayed_length, ?_⟩
        rw [hstream]
        exact fun hno => absurd hno (by decide)
      · split at h
        · cases h
        · rename_i bytes hbytes
          split at h
          · cases h
          · rename_i hbody
            cases h
            refine ⟨rfl, hdenied, RequestBody.whole_length hbytes, ?_⟩
            intro _
            cases hwaf : fw.hasWaf with
            | false =>
                rw [Firewall.matching_of_no_waf hwaf]
                exact fun r hr => absurd hr List.not_mem_nil
            | true => exact Firewall.refusesBody_of_wafBody_none (by simpa [hwaf] using hbody)

/-- **A rule judges what the backend gets**, where the header it names was
sent alone: a request that is dispatched meets the conditions of no deny rule,
a buffered body is within every size rule whose conditions are met, and any
body is within the limit of its service. -/
theorem screened_judged (h : screen isMatch fw d body = .ok sent) :
    sent.body.length ≤ body.limit ∧
      ∀ r ∈ fw.matching d.host d.path,
        (∀ name re, r.header = some (name, re) → d.SentAlone name) →
        r.Meets isMatch d.method d.path sent.headers →
          ∃ limit, r.maxBody = some limit ∧
            (d.streamRequest = false → sent.body.length ≤ limit) := by
  obtain ⟨hheaders, hdenied, hbody, hrefused⟩ := screened h
  refine ⟨hbody, ?_⟩
  intro r hr halone hmeets
  rw [hheaders] at hmeets
  have hmatch := WafRule.conditionsMatch_of_meets halone hmeets
  have hno := hdenied r hr
  cases hmax : r.maxBody with
  | none => simp [WafRule.denies, hmax, hmatch] at hno
  | some limit =>
      refine ⟨limit, rfl, ?_⟩
      intro hstream
      have hsmall := hrefused hstream r hr
      simpa [WafRule.refusesBody, hmax, hmatch] using hsmall

end Judged

/-! ## A size rule and two uploads -/

/-- A rule over every hostname: no body above four bytes under `/up`. -/
def uploadRules : Firewall String :=
  [({ hostname := "*", path := none, access := some .isPublic, path_normal := Site.noPath_normal },
    [{ path := some "/up", maxBody := some 4 }])]

/-- A regular expression that is a text and matches itself. -/
def sameText (re s : String) : Bool := re == s

/-- A POST with the given headers, on a public site. -/
def uploads (headers : InboundHeaders) (h : headers.get "authorization" = none) : Dispatch where
  gate :=
    { sessions := ∅
      cfg :=
        { sites :=
            [{ hostname := "*", path := none, access := some .isPublic
               path_normal := Site.noPath_normal }] } }
  visitor := {}
  host := some "app.example.com"
  path := "/up"
  identity := none
  method := "POST"
  headers := headers
  traceHeaders := []
  cfg := { visitorAuth := ⟨[]⟩ }
  client := { id := "c1" }
  requestId := "r1"
  admitted := by rfl
  bearer_eq := by simp [bearerSecret, h]

def fiveBytes : RequestBody where
  items := [.chunk [1, 2, 3, 4, 5]]
  maxBodySize := 1024

def threeBytes : RequestBody where
  items := [.chunk [1, 2, 3]]
  maxBodySize := 1024

/-- An upload of three bytes, sent with its length. -/
def smallUpload : Dispatch :=
  uploads [⟨"content-length", some "3", by decide⟩] (by decide)

/-- It is dispatched, and the rule judged it. -/
theorem small_upload_judged :
    screen sameText uploadRules smallUpload threeBytes =
        .ok ⟨[⟨"content-length", "3", .visitor⟩], [1, 2, 3]⟩ ∧
      ∃ limit, some 4 = some limit ∧ [1, 2, 3].length ≤ limit := by
  have hok : screen sameText uploadRules smallUpload threeBytes =
      .ok ⟨[⟨"content-length", "3", .visitor⟩], [1, 2, 3]⟩ := by decide
  obtain ⟨-, hrules⟩ := screened_judged hok
  obtain ⟨limit, hlimit, hbody⟩ := hrules { path := some "/up", maxBody := some 4 } (by decide)
    (fun name re hheader => by cases hheader)
    ⟨by decide, fun name re hheader => by cases hheader⟩
  exact ⟨hok, limit, hlimit, hbody (by decide)⟩

/-- An upload of five bytes, sent in chunks. -/
def streamedUpload : Dispatch :=
  uploads [⟨"transfer-encoding", some "chunked", by decide⟩] (by decide)

/-- It is dispatched too, above what the rule allows. -/
theorem chunked_upload_passes :
    ¬FirewallJudges sameText uploadRules streamedUpload fiveBytes := by
  intro h
  obtain ⟨limit, hlimit, hbody⟩ := h ⟨[⟨"transfer-encoding", "chunked", .visitor⟩], [1, 2, 3, 4, 5]⟩
    (by decide) { path := some "/up", maxBody := some 4 } (by decide)
    ⟨by decide, fun name re hheader => by cases hheader⟩
  cases hlimit
  exact absurd hbody (by decide)

end Aperio
