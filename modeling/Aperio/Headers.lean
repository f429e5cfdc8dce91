import Aperio.RouteGate

/-!
# What a backend is told

The headers of a request on their way into the tunnel. Two places write
them: `proxy_http_request` with each attempt of it (`proxy/forward.rs`,
`proxy/forward/attempt.rs`), and the refresh of a stale cache entry, which
goes out under the headers of the visitor who happened to find it stale.

Every header sent carries where it came from. That is the one thing the
wire does not show, and the one thing a backend has to trust: a name in the
`x-aperio-` namespace, or one a `forward` method delivers, says who the
visitor is only if the visitor cannot write it.
-/

namespace Aperio

/-! ## Inbound headers -/

/-- A header as the server receives it: a name in lower case, and a value
that may not be readable as text. -/
structure InboundHeader where
  name : String
  value : Option String
  lower : toAsciiLowercase name = name
deriving DecidableEq

abbrev InboundHeaders := List InboundHeader

/-- `HeaderMap::get` and `to_str`: the first header of the name, if it reads
as text. -/
def InboundHeaders.get (headers : InboundHeaders) (name : String) : Option String :=
  (headers.find? (·.name == name)).bind (·.value)

/-- `credentials_for_scheme`, of the characters a header value may hold. -/
def credentialsForScheme (value scheme : String) : Option String :=
  let n := scheme.toList.length
  if eqIgnoreAsciiCase (String.ofList (value.toList.take n)) scheme then
    stripPrefix (String.ofList (value.toList.drop n)) " "
  else none

/-- The secret of a bearer header. -/
def bearerSecret (headers : InboundHeaders) : Option String :=
  (((headers.get "authorization").bind (credentialsForScheme · "Bearer")).map trim).filter (· != "")

/-- `request_cacheable`. -/
def requestCacheable (method : String) (headers : InboundHeaders) : Bool :=
  let refuses (cc : String) :=
    containsText (toAsciiLowercase cc) "no-cache" || containsText (toAsciiLowercase cc) "no-store"
  method == "GET" && !headers.any (·.name == "authorization") &&
    !headers.any (·.name == "cookie") && !(headers.get "cache-control").any refuses

/-! ## What is Aperio's -/

def carriedIdentityNames (policy : Policy) : List String :=
  (policy.forwardMethods.flatMap (·.responseHeaders)).map toAsciiLowercase

def inAperioNamespace (name : String) : Bool :=
  9 ≤ name.toList.length && eqIgnoreAsciiCase (String.ofList (name.toList.take 9)) "x-aperio-"

def headerIsAperios (name : String) (carriedNames : List String) (consumedAuthorization : Bool) :
    Bool :=
  inAperioNamespace name ||
    consumedAuthorization && eqIgnoreAsciiCase name "authorization" ||
    carriedNames.any (eqIgnoreAsciiCase name)

def aperioCookies : List String :=
  ["aperio_session", "__Host-aperio_session", "aperio_share", "aperio_affinity"]

/-- A part of a cookie header that sets one of them. -/
def isAperiosCookie (trimmed : String) : Bool :=
  startsWith trimmed "aperio_session=" || startsWith trimmed "__Host-aperio_session=" ||
    startsWith trimmed "aperio_share=" || startsWith trimmed "aperio_affinity="

def cookiesWithoutAperios (value : String) : String :=
  join (((split value ';').filter fun part => !isAperiosCookie (trim part)).map trim) "; "

/-- What the server reads a cookie header as, in `session_cookie` and in
`cookie_value`. -/
def readCookies (value : String) : List (String × String) :=
  (split value ';').filterMap fun part => splitOnce (trim part) '='

def isSafeRequestId (v : String) : Bool :=
  v != "" && decide (v.utf8ByteSize ≤ 128) &&
    v.toList.all fun c => isAsciiAlphanumeric c || c ∈ ['-', '_', '.', ':', '/', '+']

/-! ## Edits of the operator's sites -/

structure HeaderDirectives where
  add : List (String × String)
  remove : List String
deriving Repr, DecidableEq

/-- `HeaderTransform`: a name that is set is first removed. -/
structure HeaderTransform where
  add : List (String × String) := []
  remove : List String := []
deriving Repr, DecidableEq

def HeaderTransform.compile : Option HeaderDirectives → HeaderTransform
  | none => {}
  | some d =>
    { add := d.add
      remove := d.remove.map toAsciiLowercase ++ d.add.map fun kv => toAsciiLowercase kv.1 }

/-- Who put a header on the request. -/
inductive Source where
  | visitor
  | server
  | site
  | endpoint
deriving Repr, DecidableEq

structure SentHeader where
  name : String
  value : String
  source : Source
deriving Repr, DecidableEq

def SentHeader.of (source : Source) (kv : String × String) : SentHeader := ⟨kv.1, kv.2, source⟩

def HeaderTransform.apply (t : HeaderTransform) (headers : List SentHeader) : List SentHeader :=
  if t.add = [] ∧ t.remove = [] then headers
  else
    headers.filter (fun h => !t.remove.contains (toAsciiLowercase h.name)) ++
      t.add.map (SentHeader.of .site)

/-- The request edits of the matching sites, broadest first. -/
def requestEdits (sites : List (Site × Option HeaderTransform)) (host : Option String)
    (path : String) : List HeaderTransform :=
  ((sites.filter (·.1.matchesRoute host path)).filterMap (·.2)).reverse

def requestHeaders (sites : List (Site × Option HeaderTransform)) (host : Option String)
    (path : String) (headers : List SentHeader) : List SentHeader :=
  (requestEdits sites host path).foldl (fun acc t => t.apply acc) headers

/-! ## The request -/

/-- What the dispatch reads of the configuration, at the moment it reads
it: the gate was asked earlier. -/
structure DispatchConfig where
  visitorAuth : Policy
  sites : List (Site × Option HeaderTransform) := []
  requestIdHeader : String := "x-request-id"
  requestIdEnabled : Bool := true
  requestIdTrustInbound : Bool := false
  identityHeaders : Bool := false
  visitorIdentityHeaders : Bool := false
  cacheEnabled : Bool := false
deriving DecidableEq

/-- The client that serves the request, as far as the headers name it. -/
structure ServingClient where
  id : String
  orgId : Option String := none
  tokenName : Option String := none
  cache : Bool := false
deriving Repr, DecidableEq

def Admission.text : Admission → String
  | .session => "session"
  | .bearer => "bearer"
  | .jwt => "jwt"
  | .sso => "sso"
  | .forward => "forward"
  | .share => "share"

/-- A request the gate let in, on its way to a client. The bearer secret
the gate saw is the one of these headers. -/
structure Dispatch where
  gate : GateState
  visitor : Visitor
  host : Option String
  path : String
  identity : Option VisitorIdentity
  method : String
  headers : InboundHeaders
  traceHeaders : List (String × String)
  cfg : DispatchConfig
  client : ServingClient
  requestId : String
  admitted : checkVisitorGate gate visitor host path = .allow identity
  bearer_eq : visitor.bearer = bearerSecret headers

namespace Dispatch

variable (d : Dispatch)

def consumedAuthorization : Bool := d.identity.any (·.consumedAuthorization)

/-- One inbound header, as the attempt forwards it. -/
def serialize (h : InboundHeader) : Option SentHeader :=
  match h.value with
  | none => none
  | some val =>
    if headerIsAperios h.name (carriedIdentityNames d.cfg.visitorAuth) d.consumedAuthorization then
      none
    else if d.traceHeaders ≠ [] ∧ (h.name = "traceparent" ∨ h.name = "tracestate") then none
    else if d.cfg.requestIdEnabled ∧ eqIgnoreAsciiCase h.name d.cfg.requestIdHeader then none
    else if h.name = "cookie" then
      if cookiesWithoutAperios val = "" then none
      else some ⟨h.name, cookiesWithoutAperios val, .visitor⟩
    else some ⟨h.name, val, .visitor⟩

def serializedHeaders : List SentHeader :=
  requestHeaders d.cfg.sites d.host d.path
    (d.headers.filterMap d.serialize ++ d.traceHeaders.map (SentHeader.of .server))

/-- The visitor's own request id, where the operator trusts it. -/
def adoptedRequestId : Option String :=
  if d.cfg.requestIdEnabled && d.cfg.requestIdTrustInbound then
    ((d.headers.get d.cfg.requestIdHeader).map trim).filter isSafeRequestId
  else none

def requestIdHeaders : List SentHeader :=
  if d.cfg.requestIdEnabled then
    match d.adoptedRequestId with
    | some id => [⟨d.cfg.requestIdHeader, id, .visitor⟩]
    | none => [⟨d.cfg.requestIdHeader, d.requestId, .server⟩]
  else []

/-- What the server says of the client and of the visitor. -/
def announcements : List (String × String) :=
  (if d.cfg.identityHeaders then
    ("x-aperio-client-id", d.client.id) ::
      (d.client.orgId.map fun org => ("x-aperio-org", org)).toList ++
      [("x-aperio-token", d.client.tokenName.getD "master")]
  else []) ++
  (if d.cfg.visitorIdentityHeaders then
    (d.identity.map fun v =>
      ("x-aperio-visitor-how", v.how.text) ::
        (v.who.map fun who => ("x-aperio-visitor-id", who)).toList).getD []
  else [])

/-- The headers of one attempt. -/
def dispatchHeaders : List SentHeader :=
  d.serializedHeaders ++ d.requestIdHeaders ++ d.announcements.map (SentHeader.of .server) ++
    ((d.identity.map (·.extraHeaders)).getD []).map (SentHeader.of .endpoint)

def cacheEligible : Bool :=
  d.cfg.cacheEnabled && d.client.cache && !d.identity.any (·.forwardClientId.isSome) &&
    requestCacheable d.method d.headers

def revalidationDrops : List String :=
  ["if-none-match", "if-modified-since", "connection", "keep-alive", "upgrade", "accept-encoding"]

/-- The headers a stale entry is refreshed under. -/
def revalHeaders : List SentHeader :=
  d.headers.filterMap fun h =>
    if h.name ∈ revalidationDrops then none else h.value.map fun val => ⟨h.name, val, .visitor⟩

end Dispatch

/-- The two ways a visitor's headers reach a client. -/
inductive DispatchPath where
  | http
  | refresh
deriving Repr, DecidableEq

namespace Dispatch

variable (d : Dispatch)

/-- A refresh is made only for a request the cache could answer. -/
def Takes : DispatchPath → Prop
  | .http => True
  | .refresh => d.cacheEligible = true

def sent : DispatchPath → List SentHeader
  | .http => d.dispatchHeaders
  | .refresh => d.revalHeaders

/-- The `forward` method that let this visitor in, whoever wrote the policy
it stands in. -/
def admittingForward : Option ForwardConfig :=
  match routeGate d.gate d.host d.path with
  | .policy origin p =>
    if d.identity.any (·.how == .forward) then
      p.forwardMethods.find? fun cfg =>
        match (asks d.gate d.visitor d.host d.path origin cfg).1 with
        | .allow _ => true
        | .deny _ => false
    else none
  | _ => none

/-- The names that method delivers. -/
def deliveredNames : List String :=
  (d.admittingForward.map fun cfg => cfg.responseHeaders.map toAsciiLowercase).getD []

/-- A header of the visitor's that says nothing Aperio says. -/
structure HarmlessHeader (h : SentHeader) : Prop where
  namespace_free : inAperioNamespace h.name = false
  cookies : eqIgnoreAsciiCase h.name "cookie" = true →
    ∀ kv ∈ readCookies h.value, kv.1 ∉ aperioCookies
  authorization : d.consumedAuthorization = true →
    eqIgnoreAsciiCase h.name "authorization" = false
  delivered : toAsciiLowercase h.name ∉ d.deliveredNames

/-- No header the visitor supplied speaks for Aperio. -/
def Unforged (sent : List SentHeader) : Prop :=
  ∀ h ∈ sent, h.source = .visitor → d.HarmlessHeader h

/-! ## Which headers get through -/

/-- An inbound header that no rule of the attempt keeps back. -/
structure Passes (h : InboundHeader) : Prop where
  readable : h.value.isSome = true
  not_aperios : headerIsAperios h.name (carriedIdentityNames d.cfg.visitorAuth)
    d.consumedAuthorization = false
  not_trace : d.traceHeaders ≠ [] → h.name ≠ "traceparent" ∧ h.name ≠ "tracestate"
  not_request_id : d.cfg.requestIdEnabled = true →
    eqIgnoreAsciiCase h.name d.cfg.requestIdHeader = false
  cookie : h.name = "cookie" → ∀ val ∈ h.value, cookiesWithoutAperios val ≠ ""
  not_edited : ∀ t ∈ requestEdits d.cfg.sites d.host d.path, t.remove.contains h.name = false

end Dispatch

section Edits

variable {h : SentHeader}

/-- An edit keeps a visitor's header exactly when it does not remove the
name. -/
theorem HeaderTransform.mem_apply (hv : h.source = .visitor) (t : HeaderTransform)
    (headers : List SentHeader) :
    h ∈ t.apply headers ↔ h ∈ headers ∧ t.remove.contains (toAsciiLowercase h.name) = false := by
  unfold HeaderTransform.apply
  split
  · rename_i hempty
    simp [hempty.2]
  · have hsite : h ∉ t.add.map (SentHeader.of .site) := by
      intro hmem
      obtain ⟨kv, -, rfl⟩ := List.mem_map.mp hmem
      simp [SentHeader.of] at hv
    simp [hsite]

theorem mem_foldl_apply (hv : h.source = .visitor) (edits : List HeaderTransform)
    (headers : List SentHeader) :
    h ∈ edits.foldl (fun acc t => t.apply acc) headers ↔
      h ∈ headers ∧ ∀ t ∈ edits, t.remove.contains (toAsciiLowercase h.name) = false := by
  induction edits generalizing headers with
  | nil => simp
  | cons t edits ih =>
      rw [List.foldl_cons, ih, t.mem_apply hv]
      simp [and_assoc]

end Edits

namespace Dispatch

variable {d : Dispatch}

/-- What becomes of a header that is forwarded. -/
theorem serialize_eq_some {i : InboundHeader} {h : SentHeader} (hs : d.serialize i = some h) :
    ∃ val, i.value = some val ∧ (i.name = "cookie" → cookiesWithoutAperios val ≠ "") ∧
      h = ⟨i.name, if i.name = "cookie" then cookiesWithoutAperios val else val, .visitor⟩ := by
  unfold serialize at hs
  split at hs
  · cases hs
  · rename_i val hval
    split at hs
    · cases hs
    · split at hs
      · cases hs
      · split at hs
        · cases hs
        · split at hs
          · rename_i hcookie
            split at hs
            · cases hs
            · rename_i hne
              obtain rfl := Option.some.inj hs
              exact ⟨val, hval, fun _ => hne, by rw [if_pos hcookie]⟩
          · rename_i hcookie
            obtain rfl := Option.some.inj hs
            exact ⟨val, hval, fun h => absurd h hcookie, by rw [if_neg hcookie]⟩

theorem serialize_name {i : InboundHeader} {h : SentHeader} (hs : d.serialize i = some h) :
    h.name = i.name := by
  obtain ⟨val, -, -, rfl⟩ := serialize_eq_some hs
  rfl

theorem serialize_isSome (i : InboundHeader) :
    (d.serialize i).isSome = true ↔ i.value.isSome = true ∧
      headerIsAperios i.name (carriedIdentityNames d.cfg.visitorAuth) d.consumedAuthorization =
        false ∧
      (d.traceHeaders ≠ [] → i.name ≠ "traceparent" ∧ i.name ≠ "tracestate") ∧
      (d.cfg.requestIdEnabled = true → eqIgnoreAsciiCase i.name d.cfg.requestIdHeader = false) ∧
      (i.name = "cookie" → ∀ val ∈ i.value, cookiesWithoutAperios val ≠ "") := by
  unfold serialize
  cases hval : i.value with
  | none => simp
  | some val =>
      simp only [Option.isSome_some, true_and, Option.mem_def, Option.some.injEq, forall_eq']
      split
      · rename_i h
        simp [h]
      · rename_i h
        split
        · rename_i ht
          simp only [Option.isSome_none, Bool.false_eq_true, false_iff]
          rintro ⟨-, hno, -⟩
          obtain ⟨h₁, h₂⟩ := hno ht.1
          exact ht.2.elim h₁ h₂
        · rename_i ht
          have htrace : d.traceHeaders ≠ [] → i.name ≠ "traceparent" ∧ i.name ≠ "tracestate" := by
            intro hne
            exact ⟨fun hn => ht ⟨hne, .inl hn⟩, fun hn => ht ⟨hne, .inr hn⟩⟩
          split
          · rename_i hid
            simp [hid.1, hid.2]
          · rename_i hid
            have hno : d.cfg.requestIdEnabled = true →
                eqIgnoreAsciiCase i.name d.cfg.requestIdHeader = false := by
              intro hen
              by_contra hcon
              exact hid ⟨hen, by simpa using hcon⟩
            have haper : headerIsAperios i.name (carriedIdentityNames d.cfg.visitorAuth)
                d.consumedAuthorization = false := by simpa using h
            split
            · rename_i hcookie
              by_cases hempty : cookiesWithoutAperios val = ""
              · simp [hempty, hcookie]
              · rw [if_neg hempty]
                exact iff_of_true rfl ⟨haper, htrace, hno, fun _ => hempty⟩
            · rename_i hcookie
              exact iff_of_true rfl ⟨haper, htrace, hno, fun hc => absurd hc hcookie⟩

/-- What the attempt sends of the visitor's own: what passes, and an
adopted request id. -/
theorem mem_dispatchHeaders {h : SentHeader} (hv : h.source = .visitor) :
    h ∈ d.dispatchHeaders ↔
      (∃ i ∈ d.headers, d.Passes i ∧ d.serialize i = some h) ∨
        ∃ id, d.cfg.requestIdEnabled = true ∧ d.adoptedRequestId = some id ∧
          h = ⟨d.cfg.requestIdHeader, id, .visitor⟩ := by
  have hof (src : Source) (hsrc : src ≠ .visitor) (l : List (String × String)) :
      h ∉ l.map (SentHeader.of src) := by
    intro hmem
    obtain ⟨kv, -, rfl⟩ := List.mem_map.mp hmem
    exact hsrc hv
  have hser : h ∈ d.serializedHeaders ↔ ∃ i ∈ d.headers, d.Passes i ∧ d.serialize i = some h := by
    rw [serializedHeaders, requestHeaders, mem_foldl_apply hv, List.mem_append,
      or_iff_left (hof .server (by decide) _), List.mem_filterMap]
    constructor
    · rintro ⟨⟨i, hi, hs⟩, hedit⟩
      obtain ⟨hr, ha, ht, hid, hc⟩ := (serialize_isSome i).mp (by rw [hs]; rfl)
      refine ⟨i, hi, ⟨hr, ha, ht, hid, hc, ?_⟩, hs⟩
      rw [serialize_name hs, i.lower] at hedit
      exact hedit
    · rintro ⟨i, hi, hp, hs⟩
      refine ⟨⟨i, hi, hs⟩, ?_⟩
      rw [serialize_name hs, i.lower]
      exact hp.not_edited
  have hreq : h ∈ d.requestIdHeaders ↔ ∃ id, d.cfg.requestIdEnabled = true ∧
      d.adoptedRequestId = some id ∧ h = ⟨d.cfg.requestIdHeader, id, .visitor⟩ := by
    unfold requestIdHeaders
    split
    · rename_i hen
      cases d.adoptedRequestId with
      | some id => simp [hen]
      | none =>
          simp only [List.mem_singleton, reduceCtorEq, false_and, and_false, exists_false,
            iff_false]
          rintro rfl
          simp at hv
    · rename_i hen
      simp [hen]
  rw [dispatchHeaders, List.mem_append, or_iff_left (hof .endpoint (by decide) _),
    List.mem_append, or_iff_left (hof .server (by decide) _), List.mem_append, hser, hreq]

end Dispatch

end Aperio
