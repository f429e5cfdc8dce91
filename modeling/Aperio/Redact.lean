import Aperio.Binds
import Mathlib.Data.List.Forall2

/-!
# What the inspector shows

`redact.rs`: a captured request goes to the dashboard with the values of
sensitive names masked. Each carrier has its own scan: the query string, the
headers, a JSON body and a form. The base64 and JSON crates are a parameter.

A scan masks what it recognizes under the name as it is written. Cookies keep
their names and credentials their scheme, and a body that is neither JSON nor
a form is shown as it is. `redactedView_eq` says which differences of two
captures are never shown.
-/

namespace Aperio

/-! ## Sensitive names -/

def redactMask : String := "[REDACTED]"

def sensitiveHeaders : List String :=
  ["authorization", "proxy-authorization", "cookie", "set-cookie", "x-api-key", "api-key",
    "x-auth-token", "x-access-token", "x-amz-security-token", "x-aperio-totp"]

def sensitiveFields : List String :=
  ["password", "passwd", "secret", "token", "api_key", "apikey", "access_key", "access_token",
    "refresh_token", "client_secret", "private_key", "credential", "credentials", "otp",
    "otp_code", "totp", "totp_code", "mfa_code", "pin", "passphrase", "pwd", "id_token",
    "session_token", "auth_token", "authtoken", "jwt", "bearer", "cvv", "cvc"]

def sensitiveNeedles : List String :=
  ["password", "passwd", "secret", "token", "apikey", "api_key", "api-key", "private_key",
    "passphrase", "credential"]

def fieldIsSensitive (name : String) : Bool :=
  sensitiveFields.contains (toAsciiLowercase name) ||
    sensitiveNeedles.any (containsText (toAsciiLowercase name))

/-- A query parameter has a few names more. -/
def paramIsSensitive (name : String) : Bool :=
  fieldIsSensitive name ||
    ["aperio_share", "aperio_token", "code", "sig", "signature"].any (eqIgnoreAsciiCase name)

/-! ## Parameters and headers -/

/-- One `name=value` of a query string or a form; what is not masked stays
as it was written. -/
def redactPair (sensitive : String → Bool) (pair : String) : String :=
  match splitOnce pair '=' with
  | some (k, _) => if sensitive k then k ++ "=" ++ redactMask else pair
  | none => pair

def redactUri (uri : String) : String :=
  match splitOnce uri '?' with
  | none => uri
  | some (path, query) =>
    path ++ "?" ++ join ((split query '&').map (redactPair paramIsSensitive)) "&"

/-- A cookie without its value. -/
def redactCookie (pair : String) : String :=
  match splitOnce pair '=' with
  | some (k, _) => trim k ++ "=" ++ redactMask
  | none => redactMask

def redactHeaderValue (name value : String) : String :=
  let lower := toAsciiLowercase name
  if lower = "cookie" then join ((split value ';').map redactCookie) "; "
  else if lower = "set-cookie" then redactCookie value
  else if lower = "authorization" ∨ lower = "proxy-authorization" then
    match splitOnce (trim value) ' ' with
    | some (scheme, _) => scheme ++ " " ++ redactMask
    | none => redactMask
  else redactMask

def redactHeader (h : String × String) : String × String :=
  if sensitiveHeaders.contains (toAsciiLowercase h.1) then (h.1, redactHeaderValue h.1 h.2) else h

def redactHeaders (headers : List (String × String)) : List (String × String) :=
  headers.map redactHeader

/-! ## Bodies -/

/-- A JSON value; the text of a number stands for it. -/
inductive Json where
  | null
  | bool (b : Bool)
  | number (text : String)
  | string (s : String)
  | array (items : List Json)
  | object (members : List (String × Json))

mutual

/-- Masks the sensitive members of a value, however deep. -/
def redactJson : Json → Json
  | .object members => .object (redactMembers members)
  | .array items => .array (redactItems items)
  | .null => .null
  | .bool b => .bool b
  | .number text => .number text
  | .string s => .string s

def redactItems : List Json → List Json
  | [] => []
  | item :: rest => redactJson item :: redactItems rest

def redactMembers : List (String × Json) → List (String × Json)
  | [] => []
  | (key, val) :: rest =>
    (key, if fieldIsSensitive key then .string redactMask else redactJson val) ::
      redactMembers rest

end

def looksLikeForm (text : String) : Bool :=
  text.toList.contains '=' && !text.toList.any fun c => c == '{' || c == '<' || c == '\n'

def redactForm (text : String) : Option String :=
  if looksLikeForm text then
    some (join ((split text '&').map (redactPair (fieldIsSensitive <| trim ·))) "&")
  else none

/-- The `base64` and `serde_json` crates, as far as a body goes through
them. -/
structure BodyCodecs where
  encode : Bytes → String
  decode : String → Option Bytes
  parse : String → Option Json
  print : Json → String

section Bodies

variable (C : BodyCodecs)

/-- A captured body as text. -/
def BodyCodecs.text (body : String) : Option String :=
  (C.decode body).bind fromUtf8

def redactText (text : String) : Option String :=
  match C.parse text with
  | some json => some (C.print (redactJson json))
  | none => redactForm text

/-- A body that is neither passes through untouched. -/
def redactBodyB64 (body : String) : String :=
  match (C.text body).bind (redactText C) with
  | some masked => C.encode (utf8Bytes masked)
  | none => body

/-! ## The view -/

structure CapturedRequest where
  id : String := ""
  timestamp : String := ""
  method : String := "GET"
  uri : String := "/"
  reqHeaders : List (String × String) := []
  reqBody : Option String := none
  reqBodyTruncated : Bool := false
  status : Nat := 200
  respHeaders : List (String × String) := []
  respBody : Option String := none
  respBodyTruncated : Bool := false
  respStreamed : Bool := false
  durationMs : Nat := 0
  clientId : String := ""
  clientName : Option String := none
  orgId : Option String := none
deriving Repr, DecidableEq

def redactedView (redact : Bool) (captured : CapturedRequest) : CapturedRequest :=
  if redact then
    { captured with
      uri := redactUri captured.uri
      reqHeaders := redactHeaders captured.reqHeaders
      respHeaders := redactHeaders captured.respHeaders
      reqBody := captured.reqBody.map (redactBodyB64 C)
      respBody := captured.respBody.map (redactBodyB64 C) }
  else captured

end Bodies

/-! ## Captures that differ in secrets -/

/-- The same parameter, or two values under one sensitive name. -/
def ParamAlike (sensitive : String → Bool) (p q : String) : Prop :=
  p = q ∨ ∃ k v w, splitOnce p '=' = some (k, v) ∧ splitOnce q '=' = some (k, w) ∧
    sensitive k = true

def ParamsAlike (sensitive : String → Bool) (t u : String) : Prop :=
  List.Forall₂ (ParamAlike sensitive) (split t '&') (split u '&')

def UriAlike (sensitive : String → Bool) (u v : String) : Prop :=
  u = v ∨ ∃ path q r, splitOnce u '?' = some (path, q) ∧ splitOnce v '?' = some (path, r) ∧
    ParamsAlike sensitive q r

/-- Headers of the same names. `alike` is asked the lower-cased name and the
two values. -/
def HeadersAlike (alike : String → String → String → Prop) (hs ks : List (String × String)) :
    Prop :=
  List.Forall₂ (fun h k => h.1 = k.1 ∧ (h.2 = k.2 ∨ alike (toAsciiLowercase h.1) h.2 k.2)) hs ks

mutual

/-- The same value up to what stands under sensitive members. -/
inductive Json.Alike : Json → Json → Prop
  | refl (v : Json) : Json.Alike v v
  | array {items others : List Json} (h : Json.ItemsAlike items others) :
      Json.Alike (.array items) (.array others)
  | object {members others : List (String × Json)} (h : Json.MembersAlike members others) :
      Json.Alike (.object members) (.object others)

inductive Json.ItemsAlike : List Json → List Json → Prop
  | nil : Json.ItemsAlike [] []
  | cons {v w : Json} {items others : List Json} (h : Json.Alike v w)
      (hrest : Json.ItemsAlike items others) : Json.ItemsAlike (v :: items) (w :: others)

inductive Json.MembersAlike : List (String × Json) → List (String × Json) → Prop
  | nil : Json.MembersAlike [] []
  | secret {key : String} {v w : Json} {members others : List (String × Json)}
      (h : fieldIsSensitive key = true) (hrest : Json.MembersAlike members others) :
      Json.MembersAlike ((key, v) :: members) ((key, w) :: others)
  | member {key : String} {v w : Json} {members others : List (String × Json)}
      (h : Json.Alike v w) (hrest : Json.MembersAlike members others) :
      Json.MembersAlike ((key, v) :: members) ((key, w) :: others)

end

/-- Two captures that differ only in the values of parameters and headers and
in what the bodies hold. -/
structure CapturedAlike (param : String → Bool) (header : String → String → String → Prop)
    (body : String → String → Prop) (a b : CapturedRequest) : Prop where
  rest : b = { a with
    uri := b.uri
    reqHeaders := b.reqHeaders
    reqBody := b.reqBody
    respHeaders := b.respHeaders
    respBody := b.respBody }
  uri : UriAlike param a.uri b.uri
  reqHeaders : HeadersAlike header a.reqHeaders b.reqHeaders
  respHeaders : HeadersAlike header a.respHeaders b.respHeaders
  reqBody : Option.Rel body a.reqBody b.reqBody
  respBody : Option.Rel body a.respBody b.respBody

/-! ### By name alone -/

section Secrets

variable (C : BodyCodecs)

def captureBodyLimit : Nat := 64 * 1024

/-- The name is on one of the lists, as documented for headers too. -/
def headerIsSensitive (lower : String) : Bool :=
  sensitiveHeaders.contains lower || sensitiveNeedles.any (containsText lower)

/-- Two bodies, cut where a capture cuts them, that differ in the values of
sensitive members or parameters. -/
def CutBodiesAlike (body other : String) : Prop :=
  body = other ∨ ∃ t u, body = C.encode ((utf8Bytes t).take captureBodyLimit) ∧
    other = C.encode ((utf8Bytes u).take captureBodyLimit) ∧
    ((∃ v w, C.parse t = some v ∧ C.parse u = some w ∧ v.Alike w) ∨
      C.parse t = none ∧ C.parse u = none ∧
        ParamsAlike (fun k => fieldIsSensitive (trim (percentDecodeOnce k))) t u)

/-- The captures differ only in values that are attached to sensitive
names. -/
def SecretsDiffer (a b : CapturedRequest) : Prop :=
  CapturedAlike (fun k => paramIsSensitive (percentDecodeOnce k))
    (fun lower _ _ => headerIsSensitive lower = true) (CutBodiesAlike C) a b

/-! ### By what the scans recognize -/

/-- What a cookie keeps. -/
def cookieName (pair : String) : Option String :=
  (splitOnce pair '=').map (trim ·.1)

/-- What a credential keeps. -/
def credentialScheme (value : String) : Option String :=
  (splitOnce (trim value) ' ').map (·.1)

/-- Two values of a sensitive header with the same cookie names, or the same
scheme. -/
def HeaderMasked (lower v w : String) : Prop :=
  sensitiveHeaders.contains lower = true ∧
    if lower = "cookie" then
      (split v ';').map cookieName = (split w ';').map cookieName
    else if lower = "set-cookie" then cookieName v = cookieName w
    else if lower = "authorization" ∨ lower = "proxy-authorization" then
      credentialScheme v = credentialScheme w
    else True

/-- Two captured bodies that both read as JSON, or both as a form, and differ
in the values of sensitive members or parameters. -/
def BodyMasked (body other : String) : Prop :=
  body = other ∨ ∃ t u, C.text body = some t ∧ C.text other = some u ∧
    ((∃ v w, C.parse t = some v ∧ C.parse u = some w ∧ v.Alike w) ∨
      C.parse t = none ∧ C.parse u = none ∧ looksLikeForm t = true ∧ looksLikeForm u = true ∧
        ParamsAlike (fieldIsSensitive <| trim ·) t u)

/-- The captures differ only in what is masked. -/
def MaskedDiffer (a b : CapturedRequest) : Prop :=
  CapturedAlike paramIsSensitive HeaderMasked (BodyMasked C) a b

end Secrets

/-! ## What the view does not tell apart -/

theorem map_eq_of_forall₂ {α β : Type} {f : α → β} {xs ys : List α}
    (h : List.Forall₂ (fun x y => f x = f y) xs ys) : xs.map f = ys.map f := by
  induction h with
  | nil => rfl
  | cons hxy _ ih => rw [List.map_cons, List.map_cons, hxy, ih]

theorem redactPair_alike {sensitive : String → Bool} {p q : String}
    (h : ParamAlike sensitive p q) : redactPair sensitive p = redactPair sensitive q := by
  rcases h with rfl | ⟨k, v, w, hp, hq, hk⟩
  · rfl
  · simp only [redactPair, hp, hq, hk, if_true]

theorem redactPairs_alike {sensitive : String → Bool} {t u : String}
    (h : ParamsAlike sensitive t u) :
    (split t '&').map (redactPair sensitive) = (split u '&').map (redactPair sensitive) :=
  map_eq_of_forall₂ (h.imp fun _ _ => redactPair_alike)

theorem redactUri_alike {u v : String} (h : UriAlike paramIsSensitive u v) :
    redactUri u = redactUri v := by
  rcases h with rfl | ⟨path, q, r, hu, hv, hparams⟩
  · rfl
  · simp only [redactUri, hu, hv, redactPairs_alike hparams]

theorem redactCookie_eq (pair : String) :
    redactCookie pair = ((cookieName pair).map (· ++ "=" ++ redactMask)).getD redactMask := by
  simp only [redactCookie, cookieName]
  cases splitOnce pair '=' with
  | none => rfl
  | some kv => rfl

theorem redactCookies_eq (value : String) :
    (split value ';').map redactCookie =
      ((split value ';').map cookieName).map fun name =>
        (name.map (· ++ "=" ++ redactMask)).getD redactMask := by
  rw [List.map_map]
  exact List.map_congr_left fun pair _ => redactCookie_eq pair

theorem redactCredential_eq (value : String) :
    (match splitOnce (trim value) ' ' with
      | some (scheme, _) => scheme ++ " " ++ redactMask
      | none => redactMask) =
      ((credentialScheme value).map (· ++ " " ++ redactMask)).getD redactMask := by
  simp only [credentialScheme]
  cases splitOnce (trim value) ' ' with
  | none => rfl
  | some kv => rfl

theorem redactHeaderValue_masked {name v w : String}
    (h : HeaderMasked (toAsciiLowercase name) v w) :
    redactHeaderValue name v = redactHeaderValue name w := by
  obtain ⟨-, hkept⟩ := h
  simp only [redactHeaderValue]
  split
  · rename_i hcookie
    rw [if_pos hcookie] at hkept
    rw [redactCookies_eq v, redactCookies_eq w, hkept]
  · rename_i hcookie
    rw [if_neg hcookie] at hkept
    split
    · rename_i hset
      rw [if_pos hset] at hkept
      rw [redactCookie_eq, redactCookie_eq, hkept]
    · rename_i hset
      rw [if_neg hset] at hkept
      split
      · rename_i hcred
        rw [if_pos hcred] at hkept
        rw [redactCredential_eq v, redactCredential_eq w, hkept]
      · rfl

theorem redactHeaders_masked {hs ks : List (String × String)}
    (h : HeadersAlike HeaderMasked hs ks) : redactHeaders hs = redactHeaders ks := by
  refine map_eq_of_forall₂ (h.imp ?_)
  rintro ⟨name, v⟩ ⟨other, w⟩ ⟨hname, hvalue⟩
  obtain rfl : name = other := hname
  rcases hvalue with hvw | hmasked
  · rw [show v = w from hvw]
  · simp only [redactHeader, hmasked.1, if_true, redactHeaderValue_masked hmasked]

mutual

theorem redactJson_alike {v w : Json} (h : v.Alike w) : redactJson v = redactJson w :=
  match h with
  | .refl v => rfl
  | .array hitems => by rw [redactJson, redactJson, redactItems_alike hitems]
  | .object hmembers => by rw [redactJson, redactJson, redactMembers_alike hmembers]

theorem redactItems_alike {items others : List Json} (h : Json.ItemsAlike items others) :
    redactItems items = redactItems others :=
  match h with
  | .nil => rfl
  | .cons hv hrest => by
    rw [redactItems, redactItems, redactJson_alike hv, redactItems_alike hrest]

theorem redactMembers_alike {members others : List (String × Json)}
    (h : Json.MembersAlike members others) : redactMembers members = redactMembers others :=
  match h with
  | .nil => rfl
  | .secret hkey hrest => by
    rw [redactMembers, redactMembers, if_pos hkey, if_pos hkey, redactMembers_alike hrest]
  | .member hv hrest => by
    rw [redactMembers, redactMembers, redactJson_alike hv, redactMembers_alike hrest]

end

section View

variable {C : BodyCodecs}

theorem redactBodyB64_masked {body other : String} (h : BodyMasked C body other) :
    redactBodyB64 C body = redactBodyB64 C other := by
  rcases h with rfl | ⟨t, u, ht, hu, ⟨v, w, hv, hw, halike⟩ | ⟨hv, hw, htf, huf, hparams⟩⟩
  · rfl
  · simp only [redactBodyB64, ht, hu, Option.bind_some, redactText, hv, hw, redactJson_alike halike]
  · simp only [redactBodyB64, ht, hu, Option.bind_some, redactText, hv, hw, redactForm, htf, huf,
      if_true, redactPairs_alike hparams]

theorem map_masked {body other : Option String} (h : Option.Rel (BodyMasked C) body other) :
    body.map (redactBodyB64 C) = other.map (redactBodyB64 C) := by
  cases h with
  | none => rfl
  | some h => exact congrArg some (redactBodyB64_masked h)

/-- **What is masked is not shown.** Two captures that differ only in values
the scans recognize have the same view. -/
theorem redactedView_eq {a b : CapturedRequest} (h : MaskedDiffer C a b) :
    redactedView C true a = redactedView C true b := by
  obtain ⟨hrest, huri, hreq, hresp, hreqBody, hrespBody⟩ := h
  rw [hrest]
  simp only [redactedView, if_true, redactUri_alike huri, redactHeaders_masked hreq,
    redactHeaders_masked hresp, map_masked hreqBody, map_masked hrespBody]

end View

/-! ## Two visitors -/

/-- The crates, on the two bodies below. -/
def braceCodecs : BodyCodecs where
  encode bytes :=
    if bytes = utf8Bytes "password=\x7b1" then "cGFzc3dvcmQ9ezE=" else "cGFzc3dvcmQ9ezI="
  decode body :=
    if body = "cGFzc3dvcmQ9ezE=" then some (utf8Bytes "password=\x7b1")
    else if body = "cGFzc3dvcmQ9ezI=" then some (utf8Bytes "password=\x7b2")
    else none
  parse _ := none
  print _ := ""

def withHeader (name value : String) : CapturedRequest where
  reqHeaders := [(name, value)]

theorem headerMasked_authorization {v w : String} (h : credentialScheme v = credentialScheme w) :
    HeaderMasked "authorization" v w :=
  ⟨by decide, by simpa using h⟩

/-- A header's value and a query parameter differ, and the view does not. -/
theorem redactedView_eq_bearer :
    redactedView braceCodecs true
        { withHeader "Authorization" "Bearer one" with uri := "/in?page=2&token=one" } =
      redactedView braceCodecs true
        { withHeader "Authorization" "Bearer two" with uri := "/in?page=2&token=two" } := by
  refine redactedView_eq ⟨rfl, ?_, ?_, .nil, .none, .none⟩
  · have hone : split "page=2&token=one" '&' = ["page=2", "token=one"] := by decide
    have htwo : split "page=2&token=two" '&' = ["page=2", "token=two"] := by decide
    refine .inr ⟨"/in", "page=2&token=one", "page=2&token=two", by decide, by decide, ?_⟩
    rw [ParamsAlike, hone, htwo]
    exact .cons (.inl rfl) (.cons
      (.inr ⟨"token", "one", "two", by decide, by decide, by decide⟩) .nil)
  · have hlower : toAsciiLowercase "Authorization" = "authorization" := by decide
    have hmasked : HeaderMasked (toAsciiLowercase "Authorization") "Bearer one" "Bearer two" := by
      rw [hlower]
      exact headerMasked_authorization (by decide +kernel)
    exact .cons ⟨rfl, .inr hmasked⟩ .nil

/-- Two captures that differ in a secret, and whose views differ. -/
def TellsApart (C : BodyCodecs) (a b : CapturedRequest) : Prop :=
  SecretsDiffer C a b ∧ redactedView C true a ≠ redactedView C true b

theorem take_captureBodyLimit {bytes : Bytes} (h : bytes.length ≤ 1024) :
    bytes.take captureBodyLimit = bytes :=
  List.take_of_length_le (h.trans (by decide))

/-- Two form bodies with a brace in the secret. -/
theorem brace_bodies_alike :
    CutBodiesAlike braceCodecs "cGFzc3dvcmQ9ezE=" "cGFzc3dvcmQ9ezI=" := by
  refine .inr ⟨"password=\x7b1", "password=\x7b2", ?_, ?_, .inr ⟨rfl, rfl, ?_⟩⟩
  · rw [take_captureBodyLimit (by decide)]
    decide
  · rw [take_captureBodyLimit (by decide)]
    decide
  · have hone : split "password=\x7b1" '&' = ["password=\x7b1"] := by decide
    have htwo : split "password=\x7b2" '&' = ["password=\x7b2"] := by decide
    rw [ParamsAlike, hone, htwo]
    exact .cons (.inr ⟨"password", "\x7b1", "\x7b2", by decide, by decide, by decide⟩) .nil

/-- Cookie names are shown, and a form body with a brace is passed through. -/
theorem views_tell_secrets_apart :
    TellsApart braceCodecs (withHeader "Cookie" "one=1") (withHeader "Cookie" "two=1") ∧
      TellsApart braceCodecs { reqBody := some "cGFzc3dvcmQ9ezE=" }
        { reqBody := some "cGFzc3dvcmQ9ezI=" } := by
  have hcookie : redactHeaders [("Cookie", "one=1")] ≠ redactHeaders [("Cookie", "two=1")] := by
    decide +kernel
  have hbody : some (redactBodyB64 braceCodecs "cGFzc3dvcmQ9ezE=") ≠
      some (redactBodyB64 braceCodecs "cGFzc3dvcmQ9ezI=") := by decide +kernel
  refine ⟨⟨?_, fun h => hcookie (congrArg (·.reqHeaders) h)⟩,
    ⟨?_, fun h => hbody (congrArg (·.reqBody) h)⟩⟩
  · have hsensitive : headerIsSensitive (toAsciiLowercase "Cookie") = true := by decide
    exact ⟨rfl, .inl rfl, .cons ⟨rfl, .inr hsensitive⟩ .nil, .nil, .none, .none⟩
  · exact ⟨rfl, .inl rfl, .nil, .nil, .some brace_bodies_alike, .none⟩

end Aperio
