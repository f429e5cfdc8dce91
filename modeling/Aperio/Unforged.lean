import Aperio.Headers

/-!
# What a visitor cannot say

Four kinds of headers are Aperio's own. Two of them the attempt keeps back
whatever the configuration: its cookies and a credential its gate consumed.
The namespace it speaks in is kept back by the attempt but not by the
refresh of a stale entry, and the names a `forward` method delivers are
kept back only where the server's own policy delivers them.
-/

namespace Aperio

/-! ## Cookies -/

/-- What is read under one of the names was set by a part the filter knows. -/
theorem isAperiosCookie_of_splitOnce {part : String} {kv : String × String}
    (h : splitOnce part '=' = some kv) (hmem : kv.1 ∈ aperioCookies) :
    isAperiosCookie part = true := by
  have hstart := startsWith_of_splitOnce (k := kv.1) (v := kv.2) h
  simp only [aperioCookies, List.mem_cons, List.not_mem_nil, or_false] at hmem
  simp only [isAperiosCookie, Bool.or_eq_true]
  rcases hmem with hk | hk | hk | hk
  · rw [hk] at hstart
    exact .inl (.inl (.inl hstart))
  · rw [hk] at hstart
    exact .inl (.inl (.inr hstart))
  · rw [hk] at hstart
    exact .inl (.inr hstart)
  · rw [hk] at hstart
    exact .inr hstart

/-- No cookie the server reads as its own is left. -/
theorem readCookies_cookiesWithoutAperios {value : String}
    (hne : cookiesWithoutAperios value ≠ "") :
    ∀ kv ∈ readCookies (cookiesWithoutAperios value), kv.1 ∉ aperioCookies := by
  generalize hdef : ((split value ';').filter fun part => !isAperiosCookie (trim part)).map trim =
    kept
  have hjoin : cookiesWithoutAperios value = join kept "; " := by rw [cookiesWithoutAperios, hdef]
  have hkept : ∀ p ∈ kept, trim p = p ∧ ';' ∉ p.toList ∧ isAperiosCookie p = false := by
    intro p hp
    rw [← hdef] at hp
    obtain ⟨q, hq, rfl⟩ := List.mem_map.mp hp
    obtain ⟨hsplit, hkeep⟩ := List.mem_filter.mp hq
    refine ⟨trim_trim q, ?_, by simpa using hkeep⟩
    intro hsemi
    exact not_mem_of_mem_split hsplit (mem_of_mem_trim hsemi)
  have hnil : kept ≠ [] := by
    intro h
    rw [hjoin, h] at hne
    exact hne rfl
  have hsep : "; " = String.ofList [';', ' '] := by decide
  have hback : (split (join kept "; ") ';').map trim = kept := by
    rw [hsep]
    exact map_trim_split_join (by decide) hnil (fun p hp => (hkept p hp).2.1)
      (fun p hp => (hkept p hp).1)
  intro kv hkv hmem
  rw [hjoin, readCookies] at hkv
  have hread : kv ∈ kept.filterMap (splitOnce · '=') := by
    rw [← hback, List.filterMap_map]
    simpa only [Function.comp_def] using hkv
  obtain ⟨p, hp, hsplit⟩ := List.mem_filterMap.mp hread
  have hcookie := isAperiosCookie_of_splitOnce hsplit hmem
  rw [(hkept p hp).2.2] at hcookie
  exact absurd hcookie (by decide)

/-- A request id sets no cookie at all. -/
theorem readCookies_safe {id : String} (h : isSafeRequestId id = true) : readCookies id = [] := by
  simp only [isSafeRequestId, Bool.and_eq_true, List.all_eq_true] at h
  rw [readCookies, List.filterMap_eq_nil_iff]
  intro part hpart
  have heq : '=' ∉ (trim part).toList := by
    intro hmem
    have hin : '=' ∈ id.toList := (mem_of_mem_split hpart (mem_of_mem_trim hmem)).1
    exact absurd (h.2 '=' hin) (by decide)
  rw [splitOnce, if_neg heq]

/-! ## The credential the gate consumed -/

section Consumed

variable {G : GateState} {v : Visitor} {host : Option String} {path : String}
  {identity : VisitorIdentity}

theorem askEach_consumed {ask : ForwardConfig → Verdict × Option String} :
    ∀ {cfgs : List ForwardConfig} {held : Option String},
      askEach ask cfgs held = .inl identity → identity.consumedAuthorization = false := by
  intro cfgs
  induction cfgs with
  | nil =>
      intro held h
      cases h
  | cons cfg rest ih =>
      intro held h
      rw [askEach] at h
      split at h
      · rw [← Sum.inl.inj h]
        rfl
      · exact ih h

theorem applyRequestMethods_consumed {p : Policy}
    (h : applyRequestMethods G v p host path = some (.allow (some identity)))
    (hc : identity.consumedAuthorization = true) : v.bearer.isSome = true := by
  unfold applyRequestMethods at h
  split at h
  · rename_i secret fromQuery hsecret
    have hpresented : presentedSecret v p = some (secret, fromQuery) :=
      (Option.filter_eq_some_iff.mp hsecret).1
    have hallow : fromQuery = false := by
      split at h
      · split at h
        · simp at h
        · simp only [Option.some.injEq, VisitorGate.allow.injEq] at h
          rw [← h] at hc
          simpa using hc
      · simp only [Option.some.injEq, VisitorGate.allow.injEq] at h
        rw [← h] at hc
        simpa using hc
    unfold presentedSecret at hpresented
    split at hpresented
    · rename_i hb
      rw [hb]
      rfl
    · split at hpresented
      · simp [hallow] at hpresented
      · exact absurd hpresented (by simp)
  · unfold applyJwtMethods at h
    obtain ⟨cfg, -, hcfg⟩ := List.exists_of_findSome?_eq_some h
    simp only [Option.bind_eq_some_iff, Option.map_eq_some_iff, VisitorGate.allow.injEq,
      Option.some.injEq] at hcfg
    obtain ⟨token, htoken, who, -, rfl⟩ := hcfg
    unfold jwtTokenFromRequest at htoken
    split at htoken
    · rename_i hcookie
      simp [hcookie] at hc
    · rw [htoken]
      rfl

/-- A session consumes nothing. -/
theorem session_not_consumed (hc : identity.consumedAuthorization = true) :
    VisitorGate.allow (gateSessionIdentity G v) ≠ .allow (some identity) := by
  intro hid
  simp only [gateSessionIdentity, VisitorGate.allow.injEq, Option.some.injEq] at hid
  rw [← hid] at hc
  exact absurd hc (by simp)

/-- Nor does a share link. -/
theorem share_not_consumed (hc : identity.consumedAuthorization = true) (held : Option String)
    (refusal : Refusal) : shareOrRefuse G v host path held refusal ≠ .allow (some identity) := by
  intro hs
  unfold shareOrRefuse at hs
  split at hs <;> simp at hs
  rw [← hs] at hc
  simp at hc

theorem checkTraversal_not_consumed (hc : identity.consumedAuthorization = true) :
    checkTraversal G v host ≠ .allow (some identity) := by
  intro h
  simp only [checkTraversal, admitByPosture] at h
  split at h
  · split at h
    · exact absurd h (session_not_consumed hc)
    · simp at h
  · split at h
    · simp at h
    · split at h
      · split at h
        · exact absurd h (session_not_consumed hc)
        · simp at h
      · simp at h

theorem admitBy_consumed {origin : Origin} {p : Policy}
    (h : admitBy G v host path origin p = .allow (some identity))
    (hc : identity.consumedAuthorization = true) : v.bearer.isSome = true := by
  unfold admitBy at h
  split at h
  · simp only [VisitorGate.allow.injEq, Option.some.injEq] at h
    rw [← h] at hc
    simp at hc
  · split at h
    · exact absurd h (session_not_consumed hc)
    · split at h
      · rename_i decided hreq
        rw [h] at hreq
        exact applyRequestMethods_consumed hreq hc
      · split at h
        · rename_i id hask
          simp only [VisitorGate.allow.injEq, Option.some.injEq] at h
          obtain rfl := h
          rw [askEach_consumed hask] at hc
          exact absurd hc (by simp)
        · exact absurd h (share_not_consumed hc _ _)

/-- Only a bearer header is ever consumed. -/
theorem checkVisitorGate_consumed (h : checkVisitorGate G v host path = .allow (some identity))
    (hc : identity.consumedAuthorization = true) : v.bearer.isSome = true := by
  by_cases hpath : requestPathHasTraversal path = true
  · rw [checkVisitorGate, if_pos hpath] at h
    exact absurd h (checkTraversal_not_consumed hc)
  · rw [checkVisitorGate_eq (by simpa using hpath)] at h
    cases hg : routeGate G host path with
    | opened => simp [hg, answer] at h
    | password =>
        simp only [hg, answer, admitByPassword] at h
        split at h
        · exact absurd h (session_not_consumed hc)
        · exact absurd h (share_not_consumed hc _ _)
    | closed =>
        simp only [hg, answer] at h
        split at h
        · exact absurd h (session_not_consumed hc)
        · simp at h
    | policy origin p =>
        rw [hg] at h
        exact admitBy_consumed h hc

end Consumed

/-- A blank with something on both sides survives trimming. -/
theorem space_mem_trim {pre rest : List Char} (hpre : ∃ c ∈ pre, isWhiteSpace c = false)
    (hrest : ∃ c ∈ rest, isWhiteSpace c = false) :
    ' ' ∈ (trim (String.ofList (pre ++ ' ' :: rest))).toList := by
  obtain ⟨a, ha, hawhite⟩ := hpre
  obtain ⟨b, hb, hbwhite⟩ := hrest
  have hfront : pre.dropWhile isWhiteSpace ≠ [] := by
    intro h
    rw [List.dropWhile_eq_nil_iff.mp h a ha] at hawhite
    exact absurd hawhite (by simp)
  have hback : rest.reverse.dropWhile isWhiteSpace ≠ [] := by
    intro h
    rw [List.dropWhile_eq_nil_iff.mp h b (List.mem_reverse.mpr hb)] at hbwhite
    exact absurd hbwhite (by simp)
  simp [trim, List.rdropWhile, List.dropWhile_append, hfront, hback]

theorem not_whiteSpace_of_toLower {c : Char} (h : c.toLower = 'b') : isWhiteSpace c = false := by
  rcases toLower_cases c with ⟨hA, hZ, -⟩ | ⟨-, hsame⟩
  · simp only [isWhiteSpace, Bool.or_eq_false_iff, Bool.and_eq_false_iff, decide_eq_false_iff_not]
    omega
  · rw [← hsame, h]
    decide

/-- A header that presents a bearer secret is no request id. -/
theorem not_safe_of_bearer {headers : InboundHeaders} {secret value : String}
    (h : bearerSecret headers = some secret) (hv : headers.get "authorization" = some value) :
    isSafeRequestId (trim value) = false := by
  rw [bearerSecret, hv] at h
  obtain ⟨hmap, hne⟩ := Option.filter_eq_some_iff.mp h
  simp only [Option.bind_some, Option.map_eq_some_iff, credentialsForScheme] at hmap
  obtain ⟨cred, hcred, rfl⟩ := hmap
  split at hcred
  · rename_i hscheme
    have hlower : (value.toList.take 6).map Char.toLower = ['b', 'e', 'a', 'r', 'e', 'r'] := by
      simp only [eqIgnoreAsciiCase, toAsciiLowercase, String.toList_ofList, beq_iff_eq] at hscheme
      have hchars := congrArg String.toList hscheme
      rw [String.toList_ofList, String.toList_ofList] at hchars
      exact hchars
    have hpre : ∃ c ∈ value.toList.take 6, isWhiteSpace c = false := by
      obtain ⟨c, cs, hc⟩ := List.exists_cons_of_ne_nil (l := value.toList.take 6) (by
        intro hnil
        rw [hnil] at hlower
        exact absurd hlower (by simp))
      rw [hc, List.map_cons] at hlower
      exact ⟨c, by rw [hc]; exact List.mem_cons_self,
        not_whiteSpace_of_toLower (List.cons.inj hlower).1⟩
    have hdrop : value.toList.drop 6 = ' ' :: cred.toList := by
      unfold stripPrefix at hcred
      split at hcred
      · rename_i hstart
        obtain ⟨t, ht⟩ := startsWith_iff.mp hstart
        obtain rfl := Option.some.inj hcred
        simp at ht
        simp [← ht]
      · exact absurd hcred (by simp)
    have hrest : ∃ c ∈ cred.toList, isWhiteSpace c = false := by
      by_contra hall
      have hempty : cred.toList.dropWhile isWhiteSpace = [] := by
        rw [List.dropWhile_eq_nil_iff]
        intro c hc
        by_contra hcw
        exact hall ⟨c, hc, by simpa using hcw⟩
      simp [trim, hempty] at hne
    have hspace := space_mem_trim hpre hrest
    rw [← hdrop, List.take_append_drop, String.ofList_toList] at hspace
    by_contra hsafe
    simp only [isSafeRequestId, Bool.not_eq_false, Bool.and_eq_true, List.all_eq_true] at hsafe
    exact absurd (hsafe.2 ' ' hspace) (by decide)
  · exact absurd hcred (by simp)

/-! ## Both ways to a client -/

namespace Dispatch

variable {d : Dispatch}

theorem not_authorization_of_adopted {id : String} (h : d.adoptedRequestId = some id)
    (hc : d.consumedAuthorization = true) :
    eqIgnoreAsciiCase d.cfg.requestIdHeader "authorization" = false := by
  by_contra hauth
  unfold adoptedRequestId at h
  split at h
  · obtain ⟨hmap, hsafe⟩ := Option.filter_eq_some_iff.mp h
    obtain ⟨value, hget, rfl⟩ := Option.map_eq_some_iff.mp hmap
    -- the header found has a name in lower case, so it is that very header
    obtain ⟨i, hi, -⟩ := Option.bind_eq_some_iff.mp hget
    have hname : i.name = d.cfg.requestIdHeader := by simpa using List.find?_some hi
    have hlower : d.cfg.requestIdHeader = "authorization" := by
      have hl := i.lower
      rw [hname] at hl
      simp only [eqIgnoreAsciiCase, hl, Bool.not_eq_false, beq_iff_eq] at hauth
      exact hauth
    rw [hlower] at hget
    obtain ⟨identity, hid, hcons⟩ := (Option.any_eq_true _ _).mp hc
    have hadm := d.admitted
    rw [hid] at hadm
    have hbearer := checkVisitorGate_consumed hadm hcons
    rw [d.bearer_eq] at hbearer
    obtain ⟨secret, hsecret⟩ := Option.isSome_iff_exists.mp hbearer
    rw [not_safe_of_bearer hsecret hget] at hsafe
    exact absurd hsafe (by simp)
  · exact absurd h (by simp)

theorem isSafe_of_adopted {id : String} (h : d.adoptedRequestId = some id) :
    isSafeRequestId id = true ∧ d.cfg.requestIdEnabled = true := by
  unfold adoptedRequestId at h
  split at h
  · rename_i hen
    exact ⟨(Option.filter_eq_some_iff.mp h).2, (Bool.and_eq_true_iff.mp hen).1⟩
  · exact absurd h (by simp)

/-- A header that passes the attempt is harmless once its name is none that
is delivered. -/
theorem harmless_of_passes {i : InboundHeader} {h : SentHeader} (hp : d.Passes i)
    (hs : d.serialize i = some h) (hdel : i.name ∉ d.deliveredNames) : d.HarmlessHeader h := by
  obtain ⟨val, -, hne, rfl⟩ := serialize_eq_some hs
  have hno := hp.not_aperios
  simp only [headerIsAperios, Bool.or_eq_false_iff, Bool.and_eq_false_iff] at hno
  obtain ⟨⟨hns, hauth⟩, -⟩ := hno
  refine ⟨hns, ?_, ?_, by rw [i.lower]; exact hdel⟩
  · intro heq
    have hcookie : i.name = "cookie" := by
      simp only [eqIgnoreAsciiCase, i.lower, beq_iff_eq] at heq
      exact heq
    simp only [hcookie, if_true]
    exact readCookies_cookiesWithoutAperios (hne hcookie)
  · intro hc
    rcases hauth with hfalse | hauth
    · rw [hc] at hfalse
      exact absurd hfalse (by simp)
    · exact hauth

theorem mem_revalHeaders {h : SentHeader} :
    h ∈ d.revalHeaders ↔ ∃ i ∈ d.headers, i.name ∉ revalidationDrops ∧
      ∃ val, i.value = some val ∧ h = ⟨i.name, val, .visitor⟩ := by
  rw [revalHeaders, List.mem_filterMap]
  refine exists_congr fun i => and_congr_right fun _ => ?_
  by_cases hdrop : i.name ∈ revalidationDrops
  · simp [hdrop]
  · simp [hdrop, eq_comm]

/-- When nothing of the visitor's speaks for Aperio. On the way of an
attempt: no header that passes has a name the admitting `forward` method
delivers, and a request id is not adopted under such a name or in the
namespace. On the way of a refresh: no readable header it does not drop has
such a name or is in the namespace. -/
def Unforgeable (d : Dispatch) : DispatchPath → Prop
  | .http =>
    (∀ h ∈ d.headers, d.Passes h → h.name ∉ d.deliveredNames) ∧
      (d.adoptedRequestId.isSome = true → inAperioNamespace d.cfg.requestIdHeader = false ∧
        toAsciiLowercase d.cfg.requestIdHeader ∉ d.deliveredNames)
  | .refresh =>
    ∀ h ∈ d.headers, h.value.isSome = true → h.name ∉ revalidationDrops →
      inAperioNamespace h.name = false ∧ h.name ∉ d.deliveredNames

theorem http_unforged_iff : d.Unforged d.dispatchHeaders ↔ d.Unforgeable .http := by
  constructor
  · intro hun
    constructor
    · intro i hi hp
      have hsome : (d.serialize i).isSome = true :=
        (serialize_isSome i).mpr
          ⟨hp.readable, hp.not_aperios, hp.not_trace, hp.not_request_id, hp.cookie⟩
      obtain ⟨h, hs⟩ := Option.isSome_iff_exists.mp hsome
      obtain ⟨val, -, -, rfl⟩ := serialize_eq_some hs
      have hharm := hun _ ((mem_dispatchHeaders rfl).mpr (.inl ⟨i, hi, hp, hs⟩)) rfl
      have hdel := hharm.delivered
      rw [i.lower] at hdel
      exact hdel
    · intro hsome
      obtain ⟨id, hid⟩ := Option.isSome_iff_exists.mp hsome
      have hen := (isSafe_of_adopted hid).2
      have hharm := hun ⟨d.cfg.requestIdHeader, id, .visitor⟩
        ((mem_dispatchHeaders rfl).mpr (.inr ⟨id, hen, hid, rfl⟩)) rfl
      exact ⟨hharm.namespace_free, hharm.delivered⟩
  · rintro ⟨hpass, hid⟩ h hmem hv
    rcases (mem_dispatchHeaders hv).mp hmem with ⟨i, hi, hp, hs⟩ | ⟨id, -, hadopt, rfl⟩
    · exact harmless_of_passes hp hs (hpass i hi hp)
    · obtain ⟨hns, hdel⟩ := hid (by rw [hadopt]; rfl)
      refine ⟨hns, ?_, not_authorization_of_adopted hadopt, hdel⟩
      intro _ kv hkv
      have hempty : readCookies id = [] := readCookies_safe (isSafe_of_adopted hadopt).1
      rw [hempty] at hkv
      exact absurd hkv List.not_mem_nil

theorem refresh_unforged_iff (helig : d.cacheEligible = true) :
    d.Unforged d.revalHeaders ↔ d.Unforgeable .refresh := by
  -- a request with a credential or a cookie is none the cache could answer
  have hplain : ∀ i ∈ d.headers, i.name ≠ "authorization" ∧ i.name ≠ "cookie" := by
    simp only [cacheEligible, requestCacheable, Bool.and_eq_true, Bool.not_eq_true',
      List.any_eq_false, beq_iff_eq] at helig
    intro i hi
    exact ⟨helig.2.1.1.2 i hi, helig.2.1.2 i hi⟩
  constructor
  · intro hun i hi hval hdrop
    obtain ⟨val, hval⟩ := Option.isSome_iff_exists.mp hval
    have hharm := hun ⟨i.name, val, .visitor⟩ (mem_revalHeaders.mpr ⟨i, hi, hdrop, val, hval, rfl⟩)
      rfl
    have hdel := hharm.delivered
    rw [i.lower] at hdel
    exact ⟨hharm.namespace_free, hdel⟩
  · intro hcond h hmem _
    obtain ⟨i, hi, hdrop, val, hval, rfl⟩ := mem_revalHeaders.mp hmem
    obtain ⟨hns, hdel⟩ := hcond i hi (by rw [hval]; rfl) hdrop
    refine ⟨hns, ?_, ?_, by rw [i.lower]; exact hdel⟩
    · intro hcookie
      simp only [eqIgnoreAsciiCase, i.lower, beq_iff_eq] at hcookie
      exact absurd hcookie (hplain i hi).2
    · intro _
      simp only [eqIgnoreAsciiCase, i.lower, beq_eq_false_iff_ne]
      exact (hplain i hi).1

/-- **Forged headers.** What a dispatch sends holds nothing of the visitor's
that speaks for Aperio exactly when the request is one of those: whatever
the headers are, whichever policy let the visitor in, on both ways. -/
theorem sent_unforged_iff (d : Dispatch) (path : DispatchPath) (htakes : d.Takes path) :
    d.Unforged (d.sent path) ↔ d.Unforgeable path := by
  cases path with
  | http => exact http_unforged_iff
  | refresh => exact refresh_unforged_iff htakes

/-! ## A site that delegates -/

/-- An endpoint that tells the backend who the visitor is. -/
def whoami : ForwardConfig where
  url := "https://id.example.com/check"
  requestHeaders := []
  responseHeaders := ["X-Auth-User"]
  timeout := 5
  cache := 0
  viaClient := false

/-- A site over every hostname asks it; it knows the visitor as bob. -/
def delegating : GateState where
  sessions := ∅
  cfg :=
    { sites :=
        [{ hostname := "*"
           path := none
           access := some (.gate ⟨⟨[.forward whoami]⟩, by decide⟩)
           path_normal := Site.noPath_normal }] }
  ask _ _ _ _ := .allow [("x-auth-user", "bob")]

def claimsToBe (name value : String) (h : toAsciiLowercase name = name) : InboundHeader :=
  ⟨name, some value, h⟩

theorem lower_xAuthUser : toAsciiLowercase "x-auth-user" = "x-auth-user" := by decide

theorem lower_accept : toAsciiLowercase "accept" = "accept" := by decide

/-- A request bob sends with one header, through that site. -/
def bobs (header : InboundHeader) (hname : header.name ≠ "authorization") : Dispatch where
  gate := delegating
  visitor := {}
  host := some "app.example.com"
  path := "/"
  identity := some (forwardIdentity [("x-auth-user", "bob")] none)
  method := "GET"
  headers := [header]
  traceHeaders := []
  cfg := { visitorAuth := ⟨[]⟩ }
  client := { id := "c1" }
  requestId := "r1"
  admitted := by rfl
  bearer_eq := by
    have hnone : InboundHeaders.get [header] "authorization" = none := by
      simp [InboundHeaders.get, hname]
    simp [bearerSecret, hnone]

/-- He says he is admin, and the backend is told both. -/
theorem bob_says_admin :
    ¬ (bobs (claimsToBe "x-auth-user" "admin" lower_xAuthUser) (by decide)).Unforged
      ((bobs (claimsToBe "x-auth-user" "admin" lower_xAuthUser) (by decide)).sent .http) := by
  intro h
  have hharm := h ⟨"x-auth-user", "admin", .visitor⟩ (by decide) rfl
  exact hharm.delivered (by decide)

/-- A request that names nobody passes on nothing false. -/
theorem bob_accepts :
    (bobs (claimsToBe "accept" "*/*" lower_accept) (by decide)).Unforged
      ((bobs (claimsToBe "accept" "*/*" lower_accept) (by decide)).sent .http) := by
  refine (sent_unforged_iff _ .http trivial).mpr ⟨?_, ?_⟩
  · intro h hh _
    obtain rfl := List.mem_singleton.mp hh
    decide
  · intro hid
    exact absurd hid (by decide)

end Dispatch

end Aperio
