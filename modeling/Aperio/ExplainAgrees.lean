import Aperio.Unhindered

/-!
# The report and the request

What `explain_handler` says of a request against what the proxy does with it:
with a plain one, from an address no list turns away, on a server that stands
still.

The report asks the firewall before the gate, the gate of the hostname before
that of the route, and the caller's quota instead of the serving client's; and
it knows nothing of a wait. `Straight` is a request none of this is about.
-/

namespace Aperio

/-! ## What is compared -/

/-- The request a report is about, from this address: no header besides its
`Host`, no cookie, no query. -/
def Explanation.request (rep : Explanation) (ip : IpAddr) : FrontRequest where
  method := rep.method
  host := extractRequestHost (some rep.hostname)
  path := rep.path
  headers := [⟨"host", some rep.hostname, by decide⟩]
  visitor := { requestHost := extractRequestHost (some rep.hostname) }
  callerIp := ip

/-- The stage an answer comes from, under the report's names. Where nobody
serves the route, one nothing declares is one nobody serves; where somebody
does, only a declaration was waited for. -/
def PlainAnswer.stage (served : Bool) : PlainAnswer → Option ExplainStage
  | .maintenance _ => some .maintenance
  | .site _ => some .staticRoute
  | .robots => some .previewNoindex
  | .dashboard => none
  | .socket _ => none
  | .limited .ip => some .rateLimitIp
  | .limited .serverConcurrency => some .serverConcurrency
  | .limited .route => some .routeRateLimit
  | .limited .clientConcurrency => some .clientConcurrency
  | .limited .tokenRate => some .tokenQuota
  | .limited .tokenQuota => some .tokenQuota
  | .limited .orgQuota => some .orgQuota
  | .limited .streamsPerIp => some .streamsPerIp
  | .gated _ => some .visitorGate
  | .undeclared => some (if served then .visitorGate else .noClient)
  | .expired => some (if served then .visitorGate else .noClient)
  | .stale _ => some .cache
  | .blocked _ => some .waf
  | .elsewhere _ => some .allowedIps
  | .fallback _ => some .fallback
  | .unserved => some .noClient
  | .cached _ _ => some .cache
  | .dispatched _ => some .client

/-- The status of an answer given from here, where it is one of the handler's
own. -/
def PlainAnswer.status : PlainAnswer → Option Nat
  | .maintenance _ => some 503
  | .site resp => some resp.status
  | .robots => some 200
  | .dashboard => some 307
  | .socket _ => none
  | .limited _ => some 429
  | .gated _ => none
  | .undeclared => some 504
  | .expired => some 504
  | .stale hit => some hit.status
  | .blocked _ => some 403
  | .elsewhere _ => some 302
  | .fallback resp => some resp.status
  | .unserved => some 504
  | .cached _ hit => some hit.status
  | .dispatched _ => none

/-- Neither a site, nor a fallback, nor a client answers. -/
def PlainAnswer.refuses : PlainAnswer → Bool
  | .site _ => false
  | .fallback _ => false
  | .dispatched _ => false
  | _ => true

namespace Explanation

variable (rep : Explanation)

/-- The status the summary states. -/
def status : Option Nat :=
  match rep.outcome, rep.summaryParams with
  | .maintenance, _ => some 503
  | .staticRoute, some (.answer status _) => some status
  | .previewNoindex, _ => some 200
  | .waf, _ => some 403
  | .visitorGate, _ => some 504
  | .fallback, some (.redirect status _) => some status
  | .noClient, _ => some 504
  | .orgQuota, _ => some 429
  | _, _ => none

/-- The report says the request would be held. -/
def coldStart : Bool :=
  rep.steps.any (·.stage == .coldStart)

/-- The report is right about the request: the stage and the status, where a
site or a fallback sends the visitor, whether a client is handed the request,
and whether it is held for a cold start where nothing before that decides. -/
structure Agrees {R : Type} (S : SiteServer R) (r : FrontRequest) : Prop where
  stage : (S.proxyHandler r).answer.stage (S.routeExists r) = some rep.outcome
  status : (S.proxyHandler r).answer.status = rep.status
  site : ∀ resp, (S.proxyHandler r).answer = .site resp →
    rep.summaryParams = some (.answer resp.status (resp.location.bind headerToStr))
  fallback : ∀ resp, (S.proxyHandler r).answer = .fallback resp →
    ∃ rule : Redirect, rep.summaryParams = some (.redirect rule.status rule.url) ∧
      resp.location = (some (rule.location r.path r.query)).filter headerValueOk
  client : rep.outcome = .client ↔ ∃ client, (S.proxyHandler r).answer = .dispatched client
  coldStart : rep.outcome ∈ [.client, .fallback, .noClient] →
    (rep.coldStart = true ↔ (S.proxyHandler r).coldStart.isSome = true)

end Explanation

namespace SiteServer

variable {R : Type} (S : SiteServer R) (r : FrontRequest)

/-- The records of the hostname are on, and one that the path begins with is
about the path. -/
def RecordsApart (hostname path : String) : Prop :=
  ∀ record ∈ S.scaling, record.hostname = hostname → record.coldStartEnabled = true ∧
    ∀ p ∈ record.path, startsWith path p = true → record.onRoute hostname path = true

variable {S r} {hostname path method : String}

theorem explainPool_isEmpty (hr : r.host = some hostname) (hp : r.path = path)
    (haddr : AddressAdmitted S.gate.clients r.callerIp) :
    (S.explainPool hostname path).isEmpty = !S.routeExists r ∧
      S.routeServed path (some hostname) none = S.routeExists r := by
  rw [routeExists_eq_routeServed, hr, hp]
  cases hpool : selectClientPool S.gate.clients path (some hostname) S.gate.now
      S.gate.downThreshold with
  | none => simp [explainPool, routeServed, hpool]
  | some found =>
      obtain ⟨pool, key⟩ := found
      have hip : ∀ a ∈ some r.callerIp, AddressAdmitted S.gate.clients a := by
        rintro a ha
        rwa [← Option.some.inj ha]
      have hany : S.routeServed path (some hostname) none = true :=
        routeServed_eq hpool (by rintro _ ⟨⟩)
      rw [hany, routeServed_eq hpool hip]
      have hne : pool.isEmpty = false := by
        simpa using selectClientPool_ne_nil hpool
      simp [explainPool, hpool, hne]

/-! ## The decisions of the report -/

theorem explainSite_decision : (S.explainSite hostname path).decision =
    (S.sites.answer (some hostname) path none).map fun resp =>
      let target := resp.location.bind headerToStr
      ⟨.staticRoute,
        if target.isSome then "static_route.answers_location" else "static_route.answers",
        some (.answer resp.status target)⟩ := by
  simp only [explainSite]
  split
  · rename_i hempty
    simp [List.isEmpty_iff.mp hempty, CompiledSites.answer, CompiledSites.answering,
      ExplainPart.saw]
  · cases S.sites.answer (some hostname) path none with
    | none => rfl
    | some resp => rfl

theorem explainWaf_decision : (S.explainWaf hostname path method).decision =
    (S.firewall.wafDeny S.isMatch (some hostname) method path []).map fun reason =>
      ⟨.waf, "waf.denied", some (.reason reason)⟩ := by
  rw [← wafDeny_fast]
  simp only [explainWaf]
  cases S.firewall.hasWaf with
  | false => rfl
  | true =>
      simp only [Bool.not_true, Bool.false_eq_true, if_false, if_true]
      cases S.firewall.wafDeny S.isMatch (some hostname) method path [] with
      | none => rfl
      | some reason => rfl

theorem gateUp_decision : (S.gateUp hostname path).decision = none := by
  simp only [gateUp]
  repeat' split
  all_goals rfl

variable (S hostname) in
theorem explainMaintenance_decision : (S.explainMaintenance hostname).decision.map (·.stage) =
    (S.maintenanceFor (some hostname)).map fun _ => .maintenance := by
  simp only [explainMaintenance]
  cases S.maintenanceFor (some hostname) with
  | none => rfl
  | some flag => rfl

/-- The gate decides only for a route that nothing gates or opens. -/
theorem explainGate_decision : (S.explainGate hostname path).decision =
    if (S.gate.cfg.sites.accessFor (some hostname) path).isNone && !S.gateReported hostname &&
        S.undeclaredReported hostname path then
      some ⟨.visitorGate, "visitor_gate.undeclared", none⟩
    else none := by
  simp only [explainGate]
  cases S.gate.cfg.sites.accessFor (some hostname) path with
  | some access => cases access <;> rfl
  | none =>
      cases S.gateReported hostname with
      | true => simp [gateUp_decision]
      | false =>
          cases S.undeclaredReported hostname path with
          | true => rfl
          | false => rfl

theorem explainNoindex_decision : (S.explainNoindex hostname path).decision =
    if S.noindex (some hostname) path then
      some ⟨.previewNoindex, "preview_noindex.robots", none⟩
    else none := by
  simp only [explainNoindex]
  split
  · rfl
  · rfl

theorem explainConns_isEmpty :
    (S.explainConns hostname path).isEmpty = (S.explainPool hostname path).isEmpty := by
  simp [explainConns]

theorem explainUnserved_decision : (S.explainUnserved hostname).decision = some
    (match S.sites.fallbackFor (some hostname) with
    | some rule => ⟨.fallback, "fallback.redirect", some (.redirect rule.status rule.url)⟩
    | none => ⟨.noClient, "no_client.504", none⟩) := by
  simp only [explainUnserved]
  cases S.sites.fallbackFor (some hostname) with
  | none => rfl
  | some rule => rfl

variable {org : Option String} {admin : Bool} {identity : Option VisitorIdentity}

variable (S hostname path org) in
theorem explainRouting_isSome : (S.explainRouting hostname path org).decision.isSome = true := by
  simp only [explainRouting]
  split
  · rfl
  · rw [explainUnserved_decision]
    rfl

variable (S hostname path method org admin) in
/-- The outcome is the first of six stages to decide. -/
theorem explainParts_decision :
    (S.explainParts hostname path method org admin).findSome? (·.decision) =
      (S.explainMaintenance hostname).decision.or ((S.explainSite hostname path).decision.or
        ((S.explainNoindex hostname path).decision.or
          ((S.explainWaf hostname path method).decision.or
            ((S.explainGate hostname path).decision.or
              (S.explainRouting hostname path org).decision)))) := by
  have hdenied : S.explainDenied.decision = none := by
    simp only [explainDenied]
    split <;> rfl
  have hrate : (S.explainRouteRate hostname path).decision = none := by
    simp only [explainRouteRate]
    split <;> rfl
  have hip : S.explainIpRate.decision = none := rfl
  have hslots : (S.explainSlots admin).decision = none := by
    simp only [explainSlots]
    split <;> rfl
  obtain ⟨d, hd⟩ := Option.isSome_iff_exists.mp
    (explainRouting_isSome S hostname path org)
  simp only [explainParts, List.findSome?_cons, hdenied, hrate, hip, hslots, hd]
  cases (S.explainMaintenance hostname).decision with
  | some m => rfl
  | none =>
      cases (S.explainSite hostname path).decision with
      | some m => rfl
      | none =>
          cases (S.explainNoindex hostname path).decision with
          | some m => rfl
          | none =>
              cases (S.explainWaf hostname path method).decision with
              | some m => rfl
              | none =>
                  cases (S.explainGate hostname path).decision with
                  | some m => rfl
                  | none => rfl

/-! ## Cold starts -/

/-- The fold ends in one of the records, and in none only without any. -/
theorem foldl_better (records : List ColdStartRecord) :
    ∀ acc, (∀ x, records.foldl ColdStartRecord.better acc = some x → x ∈ records ∨ acc = some x) ∧
      (records.foldl ColdStartRecord.better acc = none → records = [] ∧ acc = none) := by
  induction records with
  | nil =>
      intro acc
      exact ⟨fun x h => .inr h, fun h => ⟨rfl, h⟩⟩
  | cons a rest ih =>
      intro acc
      obtain ⟨hsome, hnone⟩ := ih (ColdStartRecord.better acc a)
      have hstep : ColdStartRecord.better acc a = some a ∨
          (ColdStartRecord.better acc a = acc ∧ acc ≠ none) := by
        simp only [ColdStartRecord.better]
        split
        · exact .inl rfl
        · rename_i hall
          exact .inr ⟨rfl, by rintro rfl; exact hall rfl⟩
      constructor
      · intro x hx
        rcases hsome x hx with h | h
        · exact .inl (List.mem_cons_of_mem _ h)
        · rcases hstep with hc | ⟨hc, -⟩
          · rw [hc, Option.some.injEq] at h
            exact .inl (by simp [h])
          · exact .inr (hc ▸ h)
      · intro h
        have hacc := (hnone h).2
        rcases hstep with hc | ⟨hc, hne⟩
        · rw [hc] at hacc
          cases hacc
        · exact absurd (hc.symm.trans hacc) hne

/-- Where the records are apart, the report finds one exactly when the handler
does. -/
theorem coldStartRecord_isSome (hmaint : S.maintenanceFor (some hostname) = none)
    (howners : ∀ record ∈ S.scaling, S.visitorAllowed record r.callerIp = true)
    (hapart : S.RecordsApart hostname path) :
    (S.coldStartRecord (some hostname) path r.callerIp).isSome = S.coldStartArmed hostname path := by
  simp only [coldStartRecord, hmaint, Option.isSome_none, Bool.false_eq_true, if_false]
  rw [Bool.eq_iff_iff]
  constructor
  · intro h
    obtain ⟨record, hrecord⟩ := Option.isSome_iff_exists.mp h
    have hbest := (Option.filter_eq_some_iff.mp (Option.filter_eq_some_iff.mp hrecord).1).1
    have hmem := ((foldl_better _ none).1 record hbest).resolve_right (by rintro ⟨⟩)
    obtain ⟨hin, hroute⟩ := List.mem_filter.mp hmem
    simp only [coldStartArmed, List.any_eq_true]
    refine ⟨record, hin, ?_⟩
    simp only [ColdStartRecord.onRoute, Bool.and_eq_true] at hroute ⊢
    refine ⟨hroute.1, ?_⟩
    cases hp : record.path with
    | none => rfl
    | some p =>
        have hpath := hroute.2
        rw [hp] at hpath
        simp only [Option.all_some, Bool.or_eq_true, beq_iff_eq] at hpath ⊢
        rcases hpath with rfl | hunder
        · exact startsWith_iff.mpr ⟨[], by simp⟩
        · exact startsWith_trans hunder (startsWith_append p "/")
  · intro h
    simp only [coldStartArmed, List.any_eq_true, Bool.and_eq_true, beq_iff_eq] at h
    obtain ⟨armed, harmed, hhost, hpath⟩ := h
    have honRoute : armed.onRoute hostname path = true := by
      cases hp : armed.path with
      | none => simp [ColdStartRecord.onRoute, hhost, hp]
      | some p =>
          rw [hp] at hpath
          exact (hapart armed harmed hhost).2 p hp hpath
    cases hbest : (S.scaling.filter (·.onRoute hostname path)).foldl ColdStartRecord.better none with
    | none =>
        have hnil := ((foldl_better _ none).2 hbest).1
        rw [List.filter_eq_nil_iff] at hnil
        exact absurd honRoute (hnil armed harmed)
    | some record =>
        have hmem := ((foldl_better _ none).1 record hbest).resolve_right (by rintro ⟨⟩)
        obtain ⟨hin, hroute⟩ := List.mem_filter.mp hmem
        have hname : record.hostname = hostname := by
          simp only [ColdStartRecord.onRoute, Bool.and_eq_true, beq_iff_eq] at hroute
          exact hroute.1
        simp [Option.filter, (hapart record hin hname).1, howners record hin]

theorem waits_of_scaling {u : Bool} (hroute : S.routeExists r = false)
    (hscaling : S.scalingEnabled = true) : S.waits r u = true := by
  simp [waits, FrontServer.worthWaitingForRoute, hroute, hscaling]

/-- Only a hostname nobody serves is said to be held. -/
theorem coldStart_explanation : (S.explanation hostname path method org admin).coldStart =
    ((S.explainPool hostname path).isEmpty && S.scalingEnabled &&
      S.coldStartArmed hostname path) := by
  have hdenied : S.explainDenied.steps.any (·.stage == .coldStart) = false := by
    simp only [explainDenied]
    split <;> rfl
  have hmaint : (S.explainMaintenance hostname).steps.any (·.stage == .coldStart) = false := by
    simp only [explainMaintenance]
    split <;> rfl
  have hsite : (S.explainSite hostname path).steps.any (·.stage == .coldStart) = false := by
    simp only [explainSite]
    repeat' split
    all_goals rfl
  have hnoindex : (S.explainNoindex hostname path).steps.any (·.stage == .coldStart) = false := by
    simp only [explainNoindex]
    split <;> rfl
  have hwaf : (S.explainWaf hostname path method).steps.any (·.stage == .coldStart) = false := by
    simp only [explainWaf]
    repeat' split
    all_goals rfl
  have hrate : (S.explainRouteRate hostname path).steps.any (·.stage == .coldStart) = false := by
    simp only [explainRouteRate]
    split <;> rfl
  have hip : S.explainIpRate.steps.any (·.stage == .coldStart) = false := rfl
  have hgate : (S.explainGate hostname path).steps.any (·.stage == .coldStart) = false := by
    simp only [explainGate, gateUp]
    repeat' split
    all_goals rfl
  have hslots : (S.explainSlots admin).steps.any (·.stage == .coldStart) = false := by
    simp only [explainSlots]
    split <;> rfl
  have hserved : (S.explainServed hostname path method).steps.any (·.stage == .coldStart) =
      false := by
    simp only [explainServed]
    cases S.explainServing hostname path with
    | none => rfl
    | some serving =>
        simp only [Option.map_some, Option.getD_some, servingSteps, explainCache]
        repeat' split
        all_goals rfl
  have htoken : explainTokenQuota.steps.any (·.stage == .coldStart) = false := rfl
  have horg : (S.explainOrgQuota org).steps.any (·.stage == .coldStart) = false := by
    simp only [explainOrgQuota]
    repeat' split
    all_goals rfl
  have hstreams : S.explainStreams.steps.any (·.stage == .coldStart) = false := by
    simp only [explainStreams]
    split <;> rfl
  simp only [Explanation.coldStart, explanation, List.any_flatMap, explainParts, List.any_cons,
    List.any_nil, hdenied, hmaint, hsite, hnoindex, hwaf, hrate, hip, hgate, hslots, hserved,
    htoken, horg, hstreams, Bool.false_or, Bool.or_false]
  simp only [explainRouting, explainConns_isEmpty]
  cases (S.explainPool hostname path).isEmpty with
  | false => rfl
  | true =>
      have hinstead : (S.explainUnserved hostname).steps.any (·.stage == .coldStart) = false := by
        simp only [explainUnserved]
        split <;> rfl
      simp only [Bool.not_true, Bool.false_eq_true, if_false, List.any_append, hinstead,
        Bool.or_false, Bool.true_and]
      cases S.scalingEnabled && S.coldStartArmed hostname path with
      | true => rfl
      | false => rfl

theorem explainHandler_ok {v : Presented} {q : ExplainQuery} {rep : Explanation}
    (h : S.explainHandler v q = .ok rep) :
    ∃ raw hostname org admin, normalizeHostnameBind raw = some hostname ∧
      rep = S.explanation hostname q.explainedPath q.explainedMethod org admin := by
  simp only [explainHandler] at h
  split at h
  · cases h
  · split at h
    · cases h
    · split at h
      · cases h
      · rename_i hostname hnormal
        split at h
        · cases h
        · exact ⟨_, hostname, _, _, hnormal, (Except.ok.inj h).symm⟩

/-! ## Agreement -/

section Agreement

variable {d : ExplainDecision}

/-- The outcome is the first decision, with what it says. -/
theorem explanation_of_decision
    (h : (S.explainParts hostname path method org admin).findSome? (·.decision) = some d) :
    (S.explanation hostname path method org admin).outcome = d.stage ∧
      (S.explanation hostname path method org admin).summaryParams = d.params := by
  simp only [explanation, h, Option.getD_some, and_self]

theorem explanation_hostname :
    (S.explanation hostname path method org admin).hostname = hostname := rfl

theorem explanation_path : (S.explanation hostname path method org admin).path = path := rfl

theorem explanation_method : (S.explanation hostname path method org admin).method = method := rfl

theorem coldStartOf_isSome (hmaint : S.maintenanceFor (some hostname) = none)
    (hhost : r.host = some hostname) (hpath : r.path = path) (hu : S.Unhindered r)
    (ha : S.RecordsApart hostname path) (held : Bool)
    (hheld : S.scalingEnabled = true → held = !S.routeExists r) :
    (S.coldStartOf r held).isSome = (!S.routeExists r && S.scalingEnabled &&
      S.coldStartArmed hostname path) := by
  simp only [coldStartOf, hhost, hpath]
  cases hscaling : S.scalingEnabled with
  | false => simp
  | true =>
      rw [hheld hscaling]
      cases S.routeExists r with
      | true => rfl
      | false => simpa using coldStartRecord_isSome hmaint hu.owners ha

/-- What is left to show where neither a site, nor a fallback, nor a client
answers. -/
theorem agrees_of_refusal {rep : Explanation} {handled : Handled}
    (hr : S.proxyHandler r = handled) (hrefuses : handled.answer.refuses = true)
    (hstage : handled.answer.stage (S.routeExists r) = some rep.outcome)
    (hstatus : handled.answer.status = rep.status) (hout : rep.outcome ≠ .client)
    (hcold : rep.outcome ∈ [.client, .fallback, .noClient] →
      rep.coldStart = handled.coldStart.isSome) :
    rep.Agrees S r where
  stage := by rw [hr, hstage]
  status := by rw [hr, hstatus]
  site := by
    intro resp h
    rw [hr] at h
    rw [h] at hrefuses
    cases hrefuses
  fallback := by
    intro resp h
    rw [hr] at h
    rw [h] at hrefuses
    cases hrefuses
  client := by
    refine iff_of_false hout ?_
    rintro ⟨client, h⟩
    rw [hr] at h
    rw [h] at hrefuses
    cases hrefuses
  coldStart := by
    intro h
    rw [hr, hcold h]

/-- What is left to show where a client answers. -/
theorem agrees_of_client {rep : Explanation} {client : SelectedClient}
    {coldStart : Option ColdStartRecord}
    (hr : S.proxyHandler r = { answer := .dispatched client, coldStart := coldStart })
    (hout : rep.outcome = .client) (hcold : rep.coldStart = coldStart.isSome) :
    rep.Agrees S r where
  stage := by rw [hr, hout]; rfl
  status := by
    rw [hr]
    simp only [Explanation.status, hout]
    rfl
  site := by
    intro resp h
    rw [hr] at h
    cases h
  fallback := by
    intro resp h
    rw [hr] at h
    cases h
  client := by
    rw [hr]
    exact iff_of_true hout ⟨client, rfl⟩
  coldStart := by
    intro _
    rw [hr, hcold]

/-- What is left to show where the firewall refuses. -/
theorem agrees_of_blocked {rep : Explanation} {reason : String}
    (hr : S.proxyHandler r = { answer := .blocked reason }) (hout : rep.outcome = .waf)
    (hparams : rep.summaryParams = some (.reason reason)) : rep.Agrees S r := by
  refine agrees_of_refusal hr rfl ?_ ?_ ?_ ?_
  · rw [hout]
    rfl
  · simp only [Explanation.status, hout, hparams]
    rfl
  · simp [hout]
  · simp [hout]

/-- What is left to show where a request waited in vain. -/
theorem agrees_of_expired {rep : Explanation} {coldStart : Option ColdStartRecord}
    (hr : S.proxyHandler r = { answer := .expired, coldStart := coldStart })
    (hroute : S.routeExists r = false) (hout : rep.outcome = .noClient)
    (hcold : rep.coldStart = coldStart.isSome) : rep.Agrees S r := by
  refine agrees_of_refusal hr rfl ?_ ?_ ?_ fun _ => hcold
  · rw [hroute, hout]
    rfl
  · simp only [Explanation.status, hout]
    rfl
  · simp [hout]

/-- What is left to show where nobody answers. -/
theorem agrees_of_unserved {rep : Explanation} {coldStart : Option ColdStartRecord}
    (hr : S.proxyHandler r = { answer := .unserved, coldStart := coldStart })
    (hout : rep.outcome = .noClient) (hcold : rep.coldStart = coldStart.isSome) :
    rep.Agrees S r := by
  refine agrees_of_refusal hr rfl ?_ ?_ ?_ fun _ => hcold
  · rw [hout]
    rfl
  · simp only [Explanation.status, hout]
    rfl
  · simp [hout]

/-- What is left to show where a site answers. -/
theorem agrees_of_site {rep : Explanation} {resp : SiteResponse}
    (hr : S.proxyHandler r = { answer := .site resp }) (hout : rep.outcome = .staticRoute)
    (hparams : rep.summaryParams =
      some (.answer resp.status (resp.location.bind headerToStr))) : rep.Agrees S r where
  stage := by rw [hr, hout]; rfl
  status := by
    rw [hr]
    simp only [Explanation.status, hout, hparams]
    rfl
  site := by
    intro other h
    rw [hr] at h
    cases h
    exact hparams
  fallback := by
    intro other h
    rw [hr] at h
    cases h
  client := by
    rw [hr, hout]
    exact iff_of_false (by decide) (by rintro ⟨client, ⟨⟩⟩)
  coldStart := by
    intro h
    rw [hout] at h
    exact absurd h (by decide)

/-- What is left to show where the fallback answers. -/
theorem agrees_of_fallback {rep : Explanation} {rule : Redirect}
    {coldStart : Option ColdStartRecord}
    (hr : S.proxyHandler r =
      { answer := .fallback
          { status := rule.status
            location := (some (rule.location r.path r.query)).filter headerValueOk }
        coldStart := coldStart })
    (hout : rep.outcome = .fallback)
    (hparams : rep.summaryParams = some (.redirect rule.status rule.url))
    (hcold : rep.coldStart = coldStart.isSome) : rep.Agrees S r where
  stage := by rw [hr, hout]; rfl
  status := by
    rw [hr]
    simp only [Explanation.status, hout, hparams]
    rfl
  site := by
    intro resp h
    rw [hr] at h
    cases h
  fallback := by
    intro resp h
    rw [hr] at h
    cases h
    exact ⟨rule, hparams, rfl⟩
  client := by
    rw [hr, hout]
    exact iff_of_false (by decide) (by rintro ⟨client, ⟨⟩⟩)
  coldStart := by
    intro _
    rw [hr, hcold]

variable (method org admin) in
/-- Past what is asked before the gate, three stages are left to decide. -/
theorem explainParts_late (hmaint : S.maintenanceFor (some hostname) = none)
    (hsite : S.sites.answer (some hostname) path none = none)
    (hnoindex : S.noindex (some hostname) path = false) :
    (S.explainParts hostname path method org admin).findSome? (·.decision) =
      (S.explainWaf hostname path method).decision.or
        ((S.explainGate hostname path).decision.or
          (S.explainRouting hostname path org).decision) := by
  have hnone : (S.explainMaintenance hostname).decision = none := by
    rw [← Option.map_eq_none_iff, explainMaintenance_decision, hmaint]
    rfl
  rw [explainParts_decision, hnone, explainSite_decision, hsite, explainNoindex_decision, hnoindex]
  rfl

variable (org) in
theorem explainRouting_of_unserved (h : (S.explainPool hostname path).isEmpty = true) :
    (S.explainRouting hostname path org).decision = some
      (match S.sites.fallbackFor (some hostname) with
      | some rule => ⟨.fallback, "fallback.redirect", some (.redirect rule.status rule.url)⟩
      | none => ⟨.noClient, "no_client.504", none⟩) := by
  simp only [explainRouting, explainConns_isEmpty, h, Bool.not_true, Bool.false_eq_true, if_false,
    explainUnserved_decision]

variable (org) in
theorem explainRouting_of_served (h : (S.explainPool hostname path).isEmpty = false) :
    ((S.explainRouting hostname path org).decision.map (·.stage)) = some .client := by
  simp only [explainRouting, explainConns_isEmpty, h, Bool.not_false, if_true, Option.map_some]

/-- A route nothing declares: the report names the gate where somebody serves
it, and says that nobody does where that is so. -/
theorem agrees_of_undeclared {rep : Explanation} {resp : Refusal}
    (hrep : rep = S.explanation hostname path method org admin) (hhost : r.host = some hostname)
    (hpath : r.path = path) (hmethod : r.method = method)
    (hmaint : S.maintenanceFor (some hostname) = none)
    (hlate : (S.explainParts hostname path method org admin).findSome? (·.decision) =
      (S.explainWaf hostname path method).decision.or
        ((S.explainGate hostname path).decision.or
          (S.explainRouting hostname path org).decision))
    (hr : S.proxyHandler r = S.proxyHttpRequest r) (hu : S.Unhindered r) (hs : S.Straight r)
    (ha : S.RecordsApart hostname path)
    (hgate : checkVisitorGate (S.gateFor r.headers) r.visitor r.host r.path = .undeclared resp) :
    rep.Agrees S r := by
  rw [proxyHttpRequest_of_undeclared hu hgate] at hr
  obtain ⟨-, hpub, hserver, hdeny⟩ := posture_of_undeclared hgate
  obtain ⟨hwaf, hbeside, hinstead⟩ := hs.undeclared resp hgate
  obtain ⟨hpool, hserved⟩ := explainPool_isEmpty hhost hpath hu.address
  have hcold := coldStartOf_isSome hmaint hhost hpath hu ha (S.waits r true)
  rw [hhost] at hpub hbeside hinstead hwaf
  rw [hpath] at hpub hbeside hwaf
  rw [hmethod] at hwaf
  have hopen : routeIsPublic S.gate path (some hostname) = false := hpub
  have hcfg : S.gate.cfg.visitorAuth.gates = false := hserver
  have hposture : S.gate.cfg.defaultAccess = .deny := hdeny
  rw [explainWaf_decision, hwaf, explainGate_decision] at hlate
  cases hroute : S.routeExists r with
  | true =>
      obtain ⟨haccess, hclients⟩ := hbeside hroute
      have hreported : S.gateReported hostname = false := by simp [gateReported, hclients, hcfg]
      have hundeclared : S.undeclaredReported hostname path = true := by
        simp [undeclaredReported, hposture, hopen, hserved, hroute]
      rw [haccess, hreported, hundeclared] at hlate
      obtain ⟨hout, hparams⟩ := explanation_of_decision hlate
      rw [← hrep] at hout hparams
      refine agrees_of_refusal hr ?_ ?_ ?_ ?_ ?_
      · dsimp only
        split <;> rfl
      · rw [hroute, hout]
        split <;> rfl
      · simp only [Explanation.status, hout, hparams]
        split <;> rfl
      · simp [hout]
      · simp [hout]
  | false =>
      have hundeclared : S.undeclaredReported hostname path = false := by
        simp [undeclaredReported, hserved, hroute]
      rw [hundeclared, Bool.and_false] at hlate
      have hempty : (S.explainPool hostname path).isEmpty = true := by rw [hpool, hroute]; rfl
      have hlast := explainRouting_of_unserved org hempty
      rw [hinstead hroute] at hlast
      obtain ⟨hout, hparams⟩ := explanation_of_decision (hlate.trans hlast)
      rw [← hrep] at hout hparams
      refine agrees_of_refusal hr ?_ ?_ ?_ ?_ ?_
      · dsimp only
        split <;> rfl
      · rw [hroute, hout]
        split <;> rfl
      · simp only [Explanation.status, hout, hparams]
        split <;> rfl
      · simp [hout]
      · intro _
        rw [hrep, coldStart_explanation, hpool, hcold]
        exact fun hscaling => by rw [waits_of_scaling hroute hscaling, hroute]; rfl

theorem explainGate_of_allow (hcookie : r.visitor.sessionCookie = none) (hs : S.Straight r)
    (hhost : r.host = some hostname) (hpath : r.path = path)
    (hgate : checkVisitorGate (S.gateFor r.headers) r.visitor r.host r.path = .allow identity) :
    (S.explainGate hostname path).decision = none := by
  have hdeclared := hs.declared
  rw [hhost, hpath] at hgate hdeclared
  rw [explainGate_decision]
  refine if_neg fun h => ?_
  simp only [gateReported, undeclaredReported, Bool.and_eq_true, Option.isNone_iff_eq_none,
    Bool.not_eq_true', Bool.or_eq_false_iff, beq_iff_eq] at h
  obtain ⟨⟨haccess, hclients, hserver⟩, ⟨hdeny, hpub⟩, -⟩ := h
  have hrefused := not_allowed (G := S.gateFor r.headers) hcookie haccess hclients hserver hdeny
    hpub hdeclared
  rw [hgate] at hrefused
  cases hrefused

/-- Where nobody serves the route, the fallback answers or nobody does. -/
theorem agrees_of_orFallback {rep : Explanation} {coldStart : Option ColdStartRecord}
    (hrep : rep = S.explanation hostname path method org admin) (hhost : r.host = some hostname)
    (hr : S.proxyHandler r = { answer := S.orFallback r, coldStart := coldStart })
    (hlast : (S.explainParts hostname path method org admin).findSome? (·.decision) = some
      (match S.sites.fallbackFor (some hostname) with
      | some rule => ⟨.fallback, "fallback.redirect", some (.redirect rule.status rule.url)⟩
      | none => ⟨.noClient, "no_client.504", none⟩))
    (hcold : rep.coldStart = coldStart.isSome) : rep.Agrees S r := by
  cases hinstead : S.sites.fallbackFor (some hostname) with
  | none =>
      rw [orFallback_of_none (by rw [hhost, hinstead])] at hr
      rw [hinstead] at hlast
      obtain ⟨hout, -⟩ := explanation_of_decision hlast
      rw [← hrep] at hout
      exact agrees_of_unserved hr hout hcold
  | some rule =>
      rw [orFallback_of_some (by rw [hhost, hinstead])] at hr
      rw [hinstead] at hlast
      obtain ⟨hout, hparams⟩ := explanation_of_decision hlast
      rw [← hrep] at hout hparams
      exact agrees_of_fallback hr hout hparams hcold

/-- A request the gate lets in ends at the firewall, at a client, or at what
answers instead of one. -/
theorem agrees_of_allow {rep : Explanation}
    (hrep : rep = S.explanation hostname path method org admin) (hhost : r.host = some hostname)
    (hpath : r.path = path) (hmethod : r.method = method)
    (hcookie : r.visitor.sessionCookie = none)
    (hmaint : S.maintenanceFor (some hostname) = none)
    (hlate : (S.explainParts hostname path method org admin).findSome? (·.decision) =
      (S.explainWaf hostname path method).decision.or
        ((S.explainGate hostname path).decision.or
          (S.explainRouting hostname path org).decision))
    (hr : S.proxyHandler r = S.proxyHttpRequest r) (hu : S.Unhindered r) (hs : S.Straight r)
    (ha : S.RecordsApart hostname path)
    (hgate : checkVisitorGate (S.gateFor r.headers) r.visitor r.host r.path = .allow identity) :
    rep.Agrees S r := by
  rw [proxyHttpRequest_of_allow hu hgate] at hr
  have hpin := hu.unpinned identity hgate
  obtain ⟨hpool, hserved⟩ := explainPool_isEmpty hhost hpath hu.address
  have hcold : ∀ held, _ := fun held =>
    coldStartOf_isSome hmaint hhost hpath hu ha held
  have hreport : rep.coldStart = (!S.routeExists r && S.scalingEnabled &&
      S.coldStartArmed hostname path) := by
    rw [hrep, coldStart_explanation, hpool]
  rw [explainGate_of_allow hcookie hs hhost hpath hgate, Option.none_or,
    explainWaf_decision] at hlate
  have hwaf : S.firewall.wafDeny S.isMatch r.host r.method r.path [] =
      S.firewall.wafDeny S.isMatch (some hostname) method path [] := by
    rw [hhost, hmethod, hpath]
  cases hdenied : S.firewall.wafDeny S.isMatch (some hostname) method path [] with
  | some reason =>
      rw [hdenied] at hlate hwaf
      obtain ⟨hout, hparams⟩ := explanation_of_decision hlate
      rw [← hrep] at hout hparams
      have hnotheld : S.expires r false = false := by
        by_contra hexpires
        simp only [FrontServer.expires, Bool.false_and, Bool.or_false, Bool.not_eq_false,
          Bool.and_eq_true, Bool.not_eq_true'] at hexpires
        rw [(hs.held hexpires.1.1 hexpires.1.2).1] at hwaf
        cases hwaf
      rw [hnotheld, afterAdmitted_blocked hu hwaf] at hr
      exact agrees_of_blocked hr hout hparams
  | none =>
      rw [hdenied] at hlate hwaf
      simp only [Option.map_none, Option.none_or] at hlate
      rw [afterAdmitted_of_unblocked hu hwaf] at hr
      cases hroute : S.routeExists r with
      | true =>
          rw [FrontServer.expires_of_routeExists hroute, hroute] at hr
          obtain ⟨client, hclient⟩ := afterRules_of_served hu hs
            (b := ((S.budgets.checkRateLimit S.limits r.callerIp S.clock).2.checkRouteRateLimit
              S.limits r.host r.path r.method S.clock).2)
            (by rw [Budgets.checkRouteRateLimit_frame]; rfl)
            (by rw [Budgets.checkRouteRateLimit_frame]; rfl)
            (by rw [Budgets.checkRouteRateLimit_frame]; rfl) hpin hroute
          rw [hclient] at hr
          have hsome := explainRouting_of_served org (by rw [hpool, hroute]; rfl)
          obtain ⟨d, hd, hstage⟩ := Option.map_eq_some_iff.mp hsome
          obtain ⟨hout, hparams⟩ := explanation_of_decision (hlate.trans hd)
          rw [← hrep, hstage] at hout
          exact agrees_of_client hr hout
            (hreport.trans (hcold (!true) (fun _ => by rw [hroute])).symm)
      | false =>
          have hempty : (S.explainPool hostname path).isEmpty = true := by rw [hpool, hroute]; rfl
          have hlast := hlate.trans (explainRouting_of_unserved org hempty)
          cases hworth : S.worthWaitingForRoute with
          | true =>
              have hexpires : S.expires r false = true := by
                simp [FrontServer.expires, hroute, hworth]
              rw [hexpires, if_pos rfl] at hr
              have hinstead := (hs.held hroute hworth).2
              rw [hhost] at hinstead
              rw [hinstead] at hlast
              obtain ⟨hout, -⟩ := explanation_of_decision hlast
              rw [← hrep] at hout
              refine agrees_of_expired hr hroute hout (hreport.trans (hcold _ ?_).symm)
              exact fun hscaling => by rw [waits_of_scaling hroute hscaling, hroute]; rfl
          | false =>
              have hexpires : S.expires r false = false := by
                simp [FrontServer.expires, hworth]
              rw [hexpires, hroute, if_neg (by decide), afterRules_of_unserved hu hroute] at hr
              have hheld := hreport.trans (hcold (!false) (fun _ => by rw [hroute])).symm
              exact agrees_of_orFallback hrep hhost hr hlast hheld

end Agreement

end SiteServer

/-! ## The report -/

/-- Where the handler takes the way the report does, and what the report does
not judge goes well, the report is right about the request. -/
theorem explain_agrees {R : Type} {S : SiteServer R} {v : Presented} {q : ExplainQuery}
    {rep : Explanation} {ip : IpAddr} (hrep : S.explainHandler v q = .ok rep)
    (hu : S.Unhindered (rep.request ip)) (hs : S.Straight (rep.request ip))
    (ha : S.RecordsApart rep.hostname rep.path) : rep.Agrees S (rep.request ip) := by
  obtain ⟨raw, hostname, org, admin, hnormal, hrep⟩ := SiteServer.explainHandler_ok hrep
  have hname : rep.hostname = hostname := by rw [hrep, SiteServer.explanation_hostname]
  have hpath : rep.path = q.explainedPath := by rw [hrep, SiteServer.explanation_path]
  have hmethod : rep.method = q.explainedMethod := by rw [hrep, SiteServer.explanation_method]
  have hhost : (rep.request ip).host = some hostname := by
    simp only [Explanation.request, hname, extractRequestHost_normal hnormal]
  have hapart : S.RecordsApart hostname q.explainedPath := by rwa [hname, hpath] at ha
  have hr := SiteServer.proxyHandler_of_plain (S := S) (r := rep.request ip) rfl rfl hu.used
  rw [hhost, show (rep.request ip).path = _ from hpath] at hr
  have hparts := S.explainParts_decision hostname q.explainedPath q.explainedMethod org admin
  cases hmaint : S.maintenanceFor (some hostname) with
  | some flag =>
      have hstage := S.explainMaintenance_decision hostname
      rw [hmaint] at hr hstage
      obtain ⟨d, hd, hdstage⟩ := Option.map_eq_some_iff.mp hstage
      rw [hd, Option.some_or] at hparts
      obtain ⟨hout, -⟩ := SiteServer.explanation_of_decision hparts
      rw [← hrep, hdstage] at hout
      refine SiteServer.agrees_of_refusal hr rfl ?_ ?_ ?_ ?_
      · rw [hout]
        rfl
      · simp only [Explanation.status, hout]
        rfl
      · simp [hout]
      · simp [hout]
  | none =>
      have hstage := S.explainMaintenance_decision hostname
      rw [hmaint, Option.map_none, Option.map_eq_none_iff] at hstage
      rw [hstage, Option.none_or, SiteServer.explainSite_decision] at hparts
      rw [hmaint] at hr
      cases hsite : S.sites.answer (some hostname) q.explainedPath none with
      | some resp =>
          rw [hsite] at hr hparts
          obtain ⟨hout, hparams⟩ := SiteServer.explanation_of_decision hparts
          rw [← hrep] at hout hparams
          exact SiteServer.agrees_of_site hr hout hparams
      | none =>
          rw [hsite] at hr
          cases hnoindex : S.noindex (some hostname) q.explainedPath with
          | true =>
              rw [hnoindex] at hr
              rw [hsite, SiteServer.explainNoindex_decision, hnoindex] at hparts
              obtain ⟨hout, -⟩ := SiteServer.explanation_of_decision hparts
              rw [← hrep] at hout
              refine SiteServer.agrees_of_refusal hr rfl ?_ ?_ ?_ ?_
              · rw [hout]
                rfl
              · simp only [Explanation.status, hout]
                rfl
              · simp [hout]
              · simp [hout]
          | false =>
              rw [hnoindex] at hr
              have hlate := SiteServer.explainParts_late q.explainedMethod org admin hmaint hsite
                hnoindex
              cases hgate : checkVisitorGate (S.gateFor (rep.request ip).headers)
                  (rep.request ip).visitor (rep.request ip).host (rep.request ip).path with
              | deny resp => exact absurd hgate (hu.asked resp)
              | undeclared resp =>
                  exact SiteServer.agrees_of_undeclared hrep hhost hpath hmethod hmaint hlate hr hu
                    hs hapart hgate
              | allow identity =>
                  exact SiteServer.agrees_of_allow hrep hhost hpath hmethod rfl hmaint hlate hr hu
                    hs hapart hgate

/-! ## One site, one service -/

/-- A site over every hostname that says nothing of who may come in. -/
def everywhere : Site where
  hostname := "*"
  path := none
  access := none
  path_normal := Site.noPath_normal

/-- A server with one site over every hostname, and one connection with these
services; its organization has a month's worth of bytes when `max` says so.
Whoever holds `key` is an administrator. -/
def oneSite (access : DefaultAccess) (services : List ServiceState) (max : Option Nat)
    (waf : List (WafRule String)) (fallback : Option Redirect) : SiteServer String where
  gate :=
    { clients := (∅ : Clients).insert "a"
        { connectedAt := 0
          clientIp := ""
          lastPingAt := some 0
          perms := { ClientPerms.ofMaster with orgId := max.map fun _ => "acme" }
          services := services }
      downThreshold := 5
      adminKey := fun token => if token == "key" then some ⟨"ops", .admin, .all⟩ else none
      cfg := { sites := [everywhere], defaultAccess := access } }
  isMatch := sameText
  sites := [{ everywhere with waf := waf, fallback := fallback }]
  firewall := [(everywhere, waf)]
  canaries := [(everywhere, none)]
  limits :=
    { ipLimitMax := 10
      ipLimitRefill := 1
      rateLimits := [(everywhere, none)]
      orgs := (max.map fun m => ⟨"acme", some m⟩).toList }
  maxConcurrentRequests := 8
  maxWsConnections := 8
  gate_sites := rfl
  firewall_sites := rfl
  canaries_sites := rfl
  limits_sites := rfl

def keyHolder : Presented := { token := some "key" }

def localhost : IpAddr := .v4 0x7f000001#32

def publicSite : SiteServer String :=
  oneSite .deny [{ catchAll := true, isPublic := true }] none [] none

/-- A page of a public service: the report says that a client answers, and one
does. -/
theorem explain_public_page : ∃ rep,
    publicSite.explainHandler keyHolder { hostname := "app.test" } = .ok rep ∧
      rep.outcome = .client ∧ rep.Agrees publicSite (rep.request localhost) := by
  have hrep : publicSite.explainHandler keyHolder { hostname := "app.test" } =
      .ok (publicSite.explanation "app.test" "/" "GET" none true) := by decide +kernel
  refine ⟨_, hrep, by decide +kernel, ?_⟩
  have hgate : checkVisitorGate
      (publicSite.gateFor
        ((publicSite.explanation "app.test" "/" "GET" none true).request localhost).headers)
      ((publicSite.explanation "app.test" "/" "GET" none true).request localhost).visitor
      ((publicSite.explanation "app.test" "/" "GET" none true).request localhost).host
      ((publicSite.explanation "app.test" "/" "GET" none true).request localhost).path =
        .allow none := by
    decide +kernel
  have hserved : publicSite.routeExists
      ((publicSite.explanation "app.test" "/" "GET" none true).request localhost) = true := by
    decide +kernel
  have hpublic : routeIsPublic publicSite.gate
      ((publicSite.explanation "app.test" "/" "GET" none true).request localhost).path
      ((publicSite.explanation "app.test" "/" "GET" none true).request localhost).host = true := by
    decide +kernel
  refine explain_agrees hrep ?_ ?_ ?_
  · exact
      { used := by decide +kernel
        address := by
          intro e he s hs
          rw [List.mem_singleton.mp he] at hs
          rw [List.mem_singleton.mp hs]
          rfl
        owners := by
          intro record hrecord
          cases hrecord
        ipRoom := by
          rw [FrontServer.IpAdmits]
          decide +kernel
        slot := by decide +kernel
        routeRoom := by decide +kernel
        tokenRoom := by
          intro identity client _
          cases publicSite.tokenId client with
          | none => rfl
          | some id => rfl
        noStale := by decide +kernel
        noCopy := fun _ _ => SiteServer.cachedCopy_of_absent (by decide +kernel)
        headers := by decide +kernel
        asked := by
          rintro resp hdeny
          rw [hgate] at hdeny
          cases hdeny
        unpinned := by
          rintro identity hallow
          rw [hgate] at hallow
          cases hallow
          rfl }
  · exact
      { declared := fun _ _ _ => hpublic
        undeclared := by
          rintro resp hundeclared
          rw [hgate] at hundeclared
          cases hundeclared
        held := by
          intro hnone
          rw [hserved] at hnone
          cases hnone
        quota := by
          intro identity client _
          cases publicSite.orgId client with
          | none => rfl
          | some id => rfl }
  · intro record hrecord
    cases hrecord

/-- What the report and the handler say of one question. -/
def SiteServer.bothSay {R : Type} (S : SiteServer R) (q : ExplainQuery) :
    Option (ExplainStage × Bool × Handled) :=
  (S.explainHandler keyHolder q).toOption.map fun rep =>
    (rep.outcome, rep.coldStart, S.proxyHandler (rep.request localhost))

/-- The report is right about every plain request from an address no list
turns away. -/
def ExplainAlwaysAgrees (R : Type) : Prop :=
  ∀ (S : SiteServer R) (v : Presented) (q : ExplainQuery) (rep : Explanation) (ip : IpAddr),
    S.explainHandler v q = .ok rep → AddressAdmitted S.gate.clients ip →
      rep.Agrees S (rep.request ip)

/-- A password nobody has typed yet. -/
def passwordSite : SiteServer String :=
  oneSite .deny [{ catchAll := true, visitorAuth := some "ops:secret" }] none [] none

/-- A gate that asks for something is reported as passed. -/
theorem explain_disagrees :
    ¬ExplainAlwaysAgrees String ∧
      passwordSite.bothSay { hostname := "app.test" } =
        some (.client, false, { answer := .gated (.loginRedirect "/aperio/auth") }) := by
  refine ⟨?_, by decide +kernel⟩
  intro h
  have hrep : passwordSite.explainHandler keyHolder { hostname := "app.test" } =
      .ok (passwordSite.explanation "app.test" "/" "GET" none true) := by decide +kernel
  have haddress : AddressAdmitted passwordSite.gate.clients localhost := by
    intro e he s hs
    rw [List.mem_singleton.mp he] at hs
    rw [List.mem_singleton.mp hs]
    rfl
  obtain ⟨client, hclient⟩ := (h _ _ _ _ localhost hrep haddress).client.mp (by decide +kernel)
  have hgated : (passwordSite.proxyHandler
      ((passwordSite.explanation "app.test" "/" "GET" none true).request localhost)).answer =
        .gated (.loginRedirect "/aperio/auth") := by decide +kernel
  rw [hgated] at hclient
  cases hclient

end Aperio
