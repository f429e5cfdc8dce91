import Aperio.ExposeApi

/-!
# What a request does to the listeners

Seven handlers come down to four kinds of edit of the stored document
(`Edit`), a drain and a disconnect (`Outcome`), and everything about a request
is read off its kind: where a row of the edited document comes from, and whose
rows are not touched. `ApiSound` is what every run of the API keeps.
-/

namespace Aperio

namespace ExposeApi

variable {env : ExposeEnv} {s : ExposeManager} {c : Caller}

/-! ## Who may ask -/

/-- The caller has no role in the organization. -/
def NoRole (caller : Option Caller) (org : String) : Prop :=
  ∀ c ∈ caller, c.roleIn (orgKey org) = none

theorem not_permits {org : String} {action : ExposeAction} (h : c.roleIn (orgKey org) = none) :
    permits c org action = false := by
  have hnone : Grants.roleIn c.grants (orgKey org) = none := h
  simp [permits, Caller.exposeActions, Grants.mayExpose, hnone]

theorem ne_of_permits {org org' : String} {action : ExposeAction}
    (h : permits c org action = true) (hno : c.roleIn (orgKey org') = none) : org ≠ org' := by
  rintro rfl
  cases (not_permits hno).symm.trans h

/-- The server admin has a role everywhere. -/
theorem not_serverAdmin {org : Option String} (h : c.roleIn org = none) :
    c.isServerAdmin = false := by
  refine Bool.eq_false_iff.mpr fun hadmin => ?_
  obtain ⟨g, hg, hall⟩ := List.any_eq_true.mp hadmin
  rw [Bool.and_eq_true] at hall
  simp only [Caller.roleIn, Grants.roleIn] at h
  split at h
  · cases h
  · rw [Option.map_eq_none_iff, List.find?_eq_none] at h
    exact h g hg hall.1

theorem permits_of_authorized {r : ExposeResource} {action : ExposeAction}
    (h : authorized c r action = .ok ()) : permits c r.spec.orgId action = true := by
  obtain ⟨_, -, h⟩ := bind_eq_ok.mp h
  exact ensure_ok.mp h

theorem within_of_boundedChange {spec : ExposeSpec} {document : ExposeDocument}
    (h : boundedChange s c spec document = .ok ()) (hadmin : c.isServerAdmin = false) :
    withinAllocation s spec document = true := by
  rcases ensure_ok.mp h with hyes | hwithin
  · cases hadmin.symm.trans hyes
  · exact hwithin

theorem find_ok {id : String} {r : ExposeResource} (h : find s id = .ok r) :
    s.resource id = some r := by
  simp only [find] at h
  split at h
  · next r' hr =>
      rw [hr, ← Except.ok.inj h]
  · cases h

/-! ## What is asked -/

/-- What a caller may make of the document. -/
inductive Edit (s : ExposeManager) (c : Caller) : ExposeDocument → Prop
  | added {document : ExposeDocument} (new : List ExposeResource) (policies : List ExposePolicy)
      (resources : document.resources = s.document.resources ++ new)
      (allocations : document.policies = s.document.policies ++ policies)
      (may : ∀ r ∈ new, permits c r.spec.orgId .create = true)
      (fresh : ∀ r ∈ new, r.revision = 1 ∧ ∀ old ∈ s.document.resources, old.id ≠ r.id)
      (bounded : c.isServerAdmin = false → policies = [] ∧
        ∀ r ∈ new, withinAllocation s r.spec document = true) : Edit s c document
  | changed (old : ExposeResource) (spec : ExposeSpec) (action : ExposeAction)
      (was : s.resource old.id = some old) (own : spec.orgId = old.spec.orgId)
      (may : permits c old.spec.orgId action = true)
      (bounded : c.isServerAdmin = false → spec.enabled = true →
        withinAllocation s spec
          (setRow s.document { old with revision := nextRevision old.revision, spec }) = true) :
      Edit s c (setRow s.document { old with revision := nextRevision old.revision, spec })
  | removed (old : ExposeResource) (was : s.resource old.id = some old)
      (may : permits c old.spec.orgId .delete = true) :
      Edit s c { s.document with resources := s.document.resources.filter (·.id != old.id) }
  | allocated (policy : ExposePolicy) (may : c.isServerAdmin = true) :
      Edit s c { s.document with
        policies := s.document.policies.filter (·.orgId != policy.orgId) ++ [policy] }

inductive Asks (s : ExposeManager) (c : Caller) : ExposePlan → Prop
  | answer (reply : ExposeReply) : Asks s c (.answer reply)
  | replace {document : ExposeDocument} (allowSuspension : Bool)
      (reply : ExposeManager → ExposeReply) (edit : Edit s c document) :
      Asks s c (.replace document allowSuspension reply)
  | drain (old : ExposeResource) (seconds : Nat) (was : s.resource old.id = some old)
      (may : permits c old.spec.orgId .disable = true) : Asks s c (.drain old.id seconds)
  | disconnect (old : ExposeResource) (sessionId : String) (reply : ExposeReply)
      (was : s.resource old.id = some old)
      (may : permits c old.spec.orgId .disconnect = true) :
      Asks s c (.disconnect old.id sessionId reply)

theorem id_of_resource {id : String} {r : ExposeResource} (h : s.resource id = some r) :
    r.id = id := by
  obtain ⟨e, hget, rfl⟩ := Option.map_eq_some_iff.mp h
  exact (getEntry_some hget).2

theorem mem_of_resource (hs : s.Sound) {id : String} {r : ExposeResource}
    (h : s.resource id = some r) : r ∈ s.document.resources := by
  obtain ⟨e, hget, rfl⟩ := Option.map_eq_some_iff.mp h
  rw [← hs.synced]
  exact List.mem_map_of_mem (getEntry_some hget).1

theorem resource_of_mem (hs : s.Sound) {r : ExposeResource} (h : r ∈ s.document.resources) :
    s.resource r.id = some r := by
  have hids : DistinctIds (s.entries.map (·.resource)) := by
    rw [hs.synced]
    exact hs.ids
  rw [← hs.synced] at h
  obtain ⟨e, he, rfl⟩ := List.mem_map.mp h
  rw [ExposeManager.resource, getEntry_of_mem hids he, Option.map_some]

theorem create_asks (hs : s.Sound) {id : Option String} {spec : ExposeSpec} {plan : ExposePlan}
    (h : create env s c id spec = .ok plan) : Asks s c plan := by
  unfold create at h
  obtain ⟨_, hmay, h⟩ := bind_eq_ok.mp h
  have hmay := ensure_ok.mp hmay
  obtain ⟨_, -, h⟩ := bind_eq_ok.mp h
  obtain ⟨_, -, h⟩ := bind_eq_ok.mp h
  dsimp only at h
  split at h
  · obtain ⟨_, -, h⟩ := bind_eq_ok.mp h
    obtain ⟨_, -, h⟩ := bind_eq_ok.mp h
    obtain rfl := Except.ok.inj h
    exact .answer _
  · next hnone =>
      obtain ⟨_, hbounded, h⟩ := bind_eq_ok.mp h
      obtain rfl := Except.ok.inj h
      refine .replace _ _ (.added [_] [] rfl (List.append_nil _).symm ?_ ?_ fun hadmin => ⟨rfl, ?_⟩)
      · exact List.forall_mem_singleton.mpr hmay
      · refine List.forall_mem_singleton.mpr ⟨rfl, fun old hold hid => ?_⟩
        have hsome := resource_of_mem hs hold
        rw [hid] at hsome
        cases hnone.symm.trans hsome
      · exact List.forall_mem_singleton.mpr (within_of_boundedChange hbounded hadmin)

theorem update_asks {id : String} {revision : Nat} {spec : ExposeSpec} {plan : ExposePlan}
    (h : update env s c id revision spec = .ok plan) :
    Asks s c plan ∧ ∃ r, s.resource id = some r ∧ r.revision = revision := by
  unfold update at h
  obtain ⟨old, hold, h⟩ := bind_eq_ok.mp h
  have hold := find_ok hold
  obtain ⟨_, hmay, h⟩ := bind_eq_ok.mp h
  obtain ⟨_, hrevision, h⟩ := bind_eq_ok.mp h
  obtain ⟨_, hown, h⟩ := bind_eq_ok.mp h
  obtain ⟨_, -, h⟩ := bind_eq_ok.mp h
  obtain ⟨_, -, h⟩ := bind_eq_ok.mp h
  obtain ⟨_, hbounded, h⟩ := bind_eq_ok.mp h
  obtain rfl := Except.ok.inj h
  obtain rfl := id_of_resource hold
  exact ⟨.replace _ _ (.changed old spec .update hold (ensure_ok.mp hown)
    (permits_of_authorized hmay) fun hadmin _ => within_of_boundedChange hbounded hadmin),
    old, hold, ensure_ok.mp hrevision⟩

theorem delete_asks {id : String} {revision : Nat} {plan : ExposePlan}
    (h : delete s c id revision = .ok plan) :
    Asks s c plan ∧ ∃ r, s.resource id = some r ∧ r.revision = revision := by
  unfold delete at h
  obtain ⟨old, hold, h⟩ := bind_eq_ok.mp h
  have hold := find_ok hold
  obtain ⟨_, hmay, h⟩ := bind_eq_ok.mp h
  obtain ⟨_, hrevision, h⟩ := bind_eq_ok.mp h
  obtain rfl := Except.ok.inj h
  obtain rfl := id_of_resource hold
  exact ⟨.replace _ _ (.removed old hold (permits_of_authorized hmay)), old, hold,
    ensure_ok.mp hrevision⟩

theorem requiredAction_ok {action : String} {required : ExposeAction}
    (h : requiredAction action = .ok required) :
    (action = "drain" → required = .disable) ∧ (action = "disconnect" → required = .disconnect) := by
  unfold requiredAction at h
  split at h
  · next hopen =>
      refine ⟨?_, ?_⟩
      · rintro rfl
        simp at hopen
      · rintro rfl
        simp at hopen
  · split at h
    · next hclose =>
        refine ⟨fun _ => (Except.ok.inj h).symm, ?_⟩
        rintro rfl
        simp at hclose
    · split at h
      · next hcut =>
          refine ⟨?_, fun _ => (Except.ok.inj h).symm⟩
          rintro rfl
          simp at hcut
      · cases h

theorem operate_asks {id : String} {revision : Nat} {action : String} {sessionId : Option String}
    {drainSeconds : Option Nat} {plan : ExposePlan}
    (h : operate s c id revision action sessionId drainSeconds = .ok plan) :
    Asks s c plan ∧ ∃ r, s.resource id = some r ∧ r.revision = revision := by
  unfold operate at h
  obtain ⟨required, hrequired, h⟩ := bind_eq_ok.mp h
  obtain ⟨hdrain, hdisconnect⟩ := requiredAction_ok hrequired
  obtain ⟨old, hold, h⟩ := bind_eq_ok.mp h
  have hold := find_ok hold
  obtain ⟨_, hmay, h⟩ := bind_eq_ok.mp h
  have hmay := permits_of_authorized hmay
  obtain ⟨_, hrevision, h⟩ := bind_eq_ok.mp h
  refine ⟨?_, old, hold, ensure_ok.mp hrevision⟩
  split at h
  · next hact =>
      rw [hdisconnect hact] at hmay
      split at h
      · obtain rfl := Except.ok.inj h
        obtain rfl := id_of_resource hold
        exact .disconnect old _ _ hold hmay
      · cases h
  · split at h
    · next hact =>
        rw [hdrain hact] at hmay
        obtain ⟨_, -, h⟩ := bind_eq_ok.mp h
        obtain ⟨_, -, h⟩ := bind_eq_ok.mp h
        obtain rfl := Except.ok.inj h
        obtain rfl := id_of_resource hold
        exact .drain old _ hold hmay
    · obtain ⟨_, hbounded, h⟩ := bind_eq_ok.mp h
      obtain rfl := Except.ok.inj h
      obtain rfl := id_of_resource hold
      refine .replace _ _ (.changed old _ required hold rfl hmay fun hadmin hon => ?_)
      have hopens : action ≠ "disable" := of_decide_eq_true hon
      rw [if_neg hopens] at hbounded
      exact within_of_boundedChange hbounded hadmin

theorem setPolicy_asks {org : String} {policy : ExposePolicy} {plan : ExposePlan}
    (h : setPolicy env s c org policy = .ok plan) : Asks s c plan := by
  unfold setPolicy at h
  obtain ⟨_, hadmin, h⟩ := bind_eq_ok.mp h
  obtain ⟨_, hvalid, h⟩ := bind_eq_ok.mp h
  obtain ⟨rfl, -⟩ := ensure_ok.mp hvalid
  obtain ⟨_, -, h⟩ := bind_eq_ok.mp h
  obtain ⟨_, -, h⟩ := bind_eq_ok.mp h
  obtain rfl := Except.ok.inj h
  exact .replace _ _ (.allocated { policy with revision := nextRevision policy.revision }
    (ensure_ok.mp hadmin))

/-! ### Import -/

theorem restoreResource_ok {orgMap : List (String × String)} {r r' : ExposeResource}
    (h : restoreResource env c orgMap r = .ok r') : permits c r'.spec.orgId .create = true := by
  unfold restoreResource at h
  obtain ⟨_, -, h⟩ := bind_eq_ok.mp h
  obtain ⟨_, hmay, h⟩ := bind_eq_ok.mp h
  obtain ⟨_, -, h⟩ := bind_eq_ok.mp h
  obtain rfl := Except.ok.inj h
  exact ensure_ok.mp hmay

theorem restorePolicy_ok {orgMap : List (String × String)} {policy policy' : ExposePolicy}
    (h : restorePolicy env c orgMap policy = .ok policy') : c.isServerAdmin = true := by
  unfold restorePolicy at h
  obtain ⟨_, hadmin, h⟩ := bind_eq_ok.mp h
  exact ensure_ok.mp hadmin

/-- An imported list is added behind what is there. -/
theorem addResources_ok {document document' : ExposeDocument} {resources : List ExposeResource}
    (h : resources.foldlM (addResource env c) document = .ok document') :
    document'.policies = document.policies ∧
      ∃ new, document'.resources = document.resources ++ new ∧
        ∀ r ∈ new, (∃ x ∈ resources, r.spec = x.spec) ∧ r.revision = 1 ∧
          ∀ old ∈ document.resources, old.id ≠ r.id := by
  refine foldlM_ok (P := fun d => d.policies = document.policies ∧
    ∃ new, d.resources = document.resources ++ new ∧
      ∀ r ∈ new, (∃ x ∈ resources, r.spec = x.spec) ∧ r.revision = 1 ∧
        ∀ old ∈ document.resources, old.id ≠ r.id)
    h ⟨rfl, [], (List.append_nil _).symm, nofun⟩ fun x hx d d' hd hadd => ?_
  obtain ⟨hpolicies, new, hnew, hall⟩ := hd
  unfold addResource at hadd
  split at hadd
  · obtain ⟨_, -, hadd⟩ := bind_eq_ok.mp hadd
    obtain ⟨_, -, hadd⟩ := bind_eq_ok.mp hadd
    obtain rfl := Except.ok.inj hadd
    exact ⟨hpolicies, new, hnew, hall⟩
  · next hnone =>
      obtain ⟨_, -, hadd⟩ := bind_eq_ok.mp hadd
      obtain rfl := Except.ok.inj hadd
      refine ⟨hpolicies, new ++ [{ x with revision := 1 }], ?_, fun r hr => ?_⟩
      · rw [← List.append_assoc, ← hnew]
      · rcases List.mem_append.mp hr with hr | hr
        · exact hall r hr
        · obtain rfl := List.mem_singleton.mp hr
          refine ⟨⟨x, hx, rfl⟩, rfl, fun old hold hid => ?_⟩
          refine List.find?_eq_none.mp hnone old ?_ (beq_iff_eq.mpr hid)
          rw [hnew]
          exact List.mem_append_left _ hold

theorem addPolicies_ok {document document' : ExposeDocument} {policies : List ExposePolicy}
    (h : policies.foldlM addPolicy document = .ok document') :
    document'.resources = document.resources ∧
      ∃ new, document'.policies = document.policies ++ new ∧ (policies = [] → new = []) := by
  refine foldlM_ok (P := fun d => d.resources = document.resources ∧
    ∃ new, d.policies = document.policies ++ new ∧ (policies = [] → new = []))
    h ⟨rfl, [], (List.append_nil _).symm, fun _ => rfl⟩ fun x hx d d' hd hadd => ?_
  obtain ⟨hresources, new, hnew, -⟩ := hd
  have hne : policies ≠ [] := List.ne_nil_of_mem hx
  unfold addPolicy at hadd
  split at hadd
  · obtain ⟨_, -, hadd⟩ := bind_eq_ok.mp hadd
    obtain rfl := Except.ok.inj hadd
    exact ⟨hresources, new, hnew, fun hnil => absurd hnil hne⟩
  · obtain rfl := Except.ok.inj hadd
    refine ⟨hresources, new ++ [{ x with revision := 1 }], ?_, fun hnil => absurd hnil hne⟩
    rw [← List.append_assoc, ← hnew]

/-- What an import puts in place of the document. -/
theorem restore_ok {backup : ExposeBackup} {orgMap : List (String × String)} {preview : Bool}
    {revision : Option Nat} {plan : ExposePlan}
    (h : restore env s c backup orgMap preview revision = .ok plan) :
    (∃ reply, plan = .answer reply) ∨
      ∃ document new policies reply, plan = .replace document false reply ∧
        document.resources = s.document.resources ++ new ∧
        document.policies = s.document.policies ++ policies ∧
        (∀ r ∈ new, permits c r.spec.orgId .create = true) ∧
        (∀ r ∈ new, r.revision = 1 ∧ ∀ old ∈ s.document.resources, old.id ≠ r.id) ∧
        (c.isServerAdmin = false → policies = [] ∧
          ∀ r ∈ new, withinAllocation s r.spec document = true) := by
  unfold restore at h
  obtain ⟨_, -, h⟩ := bind_eq_ok.mp h
  obtain ⟨_, -, h⟩ := bind_eq_ok.mp h
  obtain ⟨resources, hresources, h⟩ := bind_eq_ok.mp h
  obtain ⟨allocations, hallocations, h⟩ := bind_eq_ok.mp h
  obtain ⟨_, -, h⟩ := bind_eq_ok.mp h
  obtain ⟨added, hadded, h⟩ := bind_eq_ok.mp h
  obtain ⟨document, hdocument, h⟩ := bind_eq_ok.mp h
  obtain ⟨_, hbounded, h⟩ := bind_eq_ok.mp h
  obtain ⟨_, -, h⟩ := bind_eq_ok.mp h
  obtain ⟨hpolicies, new, hnew, hall⟩ := addResources_ok hadded
  obtain ⟨hsame, policies, hpolicies', hnil⟩ := addPolicies_ok hdocument
  split at h
  · exact .inl ⟨_, (Except.ok.inj h).symm⟩
  · refine .inr ⟨document, new, policies, _, (Except.ok.inj h).symm, hsame.trans hnew,
      hpolicies'.trans (by rw [hpolicies]), fun r hr => ?_, fun r hr => (hall r hr).2,
      fun hadmin => ⟨hnil ?_, fun r hr => ?_⟩⟩
    · obtain ⟨⟨x, hx, hspec⟩, -⟩ := hall r hr
      obtain ⟨y, -, hy⟩ := exists_of_mem_mapM hresources hx
      rw [hspec]
      exact restoreResource_ok hy
    · refine List.eq_nil_iff_forall_not_mem.mpr fun policy hpolicy => ?_
      obtain ⟨x, -, hx⟩ := exists_of_mem_mapM hallocations hpolicy
      cases hadmin.symm.trans (restorePolicy_ok hx)
    · obtain ⟨⟨x, hx, hspec⟩, -⟩ := hall r hr
      rw [hspec]
      exact within_of_boundedChange (forM_ok hbounded x hx) hadmin

theorem restore_asks {backup : ExposeBackup} {orgMap : List (String × String)} {preview : Bool}
    {revision : Option Nat} {plan : ExposePlan}
    (h : restore env s c backup orgMap preview revision = .ok plan) : Asks s c plan := by
  rcases restore_ok h with ⟨reply, rfl⟩ | ⟨document, new, policies, reply, rfl, hresources,
    hpolicies, hmay, hfresh, hbounded⟩
  · exact .answer reply
  · exact .replace _ _ (.added new policies hresources hpolicies hmay hfresh hbounded)

end ExposeApi

/-! ## What a request is about -/

/-- The resource and the revision a request names. -/
def ExposeRequest.names : ExposeRequest → Option (String × Nat)
  | .update id revision _ => some (id, revision)
  | .delete id revision => some (id, revision)
  | .operate id revision _ _ _ => some (id, revision)
  | .create .. | .setPolicy .. | .restore .. => none

namespace ExposeManager

open ExposeApi

variable {env : ExposeEnv} {s s' : ExposeManager} {c : Caller} {request : ExposeRequest}
  {plan : ExposePlan}

theorem plan_asks (hs : s.Sound) (h : s.plan env c request = .ok plan) : Asks s c plan := by
  cases request with
  | create id spec => exact create_asks hs h
  | update id revision spec => exact (update_asks h).1
  | delete id revision => exact (delete_asks h).1
  | operate id revision action sessionId drainSeconds => exact (operate_asks h).1
  | setPolicy org policy => exact setPolicy_asks h
  | restore backup orgMap preview revision => exact restore_asks h

/-- Who changes a resource names its current revision. -/
theorem plan_names {id : String} {revision : Nat} (h : s.plan env c request = .ok plan)
    (hnames : request.names = some (id, revision)) :
    ∃ r, s.resource id = some r ∧ r.revision = revision := by
  cases request with
  | update =>
      obtain ⟨rfl, rfl⟩ := Prod.mk.inj (Option.some.inj hnames)
      exact (update_asks h).2
  | delete =>
      obtain ⟨rfl, rfl⟩ := Prod.mk.inj (Option.some.inj hnames)
      exact (delete_asks h).2
  | operate =>
      obtain ⟨rfl, rfl⟩ := Prod.mk.inj (Option.some.inj hnames)
      exact (operate_asks h).2
  | _ => cases hnames

/-- What a request leaves behind. -/
inductive Outcome (s : ExposeManager) (c : Caller) : ExposeManager → Prop
  | same : Outcome s c s
  | replaced {document : ExposeDocument} (binds : Binds) (persist : Except String Unit)
      (allowSuspension : Bool) (edit : Edit s c document) :
      Outcome s c (s.replace binds persist document allowSuspension).2
  | drained (persist : Except String Unit) (old : ExposeResource) (deadline : Nat)
      (was : s.resource old.id = some old) (may : permits c old.spec.orgId .disable = true) :
      Outcome s c (s.drain persist old.id deadline).2
  | disconnected {s' : ExposeManager} (old : ExposeResource) (sessionId : String)
      (was : s.resource old.id = some old) (may : permits c old.spec.orgId .disconnect = true)
      (cut : s.disconnect old.id sessionId = some s') : Outcome s c s'

theorem perform_replace (document : ExposeDocument) (allowSuspension : Bool)
    (reply : ExposeManager → ExposeReply) :
    (s.perform env (.replace document allowSuspension reply)).2 =
      (s.replace env.binds env.persist document allowSuspension).2 := by
  simp only [perform]
  split
  · next heq => rw [heq]
  · next heq => rw [heq]

theorem perform_outcome (h : Asks s c plan) : Outcome s c (s.perform env plan).2 := by
  cases h with
  | answer reply => exact .same
  | @replace document allowSuspension reply edit =>
      rw [perform_replace]
      exact .replaced env.binds env.persist allowSuspension edit
  | drain old seconds was may =>
      have houtcome := Outcome.drained env.persist old (env.now + seconds) was may
      simp only [perform]
      split
      · next heq => simpa [heq] using houtcome
      · next heq =>
          split
          · simpa [heq] using houtcome
          · simpa [heq] using houtcome
  | disconnect old sessionId reply was may =>
      simp only [perform]
      split
      · next heq => exact .disconnected old sessionId was may heq
      · exact .same

theorem respond_outcome (hs : s.Sound) (env : ExposeEnv) (caller : Option Caller)
    (request : ExposeRequest) :
    (s.respond env caller request).2 = s ∨
      ∃ c ∈ caller, Outcome s c (s.respond env caller request).2 := by
  cases caller with
  | none => exact .inl rfl
  | some c =>
      simp only [respond]
      split
      · exact .inl rfl
      · next plan hplan => exact .inr ⟨c, rfl, perform_outcome (plan_asks hs hplan)⟩

/-! ## Rows -/

/-- Where a row of an edited document comes from. -/
theorem edit_row {document : ExposeDocument} (h : Edit s c document)
    {r : ExposeResource} (hr : r ∈ document.resources) :
    r ∈ s.document.resources ∨
      (c.isServerAdmin = false → r.spec.enabled = true →
        withinAllocation s r.spec document = true) ∧
      ((r.revision = 1 ∧ ∀ old ∈ s.document.resources, old.id ≠ r.id) ∨
        ∃ old, s.resource r.id = some old ∧ r.revision = nextRevision old.revision) := by
  cases h with
  | added new policies resources allocations may fresh bounded =>
      rw [resources] at hr
      rcases List.mem_append.mp hr with hr | hr
      · exact .inl hr
      · exact .inr ⟨fun hadmin _ => (bounded hadmin).2 r hr, .inl (fresh r hr)⟩
  | changed old spec action was own may bounded =>
      obtain ⟨x, hx, rfl⟩ := List.mem_map.mp hr
      split
      · exact .inr ⟨bounded, .inr ⟨old, was, rfl⟩⟩
      · exact .inl hx
  | removed old was may => exact .inl (List.mem_filter.mp hr).1
  | allocated policy may => exact .inl hr

theorem filter_map_of_other {α : Type} {l : List α} {p : α → Bool} {f : α → α}
    (h : ∀ x ∈ l, f x = x ∨ p x = false ∧ p (f x) = false) : (l.map f).filter p = l.filter p := by
  induction l with
  | nil => rfl
  | cons x rest ih =>
      have ih := ih fun y hy => h y (List.mem_cons_of_mem _ hy)
      rw [List.map_cons, List.filter_cons, List.filter_cons, ih]
      rcases h x List.mem_cons_self with hx | ⟨hno, hno'⟩
      · rw [hx]
      · rw [if_neg (by rw [hno']; exact nofun), if_neg (by rw [hno]; exact nofun)]

/-- One row of another organization in place of another. -/
theorem sameIn_map (hs : s.Sound) {org : String} (old new : ExposeResource)
    (was : s.resource old.id = some old) (hown : new.spec.orgId = old.spec.orgId)
    (hother : old.spec.orgId ≠ org) :
    (s.document.resources.map fun r => if r.id = old.id then new else r).filter
      (·.spec.orgId == org) = s.document.resources.filter (·.spec.orgId == org) := by
  refine filter_map_of_other fun r hr => ?_
  by_cases hid : r.id = old.id
  · obtain rfl := hs.ids.eq hr (mem_of_resource hs was) hid
    rw [if_pos rfl, hown]
    exact .inr ⟨beq_false_of_ne hother, beq_false_of_ne hother⟩
  · exact .inl (if_neg hid)

theorem edit_sameIn (hs : s.Sound) {document : ExposeDocument} (h : Edit s c document)
    {org : String} (hno : c.roleIn (orgKey org) = none) : SameIn org s.document document := by
  cases h with
  | added new policies resources allocations may fresh bounded =>
      obtain ⟨rfl, -⟩ := bounded (not_serverAdmin hno)
      refine ⟨?_, by rw [allocations, List.append_nil]⟩
      have hnone : new.filter (·.spec.orgId == org) = [] := by
        refine List.filter_eq_nil_iff.mpr fun r hr => ?_
        rw [beq_false_of_ne (ne_of_permits (may r hr) hno)]
        exact nofun
      rw [resources, List.filter_append, hnone, List.append_nil]
  | changed old spec action was own may bounded =>
      exact ⟨sameIn_map hs old _ was own (ne_of_permits may hno), rfl⟩
  | removed old was may =>
      refine ⟨?_, rfl⟩
      rw [List.filter_filter]
      refine List.filter_congr fun r hr => ?_
      by_cases hid : r.id = old.id
      · obtain rfl := hs.ids.eq hr (mem_of_resource hs was) hid
        rw [beq_false_of_ne (ne_of_permits may hno), Bool.false_and]
      · rw [bne_iff_ne.mpr hid, Bool.and_true]
  | allocated policy may => cases (not_serverAdmin hno).symm.trans may

/-! ## Disconnects -/

/-- A session is told to stop, and that is all. -/
theorem disconnect_ok {id sessionId : String} (h : s.disconnect id sessionId = some s') :
    s'.store = s.store ∧ ∃ f, s'.entries = s.entries.map f ∧
      ∀ e, f e = e ∨ e.resource.id = id ∧ f e = e.stopSession sessionId := by
  simp only [disconnect] at h
  split at h
  · obtain rfl := Option.some.inj h
    refine ⟨rfl, _, rfl, fun e => ?_⟩
    split
    · next hhas =>
        rw [ExposeEntry.hasSession, Bool.and_eq_true, beq_iff_eq] at hhas
        exact .inr ⟨hhas.1, rfl⟩
    · exact .inl rfl
  · split at h
    · obtain rfl := Option.some.inj h
      exact ⟨rfl, fun e => e, (List.map_id _).symm, fun _ => .inl rfl⟩
    · cases h

/-! ## Every run -/

/-- What is on is suspended. -/
def Closed (e : ExposeEntry) : Prop :=
  e.resource.spec.enabled = true → e.runtime.status = .suspended

theorem closed_ofStatus : OfStatus Closed where
  suspended _ h _ := h
  same e e' hresource hstatus h hon := by
    rw [hresource] at hon
    exact hstatus.trans (h hon)

/-- What every run keeps. What is in memory is what is stored, unless that
could not be read. -/
structure ApiSound (s : ExposeManager) : Prop where
  sound : s.Sound
  settled : s.Settled Closed
  loaded : s.document = s.store.stored ∨ s.document.resources = []
  bounded : ∀ r ∈ s.store.stored.resources, r.revision < 18446744073709551616

theorem nextRevision_lt (revision : Nat) : nextRevision revision < 18446744073709551616 :=
  Nat.mod_lt _ (by decide)

theorem stopSession_sound {e : ExposeEntry} (h : e.Sound) (sessionId : String) :
    (e.stopSession sessionId).Sound :=
  ⟨fun hne => h.sessions fun hnil => hne (List.map_eq_nil_iff.mpr hnil), h.undrained, h.enabled,
    h.accepting, h.draining⟩

theorem sound_disconnect (hs : s.Sound) {id sessionId : String}
    (h : s.disconnect id sessionId = some s') : s'.Sound := by
  obtain ⟨hstore, f, hentries, hf⟩ := disconnect_ok h
  have hresource : ∀ e, (f e).resource = e.resource := by
    intro e
    rcases hf e with hsame | ⟨-, hcut⟩
    · rw [hsame]
    · rw [hcut]
      rfl
  have hdocument : s'.document = s.document := by
    rw [ExposeManager.document, hstore]
    rfl
  refine ⟨?_, hdocument ▸ hs.ids, hdocument ▸ hs.apart, ?_, hstore ▸ hs.storedIds,
    hstore ▸ hs.storedApart⟩
  · rw [hentries, List.map_map, hdocument, ← hs.synced]
    exact List.map_congr_left fun e _ => hresource e
  · rw [hentries]
    refine List.forall_mem_map.mpr fun e he => ?_
    rcases hf e with hsame | ⟨-, hcut⟩
    · rw [hsame]
      exact hs.entries e he
    · rw [hcut]
      exact stopSession_sound (hs.entries e he) sessionId

theorem settled_disconnect {Q : ExposeEntry → Prop} (hQ : OfStatus Q) (hs : s.Sound)
    (hq : s.Settled Q) {id sessionId : String} (h : s.disconnect id sessionId = some s') :
    s'.Settled Q := by
  have hsound := sound_disconnect hs h
  obtain ⟨hstore, f, hentries, hf⟩ := disconnect_ok h
  have hdocument : s'.document = s.document := by
    rw [ExposeManager.document, hstore]
    rfl
  -- only a session changes
  have hsame : ∀ e, (f e).resource = e.resource ∧ (f e).runtime.status = e.runtime.status ∧
      (f e).runtime.deadline = e.runtime.deadline ∧ (f e).running = e.running := by
    intro e
    rcases hf e with hsame | ⟨-, hcut⟩
    · rw [hsame]
      exact ⟨rfl, rfl, rfl, rfl⟩
    · rw [hcut]
      exact ⟨rfl, rfl, rfl, rfl⟩
  intro org
  rw [hdocument, hentries]
  rcases hq org with hallowed | hall
  · refine .inl (orgAllowed_mono rfl (quotaSpecs_below fun r _ hreserved => ?_) hallowed)
    obtain ⟨x, hx, hown, hdeadline, hrunning⟩ := (reserved_iff hsound).mp hreserved
    rw [hentries] at hx
    obtain ⟨e, he, rfl⟩ := List.mem_map.mp hx
    obtain ⟨hresource, -, hdeadline', hrunning'⟩ := hsame e
    exact (reserved_iff hs).mpr ⟨e, he, hresource ▸ hown, hdeadline' ▸ hdeadline,
      hrunning' ▸ hrunning⟩
  · refine .inr (List.forall_mem_map.mpr fun e he horg => ?_)
    obtain ⟨hresource, hstatus, -, hrunning⟩ := hsame e
    rw [hresource] at horg
    obtain ⟨hqe, hidle⟩ := hall e he horg
    exact ⟨hQ.same e _ hresource hstatus hqe, hrunning.trans hidle⟩

theorem ApiSound.revisions (h : s.ApiSound) {r : ExposeResource}
    (hr : r ∈ s.document.resources) : r.revision < 18446744073709551616 := by
  rcases h.loaded with hloaded | hempty
  · rw [hloaded] at hr
    exact h.bounded r hr
  · rw [hempty] at hr
    cases hr

theorem ApiSound.replace (h : s.ApiSound) {document : ExposeDocument}
    (edit : Edit s c document) (binds : Binds) (persist : Except String Unit)
    (allowSuspension : Bool) :
    (s.replace binds persist document allowSuspension).2.ApiSound := by
  have hsound := h.sound.replace binds persist document allowSuspension
  have hsettled := settled_replace closed_ofStatus h.sound h.settled binds persist document
    allowSuspension
  rcases replace_cases (s := s) binds persist document allowSuspension with
    ⟨error, heq | heq⟩ | ⟨staged, store, hstage, hcommit, heq⟩
  · rw [heq]
    exact h
  · rw [heq] at hsound hsettled ⊢
    exact ⟨hsound, hsettled, h.loaded, h.bounded⟩
  · rw [heq] at hsound hsettled ⊢
    obtain ⟨rfl, -, -⟩ := ExposeStore.commit_ok hcommit
    refine ⟨hsound, hsettled, .inl rfl, fun r hr => ?_⟩
    rcases edit_row edit hr with hr | ⟨-, ⟨hfirst, -⟩ | ⟨old, -, hnext⟩⟩
    · exact h.revisions hr
    · rw [hfirst]
      decide
    · rw [hnext]
      exact nextRevision_lt _

theorem ApiSound.drain (h : s.ApiSound) (persist : Except String Unit) (id : String)
    (deadline : Nat) : (s.drain persist id deadline).2.ApiSound := by
  have hsound := h.sound.drain persist id deadline
  have hsettled := settled_drain h.sound h.settled persist id deadline
    fun e _ saved hid hoff _ _ hon => by
      rw [drained, if_pos hid] at hon
      cases hoff.symm.trans hon
  rcases drain_cases (s := s) persist id deadline with
    ⟨error, heq⟩ | ⟨e, row, store, -, -, -, -, hcommit, heq⟩
  · rw [heq]
    exact h
  · rw [heq] at hsound hsettled ⊢
    obtain ⟨rfl, -, -⟩ := ExposeStore.commit_ok hcommit
    refine ⟨hsound, hsettled, .inl rfl, List.forall_mem_map.mpr fun r hr => ?_⟩
    split
    · exact nextRevision_lt _
    · exact h.revisions hr

theorem ApiSound.restart (h : s.ApiSound) (binds : Binds) (loadError : Option String) :
    (s.restart binds loadError).ApiSound := by
  have hstored : (s.restart binds loadError).store.stored = s.store.stored := by
    simp only [ExposeManager.restart, foldl_initializeRule_store]
  refine ⟨h.sound.restart binds loadError, settled_restart closed_ofStatus binds loadError, ?_, ?_⟩
  · rw [restart_document, hstored]
    split
    · exact .inr rfl
    · exact .inl rfl
  · rw [hstored]
    exact h.bounded

theorem ApiSound.step {a : ExposeApiAct} (h : s.ApiSound) (hstep : s.apiAct a = some s') :
    s'.ApiSound := by
  cases a with
  | request env caller request =>
      obtain rfl := Option.some.inj hstep
      rcases respond_outcome h.sound env caller request with
        hsame | ⟨c, -, houtcome⟩
      · rw [hsame]
        exact h
      · generalize (s.respond env caller request).2 = s' at houtcome
        cases houtcome with
        | same => exact h
        | replaced binds persist allowSuspension edit =>
            exact h.replace edit binds persist allowSuspension
        | drained persist old deadline was may => exact h.drain persist old.id deadline
        | disconnected old sessionId was may cut =>
            obtain ⟨hstore, -⟩ := disconnect_ok cut
            have hdocument : s'.document = s.document := by
              rw [ExposeManager.document, hstore]
              rfl
            exact ⟨sound_disconnect h.sound cut,
              settled_disconnect closed_ofStatus h.sound h.settled cut,
              by rw [hdocument, hstore]; exact h.loaded, by rw [hstore]; exact h.bounded⟩
  | task id a =>
      obtain ⟨e, task, e', he, htask, hact, hresource, rfl⟩ := act_task hstep
      exact ⟨h.sound.put he hresource ((h.sound.entries e he).act htask hact),
        settled_put closed_ofStatus h.sound h.settled he htask hact, h.loaded, h.bounded⟩
  | restart binds loadError =>
      obtain rfl := Option.some.inj hstep
      exact h.restart binds loadError

theorem apiSound (h : exposeApi.Reachable s) : s.ApiSound := by
  refine h.invariant (P := ApiSound) ?_ fun s a s' _ hs hstep => hs.step hstep
  rintro s rfl
  exact ⟨sound (.init rfl), settled_empty, .inl rfl, nofun⟩

end ExposeManager

end Aperio
