import Aperio.ExposeEdits
import Aperio.ListenerStates

/-!
# Tenants and their port allocations

What a request may do to the listeners of an organization, in any run of the
listener API. A caller with no role in an organization leaves it alone; an
organization with a port allocation stays inside it, and one without has
nothing open unless it is master.

A revision names what it was read at only while the resource stays: one that
is deleted and created again under its id starts over at revision 1. And a
request whose caller hangs up may be dropped with its change half applied, to
anybody's listeners: the runs are those in which none was.
-/

namespace Aperio

namespace ExposeManager

open ExposeApi

variable {env : ExposeEnv} {s s' : ExposeManager} {c : Caller} {request : ExposeRequest}

/-! ## What a caller with no role leaves alone -/

/-- The organization's resources, policies and running listeners are what they
were. -/
structure LeavesAlone (org : String) (s s' : ExposeManager) : Prop where
  document : SameIn org s.document s'.document
  running : ∀ e ∈ s.entries, e.resource.spec.orgId = org → e.running = true → e ∈ s'.entries

theorem LeavesAlone.refl (org : String) (s : ExposeManager) : LeavesAlone org s s :=
  ⟨⟨rfl, rfl⟩, fun _ he _ _ => he⟩

/-- What runs is allowed. -/
theorem Settled.allowed {Q : ExposeEntry → Prop} (hq : s.Settled Q) {e : ExposeEntry}
    (he : e ∈ s.entries) (hrun : e.running = true) :
    s.orgAllowed s.document e.resource.spec.orgId = true := by
  rcases hq e.resource.spec.orgId with hallowed | hall
  · exact hallowed
  · cases (hall e he rfl).2.symm.trans hrun

theorem leavesAlone_replace (hs : s.Sound) (hq : s.Settled Closed) {org : String}
    {document : ExposeDocument} (hsame : SameIn org s.document document) (binds : Binds)
    (persist : Except String Unit) (allowSuspension : Bool) :
    LeavesAlone org s (s.replace binds persist document allowSuspension).2 := by
  rcases replace_cases (s := s) binds persist document allowSuspension with
    ⟨error, h | h⟩ | ⟨staged, store, hstage, hcommit, h⟩
  · rw [h]
    exact .refl org s
  · rw [h]
    exact ⟨⟨rfl, rfl⟩, fun _ he _ _ => he⟩
  · rw [h]
    obtain ⟨rfl, -, -⟩ := ExposeStore.commit_ok hcommit
    refine ⟨⟨hsame.resources, hsame.policies⟩, fun e he horg hrun => ?_⟩
    have hmem : e.resource ∈ document.resources := by
      refine hsame.mem ?_ horg
      rw [← hs.synced]
      exact List.mem_map_of_mem he
    have hallowed : s.allowed e.resource document = .ok () := by
      rw [allowed_iff hmem, horg, orgAllowed_same hsame, ← horg]
      exact hq.allowed he hrun
    rcases keeps_applied hs hstage he hmem hallowed with hkept | ⟨-, hidle, -⟩
    · exact hkept
    · exact absurd hrun hidle

theorem leavesAlone_drain (hs : s.Sound) {org : String} {old : ExposeResource}
    (was : s.resource old.id = some old) (hother : old.spec.orgId ≠ org)
    (persist : Except String Unit) (deadline : Nat) :
    LeavesAlone org s (s.drain persist old.id deadline).2 := by
  rcases drain_cases (s := s) persist old.id deadline with
    ⟨error, h⟩ | ⟨e, row, store, -, -, hrow, hid, hcommit, h⟩
  · rw [h]
    exact .refl org s
  · rw [h]
    obtain rfl := hs.ids.eq hrow (mem_of_resource hs was) hid
    obtain ⟨rfl, -, -⟩ := ExposeStore.commit_ok hcommit
    refine ⟨⟨sameIn_map hs row (drainRow row) was rfl hother, rfl⟩,
      fun x hx horg _ => List.mem_map.mpr ⟨x, hx, ?_⟩⟩
    rw [drained, if_neg]
    intro hsame
    have hxrow : x.resource = row := by
      refine hs.ids.eq ?_ hrow hsame
      rw [← hs.synced]
      exact List.mem_map_of_mem hx
    exact hother (by rw [← hxrow]; exact horg)

theorem leavesAlone_disconnect (hs : s.Sound) {org : String} {old : ExposeResource}
    {sessionId : String} (was : s.resource old.id = some old) (hother : old.spec.orgId ≠ org)
    (h : s.disconnect old.id sessionId = some s') : LeavesAlone org s s' := by
  obtain ⟨hstore, f, hentries, hf⟩ := disconnect_ok h
  refine ⟨by rw [ExposeManager.document, ExposeManager.document, hstore]; exact ⟨rfl, rfl⟩,
    fun e he horg _ => ?_⟩
  rw [hentries]
  refine List.mem_map.mpr ⟨e, he, ?_⟩
  rcases hf e with hsame | ⟨hid, -⟩
  · exact hsame
  · have hrow : e.resource = old := by
      refine hs.ids.eq ?_ (mem_of_resource hs was) hid
      rw [← hs.synced]
      exact List.mem_map_of_mem he
    exact absurd (by rw [← hrow]; exact horg) hother

theorem respond_leavesAlone (hs : s.Sound) (hq : s.Settled Closed) {caller : Option Caller}
    {org : String} (hno : NoRole caller org) :
    LeavesAlone org s (s.respond env caller request).2 := by
  rcases respond_outcome hs env caller request with hsame | ⟨c, hc, h⟩
  · rw [hsame]
    exact .refl org s
  · have hno := hno c hc
    generalize (s.respond env caller request).2 = s' at h
    cases h with
    | same => exact .refl org s
    | replaced binds persist allowSuspension edit =>
        exact leavesAlone_replace hs hq (edit_sameIn hs edit hno) binds persist allowSuspension
    | drained persist old deadline was may =>
        exact leavesAlone_drain hs was (ne_of_permits may hno) persist deadline
    | disconnected old sessionId was may cut =>
        exact leavesAlone_disconnect hs was (ne_of_permits may hno) cut

/-! ## The allocation -/

/-- An entry that is on and not suspended. -/
def isOpen (e : ExposeEntry) : Bool :=
  e.resource.spec.enabled && e.runtime.status != .suspended

/-- What is open is allowed by the organization's policy, and together it
fits. Without one only master has anything open. -/
def WithinAllocation (s : ExposeManager) (org : String) : Prop :=
  match s.document.policyOf org with
  | some policy =>
    (∀ e ∈ s.entries, e.resource.spec.orgId = org → isOpen e = true →
      policy.allows e.resource.spec = true) ∧
    policy.fits ((s.entries.filter fun e => e.resource.spec.orgId == org && isOpen e).map
      (·.resource.spec)) = true
  | none => org = "master" ∨ ∀ e ∈ s.entries, e.resource.spec.orgId = org → isOpen e = false

theorem not_isOpen {e : ExposeEntry} (h : Closed e) : isOpen e = false := by
  cases hon : e.resource.spec.enabled with
  | true => rw [isOpen, hon, h hon, Bool.true_and, bne_self_eq_false]
  | false => rw [isOpen, hon, Bool.false_and]

/-- Some of the entries count for at most what all of them do. -/
theorem entries_below (hs : s.Sound) (p : ExposeEntry → Bool) :
    List.SublistForall₂ ExposeSpec.Below ((s.entries.filter p).map (·.resource.spec))
      (s.quotaSpecs s.document.resources) := by
  rw [quotaSpecs_eq, ← hs.synced, List.map_map]
  have hsub : (s.entries.filter p).Sublist s.entries := List.filter_sublist
  refine List.sublistForall₂_iff.mpr ⟨_, ?_, hsub.map _⟩
  simp only [List.forall₂_map_left_iff, List.forall₂_map_right_iff]
  refine List.forall₂_same.mpr fun e _ => ?_
  exact below_of_imp e.resource.spec fun hon => by rw [hon, Bool.true_or]

theorem ApiSound.withinAllocation (h : s.ApiSound) (org : String) : s.WithinAllocation org := by
  unfold WithinAllocation
  split
  · next policy hpolicy =>
      rcases h.settled org with hallowed | hall
      · rw [orgAllowed_of_policy hpolicy] at hallowed
        obtain ⟨-, horg⟩ := ExposeDocument.mem_of_policyOf hpolicy
        refine ⟨fun e he hown _ => ?_, ExposePolicy.fits_mono (entries_below h.sound _) hallowed⟩
        have hmem : e.resource ∈ s.document.resources := by
          rw [← h.sound.synced]
          exact List.mem_map_of_mem he
        obtain ⟨spec, hspec, hsame, hallows⟩ := mem_quotaSpecs (s := s) hmem
        rw [← hallows]
        exact ExposePolicy.allows_of_fits hallowed hspec (hsame.trans (hown.trans horg.symm))
      · have hnone : s.entries.filter (fun e => e.resource.spec.orgId == org && isOpen e) = [] := by
          refine List.filter_eq_nil_iff.mpr fun e he hopen => ?_
          rw [Bool.and_eq_true, beq_iff_eq] at hopen
          cases (not_isOpen (hall e he hopen.1).1).symm.trans hopen.2
        refine ⟨fun e he hown hopen => ?_, ?_⟩
        · cases (not_isOpen (hall e he hown).1).symm.trans hopen
        · rw [hnone]
          simp [ExposePolicy.fits, ExposePolicy.within]
  · next hnone =>
      rcases h.settled org with hallowed | hall
      · rw [orgAllowed, hnone] at hallowed
        exact .inl (beq_iff_eq.mp hallowed)
      · exact .inr fun e he hown => not_isOpen (hall e he hown).1

/-- What anyone but the server admin adds or changes, and leaves on, has a
policy that allows it. -/
theorem respond_bounded (hs : s.Sound) (env : ExposeEnv) (request : ExposeRequest)
    (hadmin : c.isServerAdmin = false) {r : ExposeResource}
    (hr : r ∈ (s.respond env (some c) request).2.document.resources)
    (hnew : r ∉ s.document.resources) (hon : r.spec.enabled = true) :
    ∃ policy, (s.respond env (some c) request).2.document.policyOf r.spec.orgId = some policy ∧
      policy.allows r.spec = true := by
  rcases respond_outcome hs env (some c) request with hsame | ⟨x, hx, h⟩
  · rw [hsame] at hr
    exact absurd hr hnew
  · obtain rfl := Option.some.inj hx
    generalize (s.respond env (some c) request).2 = s' at h hr ⊢
    cases h with
    | same => exact absurd hr hnew
    | @replaced document binds persist allowSuspension edit =>
        rcases replace_cases (s := s) binds persist document allowSuspension with
          ⟨error, heq | heq⟩ | ⟨staged, store, -, hcommit, heq⟩
        · rw [heq] at hr
          exact absurd hr hnew
        · rw [heq] at hr
          exact absurd hr hnew
        · rw [heq] at hr ⊢
          obtain ⟨rfl, -, -⟩ := ExposeStore.commit_ok hcommit
          rcases edit_row edit hr with hr | ⟨hbounded, -⟩
          · exact absurd hr hnew
          · have hwithin := hbounded hadmin hon
            simp only [withinAllocation, Option.any_eq_true, Bool.and_eq_true] at hwithin
            obtain ⟨policy, hpolicy, hallows, -⟩ := hwithin
            exact ⟨policy, hpolicy, hallows⟩
    | drained persist old deadline was may =>
        rcases drain_cases (s := s) persist old.id deadline with
          ⟨error, heq⟩ | ⟨e, row, store, -, -, -, -, hcommit, heq⟩
        · rw [heq] at hr
          exact absurd hr hnew
        · rw [heq] at hr
          obtain ⟨rfl, -, -⟩ := ExposeStore.commit_ok hcommit
          obtain ⟨x, hx, rfl⟩ := List.mem_map.mp hr
          split at hon
          · cases hon
          · next hother =>
              rw [if_neg hother] at hnew
              exact absurd hx hnew
    | disconnected old sessionId was may cut =>
        obtain ⟨hstore, -⟩ := disconnect_ok cut
        rw [ExposeManager.document, hstore] at hr
        exact absurd hr hnew

/-! ## Revisions -/

/-- A resource that stays is what it was, or has a later revision. -/
theorem row_kept (hs : s.Sound) {r r' : ExposeResource} (hr : s.resource r'.id = some r)
    (hr' : r' ∈ s.document.resources) : r' = r :=
  hs.ids.eq hr' (mem_of_resource hs hr) (id_of_resource hr).symm

theorem nextRevision_later {revision : Nat} (h : revision < 18446744073709551616)
    (hne : nextRevision revision ≠ 0) : revision < nextRevision revision := by
  unfold nextRevision at hne ⊢
  omega

theorem row_replaced (hs : s.Sound) {c : Caller} {document : ExposeDocument} {binds : Binds}
    {persist : Except String Unit} {allowSuspension : Bool} (edit : Edit s c document)
    {r r' : ExposeResource} (hr : s.resource r'.id = some r)
    (hbound : r.revision < 18446744073709551616)
    (hr' : r' ∈ (s.replace binds persist document allowSuspension).2.document.resources) :
    r' = r ∨ r.revision < r'.revision := by
  rcases replace_cases (s := s) binds persist document allowSuspension with
    ⟨error, heq | heq⟩ | ⟨staged, store, hstage, hcommit, heq⟩
  · rw [heq] at hr'
    exact .inl (row_kept hs hr hr')
  · rw [heq] at hr'
    exact .inl (row_kept hs hr hr')
  · rw [heq] at hr'
    obtain ⟨rfl, -, -⟩ := ExposeStore.commit_ok hcommit
    have hvalid := ExposeDocument.revision_ne_zero hstage.valid hr'
    rcases edit_row edit hr' with hr' | ⟨-, ⟨-, hfresh⟩ | ⟨old, hold, hnext⟩⟩
    · exact .inl (row_kept hs hr hr')
    · exact absurd (id_of_resource hr) (hfresh r (mem_of_resource hs hr))
    · obtain rfl := Option.some.inj (hr.symm.trans hold)
      rw [hnext] at hvalid ⊢
      exact .inr (nextRevision_later hbound hvalid)

theorem row_drained (hs : s.Sound) {persist : Except String Unit} {id : String} {deadline : Nat}
    {r r' : ExposeResource} (hr : s.resource r'.id = some r)
    (hbound : r.revision < 18446744073709551616)
    (hr' : r' ∈ (s.drain persist id deadline).2.document.resources) :
    r' = r ∨ r.revision < r'.revision := by
  rcases drain_cases (s := s) persist id deadline with
    ⟨error, heq⟩ | ⟨e, row, store, -, -, hrow, hid, hcommit, heq⟩
  · rw [heq] at hr'
    exact .inl (row_kept hs hr hr')
  · rw [heq] at hr'
    obtain ⟨rfl, hvalid, -⟩ := ExposeStore.commit_ok hcommit
    have hvalid := ExposeDocument.revision_ne_zero hvalid hr'
    obtain ⟨x, hx, rfl⟩ := List.mem_map.mp hr'
    by_cases hxid : x.id = id
    · rw [if_pos hxid] at hr hvalid ⊢
      have hr : s.resource row.id = some r := hr
      obtain rfl := row_kept hs hr hrow
      exact .inr (nextRevision_later hbound hvalid)
    · rw [if_neg hxid] at hr ⊢
      exact .inl (row_kept hs hr hx)

theorem row_step {a : ExposeApiAct} (h : s.ApiSound) (hstep : s.apiAct a = some s')
    {r r' : ExposeResource} (hr : s.resource r'.id = some r) (hr' : r' ∈ s'.document.resources) :
    r' = r ∨ r.revision < r'.revision := by
  have hbound := h.revisions (mem_of_resource h.sound hr)
  cases a with
  | request env caller request =>
      obtain rfl := Option.some.inj hstep
      rcases respond_outcome h.sound env caller request with
        hsame | ⟨c, -, houtcome⟩
      · rw [hsame] at hr'
        exact .inl (row_kept h.sound hr hr')
      · generalize (s.respond env caller request).2 = s' at houtcome hr'
        cases houtcome with
        | same => exact .inl (row_kept h.sound hr hr')
        | replaced binds persist allowSuspension edit =>
            exact row_replaced h.sound edit hr hbound hr'
        | drained persist old deadline was may =>
            exact row_drained h.sound hr hbound hr'
        | disconnected old sessionId was may cut =>
            obtain ⟨hstore, -⟩ := disconnect_ok cut
            rw [ExposeManager.document, hstore] at hr'
            exact .inl (row_kept h.sound hr hr')
  | task id a =>
      obtain ⟨e, task, e', he, htask, hact, hresource, rfl⟩ := act_task hstep
      exact .inl (row_kept h.sound hr hr')
  | restart binds loadError =>
      obtain rfl := Option.some.inj hstep
      rw [restart_document] at hr'
      split at hr'
      · cases hr'
      · rcases h.loaded with hloaded | hempty
        · rw [← hloaded] at hr'
          exact .inl (row_kept h.sound hr hr')
        · have hmem := mem_of_resource h.sound hr
          rw [hempty] at hmem
          cases hmem

/-- The runs from a state. -/
def runsFrom (s₀ : ExposeManager) : Sys ExposeManager ExposeApiAct :=
  { exposeApi with init := fun s => s = s₀ }

/-- The resource is there after the step. -/
def Stays (id : String) (_ : ExposeManager) (_ : ExposeApiAct) (s' : ExposeManager) : Prop :=
  (s'.resource id).isSome = true

/-- A resource that was not away since it was read, and has the revision it
was read at, is what was read. -/
theorem unchanged_since {s₀ : ExposeManager} {id : String} {r₀ r : ExposeResource}
    (h₀ : exposeApi.Reachable s₀) (hr₀ : s₀.resource id = some r₀)
    (h : ((runsFrom s₀).restrict (Stays id)).Reachable s) (hr : s.resource id = some r)
    (hrevision : r₀.revision = r.revision) : r₀ = r := by
  have hkept : s.ApiSound ∧ ∃ x, s.resource id = some x ∧ (x = r₀ ∨ r₀.revision < x.revision) := by
    refine h.invariant (P := fun s => s.ApiSound ∧
      ∃ x, s.resource id = some x ∧ (x = r₀ ∨ r₀.revision < x.revision)) ?_
      fun s a s' _ hs hstep => ?_
    · rintro s rfl
      exact ⟨apiSound h₀, r₀, hr₀, .inl rfl⟩
    · obtain ⟨hs, x, hx, hlater⟩ := hs
      obtain ⟨hstep, hstays⟩ := hstep
      have hs' := hs.step hstep
      obtain ⟨x', hx'⟩ := Option.isSome_iff_exists.mp hstays
      refine ⟨hs', x', hx', ?_⟩
      have hid := id_of_resource hx'
      rcases row_step hs hstep (by rw [hid]; exact hx) (mem_of_resource hs'.sound hx') with
        rfl | hlater'
      · exact hlater
      · rcases hlater with rfl | hlater
        · exact .inr hlater'
        · exact .inr (Nat.lt_trans hlater hlater')
  obtain ⟨-, x, hx, hlater⟩ := hkept
  obtain rfl := Option.some.inj (hx.symm.trans hr)
  rcases hlater with rfl | hlater
  · rfl
  · exact absurd hrevision (Nat.ne_of_lt hlater)

/-- An accepted change named the current revision. -/
theorem respond_names {caller : Option Caller} {reply : ExposeReply} {id : String} {revision : Nat}
    (h : (s.respond env caller request).1 = .ok reply)
    (hnames : request.names = some (id, revision)) :
    ∃ r, s.resource id = some r ∧ r.revision = revision := by
  cases caller with
  | none => cases h
  | some c =>
      simp only [respond] at h
      split at h
      · cases h
      · next plan hplan => exact plan_names hplan hnames

/-! ## Imports -/

/-- Whatever was there is there. -/
def KeepsAll (s s' : ExposeManager) : Prop :=
  (∀ r ∈ s.document.resources, r ∈ s'.document.resources) ∧
    ∀ policy ∈ s.document.policies, policy ∈ s'.document.policies

theorem KeepsAll.refl (s : ExposeManager) : s.KeepsAll s :=
  ⟨fun _ hr => hr, fun _ hpolicy => hpolicy⟩

theorem restore_keepsAll (caller : Option Caller) (backup : ExposeBackup)
    (orgMap : List (String × String)) (preview : Bool) (revision : Option Nat) :
    s.KeepsAll (s.respond env caller (.restore backup orgMap preview revision)).2 := by
  cases caller with
  | none => exact .refl s
  | some c =>
      simp only [respond]
      split
      · exact .refl s
      · next plan hplan =>
          rcases restore_ok hplan with ⟨reply, rfl⟩ | ⟨document, new, policies, reply, rfl,
            hresources, hpolicies, -⟩
          · exact .refl s
          · rw [perform_replace]
            rcases replace_cases (s := s) env.binds env.persist document false with
              ⟨error, heq | heq⟩ | ⟨staged, store, hstage, hcommit, heq⟩
            · rw [heq]
              exact .refl s
            · rw [heq]
              exact .refl s
            · rw [heq]
              obtain ⟨rfl, -, -⟩ := ExposeStore.commit_ok hcommit
              constructor
              · intro r hr
                show r ∈ document.resources
                rw [hresources]
                exact List.mem_append_left _ hr
              · intro policy hpolicy
                show policy ∈ document.policies
                rw [hpolicies]
                exact List.mem_append_left _ hpolicy

end ExposeManager

/-- A request that is dropped while its change is applied. -/
structure DroppedRequest where
  env : ExposeEnv
  caller : Option Caller
  request : ExposeRequest

/-- The listener API, with the requests whose callers hang up. -/
def listenerRuns : Sys ExposeManager (ExposeApiAct ⊕ DroppedRequest) :=
  exposeApi.extend fun s d s' => ∃ c document allowSuspension reply, d.caller = some c ∧
    s.plan d.env c d.request = .ok (.replace document allowSuspension reply) ∧
    s.Dropped d.env.binds d.env.persist document allowSuspension s'

/-- **Tenants stay inside their port allocation**, in every run in which no
request was dropped: a caller without a role in an organization leaves it
alone; after a request of anyone but the server admin what is open is allowed
and fits, and what it added or changed and left on has a policy that allows it;
who changes a resource names its current revision, so what changed since it was
read is not overwritten unless it was deleted meanwhile; and an import keeps
everything there is. -/
theorem tenants_stay_inside {s : ExposeManager}
    (h : (listenerRuns.restrict fun _ a _ => a.isLeft = true).Reachable s) :
    (∀ env caller request org, ExposeApi.NoRole caller org →
      ExposeManager.LeavesAlone org s (s.respond env caller request).2) ∧
    (∀ env c request reply s', s.respond env (some c) request = (.ok reply, s') →
      c.isServerAdmin = false →
        (∀ org, s'.WithinAllocation org) ∧
        ∀ r ∈ s'.document.resources, r ∉ s.document.resources → r.spec.enabled = true →
          ∃ policy, s'.document.policyOf r.spec.orgId = some policy ∧
            policy.allows r.spec = true) ∧
    (∀ env caller request reply id revision,
      (s.respond env caller request).1 = .ok reply → request.names = some (id, revision) →
        ∃ r, s.resource id = some r ∧ r.revision = revision ∧
          ∀ s₀ r₀, exposeApi.Reachable s₀ → s₀.resource id = some r₀ → r₀.revision = revision →
            ((ExposeManager.runsFrom s₀).restrict (ExposeManager.Stays id)).Reachable s →
              r₀ = r) ∧
    ∀ env caller backup orgMap preview revision,
      s.KeepsAll (s.respond env caller (.restore backup orgMap preview revision)).2 := by
  have hs := ExposeManager.apiSound (Sys.reachable_extend_iff.mp h)
  refine ⟨fun env caller request org hno =>
    ExposeManager.respond_leavesAlone hs.sound hs.settled hno,
    fun env c request reply s' heq hadmin => ?_,
    fun env caller request reply id revision hok hnames => ?_,
    fun env => ExposeManager.restore_keepsAll⟩
  · have hs' : (s.respond env (some c) request).2.ApiSound :=
      hs.step (a := .request env (some c) request) rfl
    have hbounded := fun r =>
      ExposeManager.respond_bounded hs.sound env request hadmin (r := r)
    rw [heq] at hs' hbounded
    exact ⟨hs'.withinAllocation, hbounded⟩
  · obtain ⟨r, hr, hrevision⟩ := ExposeManager.respond_names hok hnames
    refine ⟨r, hr, hrevision, fun s₀ r₀ h₀ hr₀ hrevision₀ hrun => ?_⟩
    exact ExposeManager.unchanged_since h₀ hr₀ hrun hr (hrevision₀.trans hrevision.symm)

/-! ## Master without an allocation -/

namespace ExposeManager

/-- An environment in which everything goes well. -/
def calm : ExposeEnv where
  isUuid _ := true
  freshId := "fresh"
  orgKnown _ := true
  incompatible _ := false
  probes _ := .ok ()
  binds _ := .ok ()
  persist := .ok ()
  now := 0

/-- The server admin. -/
def root : Caller :=
  ⟨.builtIn .admin, none⟩

/-- An operator of master. -/
def operator : Caller :=
  ⟨.key "ops" .operator .master, none⟩

/-- What acme may have open. -/
def acmePolicy : ExposePolicy :=
  { onlyOne with orgId := "acme", revision := 0 }

theorem runsFrom_request (s₀ : ExposeManager) (h : (runsFrom s₀).Reachable s) (c : Caller)
    (request : ExposeRequest) : (runsFrom s₀).Reachable (s.respond calm (some c) request).2 :=
  h.step (a := .request calm (some c) request) rfl

end ExposeManager

/-- An operator of master cannot switch acme's listener off. -/
theorem tenants_stay_inside_acme : ∃ s : ExposeManager, s.document.policies.length = 1 ∧
    s.document.resources.length = 1 ∧
    ExposeManager.LeavesAlone "acme" s (s.respond ExposeManager.calm (some ExposeManager.operator)
      (.operate "echo" 1 "disable" none none)).2 := by
  have h₁ := ExposeManager.runsFrom_request {} (.init rfl) ExposeManager.root
    (.setPolicy "acme" ExposeManager.acmePolicy)
  have h₂ := ExposeManager.runsFrom_request _ h₁ ExposeManager.root
    (.create (some "echo") { ExposeManager.echo.spec with orgId := "acme" })
  obtain ⟨halone, -⟩ := tenants_stay_inside (Sys.reachable_extend_iff.mpr h₂)
  refine ⟨_, rfl, rfl, halone ExposeManager.calm (some ExposeManager.operator) _ "acme" ?_⟩
  intro c hc
  obtain rfl := Option.some.inj hc
  rfl

/-- Master has no allocation and two listeners, and its operator switches one
off: the other stays open with no policy to allow it. -/
theorem master_unbounded :
    ∃ s c request reply s', listenerRuns.Reachable s ∧ c.isServerAdmin = false ∧
      s.respond ExposeManager.calm (some c) request = (.ok reply, s') ∧
      (∃ e ∈ s'.entries, e.resource.spec.orgId = "master" ∧ ExposeManager.isOpen e = true) ∧
      s'.document.policyOf "master" = none := by
  have h₁ := ExposeManager.runsFrom_request {} (.init rfl) ExposeManager.root
    (.create (some "echo") ExposeManager.echo.spec)
  have h₂ := ExposeManager.runsFrom_request _ h₁ ExposeManager.root
    (.create (some "chat") ExposeManager.chat.spec)
  have hs : listenerRuns.Reachable _ := (Sys.reachable_extend_iff.mpr h₂).of_restrict
  exact ⟨_, ExposeManager.operator, .operate "echo" 1 "disable" none none, _, _, hs, rfl, rfl,
    ⟨_, List.mem_cons_of_mem _ (List.mem_singleton.mpr rfl), rfl, rfl⟩, rfl⟩

end Aperio
