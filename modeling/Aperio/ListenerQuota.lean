import Aperio.ExposeManager

/-!
# Organizations within their quota

Staging checks one resource at a time, and what it finds holds of the whole
organization: a list fits a policy only when each of its specifications is
allowed, so either every resource of an organization is allowed or none is,
and then all of them are suspended and nothing runs for them.

`Settled` keeps that in every run. What is said of the entries of an
organization that is not allowed is a parameter: a drain takes an entry's
status away, and what is left depends on what may be drained.
-/

namespace Aperio

namespace ExposeManager

variable {s s' : ExposeManager}

/-! ## What is counted -/

/-- A resource that is off is counted while its entry drains. -/
theorem reserved_iff (hs : s.Sound) {r : ExposeResource} :
    s.reserved r = true ↔ ∃ e ∈ s.entries, e.resource = r ∧
      e.runtime.deadline.isSome = true ∧ e.running = true := by
  have hids : DistinctIds (s.entries.map (·.resource)) := by
    rw [hs.synced]
    exact hs.ids
  simp only [reserved, Option.any_eq_true, Bool.and_eq_true, beq_iff_eq]
  constructor
  · rintro ⟨e, hget, ⟨hsame, hdeadline⟩, hrunning⟩
    exact ⟨e, (getEntry_some hget).1, hsame, hdeadline, hrunning⟩
  · rintro ⟨e, he, rfl, hdeadline, hrunning⟩
    exact ⟨e, getEntry_of_mem hids he, ⟨rfl, hdeadline⟩, hrunning⟩

theorem quotaSpecs_eq (resources : List ExposeResource) :
    s.quotaSpecs resources =
      resources.map fun r => { r.spec with enabled := r.spec.enabled || s.reserved r } := by
  refine List.map_congr_left fun r _ => ?_
  split
  · next hcounted =>
      rw [Bool.and_eq_true] at hcounted
      rw [hcounted.2, Bool.or_true]
  · next hplain =>
      have hsame : (r.spec.enabled || s.reserved r) = r.spec.enabled := by
        cases hon : r.spec.enabled with
        | true => rfl
        | false => simpa [hon] using hplain
      rw [hsame]

theorem below_of_imp (spec : ExposeSpec) {x y : Bool} (h : x = true → y = true) :
    ExposeSpec.Below { spec with enabled := x } { spec with enabled := y } := by
  cases x with
  | true => exact .inl (by rw [h rfl])
  | false => exact .inr rfl

/-- Other rules in place of the rules, none of which counts for more. -/
theorem quotaSpecs_map_below {resources : List ExposeResource} {f : ExposeResource → ExposeResource}
    (h : ∀ r ∈ resources, (f r).spec = { r.spec with enabled := (f r).spec.enabled } ∧
      (((f r).spec.enabled || s'.reserved (f r)) = true →
        (r.spec.enabled || s.reserved r) = true)) :
    List.SublistForall₂ ExposeSpec.Below (s'.quotaSpecs (resources.map f))
      (s.quotaSpecs resources) := by
  rw [quotaSpecs_eq, quotaSpecs_eq, List.map_map]
  refine (List.sublistForall₂_iff).mpr ⟨_, ?_, List.Sublist.refl _⟩
  simp only [List.forall₂_map_left_iff, List.forall₂_map_right_iff]
  refine List.forall₂_same.mpr fun r hr => ?_
  obtain ⟨hspec, hcount⟩ := h r hr
  simp only [Function.comp_apply]
  rw [hspec]
  exact below_of_imp _ hcount

/-- Fewer reservations count for less. -/
theorem quotaSpecs_below {resources : List ExposeResource}
    (h : ∀ r ∈ resources, s'.reserved r = true → s.reserved r = true) :
    List.SublistForall₂ ExposeSpec.Below (s'.quotaSpecs resources) (s.quotaSpecs resources) := by
  have hmap : List.SublistForall₂ ExposeSpec.Below (s'.quotaSpecs (resources.map id))
      (s.quotaSpecs resources) := by
    refine quotaSpecs_map_below fun r hr => ⟨rfl, fun hcount => ?_⟩
    rw [Bool.or_eq_true] at hcount ⊢
    exact hcount.imp_right (h r hr)
  rwa [List.map_id] at hmap

theorem mem_quotaSpecs {resources : List ExposeResource} {r : ExposeResource}
    (hr : r ∈ resources) : ∃ spec ∈ s.quotaSpecs resources, spec.orgId = r.spec.orgId ∧
      ∀ policy : ExposePolicy, policy.allows spec = policy.allows r.spec := by
  refine ⟨_, List.mem_map_of_mem hr, ?_, fun policy => ?_⟩
  · dsimp only
    split
    · rfl
    · rfl
  · dsimp only
    split
    · rfl
    · rfl

/-- The resources of an organization are allowed. -/
def orgAllowed (s : ExposeManager) (document : ExposeDocument) (org : String) : Bool :=
  match document.policyOf org with
  | none => org == "master"
  | some policy => policy.fits (s.quotaSpecs document.resources)

theorem orgAllowed_of_policy {document : ExposeDocument} {org : String} {policy : ExposePolicy}
    (h : document.policyOf org = some policy) :
    s.orgAllowed document org = policy.fits (s.quotaSpecs document.resources) := by
  rw [orgAllowed, h]

/-- A resource is allowed when its organization's are. -/
theorem allowed_iff {document : ExposeDocument} {r : ExposeResource}
    (hr : r ∈ document.resources) :
    s.allowed r document = .ok () ↔ s.orgAllowed document r.spec.orgId = true := by
  simp only [allowed, orgAllowed]
  cases hpolicy : document.policyOf r.spec.orgId with
  | none =>
      by_cases hmaster : r.spec.orgId = "master"
      · simp [hmaster]
      · simp [hmaster]
  | some policy =>
      obtain ⟨-, horg⟩ := ExposeDocument.mem_of_policyOf hpolicy
      dsimp only
      constructor
      · intro h
        split at h
        · cases h
        · split at h
          · cases h
          · next hfits => simpa using hfits
      · intro hfits
        obtain ⟨spec, hspec, hown, hallows⟩ := mem_quotaSpecs (s := s) hr
        have hallowed := ExposePolicy.allows_of_fits hfits hspec (hown.trans horg.symm)
        rw [hallows] at hallowed
        simp [hallowed, hfits]

/-- Other resources under the same policies, none of which counts for more. -/
theorem orgAllowed_mono {document document' : ExposeDocument} {org : String}
    (hpolicy : document'.policyOf org = document.policyOf org)
    (hbelow : List.SublistForall₂ ExposeSpec.Below (s'.quotaSpecs document'.resources)
      (s.quotaSpecs document.resources))
    (h : s.orgAllowed document org = true) : s'.orgAllowed document' org = true := by
  simp only [orgAllowed, hpolicy] at h ⊢
  split
  · next hnone =>
      rw [hnone] at h
      exact h
  · next policy hsome =>
      rw [hsome] at h
      exact ExposePolicy.fits_mono hbelow h

/-- The policies and resources of an organization. -/
structure SameIn (org : String) (document document' : ExposeDocument) : Prop where
  resources : document'.resources.filter (·.spec.orgId == org) =
    document.resources.filter (·.spec.orgId == org)
  policies : document'.policies.filter (·.orgId == org) =
    document.policies.filter (·.orgId == org)

theorem SameIn.policyOf {org : String} {document document' : ExposeDocument}
    (h : SameIn org document document') : document'.policyOf org = document.policyOf org := by
  rw [ExposeDocument.policyOf, ExposeDocument.policyOf, ← List.head?_filter, h.policies,
    List.head?_filter]

theorem SameIn.mem {org : String} {document document' : ExposeDocument}
    (h : SameIn org document document') {r : ExposeResource} (hr : r ∈ document.resources)
    (horg : r.spec.orgId = org) : r ∈ document'.resources := by
  have hmem : r ∈ document.resources.filter (·.spec.orgId == org) :=
    List.mem_filter.mpr ⟨hr, beq_iff_eq.mpr horg⟩
  rw [← h.resources] at hmem
  exact (List.mem_filter.mp hmem).1

theorem quotaSpecs_filter (org : String) (resources : List ExposeResource) :
    (s.quotaSpecs resources).filter (·.orgId == org) =
      s.quotaSpecs (resources.filter (·.spec.orgId == org)) := by
  rw [quotaSpecs_eq, quotaSpecs_eq, List.filter_map]
  rfl

/-- What another organization does is not counted. -/
theorem orgAllowed_same {org : String} {document document' : ExposeDocument}
    (h : SameIn org document document') : s.orgAllowed document' org = s.orgAllowed document org := by
  simp only [orgAllowed, h.policyOf]
  split
  · rfl
  · next policy hpolicy =>
      obtain ⟨-, rfl⟩ := ExposeDocument.mem_of_policyOf hpolicy
      rw [← ExposePolicy.fits_own, quotaSpecs_filter, h.resources, ← quotaSpecs_filter,
        ExposePolicy.fits_own]

/-! ## What a change does to it -/

/-- A rule that is not allowed is shown as suspended, and nothing runs for
it. -/
theorem Rebuilt.suspended {document : ExposeDocument} {staged : Staged} {r : ExposeResource}
    {e : ExposeEntry} (h : s.Rebuilt document staged r e)
    (hrefused : s.allowed r document ≠ .ok ()) :
    e.runtime.status = .suspended ∧ e.running = false := by
  cases h with
  | kept _ _ allowed => exact absurd allowed hrefused
  | updated _ _ _ allowed => exact absurd allowed hrefused
  | spawned _ socket _ suspended =>
      refine ⟨suspended hrefused, Bool.eq_false_iff.mpr fun hrunning => ?_⟩
      exact hrefused (socket (running_spawnEntry hrunning)).2

/-- What drains afterwards drained before. -/
theorem Rebuilt.drains {document : ExposeDocument} {staged : Staged} {r : ExposeResource}
    {e : ExposeEntry} (hs : s.Sound) (h : s.Rebuilt document staged r e)
    (hdeadline : e.runtime.deadline.isSome = true) : e ∈ s.entries := by
  cases h with
  | kept mem => exact mem
  | @updated e mem id changed allowed on running accepting =>
      have hnone : (e.update r).runtime.deadline = none := by
        simp only [ExposeEntry.update]
        split
        · exact (hs.entries e mem).undrained accepting
        · exact (hs.entries e mem).undrained accepting
      rw [hnone] at hdeadline
      cases hdeadline
  | spawned => cases hdeadline

/-- The organization's resources are allowed, or nothing runs for them and
`Q` holds of their entries. -/
def Settled (Q : ExposeEntry → Prop) (s : ExposeManager) : Prop :=
  ∀ org, s.orgAllowed s.document org = true ∨
    ∀ e ∈ s.entries, e.resource.spec.orgId = org → Q e ∧ e.running = false

/-- `Q` holds of what is suspended, and is about the resource and the
status. -/
structure OfStatus (Q : ExposeEntry → Prop) : Prop where
  suspended : ∀ e : ExposeEntry, e.runtime.status = .suspended → Q e
  same : ∀ e e' : ExposeEntry, e'.resource = e.resource → e'.runtime.status = e.runtime.status →
    Q e → Q e'

variable {Q : ExposeEntry → Prop}

theorem settled_applied {document : ExposeDocument} {allowSuspension : Bool} {staged : Staged}
    {store : ExposeStore} {persist : Except String Unit} (hQ : OfStatus Q) (hs : s.Sound)
    (h : s.StageOk document allowSuspension staged)
    (hcommit : s.store.commit document persist = .ok store) :
    Settled Q (s.pruneRetired.applied store staged document.resources) := by
  have hsound := hs.applied h hcommit
  obtain ⟨rfl, -, -⟩ := ExposeStore.commit_ok hcommit
  intro org
  cases hallowed : s.orgAllowed document org with
  | true =>
      refine .inl (orgAllowed_mono rfl (quotaSpecs_below fun r hr hreserved => ?_) hallowed)
      obtain ⟨e, he, hsame, hdeadline, hrunning⟩ := (reserved_iff hsound).mp hreserved
      obtain ⟨r', -, hrebuilt⟩ := applied_entries h hs he
      exact (reserved_iff hs).mpr ⟨e, hrebuilt.drains hs hdeadline, hsame, hdeadline, hrunning⟩
  | false =>
      refine .inr fun e he horg => ?_
      obtain ⟨r, hr, hrebuilt⟩ := applied_entries h hs he
      rw [hrebuilt.resource] at horg
      have hrefused : s.allowed r document ≠ .ok () := by
        rw [Ne, allowed_iff hr, horg, hallowed]
        exact nofun
      obtain ⟨hstatus, hidle⟩ := hrebuilt.suspended hrefused
      exact ⟨hQ.suspended e hstatus, hidle⟩

theorem settled_replace (hQ : OfStatus Q) (hs : s.Sound) (hq : s.Settled Q) (binds : Binds)
    (persist : Except String Unit) (document : ExposeDocument) (allowSuspension : Bool) :
    (s.replace binds persist document allowSuspension).2.Settled Q := by
  rcases replace_cases (s := s) binds persist document allowSuspension with
    ⟨error, h | h⟩ | ⟨staged, store, hstage, hcommit, h⟩
  · rw [h]
    exact hq
  · rw [h]
    exact hq
  · rw [h]
    exact settled_applied hQ hs hstage hcommit

theorem settled_drain (hs : s.Sound) (hq : s.Settled Q) (persist : Except String Unit) (id : String)
    (deadline : Nat)
    (hdrain : ∀ e ∈ s.entries, ∀ saved, e.resource.id = id → saved.spec.enabled = false →
      e.running = false → Q e → Q (drained id saved deadline e)) :
    (s.drain persist id deadline).2.Settled Q := by
  have hsound := hs.drain persist id deadline
  rcases drain_cases (s := s) persist id deadline with
    ⟨error, h⟩ | ⟨e, row, store, he, hid, hrow, hrowid, hcommit, h⟩
  · rw [h]
    exact hq
  · rw [h] at hsound ⊢
    obtain ⟨rfl, -, -⟩ := ExposeStore.commit_ok hcommit
    have hown : ∀ x ∈ s.entries, x.resource.id = id → x.resource = row := by
      intro x hx hxid
      refine hs.ids.eq ?_ hrow (hxid.trans hrowid.symm)
      rw [← hs.synced]
      exact List.mem_map_of_mem hx
    intro org
    rcases hq org with hallowed | hall
    · refine .inl (orgAllowed_mono ?_ (quotaSpecs_map_below fun r hr => ?_) hallowed)
      · rfl
      by_cases hr' : r.id = id
      · obtain rfl := hs.ids.eq hr hrow (hr'.trans hrowid.symm)
        rw [if_pos hr']
        refine ⟨rfl, fun hcount => ?_⟩
        have hreserved := (Bool.false_or _).symm.trans hcount
        obtain ⟨x, hx, hsame, -, hrunning⟩ := (reserved_iff hsound).mp hreserved
        obtain ⟨y, hy, rfl⟩ := List.mem_map.mp hx
        -- the listener ran, so it was on or its drain was counted
        have hyid : y.resource.id = id := by
          by_contra hother
          rw [drained, if_neg hother] at hsame
          exact hother (hsame ▸ hrowid)
        have hyrow := hown y hy hyid
        rw [drained, if_pos hyid] at hrunning
        have hrunning : y.running = true := hrunning
        cases hon : r.spec.enabled with
        | true => rfl
        | false =>
            have hdeadline := (hs.entries y hy).draining (by rw [hyrow]; exact hon) hrunning
            exact (reserved_iff hs).mpr ⟨y, hy, hyrow, hdeadline, hrunning⟩
      · rw [if_neg hr']
        refine ⟨rfl, fun hcount => ?_⟩
        rw [Bool.or_eq_true] at hcount ⊢
        refine hcount.imp_right fun hreserved => ?_
        obtain ⟨x, hx, hsame, hdeadline, hrunning⟩ := (reserved_iff hsound).mp hreserved
        obtain ⟨y, hy, rfl⟩ := List.mem_map.mp hx
        rw [drained_resource] at hsame
        split at hsame
        · exact absurd (hsame ▸ hrowid : r.id = id) hr'
        · next hother =>
            rw [drained, if_neg hother] at hdeadline hrunning
            exact (reserved_iff hs).mpr ⟨y, hy, hsame, hdeadline, hrunning⟩
    · refine .inr fun x hx horg => ?_
      obtain ⟨y, hy, rfl⟩ := List.mem_map.mp hx
      by_cases hother : y.resource.id = id
      · have hye := hown y hy hother
        have horg : row.spec.orgId = org := by
          rw [drained_resource, if_pos hother] at horg
          exact horg
        obtain ⟨hqy, hidle⟩ := hall y hy (by rw [hye]; exact horg)
        refine ⟨hdrain y hy _ hother rfl hidle hqy, ?_⟩
        rw [drained, if_pos hother]
        exact hidle
      · rw [drained, if_neg hother] at horg ⊢
        exact hall y hy horg

theorem initialEntry_undrained (binds : Binds) (r : ExposeResource) :
    (s.initialEntry binds r).runtime.deadline = none := by
  simp only [initialEntry]
  split
  · rfl
  · split
    · split
      · rfl
      · rfl
    · rfl

theorem reserved_of_undrained (h : ∀ e ∈ s.entries, e.runtime.deadline = none)
    (r : ExposeResource) : s.reserved r = false := by
  refine Bool.eq_false_iff.mpr fun hreserved => ?_
  simp only [reserved, Option.any_eq_true, Bool.and_eq_true] at hreserved
  obtain ⟨e, hget, ⟨-, hdeadline⟩, -⟩ := hreserved
  rw [h e (getEntry_some hget).1] at hdeadline
  cases hdeadline

theorem quotaSpecs_of_undrained (h : ∀ e ∈ s.entries, e.runtime.deadline = none)
    (resources : List ExposeResource) : s.quotaSpecs resources = resources.map (·.spec) := by
  rw [quotaSpecs_eq]
  refine List.map_congr_left fun r _ => ?_
  rw [reserved_of_undrained h, Bool.or_false]

/-- Where nothing drains, only the document is counted. -/
theorem orgAllowed_of_undrained (h : ∀ e ∈ s.entries, e.runtime.deadline = none)
    (document : ExposeDocument) (org : String) :
    s.orgAllowed document org = ({} : ExposeManager).orgAllowed document org := by
  have hempty : ∀ e ∈ ({} : ExposeManager).entries, e.runtime.deadline = none :=
    fun e he => absurd he List.not_mem_nil
  simp only [orgAllowed, quotaSpecs_of_undrained h, quotaSpecs_of_undrained hempty]

theorem settled_restart (hQ : OfStatus Q) (binds : Binds) (loadError : Option String) :
    (s.restart binds loadError).Settled Q := by
  have hentries : ∀ e ∈ (s.restart binds loadError).entries, e.runtime.deadline = none ∧
      (({} : ExposeManager).orgAllowed (s.restart binds loadError).document
        e.resource.spec.orgId = false → e.runtime.status = .suspended ∧ e.running = false) := by
    refine restart_entries fun m hm hmP r hr => ⟨initialEntry_undrained binds r, fun hrefused => ?_⟩
    rw [initialEntry_resource, ← hm,
      ← orgAllowed_of_undrained (s := m) fun e he => (hmP e he).1] at hrefused
    have hnot : m.allowed r m.document ≠ .ok () := by
      rw [Ne, allowed_iff hr, hrefused]
      exact nofun
    simp only [initialEntry]
    split
    · exact ⟨rfl, rfl⟩
    · next hallowed => exact absurd hallowed hnot
  intro org
  rw [orgAllowed_of_undrained fun e he => (hentries e he).1]
  cases hallowed :
      ({} : ExposeManager).orgAllowed (s.restart binds loadError).document org with
  | true => exact .inl rfl
  | false =>
      refine .inr fun e he horg => ?_
      obtain ⟨hstatus, hidle⟩ := (hentries e he).2 (by rw [horg]; exact hallowed)
      exact ⟨hQ.suspended e hstatus, hidle⟩

/-- A task that is over does not touch the status. -/
theorem act_idle {e e' : ExposeEntry} {task : ListenerTask} {a : ListenerAct}
    (hidle : e.running = false) (htask : e.task = some task) (hact : e.act task a = some e') :
    e'.runtime.status = e.runtime.status ∧ e'.running = false := by
  have hphase : task.phase = .finished := by
    rw [ExposeEntry.running_of_task htask, Bool.not_eq_false'] at hidle
    cases hp : task.phase with
    | finished => rfl
    | _ =>
        rw [hp] at hidle
        cases hidle
  cases a with
  | closed session =>
      obtain rfl := Option.some.inj hact
      exact ⟨rfl, hidle⟩
  | _ =>
      simp only [ExposeEntry.act, hphase] at hact
      cases hact

theorem settled_put (hQ : OfStatus Q) (hs : s.Sound) (hq : s.Settled Q) {e e' : ExposeEntry}
    {task : ListenerTask} {a : ListenerAct} (he : e ∈ s.entries) (htask : e.task = some task)
    (hact : e.act task a = some e') : (s.put e').Settled Q := by
  have hcarries := ExposeEntry.act_carries htask hact
  have hsound : (s.put e').Sound :=
    hs.put he hcarries.resource ((hs.entries e he).act htask hact)
  intro org
  rcases hq org with hallowed | hall
  · refine .inl (orgAllowed_mono ?_ (quotaSpecs_below fun r _ hreserved => ?_) hallowed)
    · rfl
    obtain ⟨x, hx, hsame, hdeadline, hrunning⟩ := (reserved_iff hsound).mp hreserved
    rcases mem_put hx with rfl | hx
    · refine (reserved_iff hs).mpr ⟨e, he, ?_, ?_, hcarries.running hrunning⟩
      · exact hcarries.resource.symm.trans hsame
      · rw [← hcarries.deadline]
        exact hdeadline
    · exact (reserved_iff hs).mpr ⟨x, hx, hsame, hdeadline, hrunning⟩
  · refine .inr fun x hx horg => ?_
    rcases mem_put hx with rfl | hx
    · rw [hcarries.resource] at horg
      obtain ⟨hqe, hidle⟩ := hall e he horg
      obtain ⟨hsame, hidle'⟩ := act_idle hidle htask hact
      exact ⟨hQ.same e _ hcarries.resource hsame hqe, hidle'⟩
    · exact hall x hx horg

theorem settled_empty : ({} : ExposeManager).Settled Q :=
  fun _ => .inr fun _ he => absurd he List.not_mem_nil

end ExposeManager

end Aperio
