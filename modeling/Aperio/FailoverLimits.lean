import Aperio.Redispatch

/-!
# What a failover keeps of a client's limits

The body limit and the cache flag of a request are taken once, from its first
selection; the loop then replaces the selection. So a client that is failed
over to is handed a body the first one allowed, and its answer is stored
because the first one let its answers be stored.
-/

namespace Aperio

/-! ## The limits -/

/-- The bytes of the body a dispatch has carried so far. -/
def AttemptState.carried (s : AttemptState) (d : Handed) : Nat :=
  d.buffered + (s.pump.map fun p => if p.id = d.id then p.total else 0).getD 0

namespace Attempt

structure LimitsKept (A : Attempt) (s : AttemptState) : Prop where
  bodies : ∀ d ∈ s.dispatches,
    s.carried d ≤ A.limitOf d.given ∧ s.carried d ≤ A.body.maxBodySize
  stored : ∀ w ∈ s.writes, w.1.service.cache = true

/-- Whoever is picked next allows the body that was read, and the cache if
the first service did. -/
def limitsCarry (A : Attempt) (s : AttemptState) (a : AttemptAct) (_ : AttemptState) : Prop :=
  ∀ next, a = .redispatch next → s.bytes.length ≤ A.limitOf next ∧
    (A.cacheEligible = true → next.service.cache = true)

variable (A : Attempt)

theorem limitOf_first : A.limitOf A.first = A.body.limit := by
  rw [limitOf, ← A.body_declared]

theorem limitOf_le (a : Assignment) : A.limitOf a ≤ A.body.maxBodySize := by
  unfold limitOf RequestBody.limit
  cases a.service.maxRequestBody with
  | none => exact le_refl _
  | some declared => exact min_le_right _ _

theorem first_cache (h : A.cacheEligible = true) : A.first.service.cache = true := by
  simp only [Dispatch.cacheEligible, Bool.and_eq_true] at h
  rw [← A.client_cache]
  exact h.1.1.2

end Attempt

section Steps

variable {A : Attempt} {s s' : AttemptState} {a : AttemptAct}

/-- A streamed request is never repeated. -/
theorem Attempt.not_streamed (h : A.repeatable = true) : A.streamRequest = false := by
  simp only [repeatable, Bool.and_eq_true, Bool.not_eq_true'] at h
  exact h.1.1

/-- Only an await hears. -/
theorem AttemptPhase.of_hear {phase quiet : AttemptPhase} {id : String} {channel : Channel}
    (h : phase.hear id channel = quiet) (hquiet : quiet ≠ .awaiting id channel) :
    phase = quiet := by
  rw [hear] at h
  split at h
  · exact absurd h.symm hquiet
  · exact h

/-! ## The body -/

/-- A buffered body is within the limit of whoever is selected; a streamed one
stays with the first client, whose limit the pump keeps. -/
structure AttemptState.WithinLimits (A : Attempt) (s : AttemptState) : Prop where
  picked : s.phase = .picked → s.selected = A.first
  room : s.bytes.length ≤ A.limitOf s.selected
  handed : ∀ d ∈ s.dispatches, d.buffered ≤ A.limitOf d.given
  streamed : A.streamRequest = true → s.bytes = [] ∧ s.selected = A.first ∧
    (∀ requirement, s.phase ≠ .waiting requirement) ∧
    ∀ d ∈ s.dispatches, d.given = A.first ∧ d.buffered = 0
  pumped : ∀ p, s.pump = some p → A.streamRequest = true ∧ p.total ≤ A.body.limit

/-- A step that selects nobody else, reads nothing and hands nothing over. -/
theorem AttemptState.WithinLimits.of (h : s.WithinLimits A) (hselected : s'.selected = s.selected)
    (hbytes : s'.bytes = s.bytes) (hpump : s'.pump = s.pump)
    (hdispatches : ∃ outcome, s'.dispatches = noteOutcome outcome s.dispatches)
    (hpicked : s'.phase = .picked → s.phase = .picked)
    (hwaiting : A.streamRequest = true → ∀ requirement, s'.phase = .waiting requirement →
      s.phase = .waiting requirement) : s'.WithinLimits A := by
  obtain ⟨outcome, hnoted⟩ := hdispatches
  refine ⟨fun hp => hselected.trans (h.picked (hpicked hp)), ?_, fun d hd => ?_,
    fun hstream => ?_, ?_⟩
  · rw [hselected, hbytes]
    exact h.room
  · rw [hnoted] at hd
    obtain ⟨d', hd', -, hgiven, hbuffered, -⟩ := mem_noteOutcome hd
    rw [hgiven, hbuffered]
    exact h.handed d' hd'
  · obtain ⟨hempty, hfirst, hhere, hall⟩ := h.streamed hstream
    refine ⟨hbytes.trans hempty, hselected.trans hfirst,
      fun requirement hw => hhere requirement (hwaiting hstream requirement hw), fun d hd => ?_⟩
    rw [hnoted] at hd
    obtain ⟨d', hd', -, hgiven, hbuffered, -⟩ := mem_noteOutcome hd
    rw [hgiven, hbuffered]
    exact hall d' hd'
  · rw [hpump]
    exact h.pumped

theorem noteOutcome_none (l : List Handed) : noteOutcome none l = l := by
  cases l <;> rfl

/-- A dispatch carries the body that was read. -/
theorem AttemptState.WithinLimits.register (h : s.WithinLimits A) {d : Handed}
    (hgiven : d.given = s.selected) (hbuffered : d.buffered = s.bytes.length)
    (hselected : s'.selected = s.selected) (hbytes : s'.bytes = s.bytes)
    (hdispatches : s'.dispatches = d :: s.dispatches)
    (hpicked : s'.phase ≠ .picked) (hwaiting : ∀ requirement, s'.phase ≠ .waiting requirement)
    (hpump : ∀ p, s'.pump = some p → A.streamRequest = true ∧ p.total ≤ A.body.limit) :
    s'.WithinLimits A := by
  refine ⟨fun hp => absurd hp hpicked, ?_, fun own hown => ?_, fun hstream => ?_, hpump⟩
  · rw [hselected, hbytes]
    exact h.room
  · rw [hdispatches] at hown
    rcases List.mem_cons.mp hown with rfl | hold
    · rw [hgiven, hbuffered]
      exact h.room
    · exact h.handed own hold
  · obtain ⟨hempty, hfirst, -, hall⟩ := h.streamed hstream
    refine ⟨hbytes.trans hempty, hselected.trans hfirst, hwaiting, fun own hown => ?_⟩
    rw [hdispatches] at hown
    rcases List.mem_cons.mp hown with rfl | hold
    · exact ⟨hgiven.trans hfirst, by rw [hbuffered, hempty, List.length_nil]⟩
    · exact hall own hold

/-- Only a request that may be repeated is dispatched again. -/
theorem Attempt.Redispatches.not_streamed {next : Assignment} {jumps : Nat}
    {outcome : Option DispatchOutcome} (hway : A.Redispatches s next jumps outcome)
    (h : s.WithinLimits A) : A.streamRequest = false := by
  cases hway with
  | retry hphase hretry => exact Attempt.not_streamed (Attempt.retries_jump hretry).1
  | failover hphase hcan => exact Attempt.not_streamed (Attempt.canFailover_jump hcan).1
  | @found requirement next strategy cursor hphase =>
      by_contra hstream
      obtain ⟨-, -, hhere, -⟩ := h.streamed (by simpa using hstream)
      exact hhere requirement hphase

theorem Attempt.Step.withinLimits (hstep : A.Step s a s') (hcond : A.limitsCarry s a s')
    (h : s.WithinLimits A) : s'.WithinLimits A := by
  have hsame : ∃ outcome, s.dispatches = noteOutcome outcome s.dispatches :=
    ⟨none, (noteOutcome_none _).symm⟩
  have htaken : ∀ id answer, (s.take id answer).WithinLimits A := fun id answer =>
    h.of rfl rfl rfl hsame (fun hp => AttemptPhase.of_hear hp nofun)
      fun _ _ hw => AttemptPhase.of_hear hw nofun
  cases hstep with
  | others => exact h.of rfl rfl rfl hsame id fun _ _ hw => hw
  | registered => exact h.of rfl rfl rfl hsame id fun _ _ hw => hw
  | @taken id answer => exact htaken id answer
  | @fetched id answer =>
      exact (htaken id answer).of rfl rfl rfl hsame (fun hp => hp) fun _ _ hw => hw
  | @swept id =>
      exact (htaken id none).of rfl rfl rfl hsame (fun hp => hp) fun _ _ hw => hw
  | @pumped p sent hpump hrunning =>
      obtain ⟨hstream, htotal⟩ := h.pumped p hpump
      rcases s.pumpItem_cases A.body.limit p sent with ⟨q, -, hlimit, hq⟩ | hq
      · rw [hq]
        exact ⟨h.picked, h.room, h.handed, h.streamed, fun _ hp =>
          ⟨hstream, Option.some.inj hp ▸ hlimit htotal⟩⟩
      · have hdropped := htaken p.id none
        rw [hq]
        exact ⟨hdropped.picked, hdropped.room, hdropped.handed, hdropped.streamed, fun _ hp =>
          ⟨hstream, Option.some.inj hp ▸ htotal⟩⟩
  | refreshed => exact h.of rfl rfl rfl hsame id fun _ _ hw => hw
  | hit => exact h.of rfl rfl rfl ⟨none, rfl⟩ nofun nofun
  | @buffered bytes hphase hwhole hlength hbytes =>
      refine ⟨nofun, ?_, h.handed, fun hstream => ?_, h.pumped⟩
      · rw [h.picked hphase, A.limitOf_first]
        exact RequestBody.whole_length hbytes
      · rw [hwhole] at hstream
        cases hstream
  | streamed => exact h.of rfl rfl rfl hsame nofun nofun
  | @handed id hphase hfresh =>
      refine h.register rfl rfl rfl rfl rfl nofun nofun fun p hp => ?_
      rcases Option.or_eq_some_iff.mp hp with hold | ⟨-, hnew⟩
      · exact h.pumped p hold
      · obtain ⟨hstream, heq⟩ := Option.ite_none_right_eq_some.mp hnew
        obtain rfl := Option.some.inj heq
        exact ⟨hstream, Nat.zero_le _⟩
  | unsent => exact h.register rfl rfl rfl rfl rfl nofun nofun h.pumped
  | unserialized => exact h.register rfl rfl rfl rfl rfl nofun nofun h.pumped
  | lose => exact h.of rfl rfl rfl ⟨_, rfl⟩ nofun nofun
  | wait hphase hcan =>
      refine h.of rfl rfl rfl hsame nofun fun hstream => ?_
      rw [Attempt.not_streamed (Attempt.canFailover_jump hcan).1] at hstream
      cases hstream
  | poll => exact h.of rfl rfl rfl hsame id fun _ _ hw => hw
  | @redispatch next jumps outcome contended hway =>
      have hno := hway.not_streamed h
      have hnoted : (s.note outcome).WithinLimits A :=
        h.of rfl rfl rfl ⟨outcome, rfl⟩ (fun hp => hp) fun _ _ hw => hw
      refine ⟨nofun, (hcond next rfl).1, hnoted.handed, fun hstream => ?_, h.pumped⟩
      rw [hno] at hstream
      cases hstream
  | leave => exact h.of rfl rfl rfl ⟨_, rfl⟩ nofun nofun
  | hangUp => exact h.of rfl rfl rfl hsame nofun nofun

/-- What a dispatch has carried. -/
theorem AttemptState.WithinLimits.carried_le (h : s.WithinLimits A) {d : Handed}
    (hd : d ∈ s.dispatches) : s.carried d ≤ A.limitOf d.given := by
  have hbuffered := h.handed d hd
  unfold AttemptState.carried
  cases hpump : s.pump with
  | none => exact hbuffered
  | some p =>
      obtain ⟨hstream, htotal⟩ := h.pumped p hpump
      obtain ⟨-, -, -, hall⟩ := h.streamed hstream
      obtain ⟨hgiven, hzero⟩ := hall d hd
      rw [hgiven, A.limitOf_first, hzero, Option.map_some, Option.getD_some]
      split <;> omega

/-! ## The cache -/

/-- Where the request may be stored, whoever is selected lets it be. -/
structure AttemptState.OptedIn (A : Attempt) (s : AttemptState) : Prop where
  selected : A.cacheEligible = true → s.selected.service.cache = true
  refreshing : s.refreshing = true → A.cacheEligible = true
  writes : ∀ w ∈ s.writes, w.1.service.cache = true

/-- Nothing is stored of a request that is not eligible. -/
theorem AttemptState.eligible_of_stores {reply : AttemptReply} {w : Assignment × CacheWrite}
    (h : w ∈ s.stores A reply) : A.cacheEligible = true ∧ w.1 = s.selected := by
  cases reply with
  | relayed res =>
      obtain ⟨write, hwrite, rfl⟩ := Option.map_eq_some_iff.mp (Option.mem_toList.mp h)
      refine ⟨?_, rfl⟩
      by_contra hno
      simp [dispatchWrites, hno] at hwrite
  | _ => cases h

theorem Attempt.Step.optedIn (hstep : A.Step s a s') (hcond : A.limitsCarry s a s')
    (h : s.OptedIn A) : s'.OptedIn A := by
  cases hstep with
  | @pumped p sent =>
      rcases s.pumpItem_cases A.body.limit p sent with ⟨q, -, -, hq⟩ | hq
      · rw [hq]
        exact ⟨h.selected, h.refreshing, h.writes⟩
      · rw [hq]
        exact ⟨h.selected, h.refreshing, h.writes⟩
  | refreshed hrefresh =>
      refine ⟨h.selected, nofun, fun w hw => ?_⟩
      rcases List.mem_append.mp hw with hnew | hold
      · obtain ⟨write, -, rfl⟩ := Option.map_eq_some_iff.mp (Option.mem_toList.mp hnew)
        exact A.first_cache (h.refreshing hrefresh)
      · exact h.writes w hold
  | hit hphase helig => exact ⟨h.selected, fun _ => helig, h.writes⟩
  | redispatch => exact ⟨(hcond _ rfl).2, h.refreshing, h.writes⟩
  | leave =>
      refine ⟨h.selected, h.refreshing, fun w hw => ?_⟩
      rcases List.mem_append.mp hw with hnew | hold
      · obtain ⟨helig, hgiven⟩ := AttemptState.eligible_of_stores hnew
        rw [hgiven]
        exact h.selected helig
      · exact h.writes w hold
  | _ => exact ⟨h.selected, h.refreshing, h.writes⟩

end Steps

/-! ## Every run -/

/-- **Where the limits carry over, a failover keeps them.** -/
theorem limits_kept {A : Attempt} {s : AttemptState}
    (hs : (A.sys.restrict A.limitsCarry).Reachable s) : A.LimitsKept s := by
  obtain ⟨hwithin, hopted⟩ : s.WithinLimits A ∧ s.OptedIn A := by
    refine hs.invariant (P := fun s => s.WithinLimits A ∧ s.OptedIn A) ?_ ?_
    · rintro s ⟨hs, -⟩
      have hselected : s.selected = A.first := by rw [hs]
      have hphase : s.phase = .picked := by rw [hs]
      have hbytes : s.bytes = [] := by rw [hs]
      have hdispatches : s.dispatches = [] := by rw [hs]
      have hpump : s.pump = none := by rw [hs]
      have hrefresh : s.refreshing = false := by rw [hs]
      have hwrites : s.writes = [] := by rw [hs]
      refine ⟨⟨?_, ?_, ?_, ?_, ?_⟩, ⟨?_, ?_, ?_⟩⟩ <;>
        simp +contextual [hselected, hphase, hbytes, hdispatches, hpump, hrefresh, hwrites,
          A.first_cache]
    · rintro s a s' - ⟨hwithin, hopted⟩ ⟨hstep, hcond⟩
      exact ⟨hstep.withinLimits hcond hwithin, hstep.optedIn hcond hopted⟩
  refine ⟨fun d hd => ?_, hopted.writes⟩
  have hcarried := hwithin.carried_le hd
  exact ⟨hcarried, hcarried.trans (A.limitOf_le d.given)⟩

/-- Another service without a limit, and cached too. -/
theorem limits_kept_page : ∃ s, asksTwice.LimitsKept s ∧
    s.dispatches.map (·.buffered) = [5, 5] ∧ s.writes.length = 1 := by
  have hpick : asksTwice.pick (afterLoss secondService)
      (asksTwice.repick none none .roundRobin 0) = .selected ⟨"b", some "v1", none⟩ := by decide
  have hs : (asksTwice.sys.restrict asksTwice.limitsCarry).Reachable
      (relaysPage secondService) := by
    refine reachable_relaysPage
      ⟨hpick, carriesService secondService, rfl, List.mem_singleton_self _, rfl⟩ rfl ?_
    intro s a s' hgiven next ha
    obtain ⟨rfl, hbytes⟩ := hgiven next ha
    rw [hbytes]
    exact ⟨by decide, fun _ => rfl⟩
  exact ⟨_, limits_kept hs, rfl, rfl⟩

/-- A service that takes three bytes and declared no cache. -/
def smallService : ServiceState where
  catchAll := true
  serviceName := some "v1"
  maxRequestBody := some 3

/-- It is handed five bytes, and its answer is stored. -/
theorem failover_crosses_limits : ∃ s, asksTwice.sys.Reachable s ∧ ¬asksTwice.LimitsKept s ∧
    (∃ d ∈ s.dispatches, asksTwice.limitOf d.given < s.carried d) ∧
    ∃ w ∈ s.writes, w.1.service.cache = false := by
  have hpick : asksTwice.pick (afterLoss smallService)
      (asksTwice.repick none none .roundRobin 0) = .selected ⟨"b", some "v1", none⟩ := by decide
  have hs : (asksTwice.sys.restrict fun _ _ _ => True).Reachable (relaysPage smallService) :=
    reachable_relaysPage
      ⟨hpick, carriesService smallService, rfl, List.mem_singleton_self _, rfl⟩ rfl
      fun _ _ _ _ => trivial
  have hbody : asksTwice.limitOf (secondPick smallService) <
      (relaysPage smallService).carried
        ⟨"r-2", secondPick smallService, 5, some (.answered freshPage)⟩ := by decide
  refine ⟨_, hs.of_restrict, fun hkept => ?_, ⟨_, List.mem_cons_self, hbody⟩,
    ⟨_, List.mem_cons_self, rfl⟩⟩
  have hle := (hkept.bodies _ List.mem_cons_self).1
  exact absurd hle (Nat.not_le_of_lt hbody)

end Aperio
