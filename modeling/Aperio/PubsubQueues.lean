import Aperio.PubsubGrants

/-!
# What a queue keeps

The queue of a process holds the latest of what was recorded for it, in that
order, and a message goes from it for one of three reasons: it was
acknowledged, a sweep found it too old, or the queue was full of newer ones.
A publish is recorded once and under an id of its own, so what was
acknowledged does not come back, and no sweep that starts later can find it.

`queue_retention` is over every interleaving of the lock regions.
-/

namespace Aperio

/-- The ids in a queue, and the ids recorded in it so far. -/
def MsgState.ids (s : MsgState) (key : PendingKey) : List String :=
  (s.pending key).map (·.id)

def MsgState.recordedIds (s : MsgState) (key : PendingKey) : List String :=
  (s.recorded key).map Prod.fst

/-! ## One region at a time -/

theorem recordDelivered_apply {org : Option String} {message : Pending}
    {pending : PendingKey → List Pending} {deliveredTo : List String} (hnodup : deliveredTo.Nodup)
    (key : PendingKey) :
    recordDelivered org message pending deliveredTo key =
      if key.1 = org ∧ key.2 ∈ deliveredTo then recordPending (pending key) message
      else pending key := by
  unfold recordDelivered
  induction deliveredTo generalizing pending with
  | nil => simp
  | cons p ps ih =>
      obtain ⟨hp, hps⟩ := List.nodup_cons.mp hnodup
      rw [List.foldl_cons, ih hps]
      by_cases hkey : key = (org, p)
      · subst hkey
        simp [hp]
      · rw [Function.update_of_ne hkey]
        have hiff : (key.1 = org ∧ key.2 ∈ p :: ps) ↔ (key.1 = org ∧ key.2 ∈ ps) := by
          rw [List.mem_cons]
          refine and_congr_right fun horg => or_iff_right fun hp => hkey ?_
          exact Prod.ext horg hp
        simp only [hiff]

theorem length_recordPending {queue : List Pending} (h : queue.length ≤ maxPendingPerProcess)
    (message : Pending) : (recordPending queue message).length ≤ maxPendingPerProcess := by
  unfold recordPending
  have hpos : 0 < maxPendingPerProcess := by decide
  split
  · rw [List.length_append, List.length_tail, List.length_singleton]
    omega
  · rw [List.length_append, List.length_singleton]
    omega

theorem ids_recordPending {queue : List Pending} {message : Pending} {recorded : List String}
    (h : (queue.map (·.id)).Sublist recorded) :
    ((recordPending queue message).map (·.id)).Sublist (recorded ++ [message.id]) := by
  unfold recordPending
  rw [List.map_append]
  refine List.Sublist.append ?_ (List.Sublist.refl _)
  split
  · rw [List.map_tail]
    exact (List.tail_sublist _).trans h
  · exact h

theorem ids_markSent (queue : List Pending) (now : Nat) :
    (markSent queue now).map (·.id) = queue.map (·.id) := by
  rw [markSent, List.map_map]
  refine List.map_congr_left fun m _ => ?_
  simp only [Function.comp]
  split
  · rfl
  · rfl

theorem length_markSent (queue : List Pending) (now : Nat) :
    (markSent queue now).length = queue.length :=
  List.length_map _

/-! ## What a step leaves alone -/

section Frame

variable {s s' : MsgState} {act : MsgAct}

theorem MsgState.Step.steps_eq (h : Step s act s') : s'.steps = s.steps + 1 := by
  cases h <;> rfl

/-- Nothing is acknowledged in retrospect. -/
theorem MsgState.Step.mem_acked (h : Step s act s') {x : PendingKey × String × Nat}
    (hx : x ∈ s'.acked) : x ∈ s.acked ∨ x.2.2 = s.steps := by
  cases h with
  | clear htask =>
      simp only [MsgState.noteAcked] at hx
      split at hx
      · rcases List.mem_cons.mp hx with rfl | hold
        · exact .inr rfl
        · exact .inl hold
      · exact .inl hx
  | _ => exact .inl hx

end Frame

/-! ## Publishes under way -/

/-- The message a publish that is not yet recorded is about. -/
def MsgTask.publishes : MsgTask → Option String
  | .sending _ frame _ _ => some frame.id
  | .stamped _ frame _ _ => some frame.id
  | _ => none

/-- Every process is picked once. -/
def MsgTask.PicksOnce : MsgTask → Prop
  | .sending _ _ targets deliveredTo => (deliveredTo ++ targets.map (·.process)).Nodup
  | .stamped _ _ deliveredTo _ => deliveredTo.Nodup
  | _ => True

theorem nodup_selectTargets {org : Option String} {topic : String} {seen : List String}
    {order : List (String × MsgHandle)} :
    ((selectTargets org topic seen order).map (·.process)).Nodup ∧
      ∀ t ∈ selectTargets org topic seen order, t.process ∉ seen := by
  induction order generalizing seen with
  | nil => exact ⟨List.nodup_nil, fun _ ht => (by cases ht)⟩
  | cons c order ih =>
      obtain ⟨connectionId, handle⟩ := c
      rw [selectTargets]
      split
      · exact ih
      · split
        · exact ih
        · split
          · exact ih
          · rename_i hseen
            obtain ⟨hnodup, hnot⟩ := @ih (handle.process connectionId :: seen)
            refine ⟨List.nodup_cons.mpr ⟨?_, hnodup⟩, List.forall_mem_cons.mpr ⟨hseen, ?_⟩⟩
            · intro hmem
              obtain ⟨t, ht, hp⟩ := List.mem_map.mp hmem
              exact hnot t ht (hp ▸ List.mem_cons_self)
            · exact fun t ht hmem => hnot t ht (List.mem_cons_of_mem _ hmem)

namespace MsgState

/-- Where a message is: under way in one publish and not recorded yet, or
recorded in the order of its step. -/
structure Ledger (s : MsgState) : Prop where
  short : ∀ key, (s.pending key).length ≤ maxPendingPerProcess
  order : ∀ key, (s.ids key).Sublist (s.recordedIds key)
  once : ∀ key, (s.recordedIds key).Nodup
  timed : ∀ key, (s.recorded key).Pairwise fun x y => x.2 < y.2
  began : ∀ key, ∀ x ∈ s.recorded key, x.2 < s.steps ∧ ∃ b, s.began x.1 = some b ∧ b < x.2
  publishing : ∀ r task id, s.tasks r = some task → task.publishes = some id →
    (∃ b, s.began id = some b ∧ b < s.steps) ∧ ∀ key, id ∉ s.recordedIds key
  owner : ∀ r r' task task' id, s.tasks r = some task → s.tasks r' = some task' →
    task.publishes = some id → task'.publishes = some id → r = r'
  picks : ∀ r task, s.tasks r = some task → task.PicksOnce

variable {s s' : MsgState} {act : MsgAct}

/-- The tasks after a step: each picks a process once, and publishes what it
published before. -/
def SamePublishes (s s' : MsgState) : Prop :=
  ∀ r task', s'.tasks r = some task' → task'.PicksOnce ∧
    ∀ id, task'.publishes = some id → ∃ task, s.tasks r = some task ∧ task.publishes = some id

theorem Ledger.same_of_update (h : s.Ledger) {r : Nat} {new : Option MsgTask}
    (htasks : s'.tasks = Function.update s.tasks r new)
    (hnew : ∀ t, new = some t → t.PicksOnce ∧
      ∀ id, t.publishes = some id → ∃ task, s.tasks r = some task ∧ task.publishes = some id) :
    SamePublishes s s' := by
  intro r' task' htask'
  rw [htasks] at htask'
  by_cases hr : r' = r
  · subst hr
    rw [Function.update_self] at htask'
    exact hnew task' htask'
  · rw [Function.update_of_ne hr] at htask'
    exact ⟨h.picks r' task' htask', fun id hid => ⟨task', htask', hid⟩⟩

/-- Steps that begin and record nothing, and drop from the queues at most. -/
theorem Ledger.keep (h : s.Ledger)
    (hpending : ∀ key, (s'.pending key).length ≤ (s.pending key).length ∧
      (s'.ids key).Sublist (s.ids key))
    (hrecorded : s'.recorded = s.recorded) (hbegan : s'.began = s.began)
    (hsteps : s.steps ≤ s'.steps) (htasks : SamePublishes s s') : s'.Ledger := by
  have hids : ∀ key, s'.recordedIds key = s.recordedIds key := by
    intro key
    rw [recordedIds, recordedIds, hrecorded]
  refine ⟨fun key => (hpending key).1.trans (h.short key), fun key => ?_, fun key => ?_, ?_,
    fun key x hx => ?_, fun r task' id htask' hid => ?_, fun r r' task task' id ht ht' hid hid' => ?_,
    fun r task' htask' => (htasks r task' htask').1⟩
  · rw [hids]
    exact (hpending key).2.trans (h.order key)
  · rw [hids]
    exact h.once key
  · rw [hrecorded]
    exact h.timed
  · rw [hrecorded] at hx
    obtain ⟨hlt, hb⟩ := h.began key x hx
    rw [hbegan]
    exact ⟨hlt.trans_le hsteps, hb⟩
  · obtain ⟨task, htask, hpub⟩ := (htasks r task' htask').2 id hid
    obtain ⟨⟨b, hb, hlt⟩, hnot⟩ := h.publishing r task id htask hpub
    refine ⟨⟨b, by rw [hbegan, hb], hlt.trans_le hsteps⟩, fun key => ?_⟩
    rw [hids]
    exact hnot key
  · obtain ⟨t, htask, hpub⟩ := (htasks r task ht).2 id hid
    obtain ⟨t', htask', hpub'⟩ := (htasks r' task' ht').2 id hid'
    exact h.owner r r' t t' id htask htask' hpub hpub'

theorem Ledger.setTask (h : s.Ledger) (r : Nat) {new : Option MsgTask}
    (hnew : ∀ t, new = some t → t.PicksOnce ∧
      ∀ id, t.publishes = some id → ∃ task, s.tasks r = some task ∧ task.publishes = some id) :
    (s.setTask r new).Ledger :=
  h.keep (fun _ => ⟨le_rfl, List.Sublist.refl _⟩) rfl rfl (Nat.le_succ _)
    (h.same_of_update rfl hnew)

/-- A new message: its id is new, so it is nowhere yet. -/
theorem Ledger.publish (h : s.Ledger) {r : Nat} {id : String} {task : MsgTask}
    (hfree : s.tasks r = none) (hid : s.began id = none) (hpub : task.publishes = some id)
    (hpicks : task.PicksOnce) :
    ({ s.setTask r (some task) with
        began := Function.update s.began id (some s.steps) } : MsgState).Ledger := by
  have hother : ∀ {id'} {b : Nat}, s.began id' = some b → id' ≠ id := by
    rintro id' b hb rfl
    rw [hid] at hb
    cases hb
  have hbegan : ∀ {id' b}, s.began id' = some b → 
      Function.update s.began id (some s.steps) id' = some b := by
    intro id' b hb
    rw [Function.update_of_ne (hother hb), hb]
  have hfresh : ∀ key, id ∉ s.recordedIds key := by
    intro key hmem
    obtain ⟨x, hx, rfl⟩ := List.mem_map.mp hmem
    obtain ⟨-, b, hb, -⟩ := h.began key x hx
    exact hother hb rfl
  -- a task that publishes this id is the new one
  have hnew : ∀ r' task', Function.update s.tasks r (some task) r' = some task' →
      (r' = r ∧ task' = task) ∨ (s.tasks r' = some task' ∧ task'.publishes ≠ some id) := by
    intro r' task' htask'
    by_cases hr : r' = r
    · subst hr
      rw [Function.update_self] at htask'
      exact .inl ⟨rfl, (Option.some.inj htask').symm⟩
    · rw [Function.update_of_ne hr] at htask'
      refine .inr ⟨htask', fun hpub' => ?_⟩
      obtain ⟨⟨b, hb, -⟩, -⟩ := h.publishing r' task' id htask' hpub'
      exact hother hb rfl
  refine ⟨h.short, h.order, h.once, h.timed, fun key x hx => ?_, fun r' task' id' htask' hid' => ?_,
    fun r₁ r₂ t₁ t₂ id' h₁ h₂ hp₁ hp₂ => ?_, fun r' task' htask' => ?_⟩
  · obtain ⟨hlt, b, hb, hlt'⟩ := h.began key x hx
    exact ⟨Nat.lt_succ_of_lt hlt, b, hbegan hb, hlt'⟩
  · rcases hnew r' task' htask' with ⟨rfl, rfl⟩ | ⟨hold, -⟩
    · obtain rfl : id = id' := Option.some.inj (hpub.symm.trans hid')
      exact ⟨⟨s.steps, Function.update_self _ _ _, Nat.lt_succ_self _⟩, hfresh⟩
    · obtain ⟨⟨b, hb, hlt⟩, hnot⟩ := h.publishing r' task' id' hold hid'
      exact ⟨⟨b, hbegan hb, Nat.lt_succ_of_lt hlt⟩, hnot⟩
  · rcases hnew r₁ t₁ h₁ with ⟨rfl, rfl⟩ | ⟨hold₁, hne₁⟩
    · rcases hnew r₂ t₂ h₂ with ⟨rfl, -⟩ | ⟨-, hne₂⟩
      · rfl
      · exact absurd (hp₂.trans (hp₁.symm.trans hpub)) hne₂
    · rcases hnew r₂ t₂ h₂ with ⟨rfl, rfl⟩ | ⟨hold₂, -⟩
      · exact absurd (hp₁.trans (hp₂.symm.trans hpub)) hne₁
      · exact h.owner r₁ r₂ t₁ t₂ id' hold₁ hold₂ hp₁ hp₂
  · rcases hnew r' task' htask' with ⟨rfl, rfl⟩ | ⟨hold, -⟩
    · exact hpicks
    · exact h.picks r' task' hold

/-- The recording of a publish, which is then over. -/
theorem Ledger.record (h : s.Ledger) {r : Nat} {org : Option String} {frame : PublishFrame}
    {deliveredTo : List String} {now : Nat}
    (htask : s.tasks r = some (.stamped org frame deliveredTo now)) :
    ({ s.setTask r none with
        pending := recordDelivered org ⟨frame.id, frame.topic, frame, now, now, 1⟩ s.pending
          deliveredTo
        recorded := s.noteRecorded org frame.id deliveredTo } : MsgState).Ledger := by
  have hpicks : deliveredTo.Nodup := h.picks r _ htask
  obtain ⟨⟨b, hb, hlt⟩, hnot⟩ := h.publishing r _ frame.id htask rfl
  have hothers : ∀ r' task', Function.update s.tasks r none r' = some task' →
      s.tasks r' = some task' ∧ task'.publishes ≠ some frame.id := by
    intro r' task' htask'
    by_cases hr : r' = r
    · subst hr
      rw [Function.update_self] at htask'
      cases htask'
    · rw [Function.update_of_ne hr] at htask'
      refine ⟨htask', fun hpub => hr ?_⟩
      exact h.owner r' r task' _ frame.id htask' htask hpub rfl
  refine ⟨fun key => ?_, fun key => ?_, fun key => ?_, fun key => ?_, fun key x hx => ?_,
    fun r' task' id htask' hid => ?_, fun r₁ r₂ t₁ t₂ id h₁ h₂ hp₁ hp₂ => ?_,
    fun r' task' htask' => h.picks r' task' (hothers r' task' htask').1⟩
  · simp only [recordDelivered_apply hpicks]
    split
    · exact length_recordPending (h.short key) _
    · exact h.short key
  · simp only [ids, recordedIds, noteRecorded, recordDelivered_apply hpicks]
    split
    · rw [List.map_append]
      exact ids_recordPending (h.order key)
    · exact h.order key
  · simp only [recordedIds, noteRecorded]
    split
    · rw [List.map_append, List.map_singleton, ← List.concat_eq_append]
      exact (h.once key).concat (hnot key)
    · exact h.once key
  · simp only [noteRecorded]
    split
    · refine List.pairwise_append.mpr ⟨h.timed key, List.pairwise_singleton _ _, ?_⟩
      intro x hx y hy
      rw [List.mem_singleton.mp hy]
      exact (h.began key x hx).1
    · exact h.timed key
  · have hold : ∀ x ∈ s.recorded key, x.2 < s.steps + 1 ∧ ∃ b, s.began x.1 = some b ∧ b < x.2 :=
      fun x hx => (h.began key x hx).imp_left Nat.lt_succ_of_lt
    simp only [noteRecorded] at hx
    split at hx
    · rcases List.mem_append.mp hx with hx | hx
      · exact hold x hx
      · rw [List.mem_singleton.mp hx]
        exact ⟨Nat.lt_succ_self _, b, hb, hlt⟩
    · exact hold x hx
  · obtain ⟨hold, hne⟩ := hothers r' task' htask'
    obtain ⟨⟨b', hb', hlt'⟩, hnot'⟩ := h.publishing r' task' id hold hid
    refine ⟨⟨b', hb', Nat.lt_succ_of_lt hlt'⟩, fun key => ?_⟩
    simp only [recordedIds, noteRecorded]
    split
    · rw [List.map_append, List.mem_append, not_or]
      refine ⟨hnot' key, fun hmem => hne ?_⟩
      rw [hid, List.mem_singleton.mp hmem]
    · exact hnot' key
  · exact h.owner r₁ r₂ t₁ t₂ id (hothers r₁ t₁ h₁).1 (hothers r₂ t₂ h₂).1 hp₁ hp₂

/-- A step that touches no queue and no task. -/
theorem Ledger.idle (h : s.Ledger) (hpending : s'.pending = s.pending)
    (hrecorded : s'.recorded = s.recorded) (hbegan : s'.began = s.began)
    (htasks : s'.tasks = s.tasks) (hsteps : s.steps ≤ s'.steps) : s'.Ledger := by
  refine h.keep (fun key => ?_) hrecorded hbegan hsteps fun r t ht => ?_
  · rw [ids, ids, hpending]
    exact ⟨le_rfl, List.Sublist.refl _⟩
  · rw [htasks] at ht
    exact ⟨h.picks r t ht, fun id hid => ⟨t, ht, hid⟩⟩

theorem Ledger.step (h : s.Ledger) (hstep : Step s act s') : s'.Ledger := by
  cases hstep with
  | connect id perms instanceGroup => exact h.idle rfl rfl rfl rfl (Nat.le_succ _)
  | disconnect id => exact h.idle rfl rfl rfl rfl (Nat.le_succ _)
  | setSubscriptions topics add hget => exact h.idle rfl rfl rfl rfl (Nat.le_succ _)
  | tick elapsed => exact h.idle rfl rfl rfl rfl (Nat.le_succ _)
  | publish hfree hok hid horder =>
      exact h.publish hfree hid rfl nodup_selectTargets.1
  | @send r org frame target targets deliveredTo ok htask =>
      refine h.keep (fun _ => ⟨le_rfl, List.Sublist.refl _⟩) rfl rfl (Nat.le_succ _)
        (h.same_of_update rfl fun t ht => ?_)
      obtain rfl := Option.some.inj ht
      refine ⟨?_, fun id hid => ⟨_, htask, hid⟩⟩
      have hpicks : (deliveredTo ++ (target :: targets).map (·.process)).Nodup := h.picks r _ htask
      show ((if ok then _ else _) ++ targets.map (·.process)).Nodup
      cases ok with
      | true =>
          rw [if_pos rfl, List.append_assoc]
          exact hpicks
      | false =>
          refine hpicks.sublist (List.Sublist.append_left ?_ deliveredTo)
          exact List.sublist_cons_self _ _
  | done htask hqos => exact h.setTask _ fun _ ht => (by cases ht)
  | stamp htask hqos =>
      refine h.setTask _ fun t ht => ?_
      obtain rfl := Option.some.inj ht
      refine ⟨?_, fun id hid => ⟨_, htask, hid⟩⟩
      simpa [MsgTask.PicksOnce] using h.picks _ _ htask
  | record htask => exact h.record htask
  | acknowledge id hfree hget =>
      refine h.setTask _ fun t ht => ?_
      obtain rfl := Option.some.inj ht
      exact ⟨trivial, fun _ hid => (by cases hid)⟩
  | @clear r key id htask =>
      refine h.keep (fun key' => ?_) rfl rfl (Nat.le_succ _)
        (h.same_of_update rfl fun _ ht => (by cases ht))
      by_cases hkey : key' = key
      · subst hkey
        simp only [ids, Function.update_self]
        exact ⟨List.length_filter_le _ _, (List.filter_sublist).map _⟩
      · simp only [ids, Function.update_of_ne hkey]
        exact ⟨le_rfl, List.Sublist.refl _⟩
  | sweep hfree =>
      refine h.setTask _ fun t ht => ?_
      obtain rfl := Option.some.inj ht
      exact ⟨trivial, fun _ hid => (by cases hid)⟩
  | snapshot htask hnodup hkeys =>
      refine h.keep (fun key => ?_) rfl rfl (Nat.le_succ _)
        (h.same_of_update rfl fun t ht => ?_)
      · simp only [ids, length_markSent, ids_markSent]
        exact ⟨le_rfl, List.Sublist.refl _⟩
      · obtain rfl := Option.some.inj ht
        exact ⟨trivial, fun _ hid => (by cases hid)⟩
  | @pick r started now key messages due order htask horder =>
      refine h.setTask _ fun t ht => ?_
      obtain rfl := Option.some.inj ht
      cases resendTarget order key with
      | none => exact ⟨trivial, fun _ hid => (by cases hid)⟩
      | some target => exact ⟨trivial, fun _ hid => (by cases hid)⟩
  | resend ok htask =>
      refine h.keep (fun _ => ⟨le_rfl, List.Sublist.refl _⟩) rfl rfl (Nat.le_succ _)
        (h.same_of_update rfl fun t ht => ?_)
      obtain rfl := Option.some.inj ht
      exact ⟨trivial, fun _ hid => (by cases hid)⟩
  | next htask =>
      refine h.setTask _ fun t ht => ?_
      obtain rfl := Option.some.inj ht
      exact ⟨trivial, fun _ hid => (by cases hid)⟩
  | giveUp htask =>
      refine h.keep (fun key => ?_) rfl rfl (Nat.le_succ _)
        (h.same_of_update rfl fun _ ht => (by cases ht))
      exact ⟨List.length_filter_le _ _, (List.filter_sublist).map _⟩

theorem ledger_of_reachable (h : pubsubSys.Reachable s) : s.Ledger := by
  refine h.invariant ?_ fun _ _ _ _ hs hstep => hs.step hstep
  rintro s rfl
  exact ⟨fun _ => Nat.zero_le _, fun _ => List.Sublist.refl _, fun _ => List.nodup_nil,
    fun _ => List.Pairwise.nil, fun _ _ hx => (by cases hx), fun _ _ _ ht => (by cases ht),
    fun _ _ _ _ _ ht => (by cases ht), fun _ _ ht => (by cases ht)⟩

/-! ## What was acknowledged -/

/-- Any acknowledgement of the message came after the sweep had started. -/
structure SweptBefore (s : MsgState) (started : Nat) (key : PendingKey) (id : String) : Prop where
  begun : started ≤ s.steps
  acked : ∀ n, (key, id, n) ∈ s.acked → started ≤ n

def SweptDue (s : MsgState) (started : Nat)
    (due : List (PendingKey × List (String × PublishFrame))) : Prop :=
  ∀ d ∈ due, ∀ m ∈ d.2, s.SweptBefore started d.1 m.1

/-- A sweep sends nothing that was acknowledged when it started. -/
def SweepsUnacked (s : MsgState) : MsgTask → Prop
  | .sweeping started _ => started ≤ s.steps
  | .resending started _ due => started ≤ s.steps ∧ s.SweptDue started due
  | .writing started _ key _ messages due =>
    started ≤ s.steps ∧ (∀ m ∈ messages, s.SweptBefore started key m.1) ∧ s.SweptDue started due
  | _ => True

/-- What was acknowledged is in no queue and will not be again, and no sweep
that started since has sent it or will. -/
structure Settled (s : MsgState) : Prop where
  acked : ∀ key id n, (key, id, n) ∈ s.acked → id ∉ s.ids key ∧ id ∈ s.recordedIds key
  tasks : ∀ r task, s.tasks r = some task → s.SweepsUnacked task
  written : ∀ w ∈ s.written, ∀ started key, w.resend = some (started, key) →
    s.SweptBefore started key w.id

theorem SweptBefore.step {started : Nat} {key : PendingKey} {id : String}
    (h : s.SweptBefore started key id) (hstep : Step s act s') : s'.SweptBefore started key id := by
  refine ⟨?_, fun n hn => ?_⟩
  · rw [hstep.steps_eq]
    exact h.begun.trans (Nat.le_succ _)
  · rcases hstep.mem_acked hn with hold | hnow
    · exact h.acked n hold
    · rw [show n = s.steps from hnow]
      exact h.begun

theorem SweepsUnacked.step {task : MsgTask} (h : s.SweepsUnacked task) (hstep : Step s act s') :
    s'.SweepsUnacked task := by
  have hle : ∀ {started}, started ≤ s.steps → started ≤ s'.steps := by
    intro started hs
    rw [hstep.steps_eq]
    exact hs.trans (Nat.le_succ _)
  cases task with
  | sweeping started now => exact hle h
  | resending started now due => exact ⟨hle h.1, fun d hd m hm => (h.2 d hd m hm).step hstep⟩
  | writing started now key target messages due =>
      exact ⟨hle h.1, fun m hm => (h.2.1 m hm).step hstep,
        fun d hd m hm => (h.2.2 d hd m hm).step hstep⟩
  | _ => trivial

/-- A message that is in its queue has not been acknowledged. -/
theorem Settled.swept (h : s.Settled) {key : PendingKey} {id : String} (hid : id ∈ s.ids key) :
    ∀ n, (key, id, n) ∉ s.acked :=
  fun n hn => (h.acked key id n hn).1 hid

theorem not_mem_recordPending {queue : List Pending} {message : Pending} {id : String}
    (hnot : id ∉ queue.map (·.id)) (hne : id ≠ message.id) :
    id ∉ (recordPending queue message).map (·.id) := by
  intro hmem
  rw [recordPending, List.map_append, List.mem_append] at hmem
  rcases hmem with hold | hnew
  · refine hnot ?_
    split at hold
    · rw [List.map_tail] at hold
      exact List.mem_of_mem_tail hold
    · exact hold
  · exact hne (List.mem_singleton.mp hnew)

/-- What a queue holds after a message was cleared from one of them, it held
before, and it does not hold that message. -/
theorem mem_ids_clear {pending : PendingKey → List Pending} {key key' : PendingKey}
    {id id' : String}
    (h : id' ∈ (Function.update pending key (clearPending (pending key) id) key').map (·.id)) :
    id' ∈ (pending key').map (·.id) ∧ (key' = key → id' ≠ id) := by
  by_cases hkey : key' = key
  · subst hkey
    rw [Function.update_self] at h
    refine ⟨((List.filter_sublist).map _).subset h, ?_⟩
    rintro - rfl
    obtain ⟨m, hm, hmid⟩ := List.mem_map.mp h
    rw [clearPending, List.mem_filter] at hm
    simp [hmid] at hm
  · rw [Function.update_of_ne hkey] at h
    exact ⟨h, fun heq => absurd heq hkey⟩

/-- The queues and what is known to be acknowledged, after each kind of
step. -/
theorem Settled.acked_step (h : s.Settled) (hl : s.Ledger) (hstep : Step s act s') :
    ∀ key id n, (key, id, n) ∈ s'.acked → id ∉ s'.ids key ∧ id ∈ s'.recordedIds key := by
  cases hstep with
  | @record r org frame deliveredTo now htask =>
      intro key id n hn
      obtain ⟨hnot, hrec⟩ := h.acked key id n hn
      have hpicks : deliveredTo.Nodup := hl.picks r _ htask
      -- the message that is recorded is a new one
      have hne : id ≠ frame.id := by
        rintro rfl
        exact (hl.publishing r _ frame.id htask rfl).2 key hrec
      simp only [ids, recordedIds, noteRecorded, recordDelivered_apply hpicks]
      split
      · refine ⟨not_mem_recordPending hnot hne, ?_⟩
        rw [List.map_append]
        exact List.mem_append_left _ hrec
      · exact ⟨hnot, hrec⟩
  | @clear r key id htask =>
      intro key' id' n hn
      have hold (hn : (key', id', n) ∈ s.acked) := h.acked key' id' n hn
      simp only [noteAcked] at hn
      split at hn
      · rename_i hfound
        rcases List.mem_cons.mp hn with heq | hn
        · obtain ⟨rfl, rfl, rfl⟩ : key' = key ∧ id' = id ∧ n = s.steps := by simpa using heq
          exact ⟨fun hmem => (mem_ids_clear hmem).2 rfl rfl, (hl.order key').subset hfound⟩
        · exact ⟨fun hmem => (hold hn).1 (mem_ids_clear hmem).1, (hold hn).2⟩
      · exact ⟨fun hmem => (hold hn).1 (mem_ids_clear hmem).1, (hold hn).2⟩
  | snapshot htask hnodup hkeys =>
      intro key id n hn
      simp only [ids, ids_markSent]
      exact h.acked key id n hn
  | giveUp htask =>
      intro key id n hn
      obtain ⟨hnot, hrec⟩ := h.acked key id n hn
      exact ⟨fun hmem => hnot (((List.filter_sublist).map _).subset hmem), hrec⟩
  | _ => exact h.acked

theorem Settled.step (h : s.Settled) (hl : s.Ledger) (hstep : Step s act s') : s'.Settled := by
  have hacked := h.acked_step hl hstep
  have htasks : ∀ r task, s.tasks r = some task → s'.SweepsUnacked task :=
    fun r task ht => (h.tasks r task ht).step hstep
  have hwritten : ∀ w ∈ s.written, ∀ started key, w.resend = some (started, key) →
      s'.SweptBefore started key w.id :=
    fun w hw started key hre => (h.written w hw started key hre).step hstep
  have hset : ∀ {r : Nat} {new : Option MsgTask}, (∀ t, new = some t → s.SweepsUnacked t) →
      ∀ r' task, Function.update s.tasks r new r' = some task → s'.SweepsUnacked task :=
    fun hnew => forall_tasks_update htasks fun t ht => (hnew t ht).step hstep
  have hbegun : s.steps ≤ s'.steps := by
    rw [hstep.steps_eq]
    exact Nat.le_succ _
  cases hstep with
  | connect id perms instanceGroup => exact ⟨hacked, htasks, hwritten⟩
  | disconnect id => exact ⟨hacked, htasks, hwritten⟩
  | setSubscriptions topics add hget => exact ⟨hacked, htasks, hwritten⟩
  | tick elapsed => exact ⟨hacked, htasks, hwritten⟩
  | publish hfree hok hid horder =>
      refine ⟨hacked, hset fun t ht => ?_, hwritten⟩
      obtain rfl := Option.some.inj ht
      trivial
  | send ok htask =>
      refine ⟨hacked, hset fun t ht => ?_, forall_noteWritten hwritten ?_⟩
      · obtain rfl := Option.some.inj ht
        trivial
      · intro started key hre
        cases hre
  | done htask hqos => exact ⟨hacked, hset fun _ ht => (by cases ht), hwritten⟩
  | stamp htask hqos =>
      refine ⟨hacked, hset fun t ht => ?_, hwritten⟩
      obtain rfl := Option.some.inj ht
      trivial
  | record htask => exact ⟨hacked, hset fun _ ht => (by cases ht), hwritten⟩
  | acknowledge id hfree hget =>
      refine ⟨hacked, hset fun t ht => ?_, hwritten⟩
      obtain rfl := Option.some.inj ht
      trivial
  | clear htask => exact ⟨hacked, hset fun _ ht => (by cases ht), hwritten⟩
  | sweep hfree =>
      refine ⟨hacked, hset fun t ht => ?_, hwritten⟩
      obtain rfl := Option.some.inj ht
      exact le_rfl
  | snapshot htask hnodup hkeys =>
      refine ⟨hacked, hset fun t ht => ?_, hwritten⟩
      obtain rfl := Option.some.inj ht
      refine ⟨h.tasks _ _ htask, fun d hd m hm => ?_⟩
      obtain ⟨key, -, rfl⟩ := List.mem_map.mp hd
      obtain ⟨p, hp, rfl⟩ := mem_dueMessages hm
      -- what is due is in its queue, so nobody has acknowledged it yet
      refine ⟨h.tasks _ _ htask, fun n hn => absurd hn (h.swept ?_ n)⟩
      exact List.mem_map_of_mem hp
  | @pick r started now key messages due order htask horder =>
      obtain ⟨hstarted, hdue⟩ := h.tasks _ _ htask
      refine ⟨hacked, hset fun t ht => ?_, hwritten⟩
      obtain rfl := Option.some.inj ht
      cases resendTarget order key with
      | none => exact ⟨hstarted, fun d hd => hdue d (List.mem_cons_of_mem _ hd)⟩
      | some target =>
          exact ⟨hstarted, hdue _ List.mem_cons_self, fun d hd => hdue d (List.mem_cons_of_mem _ hd)⟩
  | resend ok htask =>
      obtain ⟨hstarted, hmessages, hdue⟩ := h.tasks _ _ htask
      refine ⟨hacked, hset fun t ht => ?_, forall_noteWritten hwritten ?_⟩
      · obtain rfl := Option.some.inj ht
        exact ⟨hstarted, fun m hm => hmessages m (List.mem_cons_of_mem _ hm), hdue⟩
      · rintro started key hre
        obtain ⟨rfl, rfl⟩ := Prod.mk.inj (Option.some.inj hre)
        exact ⟨hstarted.trans hbegun, (hmessages _ List.mem_cons_self).acked⟩
  | next htask =>
      obtain ⟨hstarted, -, hdue⟩ := h.tasks _ _ htask
      refine ⟨hacked, hset fun t ht => ?_, hwritten⟩
      obtain rfl := Option.some.inj ht
      exact ⟨hstarted, hdue⟩
  | giveUp htask => exact ⟨hacked, hset fun _ ht => (by cases ht), hwritten⟩

theorem settled_of_reachable (h : pubsubSys.Reachable s) : s.Settled := by
  refine h.invariant ?_ fun _ _ _ hr hs hstep => hs.step (ledger_of_reachable hr) hstep
  rintro s rfl
  exact ⟨fun _ _ _ hn => (by cases hn), fun _ _ ht => (by cases ht), fun _ hw => (by cases hw)⟩

/-! ## Order and departures -/

/-- The queue of a process: bounded, without repeats, in the order of
recording; and a message stands before another only if its publish had begun
when the other was recorded. -/
structure QueueOk (s : MsgState) (key : PendingKey) : Prop where
  bounded : (s.pending key).length ≤ maxPendingPerProcess
  distinct : (s.ids key).Nodup
  inOrder : (s.ids key).Sublist (s.recordedIds key)
  callOrder : ∀ front x mid y back, s.pending key = front ++ x :: mid ++ y :: back →
    ∀ b t, s.began x.id = some b → (y.id, t) ∈ s.recorded key → b < t

theorem Ledger.queueOk (h : s.Ledger) (key : PendingKey) : s.QueueOk key := by
  refine ⟨h.short key, (h.once key).sublist (h.order key), h.order key, ?_⟩
  intro front x mid y back hqueue b t hb ht
  have hxy : [x, y].Sublist (s.pending key) := by
    rw [hqueue, List.append_assoc, List.cons_append]
    refine List.Sublist.trans ?_ (List.sublist_append_right front _)
    exact (List.singleton_sublist.mpr (by simp)).cons_cons x
  have hids : [x.id, y.id].Sublist ((s.recorded key).map Prod.fst) :=
    (hxy.map Pending.id).trans (h.order key)
  obtain ⟨pair, hsub, hpair⟩ := List.sublist_map_iff.mp hids
  have hlen : pair.length = 2 := by simpa using (congrArg List.length hpair).symm
  obtain ⟨x', y', rfl⟩ := List.length_eq_two.mp hlen
  obtain ⟨hx', hy'⟩ : x.id = x'.1 ∧ y.id = y'.1 := by simpa using hpair
  have hlt : x'.2 < y'.2 := by simpa using (h.timed key).sublist hsub
  have hbegan := (h.began key x' (hsub.subset (by simp))).2
  rw [← hx', hb] at hbegan
  obtain ⟨b', hb', hbefore⟩ := hbegan
  have hsame : (y.id, t) = y' :=
    List.inj_on_of_nodup_map (h.once key) ht (hsub.subset (by simp)) hy'
  calc b = b' := Option.some.inj hb'
    _ < x'.2 := hbefore
    _ < y'.2 := hlt
    _ = t := by rw [← hsame]

/-- Why a message is no longer in its queue: it was acknowledged by its
process, a sweep found it too old, or the limit was reached by newer ones. -/
def LeftBecause (s' : MsgState) (act : MsgAct) (key : PendingKey) (m : Pending) : Prop :=
  (∃ r, act = .clear r key m.id) ∨
    (∃ r now, act = .giveUp r now ∧ maxAckWait ≤ now - m.firstSent) ∨
    ∃ front newer, s'.recordedIds key = front ++ m.id :: newer ∧
      maxPendingPerProcess ≤ newer.length

/-- The oldest message of a full queue has as many newer ones behind it. -/
theorem Ledger.newer (h : s.Ledger) {key : PendingKey} {m : Pending} {rest : List Pending}
    (hqueue : s.pending key = m :: rest) :
    ∃ front newer, s.recordedIds key = front ++ m.id :: newer ∧ rest.length ≤ newer.length := by
  have hsub := h.order key
  rw [ids, hqueue, List.map_cons, List.cons_sublist_iff] at hsub
  obtain ⟨r₁, r₂, hrec, hmem, hrest⟩ := hsub
  obtain ⟨front, mid, rfl⟩ := List.append_of_mem hmem
  refine ⟨front, mid ++ r₂, by simp [hrec], ?_⟩
  have hlen := hrest.length_le
  rw [List.length_map] at hlen
  rw [List.length_append]
  omega

theorem Ledger.leftBecause (h : s.Ledger) (hstep : Step s act s') {key : PendingKey} {m : Pending}
    (hm : m ∈ s.pending key) (hgone : m.id ∉ s'.ids key) : LeftBecause s' act key m := by
  have hin : m.id ∈ s.ids key := List.mem_map_of_mem hm
  cases hstep with
  | @record r org frame deliveredTo now htask =>
      have hpicks : deliveredTo.Nodup := h.picks r _ htask
      simp only [ids, recordDelivered_apply hpicks] at hgone
      split at hgone
      · rename_i hkey
        rw [recordPending, List.map_append, List.mem_append, not_or] at hgone
        by_cases hfull : maxPendingPerProcess ≤ (s.pending key).length
        · -- only the head of a full queue is dropped
          rw [if_pos hfull] at hgone
          cases hqueue : s.pending key with
          | nil =>
              rw [hqueue] at hm
              cases hm
          | cons oldest rest =>
              rw [hqueue] at hm hgone hfull
              rcases List.mem_cons.mp hm with rfl | hrest
              · obtain ⟨front, newer, hrec, hlen⟩ := h.newer hqueue
                refine .inr (.inr ⟨front, newer ++ [frame.id], ?_, ?_⟩)
                · simp only [recordedIds, noteRecorded, if_pos hkey, List.map_append] at hrec ⊢
                  rw [hrec]
                  simp
                · rw [List.length_cons] at hfull
                  rw [List.length_append, List.length_singleton]
                  omega
              · exact absurd (List.mem_map_of_mem hrest) hgone.1
        · rw [if_neg hfull] at hgone
          exact absurd hin hgone.1
      · exact absurd hin hgone
  | @clear r key' id htask =>
      by_cases hkey : key = key'
      · subst hkey
        by_cases hid : m.id = id
        · exact .inl ⟨r, by rw [hid]⟩
        · refine absurd ?_ hgone
          simp only [ids, Function.update_self]
          exact List.mem_map_of_mem (List.mem_filter.mpr ⟨hm, by simpa using hid⟩)
      · refine absurd ?_ hgone
        simp only [ids, Function.update_of_ne hkey]
        exact hin
  | snapshot htask hnodup hkeys =>
      refine absurd ?_ hgone
      simp only [ids, ids_markSent]
      exact hin
  | @giveUp r started now htask =>
      refine .inr (.inl ⟨r, now, rfl, ?_⟩)
      by_contra hyoung
      refine hgone (List.mem_map_of_mem (List.mem_filter.mpr ⟨hm, ?_⟩))
      simpa using hyoung
  | _ => exact absurd hin hgone

end MsgState

/-! ## Headline -/

/-- In every interleaving, every queue is in order; a message leaves one only
for a reason; and what was acknowledged while it was recorded is resent by no
sweep that starts afterwards. -/
theorem queue_retention (s : MsgState) (h : pubsubSys.Reachable s) :
    (∀ key, s.QueueOk key) ∧
      (∀ act s' key m, pubsubSys.step s act s' → m ∈ s.pending key → m.id ∉ s'.ids key →
        MsgState.LeftBecause s' act key m) ∧
      ∀ w ∈ s.written, ∀ started key, w.resend = some (started, key) →
        ∀ n, (key, w.id, n) ∈ s.acked → started ≤ n := by
  have hledger := MsgState.ledger_of_reachable h
  refine ⟨hledger.queueOk, ?_, ?_⟩
  · intro act s' key m hstep hm hgone
    exact hledger.leftBecause hstep hm hgone
  · intro w hw started key hre
    exact ((MsgState.settled_of_reachable h).written w hw started key hre).acked

/-- A message waits for its acknowledgement. -/
theorem queue_retention_waiting :
    ∃ s, pubsubSys.Reachable s ∧ s.ids (some "acme", "worker") = ["m1"] ∧
      ∀ key, s.QueueOk key := by
  obtain ⟨s, hs, -, -, hpending, -, -⟩ := stranger_connected
  refine ⟨s, hs, ?_, (queue_retention s hs).1⟩
  rw [MsgState.ids, hpending]
  simp [recordDelivered, recordPending, maxPendingPerProcess, deployPending]

end Aperio
