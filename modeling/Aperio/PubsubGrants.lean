import Aperio.Pubsub

/-!
# Messages stay with who may read them

A first delivery goes to a connection whose subscription was permitted, so to
one whose token may use the topic. A resend is addressed to a process, and
half of that name is what a client wrote into a header: within an
organization it goes to any connection that uses the name.

So `messages_stay` is about the runs in which the connections of one name in
one organization carry the same grants. `resend_to_stranger` is a run in
which they do not.
-/

namespace Aperio

/-- A frame written to a connection of the organization it was published in,
whose token may use its topic. -/
def Written.Entitled (w : Written) : Prop :=
  w.perms.orgId = w.org ∧ mayUseTopic w.perms w.frame.topic = true

/-! ## Subscriptions are permitted -/

def MsgHandle.Permitted (handle : MsgHandle) : Prop :=
  ∀ f ∈ handle.subscriptions, mayUseTopic handle.perms f = true

/-- What a `Subscribe` or `Unsubscribe` leaves of a connection as it was. -/
structure MsgHandle.Resubscribed (before after : MsgHandle) : Prop where
  perms : after.perms = before.perms
  instanceGroup : after.instanceGroup = before.instanceGroup
  permitted : before.Permitted → after.Permitted

namespace MsgHandle

variable {handle : MsgHandle}

theorem Resubscribed.refl (handle : MsgHandle) : handle.Resubscribed handle :=
  ⟨rfl, rfl, id⟩

theorem Resubscribed.trans {a b c : MsgHandle} (h : a.Resubscribed b) (h' : b.Resubscribed c) :
    a.Resubscribed c :=
  ⟨h'.perms.trans h.perms, h'.instanceGroup.trans h.instanceGroup, h'.permitted ∘ h.permitted⟩

theorem subscribe_spec (topic : String) : handle.Resubscribed (handle.subscribe topic).1 := by
  unfold subscribe
  split
  · exact .refl handle
  · split
    · exact .refl handle
    · rename_i hmay
      split
      · exact .refl handle
      · split
        · exact .refl handle
        · refine ⟨rfl, rfl, fun h f hf => ?_⟩
          rcases List.mem_append.mp hf with hold | hnew
          · exact h f hold
          · rw [List.mem_singleton.mp hnew]
            simpa using hmay

theorem unsubscribe_spec (topic : String) : handle.Resubscribed (handle.unsubscribe topic) :=
  ⟨rfl, rfl, fun h f hf => h f (List.mem_of_mem_filter hf)⟩

theorem setSubscriptions_spec (topics : List String) (add : Bool) :
    handle.Resubscribed (handle.setSubscriptions topics add).1 := by
  unfold setSubscriptions
  generalize ([] : List (String × String)) = refused
  induction topics generalizing handle refused with
  | nil => exact .refl handle
  | cons topic topics ih =>
      rw [List.foldl_cons]
      cases add with
      | true => exact (subscribe_spec topic).trans (ih _)
      | false => exact (unsubscribe_spec topic).trans (ih _)

end MsgHandle

/-! ## Who is picked -/

theorem mem_selectTargets {org : Option String} {topic : String} {seen : List String}
    {order : List (String × MsgHandle)} {t : MsgTarget}
    (h : t ∈ selectTargets org topic seen order) :
    (t.connectionId, t.handle) ∈ order ∧ t.handle.perms.orgId = org ∧
      t.process = t.handle.process t.connectionId ∧
      ∃ f ∈ t.handle.subscriptions, topicMatches f topic = true := by
  induction order generalizing seen with
  | nil => cases h
  | cons c order ih =>
      obtain ⟨connectionId, handle⟩ := c
      rw [selectTargets] at h
      have hlater : ∀ {seen}, t ∈ selectTargets org topic seen order → _ := fun hmem =>
        (ih hmem).imp_left (List.mem_cons_of_mem (connectionId, handle))
      split at h
      · exact hlater h
      · rename_i horg
        split at h
        · exact hlater h
        · rename_i hsub
          split at h
          · exact hlater h
          · rcases List.mem_cons.mp h with rfl | hmem
            · refine ⟨List.mem_cons_self, not_not.mp horg, rfl, ?_⟩
              simpa using hsub
            · exact hlater hmem

theorem resendTarget_spec {order : List (String × MsgHandle)} {key : PendingKey} {id : String}
    {handle : MsgHandle} (h : resendTarget order key = some (id, handle)) :
    (id, handle) ∈ order ∧ handle.perms.orgId = key.1 ∧
      (handle.instanceGroup = some key.2 ∨ id = key.2) := by
  rw [resendTarget, Option.or_eq_some_iff] at h
  rcases h with hfind | ⟨-, hfind⟩
  · have hp := List.find?_some hfind
    simp only [Bool.and_eq_true, beq_iff_eq] at hp
    exact ⟨List.mem_of_find?_eq_some hfind, hp.1, .inl hp.2⟩
  · have hp := List.find?_some hfind
    simp only [Bool.and_eq_true, beq_iff_eq] at hp
    exact ⟨List.mem_of_find?_eq_some hfind, hp.2, .inr hp.1⟩

theorem validateTopic_of_checkPublish {topic : String} {payload : Bytes} {publisher : Publisher}
    (h : checkPublish topic payload publisher = .ok ()) : validateTopic topic = .ok () := by
  unfold checkPublish at h
  cases hv : validateTopic topic with
  | ok _ => rfl
  | error why =>
      rw [hv] at h
      cases h

/-! ## Tasks -/

/-- What is said of every task is kept when one of them changes. -/
theorem forall_tasks_update {tasks : Nat → Option MsgTask} {P : MsgTask → Prop}
    (h : ∀ r task, tasks r = some task → P task) {r : Nat} {new : Option MsgTask}
    (hnew : ∀ task, new = some task → P task) :
    ∀ r' task, Function.update tasks r new r' = some task → P task := by
  intro r' task htask
  by_cases hr : r' = r
  · subst hr
    rw [Function.update_self] at htask
    exact hnew task htask
  · rw [Function.update_of_ne hr] at htask
    exact h r' task htask

theorem forall_clients_update {clients : String → Option MsgHandle}
    {P : String → MsgHandle → Prop} (h : ∀ id handle, clients id = some handle → P id handle)
    {id : String} {new : Option MsgHandle} (hnew : ∀ handle, new = some handle → P id handle) :
    ∀ id' handle, Function.update clients id new id' = some handle → P id' handle := by
  intro id' handle hhandle
  by_cases hid : id' = id
  · subst hid
    rw [Function.update_self] at hhandle
    exact hnew handle hhandle
  · rw [Function.update_of_ne hid] at hhandle
    exact h id' handle hhandle

theorem forall_noteWritten {s : MsgState} {P : Written → Prop} (h : ∀ w ∈ s.written, P w)
    {ok : Bool} {w : Written} (hw : P w) : ∀ w' ∈ s.noteWritten ok w, P w' := by
  unfold MsgState.noteWritten
  split
  · exact List.forall_mem_cons.mpr ⟨hw, h⟩
  · exact h

/-! ## First deliveries -/

/-- Whoever a publish has picked may use the topic. -/
def MsgTask.Picked : MsgTask → Prop
  | .sending org frame targets _ =>
    ∀ t ∈ targets, t.handle.perms.orgId = org ∧ mayUseTopic t.handle.perms frame.topic = true
  | _ => True

namespace MsgState

/-- Subscriptions are permitted, and so is every first delivery. -/
structure Delivers (s : MsgState) : Prop where
  clients : ∀ id handle, s.clients id = some handle → handle.Permitted
  tasks : ∀ r task, s.tasks r = some task → task.Picked
  written : ∀ w ∈ s.written, w.resend = none → w.Entitled

variable {s s' : MsgState} {act : MsgAct}

theorem Picked.selected {order : List (String × MsgHandle)} (h : s.Delivers)
    (horder : Lists order s.clients) {org : Option String} {topic : String} {payload : Bytes}
    {publisher : Publisher} (hok : checkPublish topic payload publisher = .ok ()) :
    ∀ t ∈ selectTargets org topic [] order,
      t.handle.perms.orgId = org ∧ mayUseTopic t.handle.perms topic = true := by
  intro t ht
  obtain ⟨hmem, horg, -, f, hf, hmatch⟩ := mem_selectTargets ht
  have hperm := h.clients _ _ ((horder.mem _ _).mp hmem) f hf
  exact ⟨horg, mayUseTopic_of_match hperm (validateTopic_of_checkPublish hok) hmatch⟩

theorem Delivers.setTask (h : s.Delivers) (r : Nat) {task : Option MsgTask}
    (htask : ∀ t, task = some t → t.Picked) : (s.setTask r task).Delivers :=
  ⟨h.clients, forall_tasks_update h.tasks htask, h.written⟩

theorem Delivers.step (h : s.Delivers) (hstep : Step s act s') : s'.Delivers := by
  cases hstep with
  | connect id perms instanceGroup =>
      refine ⟨forall_clients_update h.clients ?_, h.tasks, h.written⟩
      rintro handle hnew
      obtain rfl := Option.some.inj hnew
      intro f hf
      cases hf
  | disconnect id =>
      exact ⟨forall_clients_update h.clients fun _ hnew => (by cases hnew), h.tasks, h.written⟩
  | setSubscriptions topics add hget =>
      refine ⟨forall_clients_update h.clients ?_, h.tasks, h.written⟩
      intro handle hnew
      obtain rfl := Option.some.inj hnew
      exact (MsgHandle.setSubscriptions_spec topics add).permitted (h.clients _ _ hget)
  | tick elapsed => exact ⟨h.clients, h.tasks, h.written⟩
  | publish hfree hok hid horder =>
      refine ⟨h.clients, forall_tasks_update h.tasks fun t ht => ?_, h.written⟩
      obtain rfl := Option.some.inj ht
      exact Picked.selected h horder hok
  | send ok htask =>
      have hpicked := h.tasks _ _ htask
      refine ⟨h.clients, forall_tasks_update h.tasks fun t ht => ?_, forall_noteWritten h.written ?_⟩
      · obtain rfl := Option.some.inj ht
        exact fun t ht => hpicked t (List.mem_cons_of_mem _ ht)
      · exact fun _ => hpicked _ List.mem_cons_self
  | done htask hqos => exact h.setTask _ fun _ ht => (by cases ht)
  | stamp htask hqos =>
      exact h.setTask _ fun _ ht => (by obtain rfl := Option.some.inj ht; trivial)
  | record htask =>
      exact ⟨h.clients, forall_tasks_update h.tasks fun _ ht => (by cases ht), h.written⟩
  | acknowledge id hfree hget =>
      exact h.setTask _ fun _ ht => (by obtain rfl := Option.some.inj ht; trivial)
  | clear htask =>
      exact ⟨h.clients, forall_tasks_update h.tasks fun _ ht => (by cases ht), h.written⟩
  | sweep hfree =>
      exact h.setTask _ fun _ ht => (by obtain rfl := Option.some.inj ht; trivial)
  | snapshot htask hnodup hkeys =>
      refine ⟨h.clients, forall_tasks_update h.tasks fun t ht => ?_, h.written⟩
      obtain rfl := Option.some.inj ht
      trivial
  | pick htask horder =>
      refine h.setTask _ fun t ht => ?_
      obtain rfl := Option.some.inj ht
      split <;> trivial
  | resend ok htask =>
      refine ⟨h.clients, forall_tasks_update h.tasks fun t ht => ?_, forall_noteWritten h.written ?_⟩
      · obtain rfl := Option.some.inj ht
        trivial
      · intro hnone
        cases hnone
  | next htask =>
      exact h.setTask _ fun _ ht => (by obtain rfl := Option.some.inj ht; trivial)
  | giveUp htask =>
      exact ⟨h.clients, forall_tasks_update h.tasks fun _ ht => (by cases ht), h.written⟩

/-- In every run, what a publish writes goes to those who may read it. -/
theorem delivers_of_reachable (h : pubsubSys.Reachable s) : s.Delivers := by
  refine h.invariant ?_ fun _ _ _ _ hs hstep => hs.step hstep
  rintro s rfl
  exact ⟨fun _ _ hc => (by cases hc), fun _ _ ht => (by cases ht), fun _ hw => (by cases hw)⟩

end MsgState

/-! ## One name, one set of grants -/

/-- What a token may use: everything, or its topics. -/
def TopicPerms.grants (perms : TopicPerms) : Bool × List String :=
  (perms.master, perms.topics)

def grantsAllow (grants : Bool × List String) (topic : String) : Bool :=
  grants.1 || grants.2.any (covers · topic)

theorem mayUseTopic_eq (perms : TopicPerms) (topic : String) :
    mayUseTopic perms topic = grantsAllow perms.grants topic := rfl

/-- A connection carries the grants that go with its names in its
organization: its connection id, and the process it says it is of. -/
def SameGrants (grantsOf : PendingKey → Bool × List String) (_ : MsgState) (act : MsgAct)
    (_ : MsgState) : Prop :=
  ∀ id perms instanceGroup, act = .connect id perms instanceGroup →
    perms.grants = grantsOf (perms.orgId, id) ∧
      perms.grants = grantsOf (perms.orgId, instanceGroup.getD id)

section Grants

variable (grantsOf : PendingKey → Bool × List String)

/-- Messages for a process its grants allow. -/
def AllowedMessages (key : PendingKey) (messages : List (String × PublishFrame)) : Prop :=
  ∀ m ∈ messages, grantsAllow (grantsOf key) m.2.topic = true

def AllowedDue (due : List (PendingKey × List (String × PublishFrame))) : Prop :=
  ∀ d ∈ due, AllowedMessages grantsOf d.1 d.2

def AllowedTo (org : Option String) (topic : String) (processes : List String) : Prop :=
  ∀ p ∈ processes, grantsAllow (grantsOf (org, p)) topic = true

def MsgTask.Allowed : MsgTask → Prop
  | .sending org frame targets deliveredTo =>
    (∀ t ∈ targets, t.handle.perms.grants = grantsOf (org, t.process)) ∧
      AllowedTo grantsOf org frame.topic deliveredTo
  | .stamped org frame deliveredTo _ => AllowedTo grantsOf org frame.topic deliveredTo
  | .resending _ _ due => AllowedDue grantsOf due
  | .writing _ _ key target messages due =>
    target.2.perms.orgId = key.1 ∧ target.2.perms.grants = grantsOf key ∧
      AllowedMessages grantsOf key messages ∧ AllowedDue grantsOf due
  | _ => True

/-- Whatever is on its way to a process, its grants allow. -/
structure MsgState.Fenced (s : MsgState) : Prop where
  clients : ∀ id handle, s.clients id = some handle →
    handle.perms.grants = grantsOf (handle.perms.orgId, id) ∧
      handle.perms.grants = grantsOf (handle.perms.orgId, handle.process id)
  tasks : ∀ r task, s.tasks r = some task → task.Allowed grantsOf
  pending : ∀ key, ∀ m ∈ s.pending key, grantsAllow (grantsOf key) m.frame.topic = true
  written : ∀ w ∈ s.written, w.Entitled

variable {grantsOf}

theorem mem_recordDelivered {org : Option String} {message m : Pending}
    {pending : PendingKey → List Pending} {deliveredTo : List String} {key : PendingKey}
    (h : m ∈ recordDelivered org message pending deliveredTo key) :
    m ∈ pending key ∨ m = message ∧ key.1 = org ∧ key.2 ∈ deliveredTo := by
  unfold recordDelivered at h
  induction deliveredTo generalizing pending with
  | nil => exact .inl h
  | cons p ps ih =>
      rw [List.foldl_cons] at h
      rcases ih h with hold | ⟨rfl, horg, hp⟩
      · by_cases hkey : key = (org, p)
        · subst hkey
          rw [Function.update_self, recordPending, List.mem_append, List.mem_singleton] at hold
          rcases hold with hold | rfl
          · left
            split at hold
            · exact List.mem_of_mem_tail hold
            · exact hold
          · exact .inr ⟨rfl, rfl, List.mem_cons_self⟩
        · rw [Function.update_of_ne hkey] at hold
          exact .inl hold
      · exact .inr ⟨rfl, horg, List.mem_cons_of_mem _ hp⟩

theorem mem_dueMessages {queue : List Pending} {now : Nat} {m : String × PublishFrame}
    (h : m ∈ dueMessages queue now) : ∃ p ∈ queue, m = (p.id, p.frame) := by
  obtain ⟨p, hp, rfl⟩ := List.mem_map.mp h
  exact ⟨p, List.mem_of_mem_filter hp, rfl⟩

/-- A message that is marked as sent is otherwise as it was. -/
theorem mem_markSent {queue : List Pending} {now : Nat} {m : Pending}
    (h : m ∈ markSent queue now) :
    ∃ p ∈ queue, m.id = p.id ∧ m.frame = p.frame ∧ m.firstSent = p.firstSent := by
  obtain ⟨p, hp, rfl⟩ := List.mem_map.mp h
  refine ⟨p, hp, ?_⟩
  split
  · exact ⟨rfl, rfl, rfl⟩
  · exact ⟨rfl, rfl, rfl⟩

namespace MsgState

variable {s s' : MsgState} {act : MsgAct}

theorem Fenced.setTask (h : s.Fenced grantsOf) (r : Nat) {task : Option MsgTask}
    (htask : ∀ t, task = some t → t.Allowed grantsOf) : (s.setTask r task).Fenced grantsOf :=
  ⟨h.clients, forall_tasks_update h.tasks htask, h.pending, h.written⟩

/-- A send that went out adds a process the grants allow. -/
theorem allowed_sending {org : Option String} {frame : PublishFrame} {target : MsgTarget}
    {targets : List MsgTarget} {deliveredTo : List String} {ok : Bool}
    (h : (MsgTask.sending org frame (target :: targets) deliveredTo).Allowed grantsOf)
    (hmay : mayUseTopic target.handle.perms frame.topic = true) :
    (MsgTask.sending org frame targets
      (if ok then deliveredTo ++ [target.process] else deliveredTo)).Allowed grantsOf := by
  obtain ⟨htargets, hdelivered⟩ := h
  refine ⟨fun t ht => htargets t (List.mem_cons_of_mem _ ht), ?_⟩
  intro p hp
  cases ok with
  | false => exact hdelivered p hp
  | true =>
      rcases List.mem_append.mp hp with hold | hnew
      · exact hdelivered p hold
      · rw [List.mem_singleton.mp hnew, ← htargets target List.mem_cons_self]
        exact hmay

/-- The connection a resend goes to carries the grants of the process it is
for: either of its names leads to them. -/
theorem Fenced.grants_of_target (h : s.Fenced grantsOf) {order : List (String × MsgHandle)}
    {key : PendingKey} {target : String × MsgHandle} (horder : Lists order s.clients)
    (htarget : resendTarget order key = some target) :
    target.2.perms.orgId = key.1 ∧ target.2.perms.grants = grantsOf key := by
  obtain ⟨hmem, horg, hname⟩ := @resendTarget_spec order key target.1 target.2 htarget
  have hclient := h.clients _ _ ((horder.mem _ _).mp hmem)
  rw [horg] at hclient
  refine ⟨horg, ?_⟩
  rcases hname with hinst | hid
  · rw [MsgHandle.process, hinst] at hclient
    exact hclient.2
  · rw [hid] at hclient
    exact hclient.1

/-- Recording what was delivered keeps every queue within its grants. -/
theorem Fenced.pending_recorded (h : s.Fenced grantsOf) {org : Option String} {message : Pending}
    {deliveredTo : List String} (hto : AllowedTo grantsOf org message.frame.topic deliveredTo) :
    ∀ key, ∀ m ∈ recordDelivered org message s.pending deliveredTo key,
      grantsAllow (grantsOf key) m.frame.topic = true := by
  intro key m hm
  rcases mem_recordDelivered hm with hold | ⟨rfl, horg, hp⟩
  · exact h.pending key m hold
  · have hallowed := hto key.2 hp
    rw [← horg] at hallowed
    exact hallowed

theorem Fenced.step (h : s.Fenced grantsOf) (hd : s.Delivers) (hstep : Step s act s')
    (hgrants : SameGrants grantsOf s act s') : s'.Fenced grantsOf := by
  cases hstep with
  | connect id perms instanceGroup =>
      refine ⟨forall_clients_update h.clients ?_, h.tasks, h.pending, h.written⟩
      intro handle hnew
      obtain rfl := Option.some.inj hnew
      exact hgrants id perms instanceGroup rfl
  | disconnect id =>
      exact ⟨forall_clients_update h.clients fun _ hnew => (by cases hnew), h.tasks, h.pending,
        h.written⟩
  | @setSubscriptions id old topics add hget =>
      refine ⟨forall_clients_update h.clients ?_, h.tasks, h.pending, h.written⟩
      intro handle hnew
      obtain rfl := Option.some.inj hnew
      have hre := @MsgHandle.setSubscriptions_spec old topics add
      rw [MsgHandle.process, hre.perms, hre.instanceGroup]
      exact h.clients id old hget
  | tick elapsed => exact ⟨h.clients, h.tasks, h.pending, h.written⟩
  | publish hfree hok hid horder =>
      refine ⟨h.clients, forall_tasks_update h.tasks fun t ht => ?_, h.pending, h.written⟩
      obtain rfl := Option.some.inj ht
      refine ⟨fun t ht => ?_, fun _ hp => (by cases hp)⟩
      obtain ⟨hmem, rfl, hprocess, -⟩ := mem_selectTargets ht
      rw [hprocess]
      exact (h.clients _ _ ((horder.mem _ _).mp hmem)).2
  | @send r org frame target targets deliveredTo ok htask =>
      obtain ⟨horg, hmay⟩ := hd.tasks _ _ htask target List.mem_cons_self
      refine ⟨h.clients, forall_tasks_update h.tasks fun t ht => ?_, h.pending,
        forall_noteWritten h.written ⟨horg, hmay⟩⟩
      obtain rfl := Option.some.inj ht
      exact allowed_sending (h.tasks _ _ htask) hmay
  | done htask hqos => exact h.setTask _ fun _ ht => (by cases ht)
  | stamp htask hqos =>
      refine h.setTask _ fun t ht => ?_
      obtain rfl := Option.some.inj ht
      exact (h.tasks _ _ htask).2
  | record htask =>
      exact ⟨h.clients, forall_tasks_update h.tasks fun _ ht => (by cases ht),
        h.pending_recorded (h.tasks _ _ htask), h.written⟩
  | acknowledge id hfree hget =>
      exact h.setTask _ fun _ ht => (by obtain rfl := Option.some.inj ht; trivial)
  | @clear r key id htask =>
      refine ⟨h.clients, forall_tasks_update h.tasks fun _ ht => (by cases ht), ?_, h.written⟩
      intro key' m hm
      by_cases hkey : key' = key
      · subst hkey
        simp only [Function.update_self] at hm
        exact h.pending key' m (List.mem_of_mem_filter hm)
      · simp only [Function.update_of_ne hkey] at hm
        exact h.pending key' m hm
  | sweep hfree =>
      exact h.setTask _ fun _ ht => (by obtain rfl := Option.some.inj ht; trivial)
  | snapshot htask hnodup hkeys =>
      refine ⟨h.clients, forall_tasks_update h.tasks fun t ht => ?_, ?_, h.written⟩
      · obtain rfl := Option.some.inj ht
        intro d hd m hm
        obtain ⟨key, -, rfl⟩ := List.mem_map.mp hd
        obtain ⟨p, hp, rfl⟩ := mem_dueMessages hm
        exact h.pending key p hp
      · intro key m hm
        obtain ⟨p, hp, -, hframe, -⟩ := mem_markSent hm
        rw [hframe]
        exact h.pending key p hp
  | @pick r started now key messages due order htask horder =>
      have hdue := h.tasks _ _ htask
      refine h.setTask _ fun t ht => ?_
      obtain rfl := Option.some.inj ht
      cases htarget : resendTarget order key with
      | none => exact fun d hd => hdue d (List.mem_cons_of_mem _ hd)
      | some target =>
          obtain ⟨horg, hgrantsOf⟩ := h.grants_of_target horder htarget
          exact ⟨horg, hgrantsOf, hdue _ List.mem_cons_self,
            fun d hd => hdue d (List.mem_cons_of_mem _ hd)⟩
  | resend ok htask =>
      obtain ⟨horg, hgr, hmessages, hdue⟩ := h.tasks _ _ htask
      refine ⟨h.clients, forall_tasks_update h.tasks fun t ht => ?_, h.pending,
        forall_noteWritten h.written ⟨horg, ?_⟩⟩
      · obtain rfl := Option.some.inj ht
        exact ⟨horg, hgr, fun m hm => hmessages m (List.mem_cons_of_mem _ hm), hdue⟩
      · rw [mayUseTopic_eq, hgr]
        exact hmessages _ List.mem_cons_self
  | next htask =>
      refine h.setTask _ fun t ht => ?_
      obtain rfl := Option.some.inj ht
      exact (h.tasks _ _ htask).2.2.2
  | giveUp htask =>
      refine ⟨h.clients, forall_tasks_update h.tasks fun _ ht => (by cases ht), ?_, h.written⟩
      intro key m hm
      exact h.pending key m (List.mem_of_mem_filter hm)

end MsgState

end Grants

/-! ## Headline -/

/-- In every run in which the connections of one name in one organization
carry the same grants, every frame is written to a connection of the
organization it was published in, whose token may use its topic. -/
theorem messages_stay (grantsOf : PendingKey → Bool × List String) (s : MsgState)
    (h : (pubsubSys.restrict (SameGrants grantsOf)).Reachable s) :
    ∀ w ∈ s.written, w.Entitled := by
  have hfenced : s.Fenced grantsOf := by
    refine h.invariant (P := fun s => s.Fenced grantsOf) ?_ ?_
    · rintro s rfl
      exact ⟨fun _ _ hc => (by cases hc), fun _ _ ht => (by cases ht), fun _ _ hm => (by cases hm),
        fun _ hw => (by cases hw)⟩
    · intro s act s' hr hs hstep
      exact hs.step (MsgState.delivers_of_reachable hr.of_restrict) hstep.1 hstep.2
  exact hfenced.written

/-! ### A delivery, and a resend to a stranger -/

section Sample

/-- A token of the organization `acme` for some topics. -/
def acmeTopics (topics : List String) : TopicPerms :=
  { ClientPerms.ofMaster with master := false, orgId := some "acme", topics := topics }

theorem lists_one {clients : String → Option MsgHandle} {id : String} {handle : MsgHandle}
    (hid : clients id = some handle) (hother : ∀ id', id' ≠ id → clients id' = none) :
    Lists [(id, handle)] clients := by
  refine ⟨List.nodup_singleton id, fun id' handle' => ?_⟩
  rw [List.mem_singleton]
  by_cases h : id' = id
  · subst h
    simp [hid, eq_comm]
  · simp [hother id' h, h]

/-- The message of the runs below. -/
def deployFrame : PublishFrame := ⟨"deploy/web", [], "m1", 1⟩

/-- The one subscriber there is. -/
def worker : MsgHandle := ⟨acmeTopics ["deploy/#"], some "worker", ["deploy/#"]⟩

theorem selectTargets_worker :
    selectTargets (some "acme") "deploy/web" [] [("a", worker)] = [⟨"worker", "a", worker⟩] := by
  decide +kernel

/-- A deployment is announced, and the subscriber is written to. -/
theorem deployment_announced :
    ∃ s, (pubsubSys.restrict (SameGrants fun _ => (false, ["deploy/#"]))).Reachable s ∧
      s.clients = Function.update (fun _ => none) "a" (some worker) ∧ s.pending = (fun _ => []) ∧
      s.tasks = Function.update (fun _ => none) 0
        (some (.sending (some "acme") deployFrame [] ["worker"])) ∧
      s.clock = 0 ∧
      s.written = [⟨"a", worker.perms, some "acme", "m1", deployFrame, none⟩] := by
  have hsub : (MsgHandle.setSubscriptions ⟨worker.perms, some "worker", []⟩ ["deploy/#"] true).1 =
      worker := by decide +kernel
  have h₀ : (pubsubSys.restrict (SameGrants fun _ => (false, ["deploy/#"]))).Reachable {} :=
    .init rfl
  have h₁ := h₀.step ⟨MsgState.Step.connect "a" worker.perms (some "worker"), by
    intro id perms inst hact
    cases hact
    exact ⟨rfl, rfl⟩⟩
  have h₂ := h₁.step ⟨@MsgState.Step.setSubscriptions _ "a" _ ["deploy/#"] true rfl, by
    intro id perms inst hact
    cases hact⟩
  rw [hsub] at h₂
  have h₃ := h₂.step ⟨@MsgState.Step.publish _ 0 (some "acme") "deploy/web" [] (.client "c") 1 "m1"
    [("a", worker)] rfl (by decide +kernel) rfl (lists_one (by simp [MsgState.setClient]) fun id hid => by
      simp [MsgState.setClient, hid]), by
    intro id perms inst hact
    cases hact⟩
  rw [selectTargets_worker] at h₃
  have h₄ := h₃.step ⟨MsgState.Step.send (r := 0) true rfl, by
    intro id perms inst hact
    cases hact⟩
  exact ⟨_, h₄, Function.update_idem _ _ _, rfl, Function.update_idem _ _ _, rfl, rfl⟩

theorem messages_stay_announced :
    ∃ s, (pubsubSys.restrict (SameGrants fun _ => (false, ["deploy/#"]))).Reachable s ∧
      s.written = [⟨"a", worker.perms, some "acme", "m1", deployFrame, none⟩] ∧
      ∀ w ∈ s.written, w.Entitled := by
  obtain ⟨s, hs, -, -, -, -, hwritten⟩ := deployment_announced
  exact ⟨s, hs, hwritten, messages_stay _ s hs⟩

/-- The message in the queue of the subscriber's process. -/
def deployPending : Pending := ⟨"m1", "deploy/web", deployFrame, 0, 0, 1⟩

theorem due_deployPending (key : PendingKey) :
    key ∈ [(some "acme", "worker")] ↔
      dueMessages (recordDelivered (some "acme") deployPending (fun _ => []) ["worker"] key)
        (0 + ackTimeout) ≠ [] := by
  rw [List.mem_singleton]
  by_cases hkey : key = (some "acme", "worker")
  · subst hkey
    simp [recordDelivered, recordPending, maxPendingPerProcess, dueMessages, Pending.due,
      deployPending]
  · simp [recordDelivered, hkey, dueMessages]

theorem dueMessages_deployPending :
    dueMessages (recordDelivered (some "acme") deployPending (fun _ => []) ["worker"]
      (some "acme", "worker")) (0 + ackTimeout) = [("m1", deployFrame)] := by
  simp [recordDelivered, recordPending, maxPendingPerProcess, dueMessages, Pending.due,
    deployPending]

/-- A connection of the same name, without any topics. -/
def stranger : MsgHandle := ⟨acmeTopics [], some "worker", []⟩

/-- The message is recorded, the subscriber leaves, the stranger comes, and
the message is not acknowledged in time. -/
theorem stranger_connected :
    ∃ s, pubsubSys.Reachable s ∧ s.clients "b" = some stranger ∧
      (∀ id, id ≠ "b" → s.clients id = none) ∧
      s.pending = recordDelivered (some "acme") deployPending (fun _ => []) ["worker"] ∧
      s.tasks 0 = none ∧ s.clock = 0 + ackTimeout := by
  obtain ⟨s, hs, hclients, hpending, htasks, hclock, -⟩ := deployment_announced
  have h₁ := hs.of_restrict.step (MsgState.Step.stamp (r := 0) (by rw [htasks]; rfl) (by decide))
  have h₂ := h₁.step (MsgState.Step.record (r := 0) rfl)
  have h₃ := h₂.step (MsgState.Step.disconnect "a")
  have h₄ := h₃.step (MsgState.Step.connect "b" stranger.perms (some "worker"))
  have h₅ := h₄.step (MsgState.Step.tick ackTimeout)
  refine ⟨_, h₅, rfl, fun id hid => ?_, ?_, rfl, ?_⟩
  · show Function.update (Function.update s.clients "a" none) "b" _ id = none
    rw [Function.update_of_ne hid, hclients]
    by_cases ha : id = "a"
    · rw [ha, Function.update_self]
    · rw [Function.update_of_ne ha, Function.update_of_ne ha]
  · show recordDelivered _ ⟨_, _, _, s.clock, s.clock, _⟩ s.pending _ = _
    rw [hpending, hclock]
    rfl
  · rw [← hclock]
    rfl

/-- The stranger is sent the message again: nothing asks about the topic. -/
theorem resend_to_stranger :
    ∃ s, pubsubSys.Reachable s ∧
      ∃ w ∈ s.written, w.perms = acmeTopics [] ∧ w.frame = deployFrame ∧ ¬ w.Entitled := by
  obtain ⟨s, hs, hclient, hothers, hpending, hfree, hclock⟩ := stranger_connected
  have hkeys : ∀ key, key ∈ [(some "acme", "worker")] ↔
      dueMessages (s.pending key) (0 + ackTimeout) ≠ [] := by
    rw [hpending]
    exact due_deployPending
  have h₀ := hs.step (MsgState.Step.sweep hfree)
  rw [hclock] at h₀
  have h₁ := h₀.step (MsgState.Step.snapshot (r := 0) rfl (List.nodup_singleton _) hkeys)
  have hdue : dueMessages (s.pending (some "acme", "worker")) (0 + ackTimeout) =
      [("m1", deployFrame)] := by
    rw [hpending]
    exact dueMessages_deployPending
  rw [List.map_singleton, MsgState.setTask_pending, hdue] at h₁
  have htarget : resendTarget [("b", stranger)] (some "acme", "worker") = some ("b", stranger) := by
    decide +kernel
  have h₂ := h₁.step (MsgState.Step.pick (r := 0) rfl (lists_one hclient hothers))
  rw [htarget] at h₂
  have h₃ := h₂.step (MsgState.Step.resend (r := 0) true rfl)
  have hmay : mayUseTopic stranger.perms deployFrame.topic ≠ true := by decide +kernel
  exact ⟨_, h₃, _, List.mem_cons_self, rfl, rfl, fun h => hmay h.2⟩

end Sample

end Aperio
