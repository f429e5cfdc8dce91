import Aperio.ListenerChange
import Aperio.ListenerQuota

/-!
# What a listener is shown as

Two things a reader of the listener list relies on: an entry shown as
listening or draining has a task with its socket, and an organization whose
listeners and running drains do not fit its policy has all of them suspended.

`drain` sets an entry's status without asking whether there is anything to
drain. `DrainsLooping` is a run that drains only listeners whose task is in
its loop, or has checked that it may enter it.
-/

namespace Aperio

/-- What has to have a socket behind it. -/
def ListenerState.live : ListenerState → Bool
  | .listening | .draining => true
  | .disabled | .binding | .suspended | .failed => false

/-- The task starts with a socket in hand. -/
def ListenerPhase.staged : ListenerPhase → Bool
  | .starting _ socket => socket
  | .bound _ | .listening _ | .returned _ | .retrying _ | .finished => false

namespace ExposeEntry

variable {e e' : ExposeEntry} {task : ListenerTask}

/-- Shown as listening or draining. -/
def Shown (e : ExposeEntry) : Prop :=
  e.runtime.status = .listening ∨ e.runtime.status = .draining

def Truthful (e : ExposeEntry) : Prop :=
  e.Shown → e.holdsSocket

/-- The task has passed its start check, and its socket is bound. -/
def Looping (e : ExposeEntry) : Prop :=
  ∃ task attempt, e.task = some task ∧
    (task.phase = .bound attempt ∨ task.phase = .listening attempt)

/-- A task that was just given its socket may go on with it. -/
def Starts (e : ExposeEntry) : Prop :=
  ∀ task attempt, e.task = some task → task.phase = .starting attempt true →
    e.runtime.accepting = true ∧ e.runtime.terminate = false

theorem Looping.running (h : e.Looping) : e.running := by
  obtain ⟨task, attempt, htask, hphase | hphase⟩ := h
  · simp [ExposeEntry.running, htask, hphase, ListenerPhase.isFinished]
  · simp [ExposeEntry.running, htask, hphase, ListenerPhase.isFinished]

theorem shown_iff : e.Shown ↔ e.runtime.status.live = true := by
  unfold Shown
  cases e.runtime.status with
  | listening => exact iff_of_true (.inl rfl) rfl
  | draining => exact iff_of_true (.inr rfl) rfl
  | _ => simp [ListenerState.live]

theorem not_shown (h : e.runtime.status.live = false) : e.Truthful := by
  intro hshown
  cases h.symm.trans (shown_iff.mp hshown)

theorem starts_of_phase (htask : e.task = some task) (hphase : task.phase.staged = false) :
    e.Starts := by
  intro task' attempt htask' hstarting
  obtain rfl := Option.some.inj (htask.symm.trans htask')
  rw [hstarting] at hphase
  cases hphase

/-- What a listener is shown as, and what makes it stay so. -/
structure Honest (e : ExposeEntry) : Prop where
  truthful : e.Truthful
  starts : e.Starts

theorem honest_of_idle (h : e.task = none) (hstatus : e.runtime.status.live = false) : e.Honest :=
  ⟨not_shown hstatus, fun task attempt htask => by cases h.symm.trans htask⟩

theorem honest_of_holds (h : e'.task = some task) (hholds : task.phase.holds = true)
    (hphase : task.phase.staged = false) : e'.Honest :=
  ⟨fun _ => by rw [holdsSocket, h, Option.any_some, hholds], starts_of_phase h hphase⟩

/-- A task without a socket steps on, and the status with it. -/
theorem honest_of_hidden (h : e'.task = some task) (hstatus : e'.runtime.status.live = false)
    (hphase : task.phase.staged = false) : e'.Honest :=
  ⟨not_shown hstatus, starts_of_phase h hphase⟩

theorem Truthful.hidden (h : e.Truthful) (htask : e.task = some task)
    (hphase : task.phase.holds = false) : e.runtime.status.live = false := by
  refine Bool.eq_false_iff.mpr fun hlive => ?_
  have hholds := h (shown_iff.mpr hlive)
  rw [holdsSocket, htask, Option.any_some, hphase] at hholds
  cases hholds

theorem leave_hidden (why : LeaveReason) : (e.leave why).runtime.status.live = false := by
  cases why with
  | done =>
      simp only [leave]
      split
      · next hstatus =>
          rcases hstatus with hstatus | hstatus
          · rw [hstatus]
            rfl
          · rw [hstatus]
            rfl
      · rfl
  | orgGone => rfl
  | socketFails what => rfl

theorem Honest.act {a : ListenerAct} (h : e.Honest) (htask : e.task = some task)
    (hact : e.act task a = some e') : e'.Honest := by
  have hhidden : ∀ phase, task.phase = phase → phase.holds = false →
      e.runtime.status.live = false := by
    rintro phase rfl hphase
    exact h.truthful.hidden htask hphase
  cases act_step hact with
  | @stop attempt socket hphase hstop =>
      cases socket with
      | true =>
          obtain ⟨haccepting, hterminate⟩ := h.starts task attempt htask hphase
          simp [haccepting, hterminate] at hstop
      | false => exact honest_of_hidden rfl (hhidden _ hphase rfl) rfl
  | bind hphase => exact honest_of_holds rfl rfl rfl
  | bindFails error hphase => exact honest_of_hidden rfl rfl rfl
  | exhaust hphase => exact honest_of_hidden rfl rfl rfl
  | listen hphase => exact honest_of_holds rfl rfl rfl
  | leave why hphase => exact honest_of_hidden rfl (leave_hidden why) rfl
  | finish hphase => exact honest_of_hidden rfl (hhidden _ hphase rfl) rfl
  | retry message hphase => exact honest_of_hidden rfl rfl rfl
  | giveUp message hphase => exact honest_of_hidden rfl rfl rfl
  | wake hphase => exact honest_of_hidden rfl (hhidden _ hphase rfl) rfl
  | opened session hphase => exact ⟨h.truthful, h.starts⟩
  | closed session => exact ⟨h.truthful, h.starts⟩

end ExposeEntry

namespace ExposeManager

variable {s s' : ExposeManager}

/-- Every entry's status is the truth. -/
def Truthful (s : ExposeManager) : Prop :=
  ∀ e ∈ s.entries, e.Truthful

/-- What holds a socket fits the organization's policy, or nothing of the
organization is shown as anything but suspended. -/
def WithinQuota (s : ExposeManager) : Prop :=
  ∀ org policy, s.document.policyOf org = some policy →
    policy.fits (s.quotaSpecs s.document.resources) ∨
      ∀ e ∈ s.entries, e.resource.spec.orgId = org → e.runtime.status = .suspended

/-- A drain begins only where the listener's task loops. -/
def DrainsLooping (s : ExposeManager) : ExposeAct → ExposeManager → Prop
  | .drain _ id _, _ => ∀ e ∈ s.entries, e.resource.id = id → e.Looping
  | _, _ => True

/-! ## The quota -/

/-- Shown as suspended. -/
def Suspended (e : ExposeEntry) : Prop :=
  e.runtime.status = .suspended

theorem suspended_ofStatus : OfStatus Suspended :=
  ⟨fun _ h => h, fun _ _ _ hstatus h => hstatus.trans h⟩

theorem Settled.withinQuota (h : s.Settled Suspended) : s.WithinQuota := by
  intro org policy hpolicy
  rw [← orgAllowed_of_policy hpolicy]
  exact (h org).imp id fun hall e he horg => (hall e he horg).1

/-! ## Starts and changes -/

theorem spawnEntry_honest {generation : Nat} {staged : Staged} {r : ExposeResource}
    (hsocket : r.id ∈ staged.sockets → r.spec.enabled = true ∧ staged.status r = .listening)
    (hlistening : staged.status r = .listening → r.id ∈ staged.sockets) :
    (spawnEntry generation staged r).Honest := by
  by_cases hstaged : r.id ∈ staged.sockets
  · obtain ⟨hon, hstatus⟩ := hsocket hstaged
    constructor
    · intro _
      simp [ExposeEntry.holdsSocket, spawnEntry, hstaged, ListenerPhase.holds]
    · intro task attempt _ _
      simp [spawnEntry, ExposeRuntime.setStatus, ExposeRuntime.fresh, hstatus, hon]
  · refine ExposeEntry.honest_of_idle ?_ ?_
    · simp [spawnEntry, hstaged]
    · show (staged.status r).live = false
      have hidle : staged.status r ≠ .listening := fun hstatus => hstaged (hlistening hstatus)
      unfold Staged.status at hidle ⊢
      split
      · rfl
      · next hsusp =>
          rw [if_neg hsusp] at hidle
          split
          · rfl
          · next hon => exact absurd (if_neg hon) hidle

theorem update_honest {e : ExposeEntry} (h : e.Honest) (rule : ExposeResource) :
    (e.update rule).Honest := by
  simp only [ExposeEntry.update]
  split
  · exact ⟨h.truthful, h.starts⟩
  · exact ⟨h.truthful, h.starts⟩

theorem Rebuilt.honest {document : ExposeDocument} {staged : Staged} {r : ExposeResource}
    {e : ExposeEntry} (hs : ∀ e ∈ s.entries, e.Honest) (h : s.Rebuilt document staged r e) :
    e.Honest := by
  cases h with
  | kept mem => exact hs _ mem
  | updated mem => exact update_honest (hs _ mem) r
  | spawned status socket listening =>
      refine spawnEntry_honest (fun hstaged => ?_) fun hlisten => ?_
      · exact ⟨(socket hstaged).1, status.mpr (socket hstaged)⟩
      · obtain ⟨hon, hallowed⟩ := status.mp hlisten
        exact listening hon hallowed

/-! ## Drains and new starts -/

theorem settled_drainsLooping (hs : s.Sound) (hq : s.Settled Suspended)
    {persist : Except String Unit} {id : String} {deadline : Nat}
    (hloop : ∀ e ∈ s.entries, e.resource.id = id → e.Looping) :
    (s.drain persist id deadline).2.Settled Suspended := by
  refine settled_drain hs hq persist id deadline fun e he saved hid _ hidle _ => ?_
  -- nothing of a suspended organization runs
  cases hidle.symm.trans (hloop e he hid).running

theorem drained_honest (hs : ∀ e ∈ s.entries, e.Honest) {id : String} {saved : ExposeResource}
    {deadline : Nat} {e : ExposeEntry} (he : e ∈ s.entries)
    (hloop : e.resource.id = id → e.Looping) : (drained id saved deadline e).Honest := by
  simp only [drained]
  split
  · next hid =>
      obtain ⟨task, attempt, htask, hphase | hphase⟩ := hloop hid
      · exact ExposeEntry.honest_of_holds (show _ = some task from htask) (by rw [hphase]; rfl)
          (by rw [hphase]; rfl)
      · exact ExposeEntry.honest_of_holds (show _ = some task from htask) (by rw [hphase]; rfl)
          (by rw [hphase]; rfl)
  · exact hs e he

theorem initialEntry_honest (binds : Binds) (r : ExposeResource) :
    (s.initialEntry binds r).Honest := by
  simp only [initialEntry]
  split
  · exact ExposeEntry.honest_of_idle rfl rfl
  · split
    · next hon =>
        split
        · refine ⟨fun _ => rfl, fun _ _ _ _ => ⟨?_, rfl⟩⟩
          simp [ExposeRuntime.fresh, hon]
        · exact ExposeEntry.honest_of_idle rfl rfl
    · exact ExposeEntry.honest_of_idle rfl rfl

/-! ## Every run -/

theorem honest_replace (hs : s.Sound) (hh : ∀ e ∈ s.entries, e.Honest) (binds : Binds)
    (persist : Except String Unit) (document : ExposeDocument) (allowSuspension : Bool) :
    ∀ e ∈ (s.replace binds persist document allowSuspension).2.entries, e.Honest := by
  rcases replace_cases (s := s) binds persist document allowSuspension with
    ⟨error, h | h⟩ | ⟨staged, store, hstage, hcommit, h⟩
  · rw [h]
    exact hh
  · rw [h]
    exact hh
  · rw [h]
    intro e he
    obtain ⟨r, -, hrebuilt⟩ := applied_entries hstage hs he
    exact hrebuilt.honest hh

theorem honest_drain (hh : ∀ e ∈ s.entries, e.Honest) {persist : Except String Unit} {id : String}
    {deadline : Nat} (hloop : ∀ e ∈ s.entries, e.resource.id = id → e.Looping) :
    ∀ e ∈ (s.drain persist id deadline).2.entries, e.Honest := by
  rcases drain_cases (s := s) persist id deadline with
    ⟨error, h⟩ | ⟨e, row, store, -, -, -, -, -, h⟩
  · rw [h]
    exact hh
  · rw [h]
    exact List.forall_mem_map.mpr fun e he => drained_honest hh he (hloop e he)

theorem kept_step {a : ExposeAct} (hs : s.Sound) (hh : ∀ e ∈ s.entries, e.Honest)
    (hq : s.Settled Suspended) (hstep : s.act a = some s') (hloop : s.DrainsLooping a s') :
    (∀ e ∈ s'.entries, e.Honest) ∧ s'.Settled Suspended := by
  cases a with
  | restart binds loadError =>
      obtain rfl := Option.some.inj hstep
      exact ⟨restart_entries fun m _ _ r _ => initialEntry_honest binds r,
        settled_restart suspended_ofStatus binds loadError⟩
  | replace binds persist document allowSuspension =>
      obtain rfl := Option.some.inj hstep
      exact ⟨honest_replace hs hh binds persist document allowSuspension,
        settled_replace suspended_ofStatus hs hq binds persist document allowSuspension⟩
  | drain persist id deadline =>
      obtain rfl := Option.some.inj hstep
      exact ⟨honest_drain hh hloop, settled_drainsLooping hs hq hloop⟩
  | task id a =>
      obtain ⟨e, task, e', he, htask, hact, hresource, rfl⟩ := act_task hstep
      refine ⟨fun x hx => ?_, settled_put suspended_ofStatus hs hq he htask hact⟩
      rcases mem_put hx with rfl | hx
      · exact (hh e he).act htask hact
      · exact hh x hx

end ExposeManager

namespace ExposeManager

/-- `echo`, switched off. -/
def echoOff : ExposeResource :=
  { echo with spec := { echo.spec with enabled := false } }

/-- Another listener of master, on the next port. -/
def chat : ExposeResource :=
  { echo with
    id := "chat"
    spec := { echo.spec with listener := { echo.spec.listener with port := 9001 } } }

/-- Master may have one listener. -/
def onlyOne : ExposePolicy where
  orgId := "master"
  revision := 1
  allocations := [⟨.v4 0x7f000001#32, .tcp, 9000, 9001⟩]
  maxRules := 1
  maxTcpConnections := 1024
  maxUdpSessions := 0
  ingressBytesPerSecond := 4096
  egressBytesPerSecond := 4096

end ExposeManager

end Aperio
