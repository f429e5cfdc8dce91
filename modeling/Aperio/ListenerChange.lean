import Aperio.ExposeManager

/-!
# A listener change is all or nothing

`ExposeManager::replace` and `ExposeManager::drain`. Whatever fails, be it
the document's own validation, the policy of an organization, two rules on one
port, a bind or the store, the manager is what it was; only listeners that
were retired before and have ended since are forgotten on the way to the
store. A change that succeeds is the document that was asked for, with an
entry for each of its resources, and leaves alone every listener whose
resource it does not change.

The handler of a request waits for the tasks that a change ends, and is dropped
there when its caller hangs up. By then the document is stored and the entries
have been taken apart: what has not been put back is lost, while its task goes
on without the manager. All or nothing is what a manager keeps that no change
was dropped in.
-/

namespace Aperio

namespace ExposeEntry

theorem not_holdsSocket {e : ExposeEntry} (h : ¬e.running) : ¬e.holdsSocket := by
  simp only [running, holdsSocket] at h ⊢
  cases htask : e.task with
  | none => exact Bool.false_ne_true
  | some task =>
      rw [htask] at h
      simp only [Option.any_some] at h ⊢
      cases hphase : task.phase with
      | finished => exact Bool.false_ne_true
      | _ =>
          rw [hphase] at h
          exact absurd rfl h

theorem Sound.sessions_running {e : ExposeEntry} (h : e.Sound) (hrun : ¬e.running) :
    e.runtime.sessions = [] := by
  by_contra hne
  obtain ⟨task, attempt, htask, hphase⟩ := h.sessions hne
  refine hrun ?_
  rw [running_of_task htask, hphase]
  rfl

end ExposeEntry

namespace ExposeManager

/-! ## A change that is dropped -/

/-- Where a stored change waits for a task, with the entries that are back by
then and those that were retired: while a drain is released, in front of a
rule whose listener is replaced, or among those that are gone. -/
inductive Waits (s : ExposeManager) (staged : Staged) (resources : List ExposeResource) :
    List ExposeEntry → List ExposeEntry → Prop
  | releasing {e : ExposeEntry} (he : e ∈ s.entries) (hdrain : e.runtime.deadline.isSome = true)
      (hchanged : e.resource ∉ resources) (hrun : e.running = true) :
      Waits s staged resources [] []
  | replacing {before after : List ExposeResource} {r : ExposeResource} {e : ExposeEntry}
      (hsplit : resources = before ++ r :: after)
      (hold : getEntry (s.entries.map (release resources)) r.id = some e)
      (hreplaced : (rebuild s.generation staged (s.entries.map (release resources)) r).2.isSome =
        true) (hrun : e.running = true) :
      Waits s staged resources
        (before.map fun r =>
          (rebuild s.generation staged (s.entries.map (release resources)) r).1)
        (before.filterMap fun r =>
          (rebuild s.generation staged (s.entries.map (release resources)) r).2)
  | retiring {done left : List ExposeEntry} {e : ExposeEntry}
      (hgone : ((s.entries.map (release resources)).filter fun e =>
        !(resources.map (·.id)).contains e.resource.id).Perm (done ++ e :: left))
      (hrun : e.running = true) :
      Waits s staged resources
        (resources.map fun r =>
          (rebuild s.generation staged (s.entries.map (release resources)) r).1)
        ((resources.filterMap fun r =>
          (rebuild s.generation staged (s.entries.map (release resources)) r).2) ++
            done.map (·.retire))

/-- A `replace` that is dropped while it waits. The entries that are not back
are dropped with it. -/
def Dropped (s : ExposeManager) (binds : Binds) (persist : Except String Unit)
    (document : ExposeDocument) (allowSuspension : Bool) (s' : ExposeManager) : Prop :=
  ∃ staged store entries retired, s.stage binds document allowSuspension = .ok staged ∧
    s.store.commit document persist = .ok store ∧
    s.Waits staged document.resources entries retired ∧
    s' = { store, entries, retired := s.pruneRetired.retired ++ retired
           generation := s.generation + 1 }

end ExposeManager

/-- A change that is dropped. -/
structure DroppedChange where
  binds : Binds
  persist : Except String Unit
  document : ExposeDocument
  allowSuspension : Bool

/-- What may happen, with the changes whose callers hang up. -/
def changeSys : Sys ExposeManager (ExposeAct ⊕ DroppedChange) :=
  exposeSys.extend fun s d s' => s.Dropped d.binds d.persist d.document d.allowSuspension s'

namespace ExposeManager

variable {s s' : ExposeManager}

/-! ## What fails, and what succeeds -/

/-- The stored document and the entries, with their statuses, sockets and
sessions, are what they were, and so is every retired listener that still has
a task or a session. -/
structure Untouched (s s' : ExposeManager) : Prop where
  store : s'.store = s.store
  entries : s'.entries = s.entries
  retired : ∀ e, e ∈ s'.retired → e ∈ s.retired
  live : ∀ e ∈ s.retired, e.running ∨ e.runtime.sessions ≠ [] → e ∈ s'.retired

/-- The document is stored, under the next revision, the entries are its
resources, and no two listeners that are to be on conflict. -/
structure Changed (s s' : ExposeManager) (document : ExposeDocument) : Prop where
  stored : s'.document = { document with revision := s.document.revision + 1 }
  entries : s'.entries.map (·.resource) = document.resources
  apart : s'.entries.Pairwise fun a b => Apart a.resource b.resource

/-- An entry is as it was. One that is to be on and has lost its task may
have been started again: it had no socket, no session and no drain. -/
def Keeps (e : ExposeEntry) (s' : ExposeManager) : Prop :=
  e ∈ s'.entries ∨
    e.resource.spec.enabled ∧ ¬e.running ∧ ¬e.holdsSocket ∧ e.runtime.sessions = [] ∧
      e.runtime.deadline = none

theorem Untouched.refl (s : ExposeManager) : s.Untouched s :=
  ⟨rfl, rfl, fun _ => id, fun _ he _ => he⟩

theorem untouched_pruneRetired (s : ExposeManager) : s.Untouched s.pruneRetired where
  store := rfl
  entries := rfl
  retired _ he := (List.mem_filter.mp he).1
  live e he hlive := by
    refine List.mem_filter.mpr ⟨he, ?_⟩
    rw [Bool.or_eq_true, Bool.not_eq_true', List.isEmpty_eq_false_iff]
    exact hlive

theorem Sound.entries_apart (hs : s.Sound) :
    s.entries.Pairwise fun a b => Apart a.resource b.resource := by
  refine List.pairwise_map.mp ?_
  rw [hs.synced]
  exact hs.apart

/-- An unchanged resource that is still allowed keeps its listener. -/
theorem keeps_applied {document : ExposeDocument} {allowSuspension : Bool} {staged : Staged}
    {store : ExposeStore} (hs : s.Sound) (h : s.StageOk document allowSuspension staged)
    {e : ExposeEntry} (he : e ∈ s.entries) (hsame : e.resource ∈ document.resources)
    (hallowed : s.allowed e.resource document = .ok ()) :
    Keeps e (s.pruneRetired.applied store staged document.resources) := by
  have hrebuilt := rebuild_cases h hs hsame
  have hmem : (rebuild s.generation staged (s.entries.map (release document.resources))
      e.resource).1 ∈ (s.pruneRetired.applied store staged document.resources).entries :=
    List.mem_map_of_mem hsame
  have hids : DistinctIds (s.entries.map (·.resource)) := by
    rw [hs.synced]
    exact hs.ids
  have hget := getEntry_of_mem hids he
  generalize (rebuild s.generation staged (s.entries.map (release document.resources))
    e.resource).1 = next at hrebuilt hmem
  cases hrebuilt with
  | kept mem same =>
      have hget' := getEntry_of_mem hids mem
      rw [same, hget] at hget'
      rw [← Option.some.inj hget'] at hmem
      exact .inl hmem
  | @updated x mem id changed =>
      have hget' := getEntry_of_mem hids mem
      rw [id, hget] at hget'
      exact absurd (congrArg ExposeEntry.resource (Option.some.inj hget').symm) changed
  | spawned _ _ _ _ old =>
      obtain ⟨-, hreusable, hon⟩ := old e he rfl hallowed
      have hidle : ¬e.running := by
        intro hrun
        simp [reusable, hget, hrun, (hs.entries e he).accepting hon hrun] at hreusable
      exact .inr ⟨hon, hidle, ExposeEntry.not_holdsSocket hidle, (hs.entries e he).sessions_running hidle,
        (hs.entries e he).enabled hon⟩

theorem changed_applied {document : ExposeDocument} {allowSuspension : Bool} {staged : Staged}
    {store : ExposeStore} {persist : Except String Unit} (hs : s.Sound)
    (h : s.StageOk document allowSuspension staged)
    (hcommit : s.store.commit document persist = .ok store) :
    s.Changed (s.pruneRetired.applied store staged document.resources) document where
  stored := by
    obtain ⟨rfl, -, -⟩ := ExposeStore.commit_ok hcommit
    rfl
  entries := applied_resources h hs
  apart := (hs.applied h hcommit).entries_apart

theorem replace_atomic (hs : s.Sound) (binds : Binds) (persist : Except String Unit)
    (document : ExposeDocument) (allowSuspension : Bool) :
    match s.replace binds persist document allowSuspension with
    | (.error _, s') => s.Untouched s'
    | (.ok (), s') => s.Changed s' document ∧
        ∀ e ∈ s.entries, e.resource ∈ document.resources →
          s.allowed e.resource document = .ok () → Keeps e s' := by
  rcases replace_cases (s := s) binds persist document allowSuspension with
    ⟨error, h | h⟩ | ⟨staged, store, hstage, hcommit, h⟩
  · rw [h]
    exact .refl s
  · rw [h]
    exact untouched_pruneRetired s
  · rw [h]
    exact ⟨changed_applied hs hstage hcommit, fun e he hsame hallowed =>
      keeps_applied hs hstage he hsame hallowed⟩

theorem drain_atomic (hs : s.Sound) (persist : Except String Unit) (id : String)
    (deadline : Nat) :
    match s.drain persist id deadline with
    | (.error _, s') => s' = s
    | (.ok (), s') => ∃ row ∈ s.document.resources, row.id = id ∧
        s.Changed s' { s.document with
          resources := s.document.resources.map fun r => if r.id = id then drainRow row else r } ∧
        ∀ e ∈ s.entries, e.resource.id ≠ id → e ∈ s'.entries := by
  have hsound := hs.drain persist id deadline
  rcases drain_cases (s := s) persist id deadline with
    ⟨error, h⟩ | ⟨e, row, store, -, -, hrow, hid, hcommit, h⟩
  · rw [h]
  · rw [h] at hsound ⊢
    obtain ⟨rfl, -, -⟩ := ExposeStore.commit_ok hcommit
    refine ⟨row, hrow, hid, ⟨rfl, hsound.synced, hsound.entries_apart⟩, fun x hx hne => ?_⟩
    refine List.mem_map.mpr ⟨x, hx, ?_⟩
    rw [drained, if_neg hne]

end ExposeManager

/-- What fails changes nothing, and what succeeds gives the document asked for
and keeps the listeners of every resource it does not change. -/
def ExposeManager.AllOrNothing (s : ExposeManager) : Prop :=
  (∀ binds persist document allowSuspension,
    match s.replace binds persist document allowSuspension with
    | (.error _, s') => s.Untouched s'
    | (.ok (), s') => s.Changed s' document ∧
        ∀ e ∈ s.entries, e.resource ∈ document.resources →
          s.allowed e.resource document = .ok () → ExposeManager.Keeps e s') ∧
  ∀ persist id deadline,
    match s.drain persist id deadline with
    | (.error _, s') => s' = s
    | (.ok (), s') => ∃ row ∈ s.document.resources, row.id = id ∧
        s.Changed s' { s.document with
          resources := s.document.resources.map fun r =>
            if r.id = id then ExposeManager.drainRow row else r } ∧
        ∀ e ∈ s.entries, e.resource.id ≠ id → e ∈ s'.entries

namespace ExposeManager

/-- A listener of master. -/
def echo : ExposeResource where
  id := "echo"
  revision := 1
  spec := { orgId := "master", tunnel := "echo", listener := ⟨.v4 0x7f000001#32, 9000, .tcp⟩
            enabled := true, limits := .tcp 256 10 30 1024 1024 }

/-- The entry of `echo` once its task listens. -/
def echoListening : ExposeEntry where
  resource := echo
  runtime := { rule := echo, accepting := true, status := .listening }
  task := some { handle := 0, phase := .listening 0 }

/-- The manager that has `echo` listening. -/
def echoManager : ExposeManager where
  store := { document := { revision := 2, resources := [echo] }
             stored := { revision := 2, resources := [echo] } }
  entries := [echoListening]
  generation := 1

theorem echo_reachable {c : ExposeManager → ExposeAct → ExposeManager → Prop}
    (hc : ∀ s a s', (∀ persist id deadline, a ≠ .drain persist id deadline) → c s a s') :
    (exposeSys.restrict c).Reachable echoManager := by
  have h₀ : (exposeSys.restrict c).Reachable {} := .init rfl
  have h₁ := h₀.step ⟨show act _ (.replace (fun _ => .ok ()) (.ok ()) { resources := [echo] } false)
    = some _ from rfl, hc _ _ _ fun _ _ _ => nofun⟩
  have h₂ := h₁.step ⟨show act _ (.task "echo" (.check (.ok ()))) = some _ from rfl,
    hc _ _ _ fun _ _ _ => nofun⟩
  exact h₂.step ⟨show act _ (.task "echo" .listen) = some _ from rfl,
    hc _ _ _ fun _ _ _ => nofun⟩

end ExposeManager

namespace ExposeManager

/-- Another listener of master. -/
def onPort (port : Nat) : ExposeResource :=
  { echo with
    id := "chat"
    spec := { echo.spec with listener := { echo.spec.listener with port := port } } }

/-- The manager that has started two listeners. -/
def startedTwo : ExposeManager :=
  (({} : ExposeManager).replace (fun _ => .ok ()) (.ok ()) { resources := [echo, onPort 9001] }
    false).2

/-- `chat` is to move to another port. -/
def moved : DroppedChange where
  binds _ := .ok ()
  persist := .ok ()
  document := { resources := [echo, onPort 9002] }
  allowSuspension := false

/-- What is left when the caller hangs up while `chat` stops. -/
def afterMove : ExposeManager where
  store := { document := { revision := 3, resources := [echo, onPort 9002] }
             stored := { revision := 3, resources := [echo, onPort 9002] } }
  entries := startedTwo.entries.take 1
  generation := 2

theorem dropped_move : startedTwo.Dropped moved.binds moved.persist moved.document
    moved.allowSuspension afterMove :=
  ⟨{ sockets := ["chat"], errors := [] }, afterMove.store, _, _, rfl, rfl,
    @Waits.replacing _ _ _ [echo] [] (onPort 9002) _ rfl rfl rfl rfl, rfl⟩

end ExposeManager

end Aperio
