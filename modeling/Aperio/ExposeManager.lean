import Aperio.Exposes
import Aperio.Run

/-!
# The manager of public listeners

`expose_manager.rs` with `ExposeStore::commit`. An entry is a resource, the
runtime its listener task shares with the manager, and that task. A change of
the document is staged (checked, and every socket it needs is bound), then
stored, then applied; the manager's lock is held throughout, so only listener
tasks run meanwhile.

The supervisor of `spawn` and the loop of `relay::listen` are one task here,
in the steps between which the manager can come: the start check, the loop,
what follows its end, and the wait before another attempt. A task's `handle`
tells it, and the socket it was given, from every other.

Reading the clock, binding and storing are the environment's: each is an
argument of the operation. A server that shuts down is left out.
-/

namespace Aperio

/-! ## Entries -/

inductive ListenerState where
  | disabled
  | binding
  | listening
  | draining
  | suspended
  | failed
deriving Repr, DecidableEq

structure ExposeSession where
  id : String
  stop : Bool := false
deriving Repr, DecidableEq

/-- What `Runtime` and its `Control` hold, counters and history apart. -/
structure ExposeRuntime where
  rule : ExposeResource
  accepting : Bool
  terminate : Bool := false
  deadline : Option Nat := none
  status : ListenerState
  error : Option String := none
  sessions : List ExposeSession := []
deriving Repr, DecidableEq

/-- Where a listener task is. At its first start it has a socket in hand. -/
inductive ListenerPhase where
  | starting (attempt : Nat) (socket : Bool)
  | bound (attempt : Nat)
  | listening (attempt : Nat)
  | returned (attempt : Nat)
  | retrying (attempt : Nat)
  | finished
deriving Repr, DecidableEq

namespace ListenerPhase

def isFinished : ListenerPhase → Bool
  | .finished => true
  | _ => false

/-- The task has a bound socket. -/
def holds : ListenerPhase → Bool
  | .starting _ socket => socket
  | .bound _ | .listening _ => true
  | .returned _ | .retrying _ | .finished => false

end ListenerPhase

structure ListenerTask where
  handle : Nat
  phase : ListenerPhase
deriving Repr, DecidableEq

structure ExposeEntry where
  resource : ExposeResource
  runtime : ExposeRuntime
  task : Option ListenerTask := none
deriving Repr, DecidableEq

namespace ExposeRuntime

variable (r : ExposeRuntime)

/-- `Runtime::new`. -/
def fresh (rule : ExposeResource) (status : ListenerState) : ExposeRuntime where
  rule := rule
  accepting := rule.spec.enabled && status == .listening
  status := status

/-- `Runtime::status`. -/
def setStatus (status : ListenerState) (error : Option String) : ExposeRuntime :=
  { r with status, error }

def stopSessions : ExposeRuntime :=
  { r with sessions := r.sessions.map ({ · with stop := true }) }

/-- `Runtime::stop`, at once or by a deadline. -/
def stop : Option Nat → ExposeRuntime
  | none =>
    { r.stopSessions with
      accepting := false, terminate := true, deadline := none
      status := .disabled, error := none }
  | some deadline =>
    { r with
      accepting := false, terminate := false, deadline := some deadline
      status := .draining, error := none }

end ExposeRuntime

namespace ExposeEntry

variable (e : ExposeEntry)

/-- `task.is_some_and(|t| !t.is_finished())`. -/
def running : Bool :=
  e.task.any (!·.phase.isFinished)

/-- The entry's task has a bound socket. -/
def holdsSocket : Bool :=
  e.task.any (·.phase.holds)

/-- `finish_task`: the task ends, and its sessions with it. -/
def finish : ExposeEntry :=
  { e with task := none, runtime := { e.runtime with sessions := [] } }

/-- Stopped and waited for. -/
def retire : ExposeEntry :=
  { e with runtime := e.runtime.stop none }.finish

/-- A rule changed under a listener that stays. -/
def update (rule : ExposeResource) : ExposeEntry :=
  let runtime :=
    if e.resource.spec.limits ≠ rule.spec.limits ∨ e.resource.spec.allowedIps ≠ rule.spec.allowedIps
    then e.runtime.stopSessions else e.runtime
  { e with resource := rule, runtime := { runtime with rule } }

end ExposeEntry

/-! ## The store -/

/-- `stored` is the row of the database. -/
structure ExposeStore where
  document : ExposeDocument := {}
  loadError : Option String := none
  stored : ExposeDocument := {}
deriving Repr, DecidableEq

/-- `ExposeStore::commit`; `persist` is what the database makes of it. -/
def ExposeStore.commit (store : ExposeStore) (next : ExposeDocument)
    (persist : Except String Unit) : Except String ExposeStore := do
  if store.loadError.isSome then
    throw "expose store requires recovery; invalid stored configuration was preserved"
  if 18446744073709551615 ≤ store.document.revision then throw "expose revision exhausted"
  let next := { next with revision := store.document.revision + 1 }
  next.validate
  persist
  return { store with document := next, stored := next }

/-! ## The manager -/

/-- `generation` counts the times tasks were spawned, which names them. -/
structure ExposeManager where
  store : ExposeStore := {}
  entries : List ExposeEntry := []
  retired : List ExposeEntry := []
  generation : Nat := 0
deriving Repr, DecidableEq

/-- What binding a listener gives. -/
abbrev Binds := ExposeListener → Except String Unit

def getEntry (entries : List ExposeEntry) (id : String) : Option ExposeEntry :=
  entries.find? (·.resource.id == id)

namespace ExposeManager

variable (s : ExposeManager)

def document : ExposeDocument :=
  s.store.document

def resource (id : String) : Option ExposeResource :=
  (getEntry s.entries id).map (·.resource)

/-- Whether a resource that is off still has its reservation: its drain
runs. -/
def reserved (r : ExposeResource) : Bool :=
  (getEntry s.entries r.id).any fun e =>
    e.resource == r && e.runtime.deadline.isSome && e.running

/-- The specifications as the quota counts them. -/
def quotaSpecs (resources : List ExposeResource) : List ExposeSpec :=
  resources.map fun r => if !r.spec.enabled && s.reserved r then { r.spec with enabled := true }
    else r.spec

def allowed (r : ExposeResource) (document : ExposeDocument) : Except String Unit :=
  match document.policyOf r.spec.orgId with
  | none =>
    if r.spec.orgId = "master" then .ok ()
    else .error "no server expose allocation for this organization"
  | some policy =>
    if !policy.allows r.spec then .error "listener is outside the organization's port allocation"
    else if !policy.fits (s.quotaSpecs document.resources) then
      .error "organization expose quota exceeded"
    else .ok ()

/-! ### Staging -/

/-- An organization's resources and policy are what they were. -/
def unchanged (document : ExposeDocument) (org : String) : Bool :=
  let previous := (s.entries.map (·.resource)).filter (·.spec.orgId == org)
  let desired := document.resources.filter (·.spec.orgId == org)
  previous.length == desired.length && desired.all (previous.contains ·) &&
    s.document.policyOf org == document.policyOf org

/-- The rules, next to those before them: the errors of the suspended ones. -/
def checkRules (document : ExposeDocument) (allowSuspension : Bool) :
    List ExposeResource → List ExposeResource → Except String (List (String × String))
  | _, [] => .ok []
  | before, r :: rest =>
    let conflicting := r.spec.enabled && before.any fun other =>
      other.spec.enabled && other.spec.listener.conflictsWith r.spec.listener
    match s.allowed r document with
    | .error error =>
      if !allowSuspension && !s.unchanged document r.spec.orgId then .error error
      else if conflicting then .error "port conflicts with another expose rule"
      else (checkRules document allowSuspension (before ++ [r]) rest).map ((r.id, error) :: ·)
    | .ok () =>
      if conflicting then .error "port conflicts with another expose rule"
      else checkRules document allowSuspension (before ++ [r]) rest

/-- An unchanged resource that failed stays as it is until it is retried. -/
def staysFailed (r : ExposeResource) : Bool :=
  (getEntry s.entries r.id).any fun e => e.resource == r && e.runtime.status == .failed

/-- The rule's listener runs and can be kept. -/
def reusable (r : ExposeResource) : Bool :=
  (getEntry s.entries r.id).any fun e =>
    e.resource.spec.listener == r.spec.listener && e.running && e.runtime.accepting

def suspends (errors : List (String × String)) (id : String) : Bool :=
  errors.any (·.1 == id)

/-- Binds what has to be bound: the ids of the rules with a staged socket. -/
def bindRules (binds : Binds) (errors : List (String × String)) :
    List ExposeResource → Except String (List String)
  | [] => .ok []
  | r :: rest =>
    if !r.spec.enabled || suspends errors r.id || s.staysFailed r || s.reusable r then
      bindRules binds errors rest
    else
      match binds r.spec.listener with
      | .error error => .error error
      | .ok () => (bindRules binds errors rest).map (r.id :: ·)

structure Staged where
  sockets : List String
  errors : List (String × String)

def stage (binds : Binds) (document : ExposeDocument) (allowSuspension : Bool) :
    Except String Staged :=
  match document.validate with
  | .error error => .error error
  | .ok () =>
    match s.checkRules document allowSuspension [] document.resources with
    | .error error => .error error
    | .ok errors => (s.bindRules binds errors document.resources).map ({ sockets := ·, errors })

/-- `preview`: the same checks, and the sockets are dropped. -/
def preview (binds : Binds) (document : ExposeDocument) : Except String Unit :=
  (s.stage binds document false).map fun _ => ()

/-! ### Applying -/

def pruneRetired : ExposeManager :=
  { s with retired := s.retired.filter fun e => e.running || !e.runtime.sessions.isEmpty }

/-- A drain whose rule changed or went is over, before anything starts. -/
def release (resources : List ExposeResource) (e : ExposeEntry) : ExposeEntry :=
  if e.runtime.deadline.isSome && !resources.contains e.resource then e.retire else e

def Staged.status (staged : Staged) (r : ExposeResource) : ListenerState :=
  if suspends staged.errors r.id then .suspended
  else if !r.spec.enabled then .disabled
  else .listening

/-- A new runtime, and its task when there is a socket for it. -/
def spawnEntry (generation : Nat) (staged : Staged) (r : ExposeResource) : ExposeEntry :=
  let status := staged.status r
  { resource := r
    runtime := (ExposeRuntime.fresh r status).setStatus status (staged.errors.lookup r.id)
    task :=
      if staged.sockets.contains r.id then
        some { handle := generation, phase := .starting 0 true }
      else none }

/-- The entry of a rule in the next state, and the one it replaces. -/
def rebuild (generation : Nat) (staged : Staged) (old : List ExposeEntry) (r : ExposeResource) :
    ExposeEntry × Option ExposeEntry :=
  match getEntry old r.id with
  | some e =>
    if e.resource = r ∧ !staged.sockets.contains r.id ∧ !suspends staged.errors r.id then (e, none)
    else if staged.status r = .listening ∧ !staged.sockets.contains r.id then (e.update r, none)
    else (spawnEntry generation staged r, some e.retire)
  | none => (spawnEntry generation staged r, none)

def applied (store : ExposeStore) (staged : Staged) (resources : List ExposeResource) :
    ExposeManager :=
  let old := s.entries.map (release resources)
  let gone := old.filter fun e => !(resources.map (·.id)).contains e.resource.id
  { store
    entries := resources.map fun r => (rebuild s.generation staged old r).1
    retired := s.retired ++ resources.filterMap (fun r => (rebuild s.generation staged old r).2) ++
      gone.map (·.retire)
    generation := s.generation + 1 }

/-- `replace`, which is `apply` with the document to be stored. -/
def replace (binds : Binds) (persist : Except String Unit) (document : ExposeDocument)
    (allowSuspension : Bool) : Except String Unit × ExposeManager :=
  match s.stage binds document allowSuspension with
  | .error error => (.error error, s)
  | .ok staged =>
    match s.store.commit document persist with
    | .error error => (.error ("persistence: " ++ error), s.pruneRetired)
    | .ok store => (.ok (), s.pruneRetired.applied store staged document.resources)

/-! ### The other operations -/

/-- The row of a drain. The revision is a `u64`. -/
def drainRow (r : ExposeResource) : ExposeResource :=
  { r with
    revision := (r.revision + 1) % 18446744073709551616
    spec := { r.spec with enabled := false } }

/-- `drain`; `deadline` is the moment it ends at. One row has the id. -/
def drain (persist : Except String Unit) (id : String) (deadline : Nat) :
    Except String Unit × ExposeManager :=
  match getEntry s.entries id, s.document.resources.find? (·.id == id) with
  | some _, some row =>
    let saved := drainRow row
    let resources := s.document.resources.map fun r => if r.id = id then saved else r
    match s.store.commit { s.document with resources } persist with
    | .error error => (.error ("persistence: " ++ error), s)
    | .ok store =>
      (.ok (), { s with
        store
        entries := s.entries.map fun e =>
          if e.resource.id = id then
            { e with
              resource := saved
              runtime := { e.runtime with rule := saved }.stop (some deadline) }
          else e })
  | _, _ => (.error "unknown expose", s)

/-- The first entry of a rule. -/
def initialEntry (binds : Binds) (r : ExposeResource) : ExposeEntry :=
  match s.allowed r s.document with
  | .error error =>
    { resource := r, runtime := (ExposeRuntime.fresh r .suspended).setStatus .suspended error }
  | .ok () =>
    if r.spec.enabled then
      match binds r.spec.listener with
      | .ok () =>
        { resource := r
          runtime := ExposeRuntime.fresh r .listening
          task := some { handle := s.generation, phase := .starting 0 true } }
      | .error why =>
        { resource := r, runtime := (ExposeRuntime.fresh r .failed).setStatus .failed why }
    else { resource := r, runtime := ExposeRuntime.fresh r .disabled }

/-- `initialize`, of one rule: the entries before it are there. -/
def initializeRule (binds : Binds) (s : ExposeManager) (r : ExposeResource) : ExposeManager :=
  { s with entries := s.entries ++ [s.initialEntry binds r] }

/-- `load` and `initialize`: the process starts again, from what is stored
when that can be read. -/
def restart (binds : Binds) (loadError : Option String) : ExposeManager :=
  let document := if loadError.isSome then {} else s.store.stored
  document.resources.foldl (initializeRule binds)
    { store := { document, loadError, stored := s.store.stored }, generation := s.generation + 1 }

end ExposeManager

/-! ## Listener tasks -/

/-- Why the loop of `listen` ends: it was told to or has nothing left to do,
its organization is gone, or its socket fails. -/
inductive LeaveReason where
  | done
  | orgGone
  | socketFails (what : String)

inductive ListenerAct where
  /-- The check at the head of an attempt; `bind` is used by a later one. -/
  | check (bind : Except String Unit)
  | listen
  | leave (why : LeaveReason)
  /-- The supervisor looks at what the loop left. -/
  | supervise
  | wake
  | opened (session : String)
  | closed (session : String)

namespace ExposeEntry

variable (e : ExposeEntry)

def enter (task : ListenerTask) (phase : ListenerPhase) : ExposeEntry :=
  { e with task := some { task with phase } }

def failing (message : String) : ExposeEntry :=
  { e with runtime := e.runtime.setStatus .failed (some message) }

/-- No attempt is left. -/
def exhausted (task : ListenerTask) : ExposeEntry :=
  (e.failing "listener recovery exhausted; retry from management API").enter task .finished

def leave : LeaveReason → ExposeEntry
  | .done =>
    if e.runtime.status = .suspended ∨ e.runtime.status = .failed then e
    else { e with runtime := e.runtime.setStatus .disabled none }
  | .orgGone =>
    { e with runtime := e.runtime.setStatus .suspended (some "organization no longer exists") }
  | .socketFails what => e.failing ("repeated socket " ++ what ++ " failures")

def act (task : ListenerTask) : ListenerAct → Option ExposeEntry
  | .check bind =>
    match task.phase with
    | .starting attempt socket =>
      if e.runtime.terminate ∨ ¬e.runtime.accepting then some (e.enter task .finished)
      else if socket then some (e.enter task (.bound attempt))
      else
        match bind with
        | .ok () => some (e.enter task (.bound attempt))
        | .error error =>
          if attempt = 3 then some (e.exhausted task)
          else some ((e.failing ("recovery bind failed: " ++ error)).enter task (.retrying attempt))
    | _ => none
  | .listen =>
    match task.phase with
    | .bound attempt =>
      some ({ e with runtime := e.runtime.setStatus .listening none }.enter task (.listening attempt))
    | _ => none
  | .leave why =>
    match task.phase with
    | .listening attempt =>
      let left := e.leave why
      some ({ left with runtime := { left.runtime with sessions := [] } }.enter task
        (.returned attempt))
    | _ => none
  | .supervise =>
    match task.phase with
    | .returned attempt =>
      if e.runtime.terminate ∨ ¬e.runtime.accepting ∨ e.runtime.status = .suspended then
        some (e.enter task .finished)
      else
        let failed := e.failing
          ("listener exited unexpectedly; recovery attempt " ++ toString attempt ++ "/3")
        let stopped := { failed with runtime := failed.runtime.stopSessions }
        if attempt < 3 then some (stopped.enter task (.retrying attempt))
        else some (stopped.exhausted task)
    | _ => none
  | .wake =>
    match task.phase with
    | .retrying attempt => some (e.enter task (.starting (attempt + 1) false))
    | _ => none
  | .opened session =>
    match task.phase with
    | .listening _ =>
      if e.runtime.accepting then
        some { e with
          runtime := { e.runtime with sessions := e.runtime.sessions ++ [{ id := session }] } }
      else none
    | _ => none
  | .closed session =>
    some { e with
      runtime := { e.runtime with sessions := e.runtime.sessions.filter (·.id != session) } }

end ExposeEntry

/-! ## Runs -/

inductive ExposeAct where
  | restart (binds : Binds) (loadError : Option String)
  | replace (binds : Binds) (persist : Except String Unit) (document : ExposeDocument)
      (allowSuspension : Bool)
  | drain (persist : Except String Unit) (id : String) (deadline : Nat)
  | task (id : String) (act : ListenerAct)

namespace ExposeManager

def act (s : ExposeManager) : ExposeAct → Option ExposeManager
  | .restart binds loadError => some (s.restart binds loadError)
  | .replace binds persist document allowSuspension =>
    some (s.replace binds persist document allowSuspension).2
  | .drain persist id deadline => some (s.drain persist id deadline).2
  | .task id act => do
    let e ← getEntry s.entries id
    let task ← e.task
    let e' ← e.act task act
    return { s with entries := s.entries.map fun x => if x.resource.id = id then e' else x }

end ExposeManager

def exposeSys : Sys ExposeManager ExposeAct where
  init s := s = {}
  step s a s' := s.act a = some s'

/-! ## What each operation does -/

theorem getEntry_some {entries : List ExposeEntry} {id : String} {e : ExposeEntry}
    (h : getEntry entries id = some e) : e ∈ entries ∧ e.resource.id = id :=
  ⟨List.mem_of_find?_eq_some h, by simpa using List.find?_some h⟩

/-- One entry has an id. -/
def DistinctIds (resources : List ExposeResource) : Prop :=
  (resources.map (·.id)).Nodup

theorem DistinctIds.eq {resources : List ExposeResource} (h : DistinctIds resources)
    {a b : ExposeResource} (ha : a ∈ resources) (hb : b ∈ resources) (hid : a.id = b.id) : a = b :=
  List.inj_on_of_nodup_map h ha hb hid

theorem getEntry_of_mem {entries : List ExposeEntry}
    (h : DistinctIds (entries.map (·.resource))) {e : ExposeEntry} (he : e ∈ entries) :
    getEntry entries e.resource.id = some e := by
  have hnodup : (entries.map fun x => x.resource.id).Nodup := by
    rw [DistinctIds, List.map_map] at h
    exact h
  cases hget : getEntry entries e.resource.id with
  | none => exact absurd (List.find?_eq_none.mp hget e he) (by simp)
  | some x =>
      obtain ⟨hx, hid⟩ := getEntry_some hget
      rw [List.inj_on_of_nodup_map hnodup hx he hid]

/-- The two cannot both be bound at once, or are not both to be. -/
def Apart (a b : ExposeResource) : Prop :=
  a.spec.enabled → b.spec.enabled → a.spec.listener.conflictsWith b.spec.listener = false

namespace ExposeManager

variable {s s' : ExposeManager}

/-- The errors of the rules that are not allowed. -/
def errorsOf (s : ExposeManager) (document : ExposeDocument) (rules : List ExposeResource) :
    List (String × String) :=
  rules.filterMap fun r =>
    match s.allowed r document with
    | .error error => some (r.id, error)
    | .ok () => none

/-- The rule is to listen, and there is no socket for it. -/
def needsSocket (s : ExposeManager) (errors : List (String × String)) (r : ExposeResource) : Bool :=
  r.spec.enabled && !suspends errors r.id && !s.staysFailed r && !s.reusable r

theorem checkRules_ok {document : ExposeDocument} {allowSuspension : Bool}
    {before rest : List ExposeResource} {errors : List (String × String)}
    (h : s.checkRules document allowSuspension before rest = .ok errors) :
    errors = s.errorsOf document rest ∧ rest.Pairwise Apart ∧
      (∀ r ∈ rest, ∀ other ∈ before, Apart other r) ∧
        (allowSuspension = false → ∀ r ∈ rest, s.allowed r document ≠ .ok () →
          s.unchanged document r.spec.orgId = true) := by
  induction rest generalizing before errors with
  | nil =>
      obtain rfl := Except.ok.inj h
      exact ⟨rfl, List.Pairwise.nil, nofun, nofun⟩
  | cons r rest ih =>
      -- what holds of the rule, and of the rules behind it
      suffices hstep : ∃ errors', s.checkRules document allowSuspension (before ++ [r]) rest =
          .ok errors' ∧ errors = s.errorsOf document [r] ++ errors' ∧
            (∀ other ∈ before, Apart other r) ∧
              (allowSuspension = false → s.allowed r document ≠ .ok () →
                s.unchanged document r.spec.orgId = true) by
        obtain ⟨errors', hrest, herrors, hbefore, hsame⟩ := hstep
        obtain ⟨herrors', hpair, hapart, hall⟩ := ih hrest
        refine ⟨?_, List.pairwise_cons.mpr ⟨?_, hpair⟩, ?_, ?_⟩
        · rw [herrors, herrors']
          exact List.filterMap_append.symm
        · exact fun b hb => hapart b hb r (List.mem_append_right _ List.mem_cons_self)
        · intro b hb other hother
          rcases List.mem_cons.mp hb with rfl | hb
          · exact hbefore other hother
          · exact hapart b hb other (List.mem_append_left _ hother)
        · intro hallow b hb
          rcases List.mem_cons.mp hb with rfl | hb
          · exact hsame hallow
          · exact hall hallow b hb
      have hclear : ¬((r.spec.enabled && before.any fun other => other.spec.enabled &&
          other.spec.listener.conflictsWith r.spec.listener) = true) →
            ∀ other ∈ before, Apart other r := by
        intro hno other hother hon hon'
        refine Bool.eq_false_iff.mpr fun hconflict => hno ?_
        rw [Bool.and_eq_true, List.any_eq_true]
        exact ⟨hon', other, hother, by rw [hon, hconflict]; rfl⟩
      simp only [checkRules] at h
      cases hallowed : s.allowed r document with
      | error error =>
          rw [hallowed] at h
          simp only at h
          split at h
          · cases h
          · next hkept =>
              split at h
              · cases h
              · next hno =>
                  cases hrest : s.checkRules document allowSuspension (before ++ [r]) rest with
                  | error error' =>
                      rw [hrest] at h
                      cases h
                  | ok errors' =>
                      rw [hrest] at h
                      refine ⟨errors', rfl, ?_, hclear hno, ?_⟩
                      · simp only [errorsOf, List.filterMap_cons, hallowed, List.filterMap_nil]
                        exact (Except.ok.inj h).symm
                      · intro hallow _
                        rw [hallow] at hkept
                        simpa using hkept
      | ok _ =>
          rw [hallowed] at h
          simp only at h
          split at h
          · cases h
          · next hno =>
              refine ⟨errors, h, ?_, hclear hno, fun _ hne => absurd rfl hne⟩
              simp only [errorsOf, List.filterMap_cons, hallowed, List.filterMap_nil,
                List.nil_append]

theorem bindRules_ok {binds : Binds} {errors : List (String × String)}
    {rules : List ExposeResource} {sockets : List String}
    (h : s.bindRules binds errors rules = .ok sockets) :
    sockets = (rules.filter (s.needsSocket errors)).map (·.id) := by
  induction rules generalizing sockets with
  | nil =>
      obtain rfl := Except.ok.inj h
      rfl
  | cons r rest ih =>
      simp only [bindRules] at h
      split at h
      · next hskip =>
          have hno : s.needsSocket errors r = false := by
            simp only [needsSocket]
            grind
          rw [List.filter_cons_of_neg (by rw [hno]; exact nofun)]
          exact ih h
      · next hneed =>
          have hyes : s.needsSocket errors r = true := by
            simp only [needsSocket]
            grind
          rw [List.filter_cons_of_pos hyes, List.map_cons]
          split at h
          · cases h
          · cases hrest : s.bindRules binds errors rest with
            | error error =>
                rw [hrest] at h
                cases h
            | ok sockets' =>
                rw [hrest] at h
                rw [← Except.ok.inj h, ih hrest]

/-- What a staged change of the document is. -/
structure StageOk (s : ExposeManager) (document : ExposeDocument) (allowSuspension : Bool)
    (staged : Staged) : Prop where
  valid : document.validate = .ok ()
  apart : document.resources.Pairwise Apart
  errors : staged.errors = s.errorsOf document document.resources
  sockets : staged.sockets =
    (document.resources.filter (s.needsSocket staged.errors)).map (·.id)
  same : allowSuspension = false → ∀ r ∈ document.resources, s.allowed r document ≠ .ok () →
    s.unchanged document r.spec.orgId = true

theorem stage_ok {binds : Binds} {document : ExposeDocument} {allowSuspension : Bool}
    {staged : Staged} (h : s.stage binds document allowSuspension = .ok staged) :
    s.StageOk document allowSuspension staged := by
  simp only [stage] at h
  split at h
  · cases h
  · next hvalid =>
      split at h
      · cases h
      · next errors herrors =>
          cases hsockets : s.bindRules binds errors document.resources with
          | error error =>
              rw [hsockets] at h
              cases h
          | ok sockets =>
              rw [hsockets] at h
              obtain rfl := Except.ok.inj h
              obtain ⟨herrs, hpair, -, hsame⟩ := checkRules_ok herrors
              exact ⟨hvalid, hpair, herrs, bindRules_ok hsockets, hsame⟩

namespace StageOk

variable {document : ExposeDocument} {allowSuspension : Bool} {staged : Staged}
  {r : ExposeResource}

theorem suspends_iff (h : s.StageOk document allowSuspension staged)
    (hr : r ∈ document.resources) :
    suspends staged.errors r.id = true ↔ s.allowed r document ≠ .ok () := by
  simp only [suspends, h.errors, errorsOf, List.any_eq_true, List.mem_filterMap, beq_iff_eq]
  constructor
  · rintro ⟨⟨id, error⟩, ⟨x, hx, herror⟩, hid⟩
    split at herror
    · next hrefused =>
        obtain ⟨rfl, rfl⟩ := Prod.mk.inj (Option.some.inj herror)
        obtain rfl := DistinctIds.eq (ExposeDocument.nodup_ids h.valid) hx hr hid
        rw [hrefused]
        exact nofun
    · cases herror
  · intro hne
    cases hrefused : s.allowed r document with
    | ok _ => exact absurd hrefused hne
    | error error => exact ⟨(r.id, error), ⟨r, hr, by rw [hrefused]⟩, rfl⟩

theorem sockets_iff (h : s.StageOk document allowSuspension staged)
    (hr : r ∈ document.resources) :
    r.id ∈ staged.sockets ↔ s.needsSocket staged.errors r = true := by
  rw [h.sockets, List.mem_map]
  constructor
  · rintro ⟨x, hx, hid⟩
    obtain ⟨hmem, hneeds⟩ := List.mem_filter.mp hx
    rw [← DistinctIds.eq (ExposeDocument.nodup_ids h.valid) hmem hr hid]
    exact hneeds
  · exact fun hneeds => ⟨r, List.mem_filter.mpr ⟨hr, hneeds⟩, rfl⟩

end StageOk

end ExposeManager

theorem ExposeStore.commit_ok {store store' : ExposeStore} {next : ExposeDocument}
    {persist : Except String Unit} (h : store.commit next persist = .ok store') :
    store' = { store with
        document := { next with revision := store.document.revision + 1 }
        stored := { next with revision := store.document.revision + 1 } } ∧
      store'.document.validate = .ok () ∧ store.loadError = none := by
  simp only [commit, bind, Except.bind, pure, Except.pure] at h
  split at h
  · cases h
  · next hload =>
      split at h
      · cases h
      · split at h
        · cases h
        · next hvalid =>
            split at h
            · cases h
            · rw [← Except.ok.inj h]
              exact ⟨rfl, hvalid, by simpa using hload⟩

namespace ExposeManager

variable {s s' : ExposeManager}

theorem replace_cases (binds : Binds) (persist : Except String Unit) (document : ExposeDocument)
    (allowSuspension : Bool) :
    (∃ error, s.replace binds persist document allowSuspension = (.error error, s) ∨
      s.replace binds persist document allowSuspension = (.error error, s.pruneRetired)) ∨
    ∃ staged store, s.StageOk document allowSuspension staged ∧
      s.store.commit document persist = .ok store ∧
        s.replace binds persist document allowSuspension =
          (.ok (), s.pruneRetired.applied store staged document.resources) := by
  simp only [replace]
  cases hstage : s.stage binds document allowSuspension with
  | error error => exact .inl ⟨error, .inl rfl⟩
  | ok staged =>
      dsimp only
      cases hcommit : s.store.commit document persist with
      | error error => exact .inl ⟨_, .inr rfl⟩
      | ok store => exact .inr ⟨staged, store, stage_ok hstage, rfl, rfl⟩

/-- The entry of a drain that begins. -/
def drained (id : String) (saved : ExposeResource) (deadline : Nat) (e : ExposeEntry) :
    ExposeEntry :=
  if e.resource.id = id then
    { e with resource := saved, runtime := { e.runtime with rule := saved }.stop (some deadline) }
  else e

theorem drain_cases (persist : Except String Unit) (id : String) (deadline : Nat) :
    (∃ error, s.drain persist id deadline = (.error error, s)) ∨
    ∃ e row store, e ∈ s.entries ∧ e.resource.id = id ∧ row ∈ s.document.resources ∧
      row.id = id ∧
        s.store.commit { s.document with
          resources := s.document.resources.map fun r => if r.id = id then drainRow row else r }
          persist = .ok store ∧
        s.drain persist id deadline =
          (.ok (), { s with
            store, entries := s.entries.map (drained id (drainRow row) deadline) }) := by
  simp only [drain]
  cases hget : getEntry s.entries id with
  | none => exact .inl ⟨_, rfl⟩
  | some e =>
      cases hrow : s.document.resources.find? (·.id == id) with
      | none => exact .inl ⟨_, rfl⟩
      | some row =>
          dsimp only
          split
          · exact .inl ⟨_, rfl⟩
          · next store hcommit =>
              obtain ⟨he, hid⟩ := getEntry_some hget
              refine .inr ⟨e, row, store, he, hid, List.mem_of_find?_eq_some hrow, ?_, hcommit, rfl⟩
              simpa using List.find?_some hrow

end ExposeManager

/-! ## Sound states -/

/-- What holds of one entry: a session needs the loop, a listener that is to be
on accepts while its task runs and is not draining, and one that is to be off
has a task only while it drains. -/
structure ExposeEntry.Sound (e : ExposeEntry) : Prop where
  sessions : e.runtime.sessions ≠ [] → ∃ task attempt, e.task = some task ∧
    task.phase = .listening attempt
  undrained : e.runtime.accepting = true → e.runtime.deadline = none
  enabled : e.resource.spec.enabled = true → e.runtime.deadline = none
  accepting : e.resource.spec.enabled = true → e.running = true → e.runtime.accepting = true
  draining : e.resource.spec.enabled = false → e.running = true → e.runtime.deadline.isSome = true

/-- The entries are the stored resources, ids are distinct, and no two
listeners that are to be on conflict. -/
structure ExposeManager.Sound (s : ExposeManager) : Prop where
  synced : s.entries.map (·.resource) = s.document.resources
  ids : DistinctIds s.document.resources
  apart : s.document.resources.Pairwise Apart
  entries : ∀ e ∈ s.entries, e.Sound
  storedIds : DistinctIds s.store.stored.resources
  storedApart : s.store.stored.resources.Pairwise Apart

namespace ExposeEntry

variable {e e' : ExposeEntry} {task : ListenerTask}

theorem Sound.no_sessions (h : e.Sound) (htask : e.task = some task)
    (hphase : ∀ attempt, task.phase ≠ .listening attempt) : e.runtime.sessions = [] := by
  by_contra hne
  obtain ⟨task', attempt, htask', hlistening⟩ := h.sessions hne
  obtain rfl := Option.some.inj (htask.symm.trans htask')
  exact hphase attempt hlistening

theorem running_of_task (htask : e.task = some task) : e.running = !task.phase.isFinished := by
  rw [running, htask]
  rfl

/-- What no step of a task changes; and a task that is over stays so. -/
structure Carries (e e' : ExposeEntry) : Prop where
  resource : e'.resource = e.resource
  accepting : e'.runtime.accepting = e.runtime.accepting
  deadline : e'.runtime.deadline = e.runtime.deadline
  running : e'.running = true → e.running = true

theorem Carries.enter (phase : ListenerPhase) (hresource : e'.resource = e.resource)
    (haccepting : e'.runtime.accepting = e.runtime.accepting)
    (hdeadline : e'.runtime.deadline = e.runtime.deadline) (hrun : e.running = true) :
    e.Carries (e'.enter task phase) :=
  ⟨hresource, haccepting, hdeadline, fun _ => hrun⟩

theorem leave_carries (why : LeaveReason) :
    (e.leave why).resource = e.resource ∧
      (e.leave why).runtime.accepting = e.runtime.accepting ∧
        (e.leave why).runtime.deadline = e.runtime.deadline := by
  cases why with
  | done =>
      simp only [leave]
      split
      · exact ⟨rfl, rfl, rfl⟩
      · exact ⟨rfl, rfl, rfl⟩
  | orgGone => exact ⟨rfl, rfl, rfl⟩
  | socketFails what => exact ⟨rfl, rfl, rfl⟩

/-- What a step of a task can do. -/
inductive ActStep (e : ExposeEntry) (task : ListenerTask) : ExposeEntry → Prop where
  | stop {attempt : Nat} {socket : Bool} (hphase : task.phase = .starting attempt socket)
      (hstop : e.runtime.terminate = true ∨ ¬e.runtime.accepting = true) :
      ActStep e task (e.enter task .finished)
  | bind {attempt : Nat} {socket : Bool} (hphase : task.phase = .starting attempt socket) :
      ActStep e task (e.enter task (.bound attempt))
  | bindFails {attempt : Nat} (error : String) (hphase : task.phase = .starting attempt false) :
      ActStep e task
        ((e.failing ("recovery bind failed: " ++ error)).enter task (.retrying attempt))
  | exhaust {attempt : Nat} (hphase : task.phase = .starting attempt false) :
      ActStep e task (e.exhausted task)
  | listen {attempt : Nat} (hphase : task.phase = .bound attempt) :
      ActStep e task
        ({ e with runtime := e.runtime.setStatus .listening none }.enter task (.listening attempt))
  | leave {attempt : Nat} (why : LeaveReason) (hphase : task.phase = .listening attempt) :
      ActStep e task
        ({ e.leave why with runtime := { (e.leave why).runtime with sessions := [] } }.enter task
          (.returned attempt))
  | finish {attempt : Nat} (hphase : task.phase = .returned attempt) :
      ActStep e task (e.enter task .finished)
  | retry {attempt : Nat} (message : String) (hphase : task.phase = .returned attempt) :
      ActStep e task
        ({ e.failing message with runtime := (e.failing message).runtime.stopSessions }.enter task
          (.retrying attempt))
  | giveUp {attempt : Nat} (message : String) (hphase : task.phase = .returned attempt) :
      ActStep e task
        ({ e.failing message with runtime := (e.failing message).runtime.stopSessions }.exhausted
          task)
  | wake {attempt : Nat} (hphase : task.phase = .retrying attempt) :
      ActStep e task (e.enter task (.starting (attempt + 1) false))
  | opened {attempt : Nat} (session : String) (hphase : task.phase = .listening attempt) :
      ActStep e task
        { e with
          runtime := { e.runtime with sessions := e.runtime.sessions ++ [{ id := session }] } }
  | closed (session : String) :
      ActStep e task
        { e with
          runtime := { e.runtime with sessions := e.runtime.sessions.filter (·.id != session) } }

theorem act_step {a : ListenerAct} (hact : e.act task a = some e') : e.ActStep task e' := by
  cases a with
  | check bind =>
      simp only [act] at hact
      split at hact
      · next attempt socket hphase =>
          split at hact
          · next hstop =>
              obtain rfl := Option.some.inj hact
              exact .stop hphase hstop
          · split at hact
            · obtain rfl := Option.some.inj hact
              exact .bind hphase
            · next hsocket =>
                rw [Bool.not_eq_true] at hsocket
                subst hsocket
                split at hact
                · obtain rfl := Option.some.inj hact
                  exact .bind hphase
                · next error =>
                    split at hact
                    · obtain rfl := Option.some.inj hact
                      exact .exhaust hphase
                    · obtain rfl := Option.some.inj hact
                      exact .bindFails error hphase
      · cases hact
  | listen =>
      simp only [act] at hact
      split at hact
      · next attempt hphase =>
          obtain rfl := Option.some.inj hact
          exact .listen hphase
      · cases hact
  | leave why =>
      simp only [act] at hact
      split at hact
      · next attempt hphase =>
          obtain rfl := Option.some.inj hact
          exact .leave why hphase
      · cases hact
  | supervise =>
      simp only [act] at hact
      split at hact
      · next attempt hphase =>
          split at hact
          · obtain rfl := Option.some.inj hact
            exact .finish hphase
          · split at hact
            · obtain rfl := Option.some.inj hact
              exact .retry _ hphase
            · obtain rfl := Option.some.inj hact
              exact .giveUp _ hphase
      · cases hact
  | wake =>
      simp only [act] at hact
      split at hact
      · next attempt hphase =>
          obtain rfl := Option.some.inj hact
          exact .wake hphase
      · cases hact
  | opened session =>
      simp only [act] at hact
      split at hact
      · next attempt hphase =>
          simp only [Option.ite_none_right_eq_some, Option.some_inj] at hact
          obtain ⟨-, rfl⟩ := hact
          exact .opened session hphase
      · cases hact
  | closed session =>
      obtain rfl := Option.some.inj hact
      exact .closed session

theorem act_carries {a : ListenerAct} (htask : e.task = some task)
    (hact : e.act task a = some e') : e.Carries e' := by
  have hrunning := running_of_task htask
  cases act_step hact with
  | stop hphase hstop => exact .enter _ rfl rfl rfl (by rw [hrunning, hphase]; rfl)
  | bind hphase => exact .enter _ rfl rfl rfl (by rw [hrunning, hphase]; rfl)
  | bindFails error hphase => exact .enter _ rfl rfl rfl (by rw [hrunning, hphase]; rfl)
  | exhaust hphase => exact .enter _ rfl rfl rfl (by rw [hrunning, hphase]; rfl)
  | listen hphase => exact .enter _ rfl rfl rfl (by rw [hrunning, hphase]; rfl)
  | leave why hphase =>
      obtain ⟨hresource, haccepting, hdeadline⟩ := leave_carries (e := e) why
      exact .enter _ hresource haccepting hdeadline (by rw [hrunning, hphase]; rfl)
  | finish hphase => exact .enter _ rfl rfl rfl (by rw [hrunning, hphase]; rfl)
  | retry message hphase => exact .enter _ rfl rfl rfl (by rw [hrunning, hphase]; rfl)
  | giveUp message hphase => exact .enter _ rfl rfl rfl (by rw [hrunning, hphase]; rfl)
  | wake hphase => exact .enter _ rfl rfl rfl (by rw [hrunning, hphase]; rfl)
  | opened session hphase => exact ⟨rfl, rfl, rfl, id⟩
  | closed session => exact ⟨rfl, rfl, rfl, id⟩

theorem act_sessions {a : ListenerAct} (h : e.Sound) (htask : e.task = some task)
    (hact : e.act task a = some e') (hsessions : e'.runtime.sessions ≠ []) :
    ∃ task attempt, e'.task = some task ∧ task.phase = .listening attempt := by
  -- outside the loop there is no session, and a step into another phase makes none
  have hnone : ∀ phase, task.phase = phase → (∀ n, phase ≠ .listening n) →
      e.runtime.sessions = [] := by
    rintro phase rfl hphase
    exact h.no_sessions htask hphase
  cases act_step hact with
  | stop hphase hstop => exact absurd (hnone _ hphase nofun) hsessions
  | bind hphase => exact absurd (hnone _ hphase nofun) hsessions
  | bindFails error hphase => exact absurd (hnone _ hphase nofun) hsessions
  | exhaust hphase => exact absurd (hnone _ hphase nofun) hsessions
  | listen hphase => exact ⟨_, _, rfl, rfl⟩
  | leave why hphase => exact absurd rfl hsessions
  | finish hphase => exact absurd (hnone _ hphase nofun) hsessions
  | retry message hphase =>
      exact absurd (List.map_eq_nil_iff.mpr (hnone _ hphase nofun)) hsessions
  | giveUp message hphase =>
      exact absurd (List.map_eq_nil_iff.mpr (hnone _ hphase nofun)) hsessions
  | wake hphase => exact absurd (hnone _ hphase nofun) hsessions
  | @opened attempt session hphase => exact ⟨task, attempt, htask, hphase⟩
  | closed session =>
      refine h.sessions fun hnone => hsessions ?_
      dsimp only
      rw [hnone]
      rfl

theorem Sound.act {a : ListenerAct} (h : e.Sound) (htask : e.task = some task)
    (hact : e.act task a = some e') : e'.Sound := by
  have hcarries := act_carries htask hact
  refine ⟨act_sessions h htask hact, fun ha => ?_, fun hon => ?_, fun hon hrun => ?_,
    fun hoff hrun => ?_⟩
  · rw [hcarries.deadline]
    exact h.undrained (hcarries.accepting ▸ ha)
  · rw [hcarries.deadline]
    exact h.enabled (hcarries.resource ▸ hon)
  · rw [hcarries.accepting]
    exact h.accepting (hcarries.resource ▸ hon) (hcarries.running hrun)
  · rw [hcarries.deadline]
    exact h.draining (hcarries.resource ▸ hoff) (hcarries.running hrun)

end ExposeEntry

namespace ExposeManager

variable {s : ExposeManager}

/-! ### The next entries -/

@[simp] theorem release_resource (resources : List ExposeResource) (e : ExposeEntry) :
    (release resources e).resource = e.resource := by
  simp only [release]
  split
  · rfl
  · rfl

theorem release_of_undrained {resources : List ExposeResource} {e : ExposeEntry}
    (h : e.runtime.deadline = none) : release resources e = e := by
  simp [release, h]

theorem release_of_mem {resources : List ExposeResource} {e : ExposeEntry}
    (h : e.resource ∈ resources) : release resources e = e := by
  simp [release, h]

theorem getEntry_release (entries : List ExposeEntry) (resources : List ExposeResource)
    (id : String) :
    getEntry (entries.map (release resources)) id =
      (getEntry entries id).map (release resources) := by
  simp only [getEntry, List.find?_map]
  congr 2
  funext e
  simp only [Function.comp_apply, release_resource]

/-- The entry of a rule in the next state: the one it had, or that one with a
new rule under its listener, or a new one. -/
inductive Rebuilt (s : ExposeManager) (document : ExposeDocument) (staged : Staged)
    (r : ExposeResource) : ExposeEntry → Prop where
  | kept {e : ExposeEntry} (mem : e ∈ s.entries) (same : e.resource = r)
      (allowed : s.allowed r document = .ok ()) : Rebuilt s document staged r e
  | updated {e : ExposeEntry} (mem : e ∈ s.entries) (id : e.resource.id = r.id)
      (changed : e.resource ≠ r)
      (allowed : s.allowed r document = .ok ()) (on : r.spec.enabled = true)
      (running : e.running = true) (accepting : e.runtime.accepting = true) :
      Rebuilt s document staged r (e.update r)
  | spawned
      (status : staged.status r = .listening ↔
        r.spec.enabled = true ∧ s.allowed r document = .ok ())
      (socket : r.id ∈ staged.sockets → r.spec.enabled = true ∧ s.allowed r document = .ok ())
      (listening : r.spec.enabled = true → s.allowed r document = .ok () → r.id ∈ staged.sockets)
      (suspended : s.allowed r document ≠ .ok () → staged.status r = .suspended)
      (old : ∀ e ∈ s.entries, e.resource = r → s.allowed r document = .ok () →
        s.staysFailed r = false ∧ s.reusable r = false ∧ r.spec.enabled = true) :
      Rebuilt s document staged r (spawnEntry s.generation staged r)

theorem rebuild_cases {document : ExposeDocument} {allowSuspension : Bool} {staged : Staged}
    {r : ExposeResource} (h : s.StageOk document allowSuspension staged) (hs : s.Sound)
    (hr : r ∈ document.resources) :
    s.Rebuilt document staged r
      (rebuild s.generation staged (s.entries.map (release document.resources)) r).1 := by
  have hids : DistinctIds (s.entries.map (·.resource)) := by
    rw [hs.synced]
    exact hs.ids
  have hsuspends := h.suspends_iff hr
  have hsockets := h.sockets_iff hr
  have hstatus : staged.status r = .listening ↔
      r.spec.enabled = true ∧ s.allowed r document = .ok () := by
    simp only [Staged.status]
    split
    · next hsusp => exact ⟨nofun, fun hall => absurd hall.2 (hsuspends.mp hsusp)⟩
    · next hsusp =>
        have hallowed : s.allowed r document = .ok () := by
          by_contra hne
          exact hsusp (hsuspends.mpr hne)
        cases hon : r.spec.enabled with
        | true => exact ⟨fun _ => ⟨rfl, hallowed⟩, fun _ => rfl⟩
        | false => exact ⟨nofun, fun hall => by cases hall.1⟩
  have hsocket : r.id ∈ staged.sockets →
      r.spec.enabled = true ∧ s.allowed r document = .ok () := by
    intro hmem
    have hneeds := hsockets.mp hmem
    simp only [needsSocket, Bool.and_eq_true, Bool.not_eq_true'] at hneeds
    refine ⟨hneeds.1.1.1, ?_⟩
    by_contra hne
    rw [hsuspends.mpr hne] at hneeds
    cases hneeds.1.1.2
  have hsuspended : s.allowed r document ≠ .ok () → staged.status r = .suspended := by
    intro hne
    simp only [Staged.status, hsuspends.mpr hne, if_true]
  simp only [rebuild, getEntry_release]
  cases hget : getEntry s.entries r.id with
  | none =>
      refine .spawned hstatus hsocket (fun hon hallowed => hsockets.mpr ?_) hsuspended
        fun e he hsame => ?_
      · have hsusp : suspends staged.errors r.id = false :=
          Bool.eq_false_iff.mpr fun hsusp => hsuspends.mp hsusp hallowed
        simp [needsSocket, staysFailed, reusable, hget, hon, hsusp]
      · rw [← hsame, getEntry_of_mem hids he] at hget
        cases hget
  | some e =>
      obtain ⟨he, hid⟩ := getEntry_some hget
      simp only [Option.map_some, release_resource, List.contains_eq_mem]
      split
      · next hkept =>
          obtain ⟨hsame, -, hsusp⟩ := hkept
          rw [release_of_mem (by rw [hsame]; exact hr)]
          refine .kept he hsame ?_
          by_contra hne
          simp [hsuspends.mpr hne] at hsusp
      · next hchanged =>
          split
          · next hupdate =>
              obtain ⟨hlisten, hunstaged⟩ := hupdate
              obtain ⟨hon, hallowed⟩ := hstatus.mp hlisten
              have hsusp : suspends staged.errors r.id = false :=
                Bool.eq_false_iff.mpr fun hsusp => hsuspends.mp hsusp hallowed
              have hneeds : s.needsSocket staged.errors r = false := by
                refine Bool.eq_false_iff.mpr fun hneeds => ?_
                simp [hsockets.mpr hneeds] at hunstaged
              -- an unchanged entry would have been kept
              have hother : e.resource ≠ r := by
                intro hsame
                exact hchanged ⟨hsame, hunstaged, by rw [hsusp]; rfl⟩
              have hreuse : s.reusable r = true := by
                simp only [needsSocket, hon, hsusp, staysFailed, hget] at hneeds
                simpa [hother] using hneeds
              simp only [reusable, hget, Option.any_some, Bool.and_eq_true, beq_iff_eq] at hreuse
              obtain ⟨⟨-, hrunning⟩, haccepting⟩ := hreuse
              rw [release_of_undrained ((hs.entries e he).undrained haccepting)]
              exact .updated he hid hother hallowed hon hrunning haccepting
          · next hspawn =>
              refine .spawned hstatus hsocket (fun hon hallowed => ?_) hsuspended
                fun x hx hsame hallowed => ?_
              · by_contra hunstaged
                exact hspawn ⟨hstatus.mpr ⟨hon, hallowed⟩, by simpa using hunstaged⟩
              · have hxe : x = e := by
                  rw [← hsame, getEntry_of_mem hids hx] at hget
                  exact Option.some.inj hget
                have hsusp : suspends staged.errors r.id = false :=
                  Bool.eq_false_iff.mpr fun hsusp => hsuspends.mp hsusp hallowed
                have hstaged : r.id ∈ staged.sockets := by
                  by_contra hunstaged
                  exact hchanged ⟨hxe ▸ hsame, by simpa using hunstaged,
                    by rw [hsusp]; rfl⟩
                have hneeds := hsockets.mp hstaged
                simp only [needsSocket, Bool.and_eq_true, Bool.not_eq_true'] at hneeds
                exact ⟨hneeds.1.2, hneeds.2, hneeds.1.1.1⟩

variable {document : ExposeDocument} {staged : Staged} {r : ExposeResource} {e : ExposeEntry}

theorem Rebuilt.resource (h : s.Rebuilt document staged r e) : e.resource = r := by
  cases h with
  | kept _ same => exact same
  | updated => rfl
  | spawned => rfl

theorem running_spawnEntry {generation : Nat} (h : (spawnEntry generation staged r).running = true) :
    r.id ∈ staged.sockets := by
  by_contra hunstaged
  simp [ExposeEntry.running, spawnEntry, hunstaged] at h

theorem Rebuilt.sound (hs : s.Sound) (h : s.Rebuilt document staged r e) : e.Sound := by
  cases h with
  | kept mem => exact hs.entries _ mem
  | @updated e mem id changed allowed on running accepting =>
      have hsound := hs.entries e mem
      simp only [ExposeEntry.update]
      refine ⟨fun hne => hsound.sessions fun hnone => hne ?_, fun _ => ?_, fun _ => ?_,
        fun _ _ => ?_, fun hoff _ => ?_⟩
      · split
        · exact List.map_eq_nil_iff.mpr hnone
        · exact hnone
      · split
        · exact hsound.undrained accepting
        · exact hsound.undrained accepting
      · split
        · exact hsound.undrained accepting
        · exact hsound.undrained accepting
      · split
        · exact accepting
        · exact accepting
      · cases on.symm.trans hoff
  | spawned status socket =>
      refine ⟨fun hne => absurd rfl hne, fun _ => rfl, fun _ => rfl, fun hon hrunning => ?_,
        fun hoff hrunning => ?_⟩
      · have hlistening := status.mpr (socket (running_spawnEntry hrunning))
        have hon : r.spec.enabled = true := hon
        simp [spawnEntry, ExposeRuntime.setStatus, ExposeRuntime.fresh, hlistening, hon]
      · have hoff : r.spec.enabled = false := hoff
        cases hoff.symm.trans (socket (running_spawnEntry hrunning)).1

theorem applied_entries {allowSuspension : Bool} {store : ExposeStore}
    (h : s.StageOk document allowSuspension staged) (hs : s.Sound)
    (he : e ∈ (s.pruneRetired.applied store staged document.resources).entries) :
    ∃ r ∈ document.resources, s.Rebuilt document staged r e := by
  obtain ⟨r, hr, rfl⟩ := List.mem_map.mp he
  exact ⟨r, hr, rebuild_cases h hs hr⟩

theorem applied_resources {allowSuspension : Bool} {store : ExposeStore}
    (h : s.StageOk document allowSuspension staged) (hs : s.Sound) :
    (s.pruneRetired.applied store staged document.resources).entries.map (·.resource) =
      document.resources := by
  simp only [applied, List.map_map]
  refine List.map_congr_left (g := id) (fun r hr => ?_) |>.trans (List.map_id _)
  exact (rebuild_cases h hs hr).resource

theorem Sound.applied {allowSuspension : Bool} {store : ExposeStore} {persist : Except String Unit}
    (hs : s.Sound) (h : s.StageOk document allowSuspension staged)
    (hcommit : s.store.commit document persist = .ok store) :
    (s.pruneRetired.applied store staged document.resources).Sound := by
  obtain ⟨rfl, -, -⟩ := ExposeStore.commit_ok hcommit
  have hids : DistinctIds document.resources := ExposeDocument.nodup_ids h.valid
  refine ⟨applied_resources h hs, hids, h.apart, fun e he => ?_, hids, h.apart⟩
  obtain ⟨r, -, hrebuilt⟩ := applied_entries h hs he
  exact hrebuilt.sound hs

theorem Sound.pruneRetired (hs : s.Sound) : s.pruneRetired.Sound :=
  ⟨hs.synced, hs.ids, hs.apart, hs.entries, hs.storedIds, hs.storedApart⟩

theorem Sound.replace (hs : s.Sound) (binds : Binds) (persist : Except String Unit)
    (document : ExposeDocument) (allowSuspension : Bool) :
    (s.replace binds persist document allowSuspension).2.Sound := by
  rcases replace_cases (s := s) binds persist document allowSuspension with
    ⟨error, h | h⟩ | ⟨staged, store, hstage, hcommit, h⟩
  · rw [h]
    exact hs
  · rw [h]
    exact hs.pruneRetired
  · rw [h]
    exact hs.applied hstage hcommit

/-! ### Drains -/

theorem drained_sound {id : String} {saved : ExposeResource} {deadline : Nat}
    (hoff : saved.spec.enabled = false) (h : e.Sound) : (drained id saved deadline e).Sound := by
  simp only [drained]
  split
  · refine ⟨h.sessions, fun ha => (by cases ha), fun hon => ?_, fun hon => ?_, fun _ _ => rfl⟩
    · cases hoff.symm.trans hon
    · cases hoff.symm.trans hon
  · exact h

theorem drained_resource {id : String} {saved : ExposeResource} {deadline : Nat} :
    (drained id saved deadline e).resource = if e.resource.id = id then saved else e.resource := by
  simp only [drained]
  split
  · rfl
  · rfl

theorem apart_of_off {a b : ExposeResource} (h : a.spec.enabled = false ∨ b.spec.enabled = false) :
    Apart a b := by
  intro ha hb
  rcases h with h | h
  · cases h.symm.trans ha
  · cases h.symm.trans hb

theorem Sound.drain (hs : s.Sound) (persist : Except String Unit) (id : String) (deadline : Nat) :
    (s.drain persist id deadline).2.Sound := by
  rcases drain_cases (s := s) persist id deadline with
    ⟨error, h⟩ | ⟨e, row, store, -, -, -, -, hcommit, h⟩
  · rw [h]
    exact hs
  · rw [h]
    obtain ⟨rfl, hvalid, -⟩ := ExposeStore.commit_ok hcommit
    have hoff : (drainRow row).spec.enabled = false := rfl
    have hapart : (s.document.resources.map fun r =>
        if r.id = id then drainRow row else r).Pairwise Apart := by
      refine List.pairwise_map.mpr (hs.apart.imp fun {a b} hab => ?_)
      split
      · exact apart_of_off (.inl hoff)
      · split
        · exact apart_of_off (.inr hoff)
        · exact hab
    have hids := ExposeDocument.nodup_ids hvalid
    refine ⟨?_, hids, hapart, ?_, hids, hapart⟩
    · have hsynced := congrArg
        (List.map fun r : ExposeResource => if r.id = id then drainRow row else r) hs.synced
      simp only [List.map_map] at hsynced ⊢
      refine Eq.trans (List.map_congr_left fun e _ => ?_) hsynced
      exact drained_resource
    · exact List.forall_mem_map.mpr fun e he => drained_sound hoff (hs.entries e he)

/-! ### A new start -/

theorem initialEntry_resource (binds : Binds) (r : ExposeResource) :
    (s.initialEntry binds r).resource = r := by
  simp only [initialEntry]
  split
  · rfl
  · split
    · split
      · rfl
      · rfl
    · rfl

/-- An entry of a resource that nothing runs for. -/
theorem idle_sound (r : ExposeResource) (status : ListenerState) (error : Option String) :
    ExposeEntry.Sound { resource := r, runtime := (ExposeRuntime.fresh r status).setStatus status error } :=
  ⟨fun hne => absurd rfl hne, fun _ => rfl, fun _ => rfl, nofun, nofun⟩

theorem initialEntry_sound (binds : Binds) (r : ExposeResource) :
    (s.initialEntry binds r).Sound := by
  simp only [initialEntry]
  split
  · exact idle_sound r .suspended _
  · split
    · next hon =>
        split
        · refine ⟨fun hne => absurd rfl hne, fun _ => rfl, fun _ => rfl, fun _ _ => ?_,
            fun hoff _ => ?_⟩
          · simp [ExposeRuntime.fresh, hon]
          · cases hon.symm.trans hoff
        · exact idle_sound r .failed _
    · exact idle_sound r .disabled none

theorem foldl_initializeRule_store (binds : Binds) (rules : List ExposeResource) :
    (rules.foldl (initializeRule binds) s).store = s.store := by
  induction rules generalizing s with
  | nil => rfl
  | cons r rest ih => exact ih

theorem foldl_initializeRule {P : ExposeEntry → Prop} {binds : Binds} {rules : List ExposeResource}
    (hP : ∀ e ∈ s.entries, P e)
    (hinitial : ∀ m : ExposeManager, m.store = s.store → (∀ e ∈ m.entries, P e) → ∀ r ∈ rules,
      P (m.initialEntry binds r)) :
    (∀ e ∈ (rules.foldl (initializeRule binds) s).entries, P e) ∧
      (rules.foldl (initializeRule binds) s).entries.map (·.resource) =
        s.entries.map (·.resource) ++ rules := by
  induction rules generalizing s with
  | nil => exact ⟨hP, (List.append_nil _).symm⟩
  | cons r rest ih =>
      have hfirst := hinitial s rfl hP r List.mem_cons_self
      obtain ⟨hall, hresources⟩ := ih (s := initializeRule binds s r) (fun e he => by
          rcases List.mem_append.mp he with he | he
          · exact hP e he
          · rw [List.mem_singleton.mp he]
            exact hfirst)
        fun m hm hmP r' hr' => hinitial m hm hmP r' (List.mem_cons_of_mem _ hr')
      refine ⟨hall, hresources.trans ?_⟩
      simp [initializeRule, initialEntry_resource]

theorem restart_document (binds : Binds) (loadError : Option String) :
    (s.restart binds loadError).document = if loadError.isSome then {} else s.store.stored := by
  simp only [restart, document, foldl_initializeRule_store]

theorem restart_resources (binds : Binds) (loadError : Option String) :
    (s.restart binds loadError).entries.map (·.resource) =
      (s.restart binds loadError).document.resources := by
  rw [restart_document]
  exact (foldl_initializeRule (P := fun _ => True) (fun _ _ => trivial)
    fun _ _ _ _ _ => trivial).2

/-- What holds of every first entry holds of every entry after a start. -/
theorem restart_entries {P : ExposeEntry → Prop} {binds : Binds} {loadError : Option String}
    (hinitial : ∀ m : ExposeManager, m.document = (s.restart binds loadError).document →
      (∀ e ∈ m.entries, P e) → ∀ r ∈ m.document.resources, P (m.initialEntry binds r)) :
    ∀ e ∈ (s.restart binds loadError).entries, P e := by
  rw [restart_document] at hinitial
  refine (foldl_initializeRule (P := P) (fun e he => absurd he List.not_mem_nil)
    fun m hm hmP r hr => ?_).1
  have hdocument : m.document = if loadError.isSome then {} else s.store.stored := by
    rw [document, hm]
  exact hinitial m hdocument hmP r (hdocument ▸ hr)

theorem Sound.restart (hs : s.Sound) (binds : Binds) (loadError : Option String) :
    (s.restart binds loadError).Sound := by
  have hstored : (s.restart binds loadError).store.stored = s.store.stored := by
    simp only [ExposeManager.restart, foldl_initializeRule_store]
  refine ⟨restart_resources binds loadError, ?_, ?_,
    restart_entries fun m _ _ r _ => initialEntry_sound binds r, ?_, ?_⟩
  · rw [restart_document]
    split
    · exact List.nodup_nil
    · exact hs.storedIds
  · rw [restart_document]
    split
    · exact List.Pairwise.nil
    · exact hs.storedApart
  · rw [hstored]
    exact hs.storedIds
  · rw [hstored]
    exact hs.storedApart

/-! ### Tasks, and every run -/

/-- One entry is another: the others stay. -/
def put (s : ExposeManager) (e' : ExposeEntry) : ExposeManager :=
  { s with entries := s.entries.map fun x => if x.resource.id = e'.resource.id then e' else x }

theorem mem_put {e' x : ExposeEntry} (h : x ∈ (s.put e').entries) : x = e' ∨ x ∈ s.entries := by
  obtain ⟨y, hy, rfl⟩ := List.mem_map.mp h
  split
  · exact .inl rfl
  · exact .inr hy

/-- A task's step: the entry and its task, and what becomes of it. -/
theorem act_task {s' : ExposeManager} {id : String} {a : ListenerAct}
    (h : s.act (.task id a) = some s') :
    ∃ e task e', e ∈ s.entries ∧ e.task = some task ∧ e.act task a = some e' ∧
      e'.resource = e.resource ∧ s' = s.put e' := by
  simp only [act, bind, pure, Option.bind_eq_some_iff, Option.some_inj] at h
  obtain ⟨e, hget, task, htask, e', hact, rfl⟩ := h
  obtain ⟨he, hid⟩ := getEntry_some hget
  have hresource := (ExposeEntry.act_carries htask hact).resource
  refine ⟨e, task, e', he, htask, hact, hresource, ?_⟩
  rw [put, hresource, hid]

theorem put_resources (hs : s.Sound) {e e' : ExposeEntry} (he : e ∈ s.entries)
    (hresource : e'.resource = e.resource) :
    (s.put e').entries.map (·.resource) = s.entries.map (·.resource) := by
  have hids : DistinctIds (s.entries.map (·.resource)) := by
    rw [hs.synced]
    exact hs.ids
  simp only [put, List.map_map]
  refine List.map_congr_left fun x hx => ?_
  simp only [Function.comp_apply]
  split
  · next hid =>
      rw [hresource] at hid ⊢
      exact (hids.eq (List.mem_map_of_mem hx) (List.mem_map_of_mem he) hid).symm
  · rfl

theorem Sound.put (hs : s.Sound) {e e' : ExposeEntry} (he : e ∈ s.entries)
    (hresource : e'.resource = e.resource) (hsound : e'.Sound) : (s.put e').Sound := by
  refine ⟨(put_resources hs he hresource).trans hs.synced, hs.ids, hs.apart, fun x hx => ?_,
    hs.storedIds, hs.storedApart⟩
  rcases mem_put hx with rfl | hx
  · exact hsound
  · exact hs.entries x hx

theorem Sound.step {s' : ExposeManager} {a : ExposeAct} (hs : s.Sound) (h : s.act a = some s') :
    s'.Sound := by
  cases a with
  | restart binds loadError =>
      obtain rfl := Option.some.inj h
      exact hs.restart binds loadError
  | replace binds persist document allowSuspension =>
      obtain rfl := Option.some.inj h
      exact hs.replace binds persist document allowSuspension
  | drain persist id deadline =>
      obtain rfl := Option.some.inj h
      exact hs.drain persist id deadline
  | task id a =>
      obtain ⟨e, task, e', he, htask, hact, hresource, rfl⟩ := act_task h
      exact hs.put he hresource ((hs.entries e he).act htask hact)

/-- **Every reachable state is sound.** -/
theorem sound (h : exposeSys.Reachable s) : s.Sound := by
  refine h.invariant (P := Sound) ?_ fun s a s' _ hs hstep => hs.step hstep
  rintro s rfl
  exact ⟨rfl, List.nodup_nil, List.Pairwise.nil, fun e he => absurd he List.not_mem_nil,
    List.nodup_nil, List.Pairwise.nil⟩

end ExposeManager

end Aperio
