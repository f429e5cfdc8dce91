import Aperio.Caller
import Aperio.ListenerQuota
import Aperio.Results

/-!
# The listener API

`api/exposes.rs`: what a caller may ask of the listener manager. A handler's
checks end in a plan, which is at most one operation of the manager, and the
plan is carried out under the same lock.

What the handlers get from elsewhere is in `ExposeEnv`: the organizations, the
clients a target is resolved among, the parser of UUIDs, sockets, the database
and the clock. Audit entries and the handlers that only read are left out.
-/

namespace Aperio

/-! ## What a role may do -/

inductive ExposeAction where
  | read
  | create
  | update
  | enable
  | disable
  | delete
  | disconnect
deriving Repr, DecidableEq

def ExposeAction.all : List ExposeAction :=
  [.read, .create, .update, .enable, .disable, .delete, .disconnect]

/-- `grants::role_may_expose`. -/
def roleMayExpose (role : Role) : ExposeAction → Bool
  | .read => true
  | .enable | .disable | .disconnect => decide (Role.operator.rank ≤ role.rank)
  | .create | .update | .delete => role == .admin

def Grants.mayExpose (grants : List Grant) (org : Option String) (action : ExposeAction) : Bool :=
  (Grants.roleIn grants org).any (roleMayExpose · action)

def Caller.exposeActions (c : Caller) (org : Option String) : List ExposeAction :=
  ExposeAction.all.filter (Grants.mayExpose c.grants org)

/-! ## Requests and answers -/

structure ExposeBackup where
  version : Nat
  resources : List ExposeResource
  policies : List ExposePolicy := []
deriving Repr, DecidableEq

inductive ExposeRequest where
  | create (id : Option String) (spec : ExposeSpec)
  | update (id : String) (revision : Nat) (spec : ExposeSpec)
  | delete (id : String) (revision : Nat)
  | operate (id : String) (revision : Nat) (action : String) (sessionId : Option String)
      (drainSeconds : Option Nat)
  | setPolicy (org : String) (policy : ExposePolicy)
  /-- `import`; an entry of `orgMap` renames an organization. -/
  | restore (backup : ExposeBackup) (orgMap : List (String × String)) (preview : Bool)
      (revision : Option Nat)
deriving Repr, DecidableEq

inductive ExposeFailure where
  | failure (status : Nat) (code message : String)
  /-- The specification's own errors, with status 400. -/
  | validation (errors : List ExposeError)
deriving Repr, DecidableEq

inductive ExposeReply where
  | created (resource : ExposeResource)
  | resource (resource : ExposeResource)
  | noContent
  | policy (policy : ExposePolicy)
  | previewed (revision toAdd : Nat)
  | imported (revision added : Nat)
deriving Repr, DecidableEq

structure ExposeEnv where
  isUuid : String → Bool
  /-- `Uuid::new_v4`. -/
  freshId : String
  orgKnown : String → Bool
  /-- The clients that declare the target cannot serve it. -/
  incompatible : ExposeSpec → Bool
  /-- What binding gives a preview. -/
  probes : Binds
  binds : Binds
  persist : Except String Unit
  now : Nat

/-- What a handler does once its checks have passed. A reply may tell what the
manager is afterwards. -/
inductive ExposePlan where
  | answer (reply : ExposeReply)
  | replace (document : ExposeDocument) (allowSuspension : Bool)
      (reply : ExposeManager → ExposeReply)
  | drain (id : String) (seconds : Nat)
  | disconnect (id sessionId : String) (reply : ExposeReply)

namespace ExposeApi

def runtimeError (message : String) : ExposeFailure :=
  if startsWith message "persistence:" then .failure 503 "persistence_failed" message
  else if containsText message "bind" || containsText message "port conflict" then
    .failure 409 "port_conflict" message
  else if containsText message "quota" then .failure 409 "quota_exceeded" message
  else if containsText message "allocation" then .failure 403 "port_policy" message
  else .failure 500 "apply_failed" message

/-- How a grant names an organization. -/
def orgKey (org : String) : Option String :=
  if org = "master" then none else some org

def permits (c : Caller) (org : String) (action : ExposeAction) : Bool :=
  (c.exposeActions (orgKey org)).contains action

def notFound : ExposeFailure :=
  .failure 404 "not_found" "Unknown expose resource"

def authorized (c : Caller) (r : ExposeResource) (action : ExposeAction) :
    Except ExposeFailure Unit := do
  ensure (permits c r.spec.orgId .read) notFound
  ensure (permits c r.spec.orgId action)
    (.failure 403 "forbidden" "Your role in this organization does not allow this expose action")

def withinAllocation (s : ExposeManager) (spec : ExposeSpec) (document : ExposeDocument) : Bool :=
  (document.policyOf spec.orgId).any fun policy =>
    policy.allows spec && policy.fits ((s.quotaSpecs document.resources).filter fun other =>
      other.orgId == spec.orgId && policy.allows other)

/-- What anyone but the server admin may open is bounded by the
organization's port allocation. -/
def boundedChange (s : ExposeManager) (c : Caller) (spec : ExposeSpec)
    (document : ExposeDocument) : Except ExposeFailure Unit := do
  ensure (c.isServerAdmin ∨ withinAllocation s spec document)
    (.failure 403 "outside_allocation"
      "Change is outside the organization's port allocation or exceeds its resource ceilings")

def checkRevision (r : ExposeResource) (expected : Nat) : Except ExposeFailure Unit := do
  ensure (r.revision = expected)
    (.failure 409 "revision_conflict" "The resource changed; reload it before saving")

/-- `validate`. -/
def validateSpec (env : ExposeEnv) (spec : ExposeSpec) : Except ExposeFailure Unit := do
  ensure (spec.validate = []) (.validation spec.validate)
  ensure (spec.orgId = "master" ∨ env.orgKnown spec.orgId)
    (.failure 400 "invalid_org" "Unknown organization")
  ensure (¬env.incompatible spec)
    (.failure 400 "incompatible_target"
      "The declared target is encrypted or does not serve this protocol")

/-- The resource of an id in place of what it was. One row has the id. -/
def setRow (document : ExposeDocument) (resource : ExposeResource) : ExposeDocument :=
  { document with
    resources := document.resources.map fun r => if r.id = resource.id then resource else r }

/-! ## The handlers -/

variable (env : ExposeEnv) (s : ExposeManager) (c : Caller)

def create (id : Option String) (spec : ExposeSpec) : Except ExposeFailure ExposePlan := do
  ensure (permits c spec.orgId .create)
    (.failure 403 "forbidden" "Expose creation is not granted in this organization")
  validateSpec env spec
  let id := id.getD env.freshId
  ensure (env.isUuid id) (.failure 400 "invalid_id" "An idempotency id must be a UUID")
  let resource : ExposeResource := { id, revision := 1, spec }
  match s.resource id with
  | some existing => do
    authorized c existing .read
    ensure (existing.spec = spec)
      (.failure 409 "id_conflict" "The request id has already been used")
    return .answer (.resource existing)
  | none => do
    let document := { s.document with resources := s.document.resources ++ [resource] }
    boundedChange s c spec document
    return .replace document false fun _ => .created resource

/-- The revision is a `u64`. -/
def nextRevision (revision : Nat) : Nat :=
  (revision + 1) % 18446744073709551616

def find (id : String) : Except ExposeFailure ExposeResource :=
  match s.resource id with
  | some r => return r
  | none => throw notFound

def update (id : String) (revision : Nat) (spec : ExposeSpec) : Except ExposeFailure ExposePlan := do
  let old ← find s id
  authorized c old .update
  checkRevision old revision
  ensure (spec.orgId = old.spec.orgId)
    (.failure 400 "immutable_org" "An expose cannot be moved to another organization")
  (if old.spec.enabled = spec.enabled then return
    else authorized c old (if spec.enabled then .enable else .disable))
  validateSpec env spec
  let resource := { old with revision := nextRevision old.revision, spec }
  let document := setRow s.document resource
  boundedChange s c spec document
  return .replace document false fun _ => .resource resource

def delete (id : String) (revision : Nat) : Except ExposeFailure ExposePlan := do
  let old ← find s id
  authorized c old .delete
  checkRevision old revision
  let document := { s.document with resources := s.document.resources.filter (·.id != id) }
  return .replace document true fun _ => .noContent

def requiredAction (action : String) : Except ExposeFailure ExposeAction :=
  if action = "enable" ∨ action = "retry" then return .enable
  else if action = "disable" ∨ action = "drain" then return .disable
  else if action = "disconnect" then return .disconnect
  else throw (.failure 400 "invalid_action" "Unknown expose operation")

def operate (id : String) (revision : Nat) (action : String) (sessionId : Option String)
    (drainSeconds : Option Nat) : Except ExposeFailure ExposePlan := do
  let required ← requiredAction action
  let old ← find s id
  authorized c old required
  checkRevision old revision
  if action = "disconnect" then
    match sessionId with
    | some sessionId => return .disconnect id sessionId (.resource old)
    | none => throw (.failure 400 "session_required" "Select a session")
  else if action = "drain" then do
    authorized c old .disconnect
    let duration := drainSeconds.getD 30
    ensure (1 ≤ duration ∧ duration ≤ 3600)
      (.failure 400 "invalid_deadline" "Drain deadline must be 1–3600 seconds")
    return .drain id duration
  else do
    let resource := { old with
      revision := nextRevision old.revision
      spec := { old.spec with enabled := decide (action ≠ "disable") } }
    let document := setRow s.document resource
    (if action = "disable" then return else boundedChange s c resource.spec document)
    return .replace document (action = "disable") fun _ => .resource resource

def setPolicy (org : String) (policy : ExposePolicy) : Except ExposeFailure ExposePlan := do
  ensure c.isServerAdmin
    (.failure 403 "forbidden" "Only server administrators allocate public ports")
  ensure (policy.orgId = org ∧ policy.validate = [])
    (.failure 400 "validation" "Invalid expose policy")
  ensure (org = "master" ∨ env.orgKnown org) (.failure 400 "invalid_org" "Unknown organization")
  ensure ((s.document.policyOf org).elim 0 (·.revision) = policy.revision)
    (.failure 409 "revision_conflict" "Policy changed; reload it before saving")
  let policy := { policy with revision := nextRevision policy.revision }
  let document := { s.document with
    policies := s.document.policies.filter (·.orgId != org) ++ [policy] }
  return .replace document true fun _ => .policy policy

/-! ### Import -/

def mapOrg (orgMap : List (String × String)) (org : String) : String :=
  (orgMap.lookup org).getD org

def restoreResource (orgMap : List (String × String)) (r : ExposeResource) :
    Except ExposeFailure ExposeResource := do
  ensure (r.source = .api)
    (.failure 400 "file_owned" "File rules cannot be imported through the API")
  let r := { r with spec := { r.spec with orgId := mapOrg orgMap r.spec.orgId } }
  ensure (permits c r.spec.orgId .create)
    (.failure 403 "forbidden" "Expose import requires create in every destination organization")
  validateSpec env r.spec
  return r

def restorePolicy (orgMap : List (String × String)) (policy : ExposePolicy) :
    Except ExposeFailure ExposePolicy := do
  let policy := { policy with orgId := mapOrg orgMap policy.orgId }
  ensure c.isServerAdmin
    (.failure 403 "forbidden"
      ("Only server administrators may import port policies; " ++
        "omit policies to use existing allocations"))
  ensure (policy.orgId = "master" ∨ env.orgKnown policy.orgId)
    (.failure 400 "invalid_org" "Unknown policy destination organization")
  return policy

/-- A resource that is there is left as it is. -/
def addResource (document : ExposeDocument) (r : ExposeResource) :
    Except ExposeFailure ExposeDocument :=
  match document.resources.find? (·.id == r.id) with
  | some existing => do
    ensure (permits c existing.spec.orgId .read)
      (.failure 409 "id_conflict" "An imported resource identity is unavailable")
    ensure (existing.spec = r.spec)
      (.failure 409 "id_conflict"
        ("An imported identity has a different specification; " ++
          "use a new UUID or explicitly update the existing resource"))
    return document
  | none => do
    ensure (env.isUuid r.id) (.failure 400 "invalid_id" "Imported resource IDs must be UUIDs")
    return { document with resources := document.resources ++ [{ r with revision := 1 }] }

/-- And so is a policy, which must be the same. -/
def addPolicy (document : ExposeDocument) (policy : ExposePolicy) :
    Except ExposeFailure ExposeDocument :=
  match document.policyOf policy.orgId with
  | some existing => do
    ensure (existing = { policy with revision := existing.revision })
      (.failure 409 "policy_conflict"
        "Destination policy differs; edit it explicitly before importing")
    return document
  | none => return { document with policies := document.policies ++ [{ policy with revision := 1 }] }

def previewed (document : ExposeDocument) : Except ExposeFailure Unit :=
  match s.preview env.probes document with
  | .ok () => return
  | .error error => throw (runtimeError error)

def restore (backup : ExposeBackup) (orgMap : List (String × String)) (preview : Bool)
    (revision : Option Nat) : Except ExposeFailure ExposePlan := do
  ensure (backup.version = 1) (.failure 400 "backup_version" "Unsupported expose backup version")
  ensure (backup.resources.length ≤ 10000 ∧ backup.policies.length ≤ 10000)
    (.failure 400 "backup_size" "An expose import is limited to 10000 resources and policies")
  let resources ← backup.resources.mapM (restoreResource env c orgMap)
  let policies ← backup.policies.mapM (restorePolicy env c orgMap)
  ensure (preview ∨ revision = some s.document.revision)
    (.failure 409 "revision_conflict" "Preview again and supply the current destination revision")
  let document ← resources.foldlM (addResource env c) s.document
  let imported := document.resources.length - s.document.resources.length
  let document ← policies.foldlM addPolicy document
  resources.forM fun r => boundedChange s c r.spec document
  previewed env s document
  if preview then return .answer (.previewed s.document.revision imported)
  else return .replace document false fun s' => .imported s'.document.revision imported

end ExposeApi

/-! ## Carrying a plan out -/

namespace ExposeEntry

def hasSession (e : ExposeEntry) (id sessionId : String) : Bool :=
  e.resource.id == id && e.runtime.sessions.any (·.id == sessionId)

def stopSession (e : ExposeEntry) (sessionId : String) : ExposeEntry :=
  { e with runtime := { e.runtime with
      sessions := e.runtime.sessions.map fun session =>
        if session.id = sessionId then { session with stop := true } else session } }

end ExposeEntry

namespace ExposeManager

variable (s : ExposeManager)

/-- `disconnect`: of the entry with the id, or of a retired one. -/
def disconnect (id sessionId : String) : Option ExposeManager :=
  if s.entries.any (·.hasSession id sessionId) then
    some { s with entries := s.entries.map fun e =>
      if e.hasSession id sessionId then e.stopSession sessionId else e }
  else if s.retired.any (·.hasSession id sessionId) then
    some { s with retired := s.retired.replaceF fun e =>
      if e.hasSession id sessionId then some (e.stopSession sessionId) else none }
  else none

def perform (env : ExposeEnv) : ExposePlan → Except ExposeFailure ExposeReply × ExposeManager
  | .answer reply => (.ok reply, s)
  | .replace document allowSuspension reply =>
    match s.replace env.binds env.persist document allowSuspension with
    | (.error error, s') => (.error (ExposeApi.runtimeError error), s')
    | (.ok (), s') => (.ok (reply s'), s')
  | .drain id seconds =>
    match s.drain env.persist id (env.now + seconds) with
    | (.error error, s') => (.error (ExposeApi.runtimeError error), s')
    | (.ok (), s') =>
      match s'.resource id with
      | some r => (.ok (.resource r), s')
      | none => (.error (ExposeApi.runtimeError "drained resource remains registered"), s')
  | .disconnect id sessionId reply =>
    match s.disconnect id sessionId with
    | some s' => (.ok reply, s')
    | none => (.error ExposeApi.notFound, s)

/-- What the handler of a request plans. -/
def plan (env : ExposeEnv) (c : Caller) : ExposeRequest → Except ExposeFailure ExposePlan
  | .create id spec => ExposeApi.create env s c id spec
  | .update id revision spec => ExposeApi.update env s c id revision spec
  | .delete id revision => ExposeApi.delete s c id revision
  | .operate id revision action sessionId drainSeconds =>
    ExposeApi.operate s c id revision action sessionId drainSeconds
  | .setPolicy org policy => ExposeApi.setPolicy env s c org policy
  | .restore backup orgMap preview revision =>
    ExposeApi.restore env s c backup orgMap preview revision

/-- A request, by whoever its credentials stand for. -/
def respond (env : ExposeEnv) (caller : Option Caller) (request : ExposeRequest) :
    Except ExposeFailure ExposeReply × ExposeManager :=
  match caller with
  | none =>
    (.error (.failure 401 "authentication_required"
      "Sign in with a user session or admin API key"), s)
  | some c =>
    match s.plan env c request with
    | .error failure => (.error failure, s)
    | .ok plan => s.perform env plan

end ExposeManager

/-! ## Runs -/

inductive ExposeApiAct where
  | request (env : ExposeEnv) (caller : Option Caller) (request : ExposeRequest)
  | task (id : String) (act : ListenerAct)
  | restart (binds : Binds) (loadError : Option String)

def ExposeManager.apiAct (s : ExposeManager) : ExposeApiAct → Option ExposeManager
  | .request env caller request => some (s.respond env caller request).2
  | .task id a => s.act (.task id a)
  | .restart binds loadError => some (s.restart binds loadError)

def exposeApi : Sys ExposeManager ExposeApiAct where
  init s := s = {}
  step s a s' := s.apiAct a = some s'

end Aperio
