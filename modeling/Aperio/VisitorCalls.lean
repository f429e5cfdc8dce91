import Mathlib.Data.List.Basic
import Aperio.Run

/-!
# A visitor that hangs up

`handle_ws_proxy` of `proxy/ws.rs` and `ask_over_tunnel` of
`forward_auth_tunnel.rs`, from one await to the next. A handler is a future:
when the visitor goes away it is dropped where it waits, and what it would
have done next does not happen, its drop guards apart. An upgrade has a guard
for its entry in `pending_upgrades` and none for the one in `ws_streams`; an
ask has none for its entry in `pending_auth_asks`.

Ids are fresh, so an entry of a map is a flag of the call that made it.
`Cleared` is a run in which a visitor hangs up only while its call has no
entry without a guard.
-/

namespace Aperio

/-! ## The upgrade -/

/-- Where an upgrade is: what its handler waits for, or what follows it. After
a 101 the handler has returned and the connection is being `upgrading`; the
relay is a task of its own. -/
inductive UpgradeStage where
  | starting
  | registered
  | sending
  | counting
  | answering
  | leavingPending
  | leavingStream
  | logging
  | accepting
  | rejecting
  | upgrading
  | relaying
  | relayLeaving
  | ended
deriving Repr, DecidableEq

/-- The handler is running and has its `PendingGuard`. -/
def UpgradeStage.guarded : UpgradeStage → Bool
  | .registered | .sending | .counting | .answering | .leavingPending | .leavingStream | .logging
  | .accepting | .rejecting => true
  | _ => false

/-- Something that is still to run removes the relay's entry. -/
def UpgradeStage.removes : UpgradeStage → Bool
  | .sending | .counting | .answering | .leavingPending | .leavingStream | .accepting | .rejecting
  | .upgrading | .relaying | .relayLeaving => true
  | _ => false

/-- `pending` and `stream` are the entries in `pending_upgrades` and
`ws_streams`, `reply` what the answer channel gives: a status, or that its
sender is gone. `sweep` is a guard that found the map locked, and left the
removal to a task. -/
structure UpgradeCall where
  client : String
  stage : UpgradeStage := .starting
  pending : Bool := false
  stream : Bool := false
  reply : Option (Option Nat) := none
  sweep : Bool := false
deriving Repr, DecidableEq

inductive UpgradeAct where
  | register
  | addStream
  | send (ok : Bool)
  | count
  | timeout
  | hear
  | leavePending
  | leaveStream
  | logged (locked : Bool)
  | accept (ok locked : Bool)
  | closeSent
  /-- The public connection was upgraded, or was gone by then. -/
  | upgraded (ok : Bool)
  | relayEnds
  | relayRemoves
  | sweep
  /-- The future is dropped. -/
  | hangUp (locked : Bool)
  /-- A client sends an `UpgradeResponse`. -/
  | answer (client : String) (status : Nat)
  /-- A frame of the serving client could not be pushed. -/
  | dropFrame

namespace UpgradeCall

variable (u : UpgradeCall)

/-- `PendingGuard::drop`; `locked` is whether `try_lock` got the map. -/
def dropGuard (locked : Bool) : UpgradeCall :=
  if locked then { u with pending := false } else { u with sweep := true }

def act : UpgradeAct → Option UpgradeCall
  | .register =>
    if u.stage = .starting then some { u with pending := true, stage := .registered } else none
  | .addStream =>
    if u.stage = .registered then some { u with stream := true, stage := .sending } else none
  | .send ok =>
    if u.stage = .sending then
      some { u with stage := if ok then .counting else .leavingPending }
    else none
  | .count => if u.stage = .counting then some { u with stage := .answering } else none
  | .timeout => if u.stage = .answering then some { u with stage := .leavingPending } else none
  | .hear =>
    if u.stage = .answering then
      match u.reply with
      | some (some status) =>
        some { u with stage := if status = 101 then .accepting else .leavingStream }
      | some none => some { u with stage := .leavingStream }
      | none => none
    else none
  | .leavePending =>
    if u.stage = .leavingPending then
      some { u with pending := false, stage := .leavingStream }
    else none
  | .leaveStream =>
    if u.stage = .leavingStream then some { u with stream := false, stage := .logging } else none
  | .logged locked =>
    if u.stage = .logging then some { u.dropGuard locked with stage := .ended } else none
  | .accept ok locked =>
    if u.stage = .accepting then
      some (if ok then { u.dropGuard locked with stage := .upgrading }
        else { u with stage := .rejecting })
    else none
  | .closeSent =>
    if u.stage = .rejecting then some { u with stage := .leavingStream } else none
  | .upgraded ok =>
    if u.stage = .upgrading then
      some { u with stage := if ok then .relaying else .ended }
    else none
  | .relayEnds => if u.stage = .relaying then some { u with stage := .relayLeaving } else none
  | .relayRemoves =>
    if u.stage = .relayLeaving then some { u with stream := false, stage := .ended } else none
  | .sweep => if u.sweep then some { u with pending := false, sweep := false } else none
  | .hangUp locked =>
    if u.stage.guarded then some { u.dropGuard locked with stage := .ended }
    else if u.stage = .starting then some { u with stage := .ended }
    else none
  | .answer client status =>
    some (if u.pending ∧ client = u.client then
        { u with pending := false, reply := some (some status) }
      else u)
  | .dropFrame => some { u with stream := false }

/-- The serving client has gone: its share of `pending_upgrades`. -/
def forget (client : String) : UpgradeCall :=
  if u.pending ∧ u.client = client then { u with pending := false, reply := some none } else u

/-- And of `ws_streams`. -/
def forgetStream (client : String) : UpgradeCall :=
  if u.client = client then { u with stream := false } else u

/-- Handler, relay and guard have all run. -/
def ended : Bool :=
  u.stage == .ended && !u.sweep

end UpgradeCall

/-! ## The ask -/

def maxAsksPerConnection : Nat := 32

/-- Where an ask is: what it waits for, or over. It is `unsent` or `late` when
its entry is still to be removed, and `judging` when it has the answer. -/
inductive AskStage where
  | starting
  | sending
  | waiting
  | unsent
  | late
  | judging
  | ended
deriving Repr, DecidableEq

/-- The request is running and waits for the answer, or is about to give up. -/
def AskStage.asking : AskStage → Bool
  | .sending | .waiting | .unsent | .late => true
  | _ => false

/-- `entry` is the one in `pending_auth_asks`, `reply` what the answer channel
gives. -/
structure AskCall where
  client : String
  stage : AskStage := .starting
  entry : Bool := false
  reply : Option (Option Nat) := none
deriving Repr, DecidableEq

inductive AuthAskAct where
  | ask
  | send (ok : Bool)
  | timeout
  | hear
  | remove
  | judged
  /-- The future is dropped. -/
  | hangUp
  /-- A client sends an answer. -/
  | answer (client : String) (status : Nat)

namespace AskCall

variable (a : AskCall)

/-- `resolve`. -/
def resolve (client : String) (status : Nat) : AskCall :=
  if a.entry ∧ a.client = client then { a with entry := false, reply := some (some status) } else a

/-- `forget_client`, of one ask. -/
def forget (client : String) : AskCall :=
  if a.entry ∧ a.client = client then { a with entry := false, reply := some none } else a

/-- `opened` is how many asks are counted against the connection. -/
def act (opened : Nat) : AuthAskAct → Option AskCall
  | .ask =>
    if a.stage = .starting then
      some (if maxAsksPerConnection ≤ opened then { a with stage := .ended }
        else { a with entry := true, stage := .sending })
    else none
  | .send ok =>
    if a.stage = .sending then some { a with stage := if ok then .waiting else .unsent } else none
  | .timeout => if a.stage = .waiting then some { a with stage := .late } else none
  | .hear =>
    if a.stage = .waiting then
      match a.reply with
      | some (some _) => some { a with stage := .judging }
      | some none => some { a with stage := .ended }
      | none => none
    else none
  | .remove =>
    if a.stage = .unsent ∨ a.stage = .late then
      some { a with entry := false, stage := .ended }
    else none
  | .judged => if a.stage = .judging then some { a with stage := .ended } else none
  | .hangUp => if a.stage ≠ .ended then some { a with stage := .ended } else none
  | .answer client status => some (a.resolve client status)

end AskCall

/-! ## All calls -/

structure VisitorBoard where
  upgrades : List UpgradeCall := []
  asks : List AskCall := []

inductive VisitorAct where
  | newUpgrade (client : String)
  | newAsk (client : String)
  | onUpgrade (id : Nat) (act : UpgradeAct)
  | onAsk (id : Nat) (act : AuthAskAct)
  | forgetUpgrades (client : String)
  | forgetStreams (client : String)
  | forgetAsks (client : String)

namespace VisitorBoard

variable (s : VisitorBoard)

/-- The asks that count against a connection. -/
def opened (client : String) : List AskCall :=
  s.asks.filter fun a => a.entry && a.client == client

def act : VisitorAct → Option VisitorBoard
  | .newUpgrade client => some { s with upgrades := s.upgrades ++ [{ client }] }
  | .newAsk client => some { s with asks := s.asks ++ [{ client }] }
  | .onUpgrade id act => do
    let u ← s.upgrades[id]?
    let u' ← u.act act
    return { s with upgrades := s.upgrades.set id u' }
  | .onAsk id act => do
    let a ← s.asks[id]?
    let a' ← a.act (s.opened a.client).length act
    return { s with asks := s.asks.set id a' }
  | .forgetUpgrades client => some { s with upgrades := s.upgrades.map (·.forget client) }
  | .forgetStreams client => some { s with upgrades := s.upgrades.map (·.forgetStream client) }
  | .forgetAsks client => some { s with asks := s.asks.map (·.forget client) }

end VisitorBoard

def visitorSys : Sys VisitorBoard VisitorAct where
  init s := s = {}
  step s a s' := s.act a = some s'

namespace VisitorBoard

/-- No call that is over has an entry in a map. -/
def NothingLeft (s : VisitorBoard) : Prop :=
  (∀ u ∈ s.upgrades, u.ended → ¬u.pending ∧ ¬u.stream) ∧
    ∀ a ∈ s.asks, a.stage = .ended → ¬a.entry

/-- What is counted against a connection is what a running request asked. -/
def AsksLive (s : VisitorBoard) : Prop :=
  ∀ client, ∀ a ∈ s.opened client, a.stage.asking

/-- A visitor goes away while its call has no entry in `ws_streams` and none
in `pending_auth_asks`. -/
def Cleared (s : VisitorBoard) : VisitorAct → VisitorBoard → Prop
  | .onUpgrade id (.hangUp _), _ => ∀ u, s.upgrades[id]? = some u → ¬u.stream
  | .onUpgrade id (.upgraded false), _ => ∀ u, s.upgrades[id]? = some u → ¬u.stream
  | .onAsk id .hangUp, _ => ∀ a, s.asks[id]? = some a → ¬a.entry
  | _, _ => True

end VisitorBoard

/-! ## One call -/

namespace UpgradeCall

variable {u u' : UpgradeCall}

/-- An entry in `pending_upgrades` has a guard, or the guard's task. -/
def Guarded (u : UpgradeCall) : Prop :=
  u.pending → u.stage.guarded ∨ u.sweep

/-- An entry in `ws_streams` has something to remove it. -/
def Removed (u : UpgradeCall) : Prop :=
  u.stream → u.stage.removes

theorem guarded_dropGuard (locked : Bool) (stage : UpgradeStage) :
    Guarded { u.dropGuard locked with stage } := by
  intro hpending
  cases locked with
  | true => cases hpending
  | false => exact .inr rfl

theorem Guarded.of_guarded (h : u'.stage.guarded = true) : u'.Guarded :=
  fun _ => .inl h

theorem Guarded.of_cleared (h : u'.pending = false) : u'.Guarded := by
  intro hpending
  cases h.symm.trans hpending

/-- Where the guard is already gone, its task is what the entry has. -/
theorem Guarded.of_unguarded (h : u.Guarded) (hstage : u.stage.guarded = false)
    (hpending : u'.pending = u.pending) (hsweep : u'.sweep = u.sweep) : u'.Guarded := by
  intro hleft
  have hguard := h (hpending ▸ hleft)
  rw [hstage] at hguard
  exact .inr (hsweep ▸ hguard.resolve_left nofun)

theorem Removed.of_removes (h : u'.stage.removes = true) : u'.Removed :=
  fun _ => h

theorem Removed.of_cleared (h : u'.stream = false) : u'.Removed := by
  intro hstream
  cases h.symm.trans hstream

theorem Removed.not_stream (h : u.Removed) (hstage : u.stage.removes = false) : ¬u.stream := by
  intro hstream
  cases hstage.symm.trans (h hstream)

@[simp] theorem dropGuard_stream (locked : Bool) : (u.dropGuard locked).stream = u.stream := by
  cases locked <;> rfl

theorem Guarded.act {a : UpgradeAct} (h : u.Guarded) (hact : u.act a = some u') : u'.Guarded := by
  cases a with
  | register =>
      obtain ⟨-, rfl⟩ := Sys.guarded_eq_some hact
      exact .of_guarded rfl
  | addStream =>
      obtain ⟨-, rfl⟩ := Sys.guarded_eq_some hact
      exact .of_guarded rfl
  | send ok =>
      obtain ⟨-, rfl⟩ := Sys.guarded_eq_some hact
      cases ok <;> exact .of_guarded rfl
  | count =>
      obtain ⟨-, rfl⟩ := Sys.guarded_eq_some hact
      exact .of_guarded rfl
  | timeout =>
      obtain ⟨-, rfl⟩ := Sys.guarded_eq_some hact
      exact .of_guarded rfl
  | hear =>
      simp only [UpgradeCall.act, Option.ite_none_right_eq_some] at hact
      obtain ⟨-, hreply⟩ := hact
      split at hreply
      · obtain rfl := Option.some.inj hreply
        refine .of_guarded ?_
        dsimp only
        split <;> rfl
      · obtain rfl := Option.some.inj hreply
        exact .of_guarded rfl
      · cases hreply
  | leavePending =>
      obtain ⟨-, rfl⟩ := Sys.guarded_eq_some hact
      exact .of_cleared rfl
  | leaveStream =>
      obtain ⟨-, rfl⟩ := Sys.guarded_eq_some hact
      exact .of_guarded rfl
  | logged locked =>
      obtain ⟨-, rfl⟩ := Sys.guarded_eq_some hact
      exact guarded_dropGuard locked .ended
  | accept ok locked =>
      obtain ⟨-, rfl⟩ := Sys.guarded_eq_some hact
      cases ok with
      | true => exact guarded_dropGuard locked .upgrading
      | false => exact .of_guarded rfl
  | closeSent =>
      obtain ⟨-, rfl⟩ := Sys.guarded_eq_some hact
      exact .of_guarded rfl
  | upgraded ok =>
      obtain ⟨hstage, rfl⟩ := Sys.guarded_eq_some hact
      exact h.of_unguarded (congrArg UpgradeStage.guarded hstage) rfl rfl
  | relayEnds =>
      obtain ⟨hstage, rfl⟩ := Sys.guarded_eq_some hact
      exact h.of_unguarded (congrArg UpgradeStage.guarded hstage) rfl rfl
  | relayRemoves =>
      obtain ⟨hstage, rfl⟩ := Sys.guarded_eq_some hact
      exact h.of_unguarded (congrArg UpgradeStage.guarded hstage) rfl rfl
  | sweep =>
      obtain ⟨-, rfl⟩ := Sys.guarded_eq_some hact
      exact .of_cleared rfl
  | hangUp locked =>
      simp only [UpgradeCall.act] at hact
      split at hact
      · obtain rfl := Option.some.inj hact
        exact guarded_dropGuard locked .ended
      · obtain ⟨hstage, rfl⟩ := Sys.guarded_eq_some hact
        exact h.of_unguarded (congrArg UpgradeStage.guarded hstage) rfl rfl
  | answer client status =>
      obtain rfl := Option.some.inj hact
      split
      · exact .of_cleared rfl
      · exact h
  | dropFrame =>
      obtain rfl := Option.some.inj hact
      exact h

/-- What `Cleared` says of a call. -/
def Clears (u : UpgradeCall) : UpgradeAct → Prop
  | .hangUp _ | .upgraded false => ¬u.stream
  | _ => True

theorem Removed.act {a : UpgradeAct} (h : u.Removed) (hclear : u.Clears a)
    (hact : u.act a = some u') : u'.Removed := by
  cases a with
  | register =>
      obtain ⟨hstage, rfl⟩ := Sys.guarded_eq_some hact
      exact fun hstream => absurd hstream (h.not_stream (congrArg UpgradeStage.removes hstage))
  | addStream =>
      obtain ⟨-, rfl⟩ := Sys.guarded_eq_some hact
      exact .of_removes rfl
  | send ok =>
      obtain ⟨-, rfl⟩ := Sys.guarded_eq_some hact
      cases ok <;> exact .of_removes rfl
  | count =>
      obtain ⟨-, rfl⟩ := Sys.guarded_eq_some hact
      exact .of_removes rfl
  | timeout =>
      obtain ⟨-, rfl⟩ := Sys.guarded_eq_some hact
      exact .of_removes rfl
  | hear =>
      simp only [UpgradeCall.act, Option.ite_none_right_eq_some] at hact
      obtain ⟨-, hreply⟩ := hact
      split at hreply
      · obtain rfl := Option.some.inj hreply
        refine .of_removes ?_
        dsimp only
        split <;> rfl
      · obtain rfl := Option.some.inj hreply
        exact .of_removes rfl
      · cases hreply
  | leavePending =>
      obtain ⟨-, rfl⟩ := Sys.guarded_eq_some hact
      exact .of_removes rfl
  | leaveStream =>
      obtain ⟨-, rfl⟩ := Sys.guarded_eq_some hact
      exact .of_cleared rfl
  | logged locked =>
      obtain ⟨hstage, rfl⟩ := Sys.guarded_eq_some hact
      intro hstream
      exact absurd (by simpa using hstream)
        (h.not_stream (congrArg UpgradeStage.removes hstage))
  | accept ok locked =>
      obtain ⟨-, rfl⟩ := Sys.guarded_eq_some hact
      cases ok <;> exact .of_removes rfl
  | closeSent =>
      obtain ⟨-, rfl⟩ := Sys.guarded_eq_some hact
      exact .of_removes rfl
  | upgraded ok =>
      obtain ⟨-, rfl⟩ := Sys.guarded_eq_some hact
      cases ok with
      | true => exact .of_removes rfl
      | false => exact .of_cleared (Bool.not_eq_true _ ▸ hclear)
  | relayEnds =>
      obtain ⟨-, rfl⟩ := Sys.guarded_eq_some hact
      exact .of_removes rfl
  | relayRemoves =>
      obtain ⟨-, rfl⟩ := Sys.guarded_eq_some hact
      exact .of_cleared rfl
  | sweep =>
      obtain ⟨-, rfl⟩ := Sys.guarded_eq_some hact
      exact h
  | hangUp locked =>
      simp only [UpgradeCall.act] at hact
      split at hact
      · obtain rfl := Option.some.inj hact
        intro hstream
        exact absurd (by simpa using hstream) hclear
      · obtain ⟨-, rfl⟩ := Sys.guarded_eq_some hact
        exact fun hstream => absurd hstream hclear
  | answer client status =>
      obtain rfl := Option.some.inj hact
      split
      · exact h
      · exact h
  | dropFrame =>
      obtain rfl := Option.some.inj hact
      exact .of_cleared rfl

theorem Guarded.forget (h : u.Guarded) (client : String) : (u.forget client).Guarded := by
  unfold UpgradeCall.forget
  split
  · exact .of_cleared rfl
  · exact h

theorem Removed.forget (h : u.Removed) (client : String) : (u.forget client).Removed := by
  unfold UpgradeCall.forget
  split
  · exact h
  · exact h

theorem Guarded.forgetStream (h : u.Guarded) (client : String) :
    (u.forgetStream client).Guarded := by
  unfold UpgradeCall.forgetStream
  split
  · exact h
  · exact h

theorem Removed.forgetStream (h : u.Removed) (client : String) :
    (u.forgetStream client).Removed := by
  unfold UpgradeCall.forgetStream
  split
  · exact .of_cleared rfl
  · exact h

theorem Guarded.ended (h : u.Guarded) (hover : u.ended) : ¬u.pending := by
  simp only [UpgradeCall.ended, Bool.and_eq_true, beq_iff_eq, Bool.not_eq_true'] at hover
  intro hpending
  have hguard := h hpending
  rw [hover.1, hover.2] at hguard
  exact hguard.elim nofun nofun

theorem Removed.ended (h : u.Removed) (hover : u.ended) : ¬u.stream := by
  simp only [UpgradeCall.ended, Bool.and_eq_true, beq_iff_eq, Bool.not_eq_true'] at hover
  exact h.not_stream (congrArg UpgradeStage.removes hover.1)

end UpgradeCall

namespace AskCall

variable {a a' : AskCall}

/-- An entry in `pending_auth_asks` is one that is waited for, and is gone
when there is an answer. -/
structure Waited (a : AskCall) : Prop where
  entry : a.entry → a.stage.asking
  reply : a.reply ≠ none → ¬a.entry
  starting : a.stage = .starting → a.reply = none

theorem Waited.of_cleared (hentry : a.entry = false) (hstage : a.stage ≠ .starting) :
    a.Waited where
  entry h := by cases hentry.symm.trans h
  reply _ h := by cases hentry.symm.trans h
  starting h := absurd h hstage

/-- The call has moved on, with its entry or without. -/
theorem Waited.moved {stage : AskStage} (h : a.Waited) (hstage : stage.asking = true) :
    Waited { a with stage } where
  entry _ := hstage
  reply := h.reply
  starting heq := by
    dsimp only at heq
    rw [heq] at hstage
    cases hstage

theorem Waited.resolve (h : a.Waited) (client : String) (status : Nat) :
    (a.resolve client status).Waited := by
  unfold AskCall.resolve
  split
  · next hentry =>
      refine .of_cleared rfl fun hstart => ?_
      have hasking := h.entry hentry.1
      rw [show a.stage = .starting from hstart] at hasking
      cases hasking
  · exact h

theorem Waited.forget (h : a.Waited) (client : String) : (a.forget client).Waited := by
  unfold AskCall.forget
  split
  · next hentry =>
      refine .of_cleared rfl fun hstart => ?_
      have hasking := h.entry hentry.1
      rw [show a.stage = .starting from hstart] at hasking
      cases hasking
  · exact h

/-- What `Cleared` says of an ask. -/
def Clears (a : AskCall) : AuthAskAct → Prop
  | .hangUp => ¬a.entry
  | _ => True

theorem Waited.act {opened : Nat} {b : AuthAskAct} (h : a.Waited) (hclear : a.Clears b)
    (hact : a.act opened b = some a') : a'.Waited := by
  cases b with
  | ask =>
      obtain ⟨hstage, rfl⟩ := Sys.guarded_eq_some hact
      have hentry : a.entry = false := by
        refine Bool.eq_false_iff.mpr fun hentry => ?_
        have hasking := h.entry hentry
        rw [hstage] at hasking
        cases hasking
      split
      · exact .of_cleared hentry nofun
      · exact ⟨fun _ => rfl, fun hreply => absurd (h.starting hstage) hreply, nofun⟩
  | send ok =>
      obtain ⟨-, rfl⟩ := Sys.guarded_eq_some hact
      cases ok <;> exact h.moved rfl
  | timeout =>
      obtain ⟨-, rfl⟩ := Sys.guarded_eq_some hact
      exact h.moved rfl
  | hear =>
      simp only [AskCall.act, Option.ite_none_right_eq_some] at hact
      obtain ⟨-, hreply⟩ := hact
      split at hreply
      · next hanswer =>
          obtain rfl := Option.some.inj hreply
          have hentry := h.reply (by rw [hanswer]; exact nofun)
          exact .of_cleared (Bool.eq_false_iff.mpr hentry) nofun
      · next hgone =>
          obtain rfl := Option.some.inj hreply
          have hentry := h.reply (by rw [hgone]; exact nofun)
          exact .of_cleared (Bool.eq_false_iff.mpr hentry) nofun
      · cases hreply
  | remove =>
      obtain ⟨-, rfl⟩ := Sys.guarded_eq_some hact
      exact .of_cleared rfl nofun
  | judged =>
      obtain ⟨hstage, rfl⟩ := Sys.guarded_eq_some hact
      refine .of_cleared (Bool.eq_false_iff.mpr fun hentry => ?_) nofun
      have hasking := h.entry hentry
      rw [hstage] at hasking
      cases hasking
  | hangUp =>
      obtain ⟨-, rfl⟩ := Sys.guarded_eq_some hact
      exact .of_cleared (Bool.eq_false_iff.mpr hclear) nofun
  | answer client status =>
      obtain rfl := Option.some.inj hact
      exact h.resolve client status

end AskCall

/-! ## Every run -/

namespace VisitorBoard

variable {s s' : VisitorBoard} {a : VisitorAct}

theorem forall_mem_set {α : Type} {P : α → Prop} {l : List α} {x : α} (i : Nat)
    (h : ∀ y ∈ l, P y) (hx : P x) : ∀ y ∈ l.set i x, P y := by
  intro y hy
  rcases List.mem_or_eq_of_mem_set hy with hmem | rfl
  · exact h y hmem
  · exact hx

theorem forall_mem_concat {α : Type} {P : α → Prop} {l : List α} {x : α}
    (h : ∀ y ∈ l, P y) (hx : P x) : ∀ y ∈ l ++ [x], P y := by
  intro y hy
  rcases List.mem_append.mp hy with hmem | hlast
  · exact h y hmem
  · rw [List.mem_singleton.mp hlast]
    exact hx

/-- The upgrades of the next state: what holds of every upgrade and is kept by
each of its steps holds of them. -/
theorem upgrades_step {P : UpgradeCall → Prop} (hP : ∀ u ∈ s.upgrades, P u)
    (hnew : ∀ client, P { client })
    (hact : ∀ id b, a = .onUpgrade id b → ∀ u u', s.upgrades[id]? = some u → P u →
      u.act b = some u' → P u')
    (hforget : ∀ u client, P u → P (u.forget client))
    (hforgetStream : ∀ u client, P u → P (u.forgetStream client))
    (hstep : s.act a = some s') : ∀ u ∈ s'.upgrades, P u := by
  cases a with
  | newUpgrade client =>
      obtain rfl := Option.some.inj hstep
      exact forall_mem_concat hP (hnew client)
  | onUpgrade id b =>
      simp only [act, bind, pure, Option.bind_eq_some_iff, Option.some_inj] at hstep
      obtain ⟨u, hu, u', hu', rfl⟩ := hstep
      exact forall_mem_set id hP (hact id b rfl u u' hu (hP u (List.mem_of_getElem? hu)) hu')
  | forgetUpgrades client =>
      obtain rfl := Option.some.inj hstep
      exact List.forall_mem_map.mpr fun u hu => hforget u client (hP u hu)
  | forgetStreams client =>
      obtain rfl := Option.some.inj hstep
      exact List.forall_mem_map.mpr fun u hu => hforgetStream u client (hP u hu)
  | newAsk client =>
      obtain rfl := Option.some.inj hstep
      exact hP
  | onAsk id b =>
      simp only [act, bind, pure, Option.bind_eq_some_iff, Option.some_inj] at hstep
      obtain ⟨-, -, -, -, rfl⟩ := hstep
      exact hP
  | forgetAsks client =>
      obtain rfl := Option.some.inj hstep
      exact hP

theorem asks_step {P : AskCall → Prop} (hP : ∀ c ∈ s.asks, P c)
    (hnew : ∀ client, P { client })
    (hact : ∀ id b, a = .onAsk id b → ∀ c c' opened, s.asks[id]? = some c → P c →
      c.act opened b = some c' → P c')
    (hforget : ∀ c client, P c → P (c.forget client))
    (hstep : s.act a = some s') : ∀ c ∈ s'.asks, P c := by
  cases a with
  | newAsk client =>
      obtain rfl := Option.some.inj hstep
      exact forall_mem_concat hP (hnew client)
  | onAsk id b =>
      simp only [act, bind, pure, Option.bind_eq_some_iff, Option.some_inj] at hstep
      obtain ⟨c, hc, c', hc', rfl⟩ := hstep
      exact forall_mem_set id hP (hact id b rfl c c' _ hc (hP c (List.mem_of_getElem? hc)) hc')
  | forgetAsks client =>
      obtain rfl := Option.some.inj hstep
      exact List.forall_mem_map.mpr fun c hc => hforget c client (hP c hc)
  | newUpgrade client =>
      obtain rfl := Option.some.inj hstep
      exact hP
  | onUpgrade id b =>
      simp only [act, bind, pure, Option.bind_eq_some_iff, Option.some_inj] at hstep
      obtain ⟨-, -, -, -, rfl⟩ := hstep
      exact hP
  | forgetUpgrades client =>
      obtain rfl := Option.some.inj hstep
      exact hP
  | forgetStreams client =>
      obtain rfl := Option.some.inj hstep
      exact hP

theorem Cleared.upgrade {id : Nat} {b : UpgradeAct} {u : UpgradeCall}
    (h : s.Cleared (.onUpgrade id b) s') (hu : s.upgrades[id]? = some u) : u.Clears b := by
  cases b with
  | hangUp locked => exact h u hu
  | upgraded ok =>
      cases ok with
      | true => trivial
      | false => exact h u hu
  | _ => trivial

theorem Cleared.ask {id : Nat} {b : AuthAskAct} {c : AskCall} (h : s.Cleared (.onAsk id b) s')
    (hc : s.asks[id]? = some c) : c.Clears b := by
  cases b with
  | hangUp => exact h c hc
  | _ => trivial

/-- Every entry in `pending_upgrades` has its guard, in every run. -/
theorem guarded (h : visitorSys.Reachable s) : ∀ u ∈ s.upgrades, u.Guarded := by
  refine h.invariant (P := fun s => ∀ u ∈ s.upgrades, u.Guarded) ?_ fun s a s' _ hs hstep => ?_
  · rintro s rfl
    exact nofun
  · exact upgrades_step hs (fun _ => nofun) (fun _ _ _ _ _ _ hu hact => hu.act hact)
      (fun _ client hu => hu.forget client) (fun _ client hu => hu.forgetStream client) hstep

theorem removed (h : (visitorSys.restrict Cleared).Reachable s) :
    ∀ u ∈ s.upgrades, u.Removed := by
  refine h.invariant (P := fun s => ∀ u ∈ s.upgrades, u.Removed) ?_ fun s a s' _ hs hstep => ?_
  · rintro s rfl
    exact nofun
  · refine upgrades_step hs (fun _ => nofun) ?_ (fun _ client hu => hu.forget client)
      (fun _ client hu => hu.forgetStream client) hstep.1
    rintro id b rfl u u' hid hu hact
    exact hu.act (hstep.2.upgrade hid) hact

theorem waited (h : (visitorSys.restrict Cleared).Reachable s) : ∀ c ∈ s.asks, c.Waited := by
  refine h.invariant (P := fun s => ∀ c ∈ s.asks, c.Waited) ?_ fun s a s' _ hs hstep => ?_
  · rintro s rfl
    exact nofun
  · refine asks_step hs (fun _ => ⟨nofun, fun hne => absurd rfl hne, fun _ => rfl⟩) ?_
      (fun _ client hc => hc.forget client) hstep.1
    rintro id b rfl c c' opened hid hc hact
    exact hc.act (hstep.2.ask hid) hact

end VisitorBoard

/-- **A vanished visitor leaves nothing behind**, in every run in which a
visitor hangs up only while its call has no entry without a guard; an entry in
`pending_upgrades` goes in every run. -/
theorem visitor_leaves_nothing {s : VisitorBoard} (h : visitorSys.Reachable s) :
    (∀ u ∈ s.upgrades, u.ended → ¬u.pending) ∧
      ((visitorSys.restrict VisitorBoard.Cleared).Reachable s → s.NothingLeft ∧ s.AsksLive) := by
  refine ⟨fun u hu hover => (VisitorBoard.guarded h u hu).ended hover, fun hclear => ⟨⟨?_, ?_⟩, ?_⟩⟩
  · intro u hu hover
    exact ⟨(VisitorBoard.guarded h u hu).ended hover,
      (VisitorBoard.removed hclear u hu).ended hover⟩
  · intro c hc hended hentry
    have hasking := (VisitorBoard.waited hclear c hc).entry hentry
    rw [hended] at hasking
    cases hasking
  · intro client c hc
    simp only [VisitorBoard.opened, List.mem_filter, Bool.and_eq_true] at hc
    exact (VisitorBoard.waited hclear c hc.1).entry hc.2.1

/-! ## A visitor that stays, and one that does not -/

namespace VisitorBoard

/-- An upgrade and an ask whose entries are in the maps, and whose messages
are about to be sent. -/
theorem sending_reachable {c : VisitorBoard → VisitorAct → VisitorBoard → Prop}
    (hc : ∀ s a s', Cleared s a s' → c s a s') :
    (visitorSys.restrict c).Reachable
      { upgrades := [{ client := "site", stage := .sending, pending := true, stream := true }]
        asks := [{ client := "site", stage := .sending, entry := true }] } := by
  have h₀ : (visitorSys.restrict c).Reachable {} := .init rfl
  have h₁ := h₀.step ⟨show act _ (.newUpgrade "site") = some _ from rfl, hc _ _ _ trivial⟩
  have h₂ := h₁.step ⟨show act _ (.onUpgrade 0 .register) = some _ from rfl, hc _ _ _ trivial⟩
  have h₃ := h₂.step ⟨show act _ (.onUpgrade 0 .addStream) = some _ from rfl, hc _ _ _ trivial⟩
  have h₄ := h₃.step ⟨show act _ (.newAsk "site") = some _ from rfl, hc _ _ _ trivial⟩
  exact h₄.step ⟨show act _ (.onAsk 0 .ask) = some _ from rfl, hc _ _ _ trivial⟩

end VisitorBoard

/-- The client is gone when the two are to be sent, and both calls end. -/
theorem visitor_leaves_nothing_refused : ∃ s : VisitorBoard, (∀ u ∈ s.upgrades, u.ended) ∧
    (∀ a ∈ s.asks, a.stage = .ended) ∧ s.upgrades.length = 1 ∧ s.asks.length = 1 ∧
      s.NothingLeft ∧ s.AsksLive := by
  have h₀ := VisitorBoard.sending_reachable (c := VisitorBoard.Cleared) fun _ _ _ => id
  have h₁ := h₀.step ⟨show VisitorBoard.act _ (.onUpgrade 0 (.send false)) = some _ from rfl,
    trivial⟩
  have h₂ := h₁.step ⟨show VisitorBoard.act _ (.onUpgrade 0 .leavePending) = some _ from rfl,
    trivial⟩
  have h₃ := h₂.step ⟨show VisitorBoard.act _ (.onUpgrade 0 .leaveStream) = some _ from rfl,
    trivial⟩
  have h₄ := h₃.step ⟨show VisitorBoard.act _ (.onUpgrade 0 (.logged true)) = some _ from rfl,
    trivial⟩
  have h₅ := h₄.step ⟨show VisitorBoard.act _ (.onAsk 0 (.send false)) = some _ from rfl, trivial⟩
  have h₆ := h₅.step ⟨show VisitorBoard.act _ (.onAsk 0 .remove) = some _ from rfl, trivial⟩
  obtain ⟨-, hleft⟩ := visitor_leaves_nothing h₆.of_restrict
  obtain ⟨hnothing, hlive⟩ := hleft h₆
  refine ⟨_, ?_, ?_, rfl, rfl, hnothing, hlive⟩
  · exact List.forall_mem_singleton.mpr rfl
  · exact List.forall_mem_singleton.mpr rfl

/-- Both visitors hang up while the messages wait to be sent: the relay's
entry stays, and nobody waits for the ask that is counted. -/
theorem visitor_leaves_entries : ∃ s : VisitorBoard, visitorSys.Reachable s ∧
    (∃ u ∈ s.upgrades, u.ended ∧ u.stream) ∧ ¬s.NothingLeft ∧ ¬s.AsksLive := by
  have h₀ := (VisitorBoard.sending_reachable (c := fun _ _ _ => True) fun _ _ _ _ =>
    trivial).of_restrict
  have h₁ := h₀.step (show VisitorBoard.act _ (.onUpgrade 0 (.hangUp true)) = some _ from rfl)
  have h₂ := h₁.step (show VisitorBoard.act _ (.onAsk 0 .hangUp) = some _ from rfl)
  refine ⟨_, h₂, ⟨_, List.mem_singleton.mpr rfl, rfl, rfl⟩, ?_, ?_⟩
  · intro hnothing
    exact hnothing.2 _ (List.mem_singleton.mpr rfl) rfl rfl
  · intro hlive
    cases hlive "site" _ (List.mem_singleton.mpr rfl)

end Aperio
