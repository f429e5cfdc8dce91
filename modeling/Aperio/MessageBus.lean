import Mathlib.Data.List.Nodup
import Mathlib.Logic.Function.Basic
import Aperio.Run
import Aperio.Text
import Aperio.TunnelNames

/-!
# The writers of a message bus

`pubsub.rs` of the client: one bus a process, with the writers of the tunnel
connections a publish can go out on. A connection registers its writer in a
task of its own (`attach`), and `run_service` takes the writer out when the
connection has ended, or when there was none to begin with (`detach`). Both
go by the client id, and a reload runs two connections under one id until
the old one is closed.

`Knows` is what the list is for. It holds in every run in which neither
operation meets the writer of a live connection under its id, and no writer
is registered after its connection was taken out.
-/

namespace Aperio

/-! ## The list -/

/-- A connection's id, and which connection's queue the sender belongs to. -/
abbrev Writer := String × Nat

def detachWriter (writers : List Writer) (connectionId : String) : List Writer :=
  writers.filter (·.1 != connectionId)

def attachWriter (writers : List Writer) (w : Writer) : List Writer :=
  detachWriter writers w.1 ++ [w]

/-! ## Publishing -/

def maxMessageBytes : Nat := 256 * 1024

def reservedTopicPrefix : String := "$aperio/"

def validateTopic (topic : String) : Except String Unit := do
  refuseIf (topic == "") "a topic cannot be empty"
  refuseIf (decide (512 < topic.utf8ByteSize))
    ("topic is too long (" ++ toString topic.utf8ByteSize ++ " > 512)")
  refuseIf (topic.toList.contains '#' || topic.toList.contains '+')
    "a published topic cannot contain `#` or `+`; those are filter syntax"

def validatePublishTopic (topic : String) : Except String Unit := do
  validateTopic topic
  refuseIf (startsWith topic reservedTopicPrefix)
    ("`" ++ reservedTopicPrefix ++ "` is the server's own namespace and cannot be published into")

/-- `takes` says which queues accept a frame: a send fails when nothing reads
the queue any more. -/
def publishAt (writers : List Writer) (takes : Nat → Bool) (topic : String) (payload : Bytes) :
    Except String Writer := do
  validatePublishTopic topic
  refuseIf (decide (maxMessageBytes < payload.length))
    ("payload is " ++ toString payload.length ++ " bytes, over the " ++
      toString maxMessageBytes ++ "-byte limit")
  refuseIf writers.isEmpty "no tunnel connection is up to publish on"
  match writers.find? (takes ·.2) with
  | some w => pure w
  | none => .error "every tunnel connection refused the message"

/-- Who takes an acknowledgement; `none` is the warning that nobody did. -/
def acknowledge (writers : List Writer) (takes : Nat → Bool) : Option Writer :=
  writers.find? (takes ·.2)

/-! ## The process -/

/-- Where a `run_service` task is: between connections, on one, or about to
`detach`, after a connection or after an attempt that gave none. -/
inductive RunPhase where
  | idle
  | up (conn : Nat)
  | closing (conn : Option Nat)
deriving Repr, DecidableEq

/-- The connection that has not been detached. -/
def RunPhase.conn : RunPhase → Option Nat
  | .idle => none
  | .up conn => some conn
  | .closing conn => conn

structure ServiceRun where
  clientId : String
  phase : RunPhase := .idle
deriving Repr, DecidableEq

/-- `pending` are the attach tasks that have not run, and `next` numbers the
connections. -/
structure BusState where
  runs : Nat → Option ServiceRun := fun _ => none
  pending : List Writer := []
  writers : List Writer := []
  next : Nat := 0

namespace BusState

variable (s : BusState)

def setRun (r : Nat) (run : Option ServiceRun) : BusState :=
  { s with runs := Function.update s.runs r run }

def Live (conn : Nat) : Prop :=
  ∃ r run, s.runs r = some run ∧ run.phase = .up conn

/-- The connection is under that id and has not been detached. -/
def Holds (id : String) (conn : Nat) : Prop :=
  ∃ r run, s.runs r = some run ∧ run.clientId = id ∧ run.phase.conn = some conn

/-- No attach or detach is pending. -/
def Quiet : Prop :=
  s.pending = [] ∧ ∀ r run, s.runs r = some run → ∀ conn, run.phase ≠ .closing conn

end BusState

inductive BusAct where
  | spawn (r : Nat) (clientId : String)
  | connect (r : Nat)
  | refused (r : Nat)
  | ended (r : Nat)
  | attach (w : Writer)
  | detach (r : Nat)
  | stop (r : Nat)
deriving Repr, DecidableEq

/-- A reload spawns its runs beside the old ones, under any ids. -/
inductive BusStep : BusState → BusAct → BusState → Prop
  | spawn {s : BusState} {r : Nat} {clientId : String} (hfree : s.runs r = none) :
      BusStep s (.spawn r clientId) (s.setRun r (some ⟨clientId, .idle⟩))
  | connect {s : BusState} {r : Nat} {clientId : String}
      (hrun : s.runs r = some ⟨clientId, .idle⟩) :
      BusStep s (.connect r)
        { s.setRun r (some ⟨clientId, .up s.next⟩) with
          pending := (clientId, s.next) :: s.pending
          next := s.next + 1 }
  | refused {s : BusState} {r : Nat} {clientId : String}
      (hrun : s.runs r = some ⟨clientId, .idle⟩) :
      BusStep s (.refused r) (s.setRun r (some ⟨clientId, .closing none⟩))
  | ended {s : BusState} {r : Nat} {clientId : String} {conn : Nat}
      (hrun : s.runs r = some ⟨clientId, .up conn⟩) :
      BusStep s (.ended r) (s.setRun r (some ⟨clientId, .closing (some conn)⟩))
  | attach {s : BusState} {w : Writer} (hpending : w ∈ s.pending) :
      BusStep s (.attach w)
        { s with pending := s.pending.erase w, writers := attachWriter s.writers w }
  | detach {s : BusState} {r : Nat} {clientId : String} {conn : Option Nat}
      (hrun : s.runs r = some ⟨clientId, .closing conn⟩) :
      BusStep s (.detach r)
        { s.setRun r (some ⟨clientId, .idle⟩) with
          writers := detachWriter s.writers clientId }
  | stop {s : BusState} {r : Nat} {clientId : String}
      (hrun : s.runs r = some ⟨clientId, .idle⟩) :
      BusStep s (.stop r) (s.setRun r none)

def busSys : Sys BusState BusAct where
  init s := s = {}
  step := BusStep

/-! ## What the list is for -/

/-- One writer for each live connection and none of a dead one, and so a
publish and an acknowledgement that have a live connection to go out on do
go out. -/
structure BusState.Knows (s : BusState) : Prop where
  live : ∀ conn, s.Live conn ↔ conn ∈ s.writers.map Prod.snd
  once : (s.writers.map Prod.snd).Nodup
  publishes : ∀ takes : Nat → Bool, (∀ conn, s.Live conn → takes conn = true) →
    (∃ conn, s.Live conn) →
    (∀ topic payload, validatePublishTopic topic = .ok () →
      List.length payload ≤ maxMessageBytes →
      ∃ w, publishAt s.writers takes topic payload = .ok w) ∧
    acknowledge s.writers takes ≠ none

/-- What `attach` and `detach` must meet: the one a connection that has not
been detached, and neither the writer of a live connection under the id they
clear. -/
def liveWritersSpared (s : BusState) (a : BusAct) (_ : BusState) : Prop :=
  match a with
  | .attach w => s.Holds w.1 w.2 ∧ ∀ conn, (w.1, conn) ∈ s.writers → ¬s.Live conn
  | .detach r => ∀ run, s.runs r = some run →
    ∀ conn, (run.clientId, conn) ∈ s.writers → ¬s.Live conn
  | _ => True

/-! ## The list, one operation at a time -/

variable {writers : List Writer} {w : Writer} {id : String}

theorem mem_detachWriter : w ∈ detachWriter writers id ↔ w ∈ writers ∧ w.1 ≠ id := by
  simp [detachWriter]

theorem mem_attachWriter {v : Writer} :
    w ∈ attachWriter writers v ↔ w ∈ writers ∧ w.1 ≠ v.1 ∨ w = v := by
  rw [attachWriter, List.mem_append, mem_detachWriter, List.mem_singleton]

theorem detachWriter_nodup (h : (writers.map Prod.fst).Nodup) :
    ((detachWriter writers id).map Prod.fst).Nodup :=
  h.sublist (List.filter_sublist.map _)

/-- No two writers have one id, whatever was there. -/
theorem attachWriter_nodup (h : (writers.map Prod.fst).Nodup) :
    ((attachWriter writers w).map Prod.fst).Nodup := by
  rw [attachWriter, List.map_append, List.map_singleton, ← List.concat_eq_append]
  refine (detachWriter_nodup h).concat ?_
  intro hmem
  obtain ⟨v, hv, hid⟩ := List.mem_map.mp hmem
  exact (mem_detachWriter.mp hv).2 hid

/-- With a queue that takes it in the list, a frame goes out. -/
theorem find_takes {takes : Nat → Bool} (hw : w ∈ writers) (htakes : takes w.2 = true) :
    ∃ v, writers.find? (takes ·.2) = some v := by
  rw [← Option.isSome_iff_exists, List.find?_isSome]
  exact ⟨w, hw, htakes⟩

theorem publishAt_ok {takes : Nat → Bool} {topic : String} {payload : Bytes}
    (htopic : validatePublishTopic topic = .ok ()) (hsize : payload.length ≤ maxMessageBytes)
    (hw : w ∈ writers) (htakes : takes w.2 = true) :
    ∃ v, publishAt writers takes topic payload = .ok v := by
  obtain ⟨v, hv⟩ := find_takes hw htakes
  have hne : writers.isEmpty = false := by
    rw [List.isEmpty_eq_false_iff]
    exact List.ne_nil_of_mem hw
  refine ⟨v, ?_⟩
  simp [publishAt, htopic, refuseIf, Nat.not_lt.mpr hsize, hne, hv, bind, Except.bind, pure,
    Except.pure]

namespace BusState

variable {s s' : BusState} {r : Nat} {conn : Nat} {run : ServiceRun} {a : BusAct}

theorem setRun_self (s : BusState) (r : Nat) (new : Option ServiceRun) :
    (s.setRun r new).runs r = new :=
  Function.update_self ..

theorem setRun_other (s : BusState) {r r' : Nat} (h : r' ≠ r) (new : Option ServiceRun) :
    (s.setRun r new).runs r' = s.runs r' :=
  Function.update_of_ne h ..

/-- What every run keeps: connections belong to one run each, writers to
connections that have not been detached, and each live connection has its
writer in the list or on the way. -/
structure Sound (s : BusState) : Prop where
  numbered : ∀ r run conn, s.runs r = some run → run.phase.conn = some conn → conn < s.next
  own : ∀ r r' run run' conn, s.runs r = some run → s.runs r' = some run' →
    run.phase.conn = some conn → run'.phase.conn = some conn → r = r'
  held : ∀ w ∈ s.writers, s.Holds w.1 w.2
  registered : ∀ r run conn, s.runs r = some run → run.phase = .up conn →
    (run.clientId, conn) ∈ s.pending ∨ (run.clientId, conn) ∈ s.writers
  ids : (s.writers.map Prod.fst).Nodup

/-- A run of the new state is the one that was put there, or an old one. -/
theorem setRun_cases {r' : Nat} {new : Option ServiceRun}
    (h : (s.setRun r new).runs r' = some run) :
    r' = r ∧ new = some run ∨ r' ≠ r ∧ s.runs r' = some run := by
  by_cases hr : r' = r
  · rw [hr, setRun_self] at h
    exact Or.inl ⟨hr, h⟩
  · rw [setRun_other s hr] at h
    exact Or.inr ⟨hr, h⟩

/-- A connection is held as before when the run that moves still has its
own, or had none. -/
theorem Holds.setRun {id : String} {new : Option ServiceRun} (h : s.Holds id conn)
    (hkept : ∀ old, s.runs r = some old → old.clientId = id → old.phase.conn = some conn →
      ∃ run, new = some run ∧ run.clientId = id ∧ run.phase.conn = some conn) :
    (s.setRun r new).Holds id conn := by
  obtain ⟨r', old, hold, hid, hconn⟩ := h
  by_cases hr : r' = r
  · rw [hr] at hold
    obtain ⟨run, hnew, hid', hconn'⟩ := hkept old hold hid hconn
    exact ⟨r, run, by rw [setRun_self, hnew], hid', hconn'⟩
  · exact ⟨r', old, by rw [setRun_other s hr]; exact hold, hid, hconn⟩

/-- **Frame rule.** A run moves without taking a connection on or giving
one up. -/
theorem Sound.setRun (h : s.Sound) {new : Option ServiceRun}
    (hnew : ∀ run conn, new = some run → run.phase.conn = some conn →
      ∃ old, s.runs r = some old ∧ old.phase.conn = some conn)
    (hkept : ∀ old conn, s.runs r = some old → old.phase.conn = some conn →
      ∃ run, new = some run ∧ run.clientId = old.clientId ∧ run.phase.conn = some conn)
    (hup : ∀ run conn, new = some run → run.phase ≠ .up conn) : (s.setRun r new).Sound := by
  -- a connection of a run was that run's before
  have hwas {r' : Nat} {run : ServiceRun} {conn : Nat}
      (hrun : (s.setRun r new).runs r' = some run) (hconn : run.phase.conn = some conn) :
      ∃ old, s.runs r' = some old ∧ old.phase.conn = some conn := by
    rcases setRun_cases hrun with ⟨rfl, hput⟩ | ⟨-, hold⟩
    · exact hnew run conn hput hconn
    · exact ⟨run, hold, hconn⟩
  refine ⟨?_, ?_, ?_, ?_, h.ids⟩
  · intro r' run conn hrun hconn
    obtain ⟨old, hold, hconn'⟩ := hwas hrun hconn
    exact h.numbered r' old conn hold hconn'
  · intro r₁ r₂ run₁ run₂ conn hrun₁ hrun₂ hconn₁ hconn₂
    obtain ⟨old₁, hold₁, hc₁⟩ := hwas hrun₁ hconn₁
    obtain ⟨old₂, hold₂, hc₂⟩ := hwas hrun₂ hconn₂
    exact h.own r₁ r₂ old₁ old₂ conn hold₁ hold₂ hc₁ hc₂
  · intro w hw
    refine (h.held w hw).setRun ?_
    intro old hold hid hconn
    obtain ⟨run, hput, hid', hconn'⟩ := hkept old w.2 hold hconn
    exact ⟨run, hput, hid'.trans hid, hconn'⟩
  · intro r' run conn hrun hphase
    rcases setRun_cases hrun with ⟨-, hput⟩ | ⟨-, hold⟩
    · exact absurd hphase (hup run conn hput)
    · exact h.registered r' run conn hold hphase

theorem Sound.connected {clientId : String} (h : s.Sound)
    (hrun : s.runs r = some ⟨clientId, .idle⟩) :
    ({ s.setRun r (some ⟨clientId, .up s.next⟩) with
        pending := (clientId, s.next) :: s.pending
        next := s.next + 1 } : BusState).Sound := by
  refine ⟨?_, ?_, ?_, ?_, h.ids⟩
  · intro r' run conn hput hconn
    rcases setRun_cases hput with ⟨-, heq⟩ | ⟨-, hold⟩
    · cases heq
      cases hconn
      exact Nat.lt_succ_self _
    · exact Nat.lt_succ_of_lt (h.numbered r' run conn hold hconn)
  · intro r₁ r₂ run₁ run₂ conn hput₁ hput₂ hconn₁ hconn₂
    rcases setRun_cases hput₁ with ⟨rfl, heq₁⟩ | ⟨-, hold₁⟩ <;>
      rcases setRun_cases hput₂ with ⟨rfl, heq₂⟩ | ⟨-, hold₂⟩
    · rfl
    · cases heq₁
      cases hconn₁
      exact absurd (h.numbered r₂ run₂ _ hold₂ hconn₂) (Nat.lt_irrefl _)
    · cases heq₂
      cases hconn₂
      exact absurd (h.numbered r₁ run₁ _ hold₁ hconn₁) (Nat.lt_irrefl _)
    · exact h.own r₁ r₂ run₁ run₂ conn hold₁ hold₂ hconn₁ hconn₂
  · intro w hw
    refine (h.held w hw).setRun ?_
    intro old hold _ hconn
    rw [hrun] at hold
    cases hold
    cases hconn
  · intro r' run conn hput hphase
    rcases setRun_cases hput with ⟨-, heq⟩ | ⟨-, hold⟩
    · cases heq
      cases hphase
      exact Or.inl List.mem_cons_self
    · exact (h.registered r' run conn hold hphase).imp_left (List.mem_cons_of_mem _)

theorem Sound.attached {w : Writer} (h : s.Sound) (hholds : s.Holds w.1 w.2)
    (hspared : ∀ conn, (w.1, conn) ∈ s.writers → ¬s.Live conn) :
    ({ s with pending := s.pending.erase w, writers := attachWriter s.writers w } :
      BusState).Sound := by
  refine ⟨h.numbered, h.own, ?_, ?_, attachWriter_nodup h.ids⟩
  · intro v hv
    rcases mem_attachWriter.mp hv with ⟨hold, -⟩ | rfl
    · exact h.held v hold
    · exact hholds
  · intro r run conn hrun hphase
    by_cases heq : (run.clientId, conn) = w
    · exact Or.inr (mem_attachWriter.mpr (Or.inr heq))
    rcases h.registered r run conn hrun hphase with hpending | hin
    · exact Or.inl ((List.mem_erase_of_ne heq).mpr hpending)
    · refine Or.inr (mem_attachWriter.mpr (Or.inl ⟨hin, ?_⟩))
      intro hid
      rw [show run.clientId = w.1 from hid] at hin
      exact hspared conn hin ⟨r, run, hrun, hphase⟩

theorem Sound.detached {clientId : String} {closed : Option Nat} (h : s.Sound)
    (hrun : s.runs r = some ⟨clientId, .closing closed⟩)
    (hspared : ∀ conn, (clientId, conn) ∈ s.writers → ¬s.Live conn) :
    ({ s.setRun r (some ⟨clientId, .idle⟩) with
        writers := detachWriter s.writers clientId } : BusState).Sound := by
  have hwas {r' : Nat} {run : ServiceRun} {conn : Nat}
      (hput : (s.setRun r (some ⟨clientId, .idle⟩)).runs r' = some run)
      (hconn : run.phase.conn = some conn) : s.runs r' = some run := by
    rcases setRun_cases hput with ⟨-, heq⟩ | ⟨-, hold⟩
    · cases heq
      cases hconn
    · exact hold
  refine ⟨?_, ?_, ?_, ?_, detachWriter_nodup h.ids⟩
  · intro r' run conn hput hconn
    exact h.numbered r' run conn (hwas hput hconn) hconn
  · intro r₁ r₂ run₁ run₂ conn hput₁ hput₂ hconn₁ hconn₂
    exact h.own r₁ r₂ run₁ run₂ conn (hwas hput₁ hconn₁) (hwas hput₂ hconn₂) hconn₁ hconn₂
  · intro w hw
    obtain ⟨hold, hne⟩ := mem_detachWriter.mp hw
    refine (h.held w hold).setRun ?_
    intro old hold hid _
    rw [hrun] at hold
    cases hold
    exact absurd hid.symm hne
  · intro r' run conn hput hphase
    have hold := hwas hput (show run.phase.conn = some conn by rw [hphase]; rfl)
    refine (h.registered r' run conn hold hphase).imp_right fun hin => ?_
    refine mem_detachWriter.mpr ⟨hin, ?_⟩
    intro hid
    rw [show run.clientId = clientId from hid] at hin
    exact hspared conn hin ⟨r', run, hold, hphase⟩

/-- **Step lemma.** -/
theorem Sound.step (hstep : BusStep s a s') (hcond : liveWritersSpared s a s') (h : s.Sound) :
    s'.Sound := by
  cases hstep with
  | spawn hfree =>
      refine h.setRun ?_ ?_ ?_
      · rintro run conn ⟨⟩ ⟨⟩
      · intro old conn hold
        rw [hfree] at hold
        cases hold
      · rintro run conn ⟨⟩ ⟨⟩
  | connect hrun => exact h.connected hrun
  | refused hrun =>
      refine h.setRun ?_ ?_ ?_
      · rintro run conn ⟨⟩ ⟨⟩
      · intro old conn hold hconn
        rw [hrun] at hold
        cases hold
        cases hconn
      · rintro run conn ⟨⟩ ⟨⟩
  | ended hrun =>
      refine h.setRun ?_ ?_ ?_
      · rintro run conn ⟨⟩ hconn
        exact ⟨_, hrun, hconn⟩
      · intro old conn hold hconn
        rw [hrun] at hold
        cases hold
        exact ⟨_, rfl, rfl, hconn⟩
      · rintro run conn ⟨⟩ ⟨⟩
  | attach hpending => exact h.attached hcond.1 hcond.2
  | detach hrun => exact h.detached hrun (hcond _ hrun)
  | stop hrun =>
      refine h.setRun ?_ ?_ ?_
      · rintro run conn ⟨⟩
      · intro old conn hold hconn
        rw [hrun] at hold
        cases hold
        cases hconn
      · rintro run conn ⟨⟩

/-- With nothing pending, the writers are those of the live connections. -/
theorem Sound.mem_writers (h : s.Sound) (hquiet : s.Quiet) (conn : Nat) :
    s.Live conn ↔ conn ∈ s.writers.map Prod.snd := by
  constructor
  · rintro ⟨r, run, hrun, hphase⟩
    rcases h.registered r run conn hrun hphase with hpending | hin
    · rw [hquiet.1] at hpending
      exact absurd hpending List.not_mem_nil
    · exact List.mem_map.mpr ⟨_, hin, rfl⟩
  · intro hmem
    obtain ⟨w, hw, rfl⟩ := List.mem_map.mp hmem
    obtain ⟨r, run, hrun, -, hconn⟩ := h.held w hw
    refine ⟨r, run, hrun, ?_⟩
    cases hphase : run.phase with
    | idle =>
        rw [hphase] at hconn
        cases hconn
    | up conn =>
        rw [hphase] at hconn
        cases hconn
        rfl
    | closing closed => exact absurd hphase (hquiet.2 r run hrun closed)

/-- Two writers of one connection would be under one id. -/
theorem Sound.once (h : s.Sound) : (s.writers.map Prod.snd).Nodup := by
  rw [List.nodup_map_iff_inj_on (List.Nodup.of_map _ h.ids)]
  intro v hv w hw hsame
  obtain ⟨r, run, hrun, hid, hconn⟩ := h.held v hv
  obtain ⟨r', run', hrun', hid', hconn'⟩ := h.held w hw
  rw [← hsame] at hconn'
  obtain rfl := h.own r r' run run' v.2 hrun hrun' hconn hconn'
  rw [hrun, Option.some_inj] at hrun'
  rw [hrun', hid'] at hid
  exact Prod.ext hid.symm hsame

theorem Sound.knows (h : s.Sound) (hquiet : s.Quiet) : s.Knows := by
  refine ⟨h.mem_writers hquiet, h.once, ?_⟩
  rintro takes htakes ⟨conn, hlive⟩
  obtain ⟨w, hw, rfl⟩ := List.mem_map.mp ((h.mem_writers hquiet conn).mp hlive)
  have htaken := htakes w.2 hlive
  refine ⟨fun topic payload htopic hsize => publishAt_ok htopic hsize hw htaken, ?_⟩
  obtain ⟨v, hv⟩ := find_takes hw htaken
  rw [acknowledge, hv]
  exact Option.some_ne_none v

end BusState

/-- **The bus knows every live connection**, in every run in which attach and
detach spare the writers of the live ones. -/
theorem bus_knows {s : BusState} (h : (busSys.restrict liveWritersSpared).Reachable s)
    (hquiet : s.Quiet) : s.Knows := by
  have hsound : s.Sound := by
    refine h.invariant ?_ ?_
    · intro s hs
      have hs' : s = {} := hs
      rw [hs']
      exact ⟨fun r run conn hrun => (by cases hrun), fun r r' run run' conn hrun => (by cases hrun),
        fun w hw => absurd hw List.not_mem_nil, fun r run conn hrun => (by cases hrun),
        List.nodup_nil⟩
    · intro s a s' _ hsound hstep
      exact BusState.Sound.step hstep.1 hstep.2 hsound
  exact hsound.knows hquiet

/-! ## A service, and its reload -/

namespace BusState

/-- One service, up and registered. -/
def oneUp : BusState where
  runs := Function.update (fun _ => none) 0 (some ⟨"web", .up 0⟩)
  writers := [("web", 0)]
  next := 1

/-- The same after a reload: the replacement is up and registered, and the
old connection has been closed and detached. -/
def reloaded : BusState where
  runs := Function.update (Function.update (fun _ => none) 1 (some ⟨"web", .up 1⟩)) 0
    (some ⟨"web", .idle⟩)
  next := 2

theorem not_closing_setRun {s : BusState} {r : Nat} {new : ServiceRun}
    (h : ∀ r run, s.runs r = some run → ∀ conn, run.phase ≠ .closing conn)
    (hnew : ∀ conn, new.phase ≠ .closing conn) (r' : Nat) (run : ServiceRun)
    (hrun : (s.setRun r (some new)).runs r' = some run) (conn : Option Nat) :
    run.phase ≠ .closing conn := by
  rcases setRun_cases hrun with ⟨-, heq⟩ | ⟨-, hold⟩
  · rw [← Option.some_inj.mp heq]
    exact hnew conn
  · exact h r' run hold conn

theorem oneUp_quiet : oneUp.Quiet :=
  ⟨rfl, @not_closing_setRun {} 0 _ (fun r run hrun => (by cases hrun)) fun _ h => (by cases h)⟩

theorem reloaded_quiet : reloaded.Quiet :=
  ⟨rfl, @not_closing_setRun (({} : BusState).setRun 1 _) 0 _
    (not_closing_setRun (fun r run hrun => (by cases hrun)) fun _ h => (by cases h))
    fun _ h => (by cases h)⟩

theorem oneUp_reachable {c : BusState → BusAct → BusState → Prop}
    (hc : ∀ s s' a, liveWritersSpared s a s' → c s a s') : (busSys.restrict c).Reachable oneUp := by
  have h0 : (busSys.restrict c).Reachable {} := .init rfl
  have h1 := h0.step ⟨@BusStep.spawn _ 0 "web" rfl, hc _ _ _ trivial⟩
  have h2 := h1.step ⟨@BusStep.connect _ 0 "web" rfl, hc _ _ _ trivial⟩
  have h3 := h2.step ⟨.attach List.mem_cons_self, hc _ _ _
    ⟨⟨0, _, rfl, rfl, rfl⟩, fun conn hin => absurd hin List.not_mem_nil⟩⟩
  simpa [oneUp, setRun, attachWriter, detachWriter] using h3

/-- The replacement takes the old connection's place in the list, and the
old connection's end takes it out again. -/
theorem reloaded_reachable : busSys.Reachable reloaded := by
  have h0 : (busSys.restrict fun _ _ _ => True).Reachable oneUp :=
    oneUp_reachable fun _ _ _ _ => trivial
  have h1 := h0.step ⟨@BusStep.spawn _ 1 "web" rfl, trivial⟩
  have h2 := h1.step ⟨@BusStep.connect _ 1 "web" rfl, trivial⟩
  have h3 := h2.step ⟨.attach List.mem_cons_self, trivial⟩
  have h4 := h3.step ⟨@BusStep.ended _ 0 "web" 0 rfl, trivial⟩
  have h5 := h4.step ⟨@BusStep.detach _ 0 "web" (some 0) rfl, trivial⟩
  have hrun := h5.of_restrict
  simpa [reloaded, oneUp, setRun, attachWriter, detachWriter,
    Function.update_comm (show (1 : Nat) ≠ 0 by decide)] using hrun

end BusState

/-- One service, and one writer. -/
theorem bus_knows_one : BusState.oneUp.Live 0 ∧ BusState.oneUp.Quiet ∧ BusState.oneUp.Knows := by
  have h := BusState.oneUp_reachable fun _ _ _ hspared => hspared
  exact ⟨⟨0, _, rfl, rfl⟩, BusState.oneUp_quiet, bus_knows h BusState.oneUp_quiet⟩

/-- After a reload nothing is pending and the replacement is up, and a
publish says that no connection is. -/
theorem reload_silences_bus : busSys.Reachable BusState.reloaded ∧ BusState.reloaded.Quiet ∧
    BusState.reloaded.Live 1 ∧
    publishAt BusState.reloaded.writers (fun _ => true) "deploy" [] =
      .error "no tunnel connection is up to publish on" ∧ ¬BusState.reloaded.Knows := by
  refine ⟨BusState.reloaded_reachable, BusState.reloaded_quiet, ⟨1, _, rfl, rfl⟩, rfl, ?_⟩
  intro h
  exact absurd ((h.live 1).mp ⟨1, _, rfl, rfl⟩) List.not_mem_nil

end Aperio
