import Aperio.Run
import Mathlib.Data.List.Basic
import Mathlib.Logic.Function.Basic

/-!
# Closing a connection without losing a request

One connection as two channels. The client's drain sends `Draining` and a
heartbeat behind it, waits for a Pong, waits until nothing is in flight and
sends `Close` (`run_service`, `wait_for_pong_after`,
`drain_connection_inflight`). The server's handlers select the connection
while it is not draining, wait for a permit and send their request
(`Attempt::run`); its read loop answers heartbeats in order. All of them take
turns as they like, and no budget expires.

The Pong is the proof that the server has read the `Draining`, and everything
sent before that is ahead of it. Any Pong ends the wait, though, and a handler
that has selected does not look again. `drain_loses_nothing` is about the runs
in which neither is met.
-/

namespace Aperio

/-! ## The connection -/

inductive ClientFrame where
  | ping
  | draining
  | response (i : Nat)
  | close
deriving Repr, DecidableEq

inductive ServerFrame where
  | pong
  | request (i : Nat)
deriving Repr, DecidableEq

/-- Where the client's heartbeat task is: the drain takes its instant between
the two frames it sends. -/
inductive DrainPhase where
  | beating
  | announced
  | marked
  | waiting
  | counting
  | closed
deriving Repr, DecidableEq

/-- A server's handler and the request it has for this connection. -/
inductive HandlerPhase where
  | idle
  | selected
  | permitted
  | sent
deriving Repr, DecidableEq

/-- `ponged` says that a Pong was read after the instant of the drain. The
requests that were sent on the connection and those that were answered before
`Close` are kept. -/
structure DrainState where
  toServer : List ClientFrame := []
  toClient : List ServerFrame := []
  phase : DrainPhase := .beating
  ponged : Bool := false
  inflight : List Nat := []
  answered : List Nat := []
  draining : Bool := false
  gone : Bool := false
  handlers : Nat → HandlerPhase := fun _ => .idle
  sent : List Nat := []

inductive DrainAct where
  | heartbeat
  | announce
  | mark
  | ping
  | acknowledge
  | close
  | clientReads
  | answer (i : Nat)
  | serverReads
  | select (i : Nat)
  | permit (i : Nat)
  | send (i : Nat)
deriving Repr, DecidableEq

namespace DrainState

variable (s : DrainState)

/-- The server's read loop on one frame. -/
def serverHandles : ClientFrame → DrainState
  | .ping => { s with toClient := s.toClient ++ [.pong] }
  | .draining => { s with draining := true }
  | .response _ => s
  | .close => { s with gone := true }

/-- The client's dispatch loop on one frame. -/
def clientHandles : ServerFrame → DrainState
  | .pong => { s with ponged := true }
  | .request i => { s with inflight := i :: s.inflight }

def setHandler (i : Nat) (phase : HandlerPhase) : DrainState :=
  { s with handlers := Function.update s.handlers i phase }

/-- Nothing is read or answered once `Close` is sent, and nothing is sent on
a connection the server has seen closed. -/
inductive Step : DrainState → DrainAct → DrainState → Prop
  | heartbeat {s : DrainState} (h : s.phase = .beating) :
      Step s .heartbeat { s with toServer := s.toServer ++ [.ping] }
  | announce {s : DrainState} (h : s.phase = .beating) :
      Step s .announce { s with toServer := s.toServer ++ [.draining], phase := .announced }
  | mark {s : DrainState} (h : s.phase = .announced) :
      Step s .mark { s with ponged := false, phase := .marked }
  | ping {s : DrainState} (h : s.phase = .marked) :
      Step s .ping { s with toServer := s.toServer ++ [.ping], phase := .waiting }
  | acknowledge {s : DrainState} (h : s.phase = .waiting) (hpong : s.ponged = true) :
      Step s .acknowledge { s with phase := .counting }
  | close {s : DrainState} (h : s.phase = .counting) (hdone : s.inflight = []) :
      Step s .close { s with toServer := s.toServer ++ [.close], phase := .closed }
  | clientReads {s : DrainState} {f : ServerFrame} {rest : List ServerFrame}
      (h : s.toClient = f :: rest) (hopen : s.phase ≠ .closed) :
      Step s .clientReads ({ s with toClient := rest }.clientHandles f)
  | answer {s : DrainState} {i : Nat} (h : i ∈ s.inflight) (hopen : s.phase ≠ .closed) :
      Step s (.answer i)
        { s with
          toServer := s.toServer ++ [.response i]
          inflight := s.inflight.erase i
          answered := i :: s.answered }
  | serverReads {s : DrainState} {f : ClientFrame} {rest : List ClientFrame}
      (h : s.toServer = f :: rest) :
      Step s .serverReads ({ s with toServer := rest }.serverHandles f)
  | select {s : DrainState} {i : Nat} (hidle : s.handlers i = .idle)
      (hdrain : s.draining = false) (hup : s.gone = false) :
      Step s (.select i) (s.setHandler i .selected)
  | permit {s : DrainState} {i : Nat} (h : s.handlers i = .selected) :
      Step s (.permit i) (s.setHandler i .permitted)
  | send {s : DrainState} {i : Nat} (h : s.handlers i = .permitted) (hup : s.gone = false) :
      Step s (.send i)
        { s.setHandler i .sent with
          toClient := s.toClient ++ [.request i]
          sent := i :: s.sent }

end DrainState

def drainSys : Sys DrainState DrainAct where
  init s := s = {}
  step := DrainState.Step

/-- Once the client has sent `Close`, it has answered every request the
server sent on the connection. -/
def LosesNoRequest (s : DrainState) : Prop :=
  s.phase = .closed → ∀ i ∈ s.sent, i ∈ s.answered

/-- The drain takes its instant with no heartbeat on its way, and no handler
sends what it selected before the server read the `Draining` after that. -/
def orderlyStep (s : DrainState) (act : DrainAct) (_ : DrainState) : Prop :=
  (act = .mark → .ping ∉ s.toServer ∧ .pong ∉ s.toClient) ∧
    ∀ i, act = .send i → s.draining = false

/-! ## What the Pong is behind -/

/-- The instant of the drain is taken. -/
def DrainPhase.timed : DrainPhase → Bool
  | .beating => false
  | .announced => false
  | _ => true

/-- The drain has stopped waiting for a Pong. -/
def DrainPhase.heard : DrainPhase → Bool
  | .counting => true
  | .closed => true
  | _ => false

/-- A heartbeat on its way to the server is behind the `Draining`, a Pong on
its way back is behind every request, and one that was read is too. -/
structure PongLast (toServer : List ClientFrame) (toClient : List ServerFrame)
    (draining ponged : Bool) : Prop where
  ping : AtEach toServer fun pre f => f = .ping → draining = true ∨ .draining ∈ pre
  pong : .pong ∈ toClient → draining = true
  request : AtEach toClient fun pre f => ∀ i, f = .request i → .pong ∉ pre
  ponged : ponged = true → draining = true ∧ ∀ i, .request i ∉ toClient

namespace PongLast

variable {toServer : List ClientFrame} {toClient : List ServerFrame} {draining ponged : Bool}

/-- With no heartbeat on its way there is nothing to be behind. -/
theorem mark (hping : .ping ∉ toServer) (hpong : .pong ∉ toClient) :
    PongLast toServer toClient draining false := by
  refine ⟨fun pre x post hsplit hx => ?_, fun hmem => absurd hmem hpong,
    fun pre x post hsplit i _ hmem => ?_, fun hponged => ?_⟩
  · refine absurd ?_ hping
    rw [hsplit, hx]
    exact List.mem_append_right _ List.mem_cons_self
  · refine hpong ?_
    rw [hsplit]
    exact List.mem_append_left _ hmem
  · cases hponged

/-- A frame that is no heartbeat may be queued at any time. -/
theorem queue (h : PongLast toServer toClient draining ponged) {f : ClientFrame} (hf : f ≠ .ping) :
    PongLast (toServer ++ [f]) toClient draining ponged :=
  ⟨atEach_append.mpr ⟨h.ping, fun hping => absurd hping hf⟩, h.pong, h.request, h.ponged⟩

/-- The heartbeat of the drain is queued behind the `Draining`. -/
theorem queue_ping (h : PongLast toServer toClient draining ponged)
    (htold : draining = true ∨ .draining ∈ toServer) :
    PongLast (toServer ++ [.ping]) toClient draining ponged :=
  ⟨atEach_append.mpr ⟨h.ping, fun _ => htold⟩, h.pong, h.request, h.ponged⟩

/-- A request that is sent before the server has read the `Draining` is ahead
of every Pong. -/
theorem send (h : PongLast toServer toClient false ponged) (i : Nat) :
    PongLast toServer (toClient ++ [.request i]) false ponged := by
  have hnopong : ServerFrame.pong ∉ toClient := by
    intro hmem
    cases h.pong hmem
  refine ⟨h.ping, fun hmem => ?_, atEach_append.mpr ⟨h.request, fun _ _ => hnopong⟩,
    fun hponged => ?_⟩
  · rcases List.mem_append.mp hmem with hold | hnew
    · exact absurd hold hnopong
    · cases List.mem_singleton.mp hnew
  · cases (h.ponged hponged).1

/-- The server reads a heartbeat, and its Pong is behind all that was sent. -/
theorem read_ping (h : PongLast (.ping :: toServer) toClient draining ponged) :
    PongLast toServer (toClient ++ [.pong]) draining ponged := by
  have hdrain : draining = true := by
    rcases (atEach_cons.mp h.ping).1 rfl with hread | hmem
    · exact hread
    · cases hmem
  refine ⟨fun _ _ _ _ _ => .inl hdrain, fun _ => hdrain,
    atEach_append.mpr ⟨h.request, fun i hi => ?_⟩, fun hponged => ⟨hdrain, fun i hmem => ?_⟩⟩
  · cases hi
  · rcases List.mem_append.mp hmem with hold | hnew
    · exact (h.ponged hponged).2 i hold
    · cases List.mem_singleton.mp hnew

theorem read_draining (h : PongLast (.draining :: toServer) toClient draining ponged) :
    PongLast toServer toClient true ponged :=
  ⟨fun _ _ _ _ _ => .inl rfl, fun _ => rfl, h.request,
    fun hponged => ⟨rfl, (h.ponged hponged).2⟩⟩

theorem read_other {f : ClientFrame} (h : PongLast (f :: toServer) toClient draining ponged)
    (hf : f ≠ .draining) : PongLast toServer toClient draining ponged := by
  refine ⟨fun pre x post hsplit hx => ?_, h.pong, h.request, h.ponged⟩
  rcases (atEach_cons.mp h.ping).2 pre x post hsplit hx with hread | hmem
  · exact .inl hread
  · exact .inr ((List.mem_cons.mp hmem).resolve_left hf.symm)

/-- Once the client reads a Pong, no request is left behind it. -/
theorem read_pong (h : PongLast toServer (.pong :: toClient) draining ponged) :
    PongLast toServer toClient draining true := by
  have hdrain : draining = true := h.pong List.mem_cons_self
  have hnone : ∀ i, ServerFrame.request i ∉ toClient := by
    intro i hmem
    obtain ⟨pre, post, hsplit⟩ := List.append_of_mem hmem
    exact (atEach_cons.mp h.request).2 pre _ post hsplit i rfl List.mem_cons_self
  refine ⟨h.ping, fun _ => hdrain, fun pre x post hsplit i hx _ => ?_, fun _ => ⟨hdrain, hnone⟩⟩
  refine hnone i ?_
  rw [hsplit, hx]
  exact List.mem_append_right _ List.mem_cons_self

theorem read_request {i : Nat} (h : PongLast toServer (.request i :: toClient) draining ponged) :
    PongLast toServer toClient draining ponged :=
  ⟨h.ping, fun hmem => h.pong (List.mem_cons_of_mem _ hmem),
    fun pre x post hsplit j hx hmem =>
      (atEach_cons.mp h.request).2 pre x post hsplit j hx (List.mem_cons_of_mem _ hmem),
    fun hponged => ⟨(h.ponged hponged).1,
      fun j hmem => (h.ponged hponged).2 j (List.mem_cons_of_mem _ hmem)⟩⟩

end PongLast

/-! ## Every run -/

/-- Every request that was sent is on its way, in work or answered; the server
has been told of the drain, or will be; and a drain that counts has heard the
Pong. -/
structure DrainInv (s : DrainState) : Prop where
  tracked : ∀ i ∈ s.sent, .request i ∈ s.toClient ∨ i ∈ s.inflight ∨ i ∈ s.answered
  told : s.phase ≠ .beating → s.draining = true ∨ .draining ∈ s.toServer
  last : s.phase.timed = true → PongLast s.toServer s.toClient s.draining s.ponged
  heard : s.phase.heard = true → s.ponged = true
  closed : LosesNoRequest s

namespace DrainInv

variable {s : DrainState}

/-- Where the Pong was heard and nothing is in flight, all is answered. -/
theorem all_answered (h : DrainInv s) (hphase : s.phase = .counting) (hdone : s.inflight = []) :
    ∀ i ∈ s.sent, i ∈ s.answered := by
  intro i hi
  have hlast := h.last (by rw [hphase]; rfl)
  have hheard := h.heard (by rw [hphase]; rfl)
  rcases h.tracked i hi with hway | hwork | hanswered
  · exact absurd hway ((hlast.ponged hheard).2 i)
  · rw [hdone] at hwork
    cases hwork
  · exact hanswered

theorem clientReads (h : DrainInv s) {f : ServerFrame} {rest : List ServerFrame}
    (hhead : s.toClient = f :: rest) (hopen : s.phase ≠ .closed) :
    DrainInv ({ s with toClient := rest }.clientHandles f) := by
  have htracked := h.tracked
  have hlast := h.last
  rw [hhead] at htracked hlast
  cases f with
  | pong =>
      refine ⟨fun i hi => ?_, h.told, fun htimed => (hlast htimed).read_pong, fun _ => rfl,
        fun hclosed => absurd hclosed hopen⟩
      exact (htracked i hi).imp_left fun hway => (List.mem_cons.mp hway).resolve_left (by simp)
  | request j =>
      refine ⟨fun i hi => ?_, h.told, fun htimed => (hlast htimed).read_request, h.heard,
        fun hclosed => absurd hclosed hopen⟩
      rcases htracked i hi with hway | hwork | hanswered
      · rcases List.mem_cons.mp hway with hfirst | hbehind
        · cases hfirst
          exact .inr (.inl List.mem_cons_self)
        · exact .inl hbehind
      · exact .inr (.inl (List.mem_cons_of_mem _ hwork))
      · exact .inr (.inr hanswered)

theorem serverReads (h : DrainInv s) {f : ClientFrame} {rest : List ClientFrame}
    (hhead : s.toServer = f :: rest) : DrainInv ({ s with toServer := rest }.serverHandles f) := by
  have htold := h.told
  have hlast := h.last
  rw [hhead] at htold hlast
  have hbehind : f ≠ .draining → s.phase ≠ .beating → s.draining = true ∨ .draining ∈ rest :=
    fun hf hphase => (htold hphase).imp_right fun hmem => (List.mem_cons.mp hmem).resolve_left hf.symm
  cases f with
  | ping =>
      refine ⟨fun i hi => ?_, hbehind (by simp), fun htimed => (hlast htimed).read_ping, h.heard,
        h.closed⟩
      exact (h.tracked i hi).imp_left (List.mem_append_left _)
  | draining =>
      exact ⟨h.tracked, fun _ => .inl rfl, fun htimed => (hlast htimed).read_draining, h.heard,
        h.closed⟩
  | response i =>
      exact ⟨h.tracked, hbehind (by simp), fun htimed => (hlast htimed).read_other (by simp),
        h.heard, h.closed⟩
  | close =>
      exact ⟨h.tracked, hbehind (by simp), fun htimed => (hlast htimed).read_other (by simp),
        h.heard, h.closed⟩

theorem answer (h : DrainInv s) {i : Nat} (hopen : s.phase ≠ .closed) :
    DrainInv
      { s with
        toServer := s.toServer ++ [.response i]
        inflight := s.inflight.erase i
        answered := i :: s.answered } := by
  refine ⟨fun j hj => ?_, fun hphase => (h.told hphase).imp_right (List.mem_append_left _),
    fun htimed => (h.last htimed).queue (by simp), h.heard, fun hclosed => absurd hclosed hopen⟩
  by_cases hji : j = i
  · rw [hji]
    exact .inr (.inr List.mem_cons_self)
  · rcases h.tracked j hj with hway | hwork | hanswered
    · exact .inl hway
    · exact .inr (.inl ((List.mem_erase_of_ne hji).mpr hwork))
    · exact .inr (.inr (List.mem_cons_of_mem _ hanswered))

/-- A request goes out before the server has read the `Draining`, so the
client has not closed. -/
theorem send (h : DrainInv s) {i : Nat} (hdrain : s.draining = false) :
    DrainInv
      { s.setHandler i .sent with
        toClient := s.toClient ++ [.request i]
        sent := i :: s.sent } := by
  have hlast := h.last
  rw [hdrain] at hlast
  refine ⟨fun j hj => ?_, h.told, fun htimed => ?_, h.heard, fun hclosed => ?_⟩
  · rcases List.mem_cons.mp hj with rfl | hj
    · exact .inl (List.mem_append_right _ List.mem_cons_self)
    · exact (h.tracked j hj).imp_left (List.mem_append_left _)
  · change PongLast s.toServer (s.toClient ++ [.request i]) s.draining s.ponged
    rw [hdrain]
    exact (hlast htimed).send i
  · change s.phase = .closed at hclosed
    have hheard := h.heard (by rw [hclosed]; rfl)
    cases ((hlast (by rw [hclosed]; rfl)).ponged hheard).1

end DrainInv

theorem DrainState.Step.inv {s s' : DrainState} {act : DrainAct} (hstep : Step s act s')
    (horderly : orderlyStep s act s') (h : DrainInv s) : DrainInv s' := by
  cases hstep with
  | heartbeat hphase =>
      refine ⟨h.tracked, fun hne => absurd hphase hne, fun htimed => ?_, h.heard, h.closed⟩
      change s.phase.timed = true at htimed
      rw [hphase] at htimed
      cases htimed
  | announce hphase =>
      refine ⟨h.tracked, fun _ => .inr (List.mem_append_right _ List.mem_cons_self), fun htimed => ?_,
        fun hheard => ?_, fun hclosed => ?_⟩
      · cases htimed
      · cases hheard
      · cases hclosed
  | mark hphase =>
      obtain ⟨hping, hpong⟩ := horderly.1 rfl
      refine ⟨h.tracked, fun _ => h.told (by rw [hphase]; simp),
        fun _ => PongLast.mark hping hpong, fun hheard => ?_, fun hclosed => ?_⟩
      · cases hheard
      · cases hclosed
  | ping hphase =>
      have htold := h.told (by rw [hphase]; simp)
      have hlast := h.last (by rw [hphase]; rfl)
      refine ⟨h.tracked, fun _ => htold.imp_right (List.mem_append_left _),
        fun _ => hlast.queue_ping htold, fun hheard => ?_, fun hclosed => ?_⟩
      · cases hheard
      · cases hclosed
  | acknowledge hphase hpong =>
      refine ⟨h.tracked, fun _ => h.told (by rw [hphase]; simp),
        fun _ => h.last (by rw [hphase]; rfl), fun _ => hpong, fun hclosed => ?_⟩
      cases hclosed
  | close hphase hdone =>
      exact ⟨h.tracked,
        fun _ => (h.told (by rw [hphase]; simp)).imp_right (List.mem_append_left _),
        fun _ => (h.last (by rw [hphase]; rfl)).queue (by simp),
        fun _ => h.heard (by rw [hphase]; rfl), fun _ => h.all_answered hphase hdone⟩
  | clientReads hhead hopen => exact h.clientReads hhead hopen
  | answer hmem hopen => exact h.answer hopen
  | serverReads hhead => exact h.serverReads hhead
  | select hidle hdrain hup => exact ⟨h.tracked, h.told, h.last, h.heard, h.closed⟩
  | permit hselected => exact ⟨h.tracked, h.told, h.last, h.heard, h.closed⟩
  | @send i hpermitted hup => exact h.send (horderly.2 i rfl)

/-- **A graceful close loses nothing** in every run in which the drain takes
its instant with no heartbeat on its way and no request is sent once the
server has read the `Draining`. -/
theorem drain_loses_nothing {s : DrainState}
    (hs : (drainSys.restrict orderlyStep).Reachable s) : LosesNoRequest s := by
  have hinv : DrainInv s := by
    refine hs.invariant (P := DrainInv) ?_ ?_
    · rintro s rfl
      refine ⟨fun i hi => ?_, fun hphase => absurd rfl hphase, fun htimed => ?_, fun hheard => ?_,
        fun hclosed => ?_⟩
      · cases hi
      · cases htimed
      · cases hheard
      · cases hclosed
    · intro s act s' _ h hstep
      exact hstep.1.inv hstep.2 h
  exact hinv.closed

/-! ## Two drains -/

namespace DrainState

theorem reachable_step {s s' : DrainState} {act : DrainAct} (hs : drainSys.Reachable s)
    (hstep : Step s act s') : drainSys.Reachable s' :=
  hs.step hstep

theorem reachable_other {s s' : DrainState} {act : DrainAct}
    (hs : (drainSys.restrict orderlyStep).Reachable s) (hstep : Step s act s')
    (hmark : act ≠ .mark) (hsend : ∀ i, act ≠ .send i) :
    (drainSys.restrict orderlyStep).Reachable s' :=
  hs.step ⟨hstep, fun h => absurd h hmark, fun i h => absurd h (hsend i)⟩

theorem reachable_mark {s s' : DrainState} (hs : (drainSys.restrict orderlyStep).Reachable s)
    (hstep : Step s .mark s') (hping : .ping ∉ s.toServer) (hpong : .pong ∉ s.toClient) :
    (drainSys.restrict orderlyStep).Reachable s' :=
  hs.step ⟨hstep, fun _ => ⟨hping, hpong⟩, fun i h => by cases h⟩

theorem reachable_send {s s' : DrainState} {i : Nat}
    (hs : (drainSys.restrict orderlyStep).Reachable s) (hstep : Step s (.send i) s')
    (hdrain : s.draining = false) : (drainSys.restrict orderlyStep).Reachable s' :=
  hs.step ⟨hstep, fun h => (by cases h), fun _ _ => hdrain⟩

/-- A connection on which nothing is under way drains and closes. -/
theorem reachable_drained {s : DrainState} (hs : (drainSys.restrict orderlyStep).Reachable s)
    (hphase : s.phase = .beating) (hserver : s.toServer = []) (hclient : s.toClient = [])
    (hdone : s.inflight = []) :
    (drainSys.restrict orderlyStep).Reachable
      { s with toServer := [.close], phase := .closed, ponged := true, draining := true } := by
  obtain ⟨toServer, toClient, phase, ponged, inflight, answered, draining, gone, handlers, sent⟩ := s
  obtain rfl : phase = .beating := hphase
  obtain rfl : toServer = [] := hserver
  obtain rfl : toClient = [] := hclient
  obtain rfl : inflight = [] := hdone
  have hannounced := reachable_other hs (.announce rfl) (by simp) (by simp)
  have hmarked := reachable_mark hannounced (.mark rfl) (by simp) (by simp)
  have hasked := reachable_other hmarked (.ping rfl) (by simp) (by simp)
  have htold := reachable_other hasked (.serverReads rfl) (by simp) (by simp)
  have hponged := reachable_other htold (.serverReads rfl) (by simp) (by simp)
  have hheard := reachable_other hponged (.clientReads rfl (by simp [serverHandles]))
    (by simp) (by simp)
  have hcounting := reachable_other hheard (.acknowledge rfl rfl) (by simp) (by simp)
  exact reachable_other hcounting (.close rfl rfl) (by simp) (by simp)

/-- One handler has its permit. -/
theorem reachable_permitted : (drainSys.restrict orderlyStep).Reachable
    { handlers := Function.update (Function.update (fun _ => .idle) 0 .selected) 0 .permitted } := by
  have hstart : (drainSys.restrict orderlyStep).Reachable {} := .init rfl
  have hselected := reachable_other hstart (.select (i := 0) rfl rfl rfl) (by simp) (by simp)
  exact reachable_other hselected (.permit rfl) (by simp) (by simp)

/-- Its request is sent, read and answered, and the answer has arrived. -/
theorem reachable_answered : ∃ s, (drainSys.restrict orderlyStep).Reachable s ∧
    s.phase = .beating ∧ s.toServer = [] ∧ s.toClient = [] ∧ s.inflight = [] ∧ s.sent = [0] := by
  have hsent := reachable_send reachable_permitted (.send (i := 0) rfl rfl) rfl
  have hread := reachable_other hsent (.clientReads rfl (by simp [setHandler])) (by simp) (by simp)
  have hanswered := reachable_other hread (.answer (i := 0) (by simp [clientHandles])
    (by simp [clientHandles, setHandler])) (by simp) (by simp)
  have hquiet := reachable_other hanswered (.serverReads rfl) (by simp) (by simp)
  exact ⟨_, hquiet, rfl, rfl, rfl, rfl, rfl⟩

end DrainState

/-- A request that is sent and answered before the drain is not lost. -/
theorem drain_loses_nothing_answered : ∃ s, (drainSys.restrict orderlyStep).Reachable s ∧
    s.phase = .closed ∧ s.sent = [0] ∧ ∀ i ∈ s.sent, i ∈ s.answered := by
  obtain ⟨s, hs, hphase, hserver, hclient, hdone, hsent⟩ := DrainState.reachable_answered
  have hclosed := DrainState.reachable_drained hs hphase hserver hclient hdone
  exact ⟨_, hclosed, rfl, hsent, drain_loses_nothing hclosed rfl⟩

/-- A request that was selected before the drain is sent after the close. -/
theorem late_send_is_lost : ∃ s, drainSys.Reachable s ∧ ¬LosesNoRequest s := by
  have hpermitted := DrainState.reachable_permitted
  have hclosed := (DrainState.reachable_drained hpermitted rfl rfl rfl rfl).of_restrict
  have hsent := DrainState.reachable_step hclosed (.send (i := 0) rfl rfl)
  refine ⟨_, hsent, fun h => ?_⟩
  have hanswered := h rfl 0 List.mem_cons_self
  cases hanswered

end Aperio
