import Mathlib.Data.List.Basic
import Aperio.Run

/-!
# A stream on the declaring client

`handle_tcp_open` of `tcp.rs`, `handle_upgrade_request` of `proxy/ws.rs` and
the deliveries of `service/relay.rs`: one stream between the tunnel and a
backend, from its registration to its end. The read loop looks the entry up,
waits a while for room and takes the entry out when there is none; the
stream's own task connects and then waits for the reading or the writing task
to end, or for an abort, and kills the other.

Only the reading task announces an end. `Heard` is a run in which the stream
ends another way only after that, or after the server or the tunnel is gone.

A frame whose payload does not decode is no frame here, and the PROXY header
is not counted in what is written.
-/

namespace Aperio

/-! ## The stream -/

inductive RelayKind where
  | tcp
  | ws
deriving Repr, DecidableEq

/-- Where the stream's own task is. It is `opening` until it relays: a TCP
stream shakes hands, connects and writes the PROXY header, a WebSocket sends
its 101. A TCP stream is `refusing` when that failed and the close frame is
still to be sent, and `draining` when its writing task has ended after the
server's end of stream. -/
inductive RelayPhase where
  | unopened
  | opening
  | refusing
  | relaying
  | draining
  | finishing
  | ended
deriving Repr, DecidableEq

/-- The backend-to-tunnel task: reading, about to send the close frame, or
over. -/
inductive ReaderAt where
  | reading
  | closing
  | over
deriving Repr, DecidableEq

/-- The tunnel-to-backend task: waiting for a frame, writing the rest of one,
or over, and whether it has seen the end of the stream. -/
inductive WriterAt (β : Type) where
  | waiting (graceful : Bool)
  | writing (graceful : Bool) (rest : List β)
  | over (graceful : Bool)
deriving Repr, DecidableEq

def relayCapacity : Nat := 64

/-- `entry` is whether the stream is in the map, `delivering` the frame the
read loop is waiting with, `receiver` whether the channel still takes frames
and `key` the state of the opener. What the server sent was taken by the
handshake or by the writing task, is on the way, or is lost. -/
structure BackendRelay (κ T β : Type) where
  phase : RelayPhase := .unopened
  entry : Bool := false
  delivering : Option T := none
  queue : List T := []
  receiver : Bool := true
  eof : Bool := false
  subscribed : Bool := false
  aborted : Bool := false
  reader : ReaderAt := .reading
  writer : WriterAt β := .waiting false
  tunnel : Bool := true
  announced : Bool := false
  serverClosed : Bool := false
  key : κ
  start : κ
  sent : List T := []
  shaken : List T := []
  taken : List T := []
  lost : List T := []
  written : List β := []

inductive BackendAct (κ T : Type) where
  | register
  /-- A frame arrives, and is looked up. -/
  | data (frame : T)
  | push
  | giveUp
  | eof
  | close
  | loseTunnel
  /-- The handshake takes the peer's frame. -/
  | shake (key : κ)
  | fail
  | refuse
  | start
  | seeEof
  | take
  | write (n : Nat)
  | wrote
  | writeError
  /-- The channel has nothing left and no sender. -/
  | runDry
  | seeAbort
  /-- The backend ended, failed, or gave what cannot be sent on. -/
  | readEnds
  | announce
  /-- A WebSocket backend sent a close frame. -/
  | readClose
  | joinReader
  | joinWriter
  | abort
  | ceiling
  | remove

namespace BackendRelay

variable {κ T β : Type}

section

variable (s : BackendRelay κ T β)

/-- The tasks of the stream run. -/
def running : Bool :=
  s.phase == .relaying || s.phase == .draining || s.phase == .finishing

/-- The senders of the abort and the end-of-stream channels are gone with the
entry. -/
def stopped : Bool :=
  s.aborted || !s.entry

def sendClose : BackendRelay κ T β :=
  { s with announced := s.announced || s.tunnel }

end

/-- `opens` is what the opener makes of a frame, its next state and what goes
to the backend, or nothing. -/
def act (kind : RelayKind) (opens : κ → T → Option (κ × List β)) (s : BackendRelay κ T β) :
    BackendAct κ T → Option (BackendRelay κ T β)
  | .register => if s.phase = .unopened then some { s with phase := .opening, entry := true } else none
  | .data frame =>
    if s.phase ≠ .unopened ∧ s.delivering.isNone then
      some (if s.entry then { s with sent := s.sent ++ [frame], delivering := some frame }
        else { s with sent := s.sent ++ [frame], lost := s.lost ++ [frame] })
    else none
  | .push =>
    match s.delivering with
    | some frame =>
      if s.receiver ∧ s.queue.length < relayCapacity then
        some { s with queue := s.queue ++ [frame], delivering := none }
      else none
    | none => none
  -- full for the whole budget, or closed
  | .giveUp =>
    match s.delivering with
    | some frame =>
      if s.receiver ∧ s.queue.length < relayCapacity then none
      else some { s with entry := false, delivering := none, lost := s.lost ++ [frame] }
    | none => none
  | .eof =>
    if kind = .tcp ∧ s.entry ∧ s.delivering.isNone then some { s with eof := true } else none
  | .close =>
    if s.entry ∧ s.delivering.isNone then
      some { s with entry := false, aborted := true, serverClosed := true }
    else none
  | .loseTunnel => some { s with tunnel := false }
  | .shake key =>
    match s.queue with
    | frame :: rest =>
      if kind = .tcp ∧ s.phase = .opening ∧ s.shaken = [] then
        some { s with queue := rest, shaken := [frame], key := key, start := key }
      else none
    | [] => none
  | .fail =>
    if s.phase = .opening then
      match kind with
      | .tcp => some { s with entry := false, phase := .refusing }
      -- the 101 could not be sent
      | .ws =>
        if s.tunnel then none
        else some { s with entry := false, phase := .ended, receiver := false }
    else none
  | .refuse =>
    if s.phase = .refusing then some { s.sendClose with phase := .ended, receiver := false }
    else none
  | .start =>
    if s.phase = .opening then some { s with phase := .relaying, subscribed := s.entry } else none
  | .seeEof =>
    match s.writer with
    | .waiting false =>
      if kind = .tcp ∧ s.running ∧ s.subscribed ∧ (s.eof ∨ ¬s.entry) then
        some { s with writer := .waiting true, receiver := false }
      else none
    | _ => none
  | .take =>
    match s.writer, s.queue with
    | .waiting graceful, frame :: rest =>
      if s.running then
        match opens s.key frame with
        | some (key, out) => some { s with
            queue := rest
            taken := s.taken ++ [frame]
            key := key
            writer := .writing graceful out }
        | none => some { s with
            queue := rest
            taken := s.taken ++ [frame]
            writer := .over graceful
            receiver := false }
      else none
    | _, _ => none
  | .write n =>
    match s.writer with
    | .writing graceful rest =>
      if s.running then
        some { s with
          written := s.written ++ rest.take n
          writer := .writing graceful (rest.drop n) }
      else none
    | _ => none
  | .wrote =>
    match s.writer with
    | .writing graceful [] =>
      if s.running then some { s with writer := .waiting graceful } else none
    | _ => none
  | .writeError =>
    match s.writer with
    | .writing graceful _ =>
      if s.running then some { s with writer := .over graceful, receiver := false } else none
    | _ => none
  | .runDry =>
    match s.writer with
    | .waiting graceful =>
      if s.running ∧ s.queue = [] ∧ (¬s.receiver ∨ ¬s.entry ∧ s.delivering.isNone) then
        some { s with writer := .over graceful, receiver := false }
      else none
    | _ => none
  | .seeAbort =>
    match s.writer with
    | .waiting graceful =>
      if kind = .ws ∧ s.running ∧ s.stopped then
        some { s with writer := .over graceful, receiver := false }
      else none
    | _ => none
  | .readEnds =>
    if s.running ∧ s.reader = .reading then some { s with reader := .closing } else none
  | .announce =>
    if s.running ∧ s.reader = .closing then some { s.sendClose with reader := .over } else none
  | .readClose => if kind = .ws ∧ s.running ∧ s.reader = .reading then some s.sendClose else none
  | .joinReader =>
    if (s.phase = .relaying ∨ s.phase = .draining) ∧ s.reader = .over then
      some { s with phase := .finishing }
    else none
  | .joinWriter =>
    match s.writer with
    | .over graceful =>
      if s.phase = .relaying then
        some { s with phase := if kind = .tcp ∧ graceful then .draining else .finishing }
      else none
    | _ => none
  | .abort =>
    if kind = .tcp ∧ (s.phase = .relaying ∨ s.phase = .draining) ∧ s.stopped then
      some { s with phase := .finishing }
    else none
  | .ceiling => if s.phase = .draining then some { s with phase := .finishing } else none
  | .remove =>
    if s.phase = .finishing then some { s with phase := .ended, entry := false, receiver := false }
    else none

/-- The end was announced, or need not be. -/
def Excused (s : BackendRelay κ T β) : Prop :=
  s.announced = true ∨ s.serverClosed = true ∨ s.tunnel = false

/-- A stream whose entry has left was announced, unless the server closed it
or the tunnel is gone. A stream that failed to open says so next. -/
def EndHeard (s : BackendRelay κ T β) : Prop :=
  s.phase ≠ .unopened → s.entry = false → s.Excused ∨ s.phase = .refusing

end BackendRelay

/-- What a run of frames opens to, as far as they open. -/
def openedFrom {κ T β : Type} (opens : κ → T → Option (κ × List β)) : κ → List T → List β
  | _, [] => []
  | key, frame :: rest =>
    match opens key frame with
    | some (key, out) => out ++ openedFrom opens key rest
    | none => []

namespace BackendRelay

variable {κ T β : Type}

/-- The backend was given the beginning of what the server sent. -/
def InOrder (opens : κ → T → Option (κ × List β)) (s : BackendRelay κ T β) : Prop :=
  s.written <+: openedFrom opens s.start (s.sent.drop s.shaken.length)

/-- What the steps of a run must meet: the read loop gives a stream up, the
writing task ends first and without an end of stream, and the drain runs into
its ceiling, only after the end was announced, or after the server closed the
stream or the tunnel is gone. -/
def Heard (kind : RelayKind) (s : BackendRelay κ T β) (a : BackendAct κ T)
    (_ : BackendRelay κ T β) : Prop :=
  match a with
  | .giveUp => s.Excused
  | .joinWriter => kind = .tcp ∧ s.writer = .over true ∨ s.Excused
  | .ceiling => s.Excused
  | _ => True

end BackendRelay

def backendSys {κ T β : Type} (kind : RelayKind) (opens : κ → T → Option (κ × List β)) :
    Sys (BackendRelay κ T β) (BackendAct κ T) where
  init s := ∃ key, s = { key := key, start := key }
  step s a s' := s.act kind opens a = some s'

/-! ## The end is heard -/

namespace BackendRelay

variable {κ T β : Type} {kind : RelayKind} {opens : κ → T → Option (κ × List β)}
  {s s' : BackendRelay κ T β} {a : BackendAct κ T}

/-- What every run keeps of the announcement while all is heard. -/
structure Spoken (s : BackendRelay κ T β) : Prop where
  heard : s.EndHeard
  reader : s.reader = .over → s.announced = true ∨ s.tunnel = false
  aborted : s.aborted = true → s.serverClosed = true
  finishing : s.phase = .finishing → s.Excused

theorem Spoken.excused (h : s.Spoken) (hopen : s.phase ≠ .unopened) (hphase : s.phase ≠ .refusing)
    (hgone : s.entry = false) : s.Excused :=
  (h.heard hopen hgone).resolve_right hphase

/-- Where there is an excuse, nothing of the end is left to be said. -/
theorem Spoken.of_excused (hexcused : s.Excused)
    (hreader : s.reader = .over → s.announced = true ∨ s.tunnel = false)
    (haborted : s.aborted = true → s.serverClosed = true) : s.Spoken :=
  ⟨fun _ _ => Or.inl hexcused, hreader, haborted, fun _ => hexcused⟩

theorem announced_sendClose : s.sendClose.announced = true ∨ s.sendClose.tunnel = false := by
  cases htunnel : s.tunnel with
  | false => exact Or.inr htunnel
  | true => exact Or.inl (by simp [sendClose, htunnel])

theorem excused_sendClose : s.sendClose.Excused :=
  announced_sendClose.imp_right Or.inr

/-- The steps of the task that writes to the backend. -/
def writes : BackendAct κ T → Bool
  | .seeEof | .take | .write _ | .wrote | .writeError | .runDry | .seeAbort => true
  | _ => false

/-- The writing task moves frames on and nothing else. -/
theorem act_writes (hwrites : writes a = true) (hstep : s.act kind opens a = some s') :
    ∃ queue taken key writer written receiver,
      s' = { s with queue, taken, key, writer, written, receiver } := by
  cases a with
  | seeEof =>
      simp only [act] at hstep
      split at hstep
      · obtain ⟨-, rfl⟩ := Sys.guarded_eq_some hstep
        exact ⟨_, _, _, _, _, _, rfl⟩
      · cases hstep
  | take =>
      simp only [act] at hstep
      split at hstep
      · simp only [Option.ite_none_right_eq_some] at hstep
        obtain ⟨-, hstep⟩ := hstep
        split at hstep
        · obtain rfl := Option.some.inj hstep
          exact ⟨_, _, _, _, _, _, rfl⟩
        · obtain rfl := Option.some.inj hstep
          exact ⟨_, _, _, _, _, _, rfl⟩
      · cases hstep
  | write n =>
      simp only [act] at hstep
      split at hstep
      · obtain ⟨-, rfl⟩ := Sys.guarded_eq_some hstep
        exact ⟨_, _, _, _, _, _, rfl⟩
      · cases hstep
  | wrote =>
      simp only [act] at hstep
      split at hstep
      · obtain ⟨-, rfl⟩ := Sys.guarded_eq_some hstep
        exact ⟨_, _, _, _, _, _, rfl⟩
      · cases hstep
  | writeError =>
      simp only [act] at hstep
      split at hstep
      · obtain ⟨-, rfl⟩ := Sys.guarded_eq_some hstep
        exact ⟨_, _, _, _, _, _, rfl⟩
      · cases hstep
  | runDry =>
      simp only [act] at hstep
      split at hstep
      · obtain ⟨-, rfl⟩ := Sys.guarded_eq_some hstep
        exact ⟨_, _, _, _, _, _, rfl⟩
      · cases hstep
  | seeAbort =>
      simp only [act] at hstep
      split at hstep
      · obtain ⟨-, rfl⟩ := Sys.guarded_eq_some hstep
        exact ⟨_, _, _, _, _, _, rfl⟩
      · cases hstep
  | _ => cases hwrites

theorem Spoken.step (h : s.Spoken) (hheard : s.Heard kind a s')
    (hstep : s.act kind opens a = some s') : s'.Spoken := by
  cases a with
  | seeEof | take | write | wrote | writeError | runDry | seeAbort =>
      obtain ⟨queue, taken, key, writer, written, receiver, rfl⟩ := act_writes rfl hstep
      exact ⟨h.heard, h.reader, h.aborted, h.finishing⟩
  | register =>
      obtain ⟨-, rfl⟩ := Sys.guarded_eq_some hstep
      exact ⟨fun _ hgone => (by cases hgone), h.reader, h.aborted, fun hphase => by cases hphase⟩
  | data frame =>
      obtain ⟨-, rfl⟩ := Sys.guarded_eq_some hstep
      split
      · exact ⟨h.heard, h.reader, h.aborted, h.finishing⟩
      · exact ⟨h.heard, h.reader, h.aborted, h.finishing⟩
  | push =>
      simp only [act] at hstep
      split at hstep
      · obtain ⟨-, rfl⟩ := Sys.guarded_eq_some hstep
        exact ⟨h.heard, h.reader, h.aborted, h.finishing⟩
      · cases hstep
  | giveUp =>
      simp only [act] at hstep
      split at hstep
      · simp only [Option.ite_none_left_eq_some, Option.some_inj] at hstep
        obtain ⟨-, rfl⟩ := hstep
        exact ⟨fun _ _ => Or.inl hheard, h.reader, h.aborted, h.finishing⟩
      · cases hstep
  | eof =>
      obtain ⟨-, rfl⟩ := Sys.guarded_eq_some hstep
      exact ⟨h.heard, h.reader, h.aborted, h.finishing⟩
  | close =>
      obtain ⟨-, rfl⟩ := Sys.guarded_eq_some hstep
      have hclosed : Excused { s with entry := false, aborted := true, serverClosed := true } :=
        Or.inr (Or.inl rfl)
      exact .of_excused hclosed h.reader fun _ => rfl
  | loseTunnel =>
      obtain rfl := Option.some.inj hstep
      have hlost : Excused { s with tunnel := false } := Or.inr (Or.inr rfl)
      exact .of_excused hlost (fun _ => Or.inr rfl) h.aborted
  | shake key =>
      simp only [act] at hstep
      split at hstep
      · obtain ⟨-, rfl⟩ := Sys.guarded_eq_some hstep
        exact ⟨h.heard, h.reader, h.aborted, h.finishing⟩
      · cases hstep
  | fail =>
      simp only [act, Option.ite_none_right_eq_some] at hstep
      obtain ⟨-, hstep⟩ := hstep
      cases kind with
      | tcp =>
          obtain rfl := Option.some.inj hstep
          exact ⟨fun _ _ => Or.inr rfl, h.reader, h.aborted, fun hphase => by cases hphase⟩
      | ws =>
          simp only [Option.ite_none_left_eq_some, Option.some_inj, Bool.not_eq_true] at hstep
          obtain ⟨hlost, rfl⟩ := hstep
          exact ⟨fun _ _ => Or.inl (Or.inr (Or.inr hlost)), h.reader, h.aborted,
            fun hphase => by cases hphase⟩
  | refuse =>
      obtain ⟨-, rfl⟩ := Sys.guarded_eq_some hstep
      exact .of_excused (excused_sendClose (s := s)) (fun _ => announced_sendClose (s := s)) h.aborted
  | start =>
      obtain ⟨hphase, rfl⟩ := Sys.guarded_eq_some hstep
      refine ⟨fun _ hgone => Or.inl ?_, h.reader, h.aborted, fun hphase => by cases hphase⟩
      exact h.excused (by rw [hphase]; exact nofun) (by rw [hphase]; exact nofun) hgone
  | readEnds =>
      obtain ⟨-, rfl⟩ := Sys.guarded_eq_some hstep
      exact ⟨h.heard, fun hover => (by cases hover), h.aborted, h.finishing⟩
  | announce =>
      obtain ⟨-, rfl⟩ := Sys.guarded_eq_some hstep
      exact .of_excused (excused_sendClose (s := s)) (fun _ => announced_sendClose (s := s)) h.aborted
  | readClose =>
      obtain ⟨-, rfl⟩ := Sys.guarded_eq_some hstep
      exact .of_excused (excused_sendClose (s := s)) (fun _ => announced_sendClose (s := s)) h.aborted
  | joinReader =>
      obtain ⟨⟨hphase, hover⟩, rfl⟩ := Sys.guarded_eq_some hstep
      have hsaid : s.Excused := by
        rcases h.reader hover with hannounced | hlost
        · exact Or.inl hannounced
        · exact Or.inr (Or.inr hlost)
      exact .of_excused hsaid h.reader h.aborted
  | joinWriter =>
      simp only [act] at hstep
      split at hstep
      · rename_i graceful hwriter
        obtain ⟨hphase, rfl⟩ := Sys.guarded_eq_some hstep
        refine ⟨fun _ hgone => Or.inl ?_, h.reader, h.aborted, fun hfinishing => ?_⟩
        · exact h.excused (by rw [hphase]; exact nofun) (by rw [hphase]; exact nofun) hgone
        · rcases hheard with ⟨htcp, hgraceful⟩ | hexcused
          · obtain rfl := WriterAt.over.inj (hwriter.symm.trans hgraceful)
            simp only [htcp, and_self, if_true] at hfinishing
            cases hfinishing
          · exact hexcused
      · cases hstep
  | abort =>
      obtain ⟨⟨-, hphase, hstopped⟩, rfl⟩ := Sys.guarded_eq_some hstep
      have hexcused : s.Excused := by
        rcases Bool.or_eq_true_iff.mp hstopped with haborted | hgone
        · exact Or.inr (Or.inl (h.aborted haborted))
        · rw [Bool.not_eq_true'] at hgone
          rcases hphase with hphase | hphase
          · exact h.excused (by rw [hphase]; exact nofun) (by rw [hphase]; exact nofun) hgone
          · exact h.excused (by rw [hphase]; exact nofun) (by rw [hphase]; exact nofun) hgone
      exact .of_excused hexcused h.reader h.aborted
  | ceiling =>
      obtain ⟨-, rfl⟩ := Sys.guarded_eq_some hstep
      exact .of_excused hheard h.reader h.aborted
  | remove =>
      obtain ⟨hphase, rfl⟩ := Sys.guarded_eq_some hstep
      exact ⟨fun _ _ => Or.inl (h.finishing hphase), h.reader, h.aborted,
        fun hfinishing => by cases hfinishing⟩

/-! ## The backend is given a beginning -/

theorem openedFrom_append (key : κ) (frames more : List T) {out : List β} {key' : κ}
    (h : ∀ rest, openedFrom opens key (frames ++ rest) = out ++ openedFrom opens key' rest) :
    out <+: openedFrom opens key (frames ++ more) := by
  rw [h more]
  exact List.prefix_append _ _

/-- What was written so far, against what the frames taken open to. -/
def Wrote (opens : κ → T → Option (κ × List β)) (s : BackendRelay κ T β) : Prop :=
  match s.writer with
  | .waiting _ => ∀ more, openedFrom opens s.start (s.taken ++ more) =
      s.written ++ openedFrom opens s.key more
  | .writing _ rest => ∀ more, openedFrom opens s.start (s.taken ++ more) =
      (s.written ++ rest) ++ openedFrom opens s.key more
  | .over _ => ∀ more, s.written <+: openedFrom opens s.start (s.taken ++ more)

/-- What every run keeps of the order of frames. -/
structure Ordered (opens : κ → T → Option (κ × List β)) (s : BackendRelay κ T β) : Prop where
  split : s.sent = s.shaken ++ (s.taken ++ (s.queue ++ (s.delivering.toList ++ s.lost)))
  lost : s.lost ≠ [] → s.entry = false ∧ s.delivering = none ∧ s.phase ≠ .unopened
  silent : s.phase = .unopened ∨ s.phase = .opening →
    s.taken = [] ∧ s.written = [] ∧ ∃ graceful, s.writer = .waiting graceful
  wrote : s.Wrote opens
  closed : s.phase = .unopened → s.delivering = none

theorem Ordered.inOrder (h : s.Ordered opens) : s.InOrder opens := by
  rw [InOrder, h.split, List.drop_left]
  have hwrote := h.wrote
  unfold Wrote at hwrote
  split at hwrote
  · exact openedFrom_append _ _ _ hwrote
  · exact (List.prefix_append _ _).trans (openedFrom_append _ _ _ hwrote)
  · exact hwrote _

/-- **Frame rule.** The frames, and what was made of them, stay where they
are. -/
theorem Ordered.frame (h : s.Ordered opens) {phase : RelayPhase} {reader : ReaderAt}
    {entry receiver eof subscribed aborted tunnel announced serverClosed : Bool}
    (hentry : entry = true → s.entry = true ∨ s.phase = .unopened)
    (hphase : phase = .unopened ∨ phase = .opening → s.phase = .unopened ∨ s.phase = .opening)
    (hopened : s.phase ≠ .unopened → phase ≠ .unopened) :
    ({ s with
      phase := phase
      entry := entry
      receiver := receiver
      eof := eof
      subscribed := subscribed
      aborted := aborted
      reader := reader
      tunnel := tunnel
      announced := announced
      serverClosed := serverClosed } : BackendRelay κ T β).Ordered opens := by
  refine ⟨h.split, ?_, fun hnew => h.silent (hphase hnew), h.wrote, ?_⟩
  · intro hne
    obtain ⟨hgone, hnone, hopen⟩ := h.lost hne
    refine ⟨?_, hnone, hopened hopen⟩
    rw [← Bool.not_eq_true]
    intro hthere
    rcases hentry hthere with hbefore | hunopened
    · cases hgone.symm.trans hbefore
    · exact hopen hunopened
  · exact fun hnew => h.closed (Classical.not_not.mp fun hne => hopened hne hnew)

theorem Ordered.data (h : s.Ordered opens) {frame : T} (hidle : s.delivering = none)
    (hopen : s.phase ≠ .unopened) :
    (if s.entry then { s with sent := s.sent ++ [frame], delivering := some frame }
      else { s with sent := s.sent ++ [frame], lost := s.lost ++ [frame] }).Ordered opens := by
  have hsplit := h.split
  rw [hidle, Option.toList_none, List.nil_append] at hsplit
  split
  · rename_i hentry
    have hnone : s.lost = [] := by
      by_contra hne
      cases (h.lost hne).1.symm.trans hentry
    refine ⟨?_, fun hne => absurd hnone hne, h.silent, h.wrote, fun hphase => absurd hphase hopen⟩
    show s.sent ++ [frame] = _
    rw [hsplit, hnone]
    simp
  · rename_i hentry
    rw [Bool.not_eq_true] at hentry
    refine ⟨?_, fun _ => ⟨hentry, hidle, hopen⟩, h.silent, h.wrote, h.closed⟩
    show s.sent ++ [frame] = s.shaken ++ (s.taken ++ (s.queue ++ (s.delivering.toList ++ _)))
    rw [hsplit, hidle]
    simp

theorem Ordered.pushed (h : s.Ordered opens) {frame : T} (hholds : s.delivering = some frame) :
    ({ s with queue := s.queue ++ [frame], delivering := none } :
      BackendRelay κ T β).Ordered opens := by
  have hnone : s.lost = [] := by
    by_contra hne
    cases (h.lost hne).2.1.symm.trans hholds
  have hsplit := h.split
  rw [hholds, hnone] at hsplit
  refine ⟨?_, fun hne => absurd hnone hne, h.silent, h.wrote, fun _ => rfl⟩
  show s.sent = s.shaken ++ (s.taken ++ ((s.queue ++ [frame]) ++ ([] ++ s.lost)))
  rw [hsplit, hnone]
  simp

theorem Ordered.givenUp (h : s.Ordered opens) {frame : T} (hholds : s.delivering = some frame) :
    ({ s with entry := false, delivering := none, lost := s.lost ++ [frame] } :
      BackendRelay κ T β).Ordered opens := by
  have hopen : s.phase ≠ .unopened := by
    intro hphase
    cases (h.closed hphase).symm.trans hholds
  have hnone : s.lost = [] := by
    by_contra hne
    cases (h.lost hne).2.1.symm.trans hholds
  have hsplit := h.split
  rw [hholds, hnone] at hsplit
  refine ⟨?_, fun _ => ⟨rfl, rfl, hopen⟩, h.silent, h.wrote, fun _ => rfl⟩
  show s.sent = s.shaken ++ (s.taken ++ (s.queue ++ ([] ++ (s.lost ++ [frame]))))
  rw [hsplit, hnone]
  simp

/-- The handshake takes its frame before any other is taken. -/
theorem Ordered.shook (h : s.Ordered opens) {frame : T} {rest : List T} {key : κ}
    (hqueue : s.queue = frame :: rest) (hphase : s.phase = .opening) (hfirst : s.shaken = []) :
    ({ s with queue := rest, shaken := [frame], key := key, start := key } :
      BackendRelay κ T β).Ordered opens := by
  obtain ⟨htaken, hwritten, graceful, hwriter⟩ := h.silent (Or.inr hphase)
  have hsplit := h.split
  rw [hfirst, htaken, hqueue] at hsplit
  refine ⟨?_, h.lost, h.silent, ?_, h.closed⟩
  · show s.sent = [frame] ++ (s.taken ++ (rest ++ (s.delivering.toList ++ s.lost)))
    rw [hsplit, htaken]
    simp
  · simp only [Wrote, hwriter, htaken, hwritten]
    exact fun _ => rfl

/-- The writing task moves, with what it takes from the channel. -/
theorem Ordered.wrote_on (h : s.Ordered opens) {queue taken : List T} (key : κ)
    {writer : WriterAt β} {written : List β} (receiver : Bool)
    (hqueue : taken ++ queue = s.taken ++ s.queue)
    (hrunning : s.phase ≠ .unopened ∧ s.phase ≠ .opening)
    (hwrote : ({ s with
      queue := queue
      taken := taken
      key := key
      writer := writer
      written := written
      receiver := receiver } : BackendRelay κ T β).Wrote opens) :
    ({ s with
      queue := queue
      taken := taken
      key := key
      writer := writer
      written := written
      receiver := receiver } : BackendRelay κ T β).Ordered opens := by
  refine ⟨?_, h.lost, ?_, hwrote, h.closed⟩
  · show s.sent = s.shaken ++ (taken ++ (queue ++ (s.delivering.toList ++ s.lost)))
    rw [h.split, ← List.append_assoc taken, hqueue]
    simp
  · rintro (hphase | hphase)
    · exact absurd hphase hrunning.1
    · exact absurd hphase hrunning.2

theorem running_phase (h : s.running = true) : s.phase ≠ .unopened ∧ s.phase ≠ .opening := by
  constructor
  · intro hphase
    rw [running, hphase] at h
    cases h
  · intro hphase
    rw [running, hphase] at h
    cases h

/-- The next frame, which opens or does not. -/
theorem Ordered.take (h : s.Ordered opens) {graceful : Bool} {frame : T} {rest : List T}
    (hwriter : s.writer = .waiting graceful) (hqueue : s.queue = frame :: rest)
    (hrunning : s.running = true) :
    (match opens s.key frame with
    | some (key, out) => { s with
        queue := rest
        taken := s.taken ++ [frame]
        key := key
        writer := .writing graceful out }
    | none => { s with
        queue := rest
        taken := s.taken ++ [frame]
        writer := .over graceful
        receiver := false }).Ordered opens := by
  have hwrote := h.wrote
  simp only [Wrote, hwriter] at hwrote
  have hmoved : s.taken ++ [frame] ++ rest = s.taken ++ s.queue := by
    rw [hqueue]
    simp
  have hnext : ∀ more, openedFrom opens s.start (s.taken ++ [frame] ++ more) =
      s.written ++ openedFrom opens s.key (frame :: more) := by
    intro more
    rw [List.append_assoc]
    exact hwrote (frame :: more)
  cases hopens : opens s.key frame with
  | some opened =>
      obtain ⟨key, out⟩ := opened
      refine h.wrote_on key s.receiver hmoved (running_phase hrunning) ?_
      intro more
      rw [hnext, openedFrom, hopens, List.append_assoc]
  | none =>
      refine h.wrote_on s.key false hmoved (running_phase hrunning) ?_
      intro more
      rw [hnext]
      exact List.prefix_append _ _

theorem Ordered.writes (h : s.Ordered opens) (hwrites : writes a = true)
    (hstep : s.act kind opens a = some s') : s'.Ordered opens := by
  have hwrote := h.wrote
  cases a with
  | seeEof =>
      simp only [act] at hstep
      split at hstep
      · rename_i hwriter
        obtain ⟨⟨-, hrunning, -⟩, rfl⟩ := Sys.guarded_eq_some hstep
        simp only [Wrote, hwriter] at hwrote
        exact h.wrote_on s.key false rfl (running_phase hrunning) hwrote
      · cases hstep
  | take =>
      simp only [act] at hstep
      split at hstep
      · rename_i graceful frame rest hwriter hqueue
        simp only [Option.ite_none_right_eq_some] at hstep
        obtain ⟨hrunning, hstep⟩ := hstep
        have htake := h.take hwriter hqueue hrunning
        split at hstep
        · rename_i key out hopens
          obtain rfl := Option.some.inj hstep
          rwa [hopens] at htake
        · rename_i hopens
          obtain rfl := Option.some.inj hstep
          rwa [hopens] at htake
      · cases hstep
  | write n =>
      simp only [act] at hstep
      split at hstep
      · rename_i graceful rest hwriter
        obtain ⟨hrunning, rfl⟩ := Sys.guarded_eq_some hstep
        simp only [Wrote, hwriter] at hwrote
        refine h.wrote_on s.key s.receiver rfl (running_phase hrunning) ?_
        intro more
        rw [List.append_assoc s.written, List.take_append_drop]
        exact hwrote more
      · cases hstep
  | wrote =>
      simp only [act] at hstep
      split at hstep
      · rename_i graceful hwriter
        obtain ⟨hrunning, rfl⟩ := Sys.guarded_eq_some hstep
        simp only [Wrote, hwriter, List.append_nil] at hwrote
        exact h.wrote_on s.key s.receiver rfl (running_phase hrunning) hwrote
      · cases hstep
  | writeError =>
      simp only [act] at hstep
      split at hstep
      · rename_i graceful rest hwriter
        obtain ⟨hrunning, rfl⟩ := Sys.guarded_eq_some hstep
        simp only [Wrote, hwriter] at hwrote
        refine h.wrote_on s.key false rfl (running_phase hrunning) ?_
        intro more
        exact (List.prefix_append _ _).trans (openedFrom_append _ _ _ hwrote)
      · cases hstep
  | runDry =>
      simp only [act] at hstep
      split at hstep
      · rename_i graceful hwriter
        obtain ⟨⟨hrunning, -⟩, rfl⟩ := Sys.guarded_eq_some hstep
        simp only [Wrote, hwriter] at hwrote
        exact h.wrote_on s.key false rfl (running_phase hrunning) fun more =>
          openedFrom_append _ _ _ hwrote
      · cases hstep
  | seeAbort =>
      simp only [act] at hstep
      split at hstep
      · rename_i graceful hwriter
        obtain ⟨⟨-, hrunning, -⟩, rfl⟩ := Sys.guarded_eq_some hstep
        simp only [Wrote, hwriter] at hwrote
        exact h.wrote_on s.key false rfl (running_phase hrunning) fun more =>
          openedFrom_append _ _ _ hwrote
      · cases hstep
  | _ => cases hwrites

theorem Ordered.step (h : s.Ordered opens) (hstep : s.act kind opens a = some s') :
    s'.Ordered opens := by
  cases a with
  | seeEof | take | write | wrote | writeError | runDry | seeAbort => exact h.writes rfl hstep
  | register =>
      obtain ⟨hphase, rfl⟩ := Sys.guarded_eq_some hstep
      exact h.frame (fun _ => Or.inr hphase)
        (fun _ => Or.inl hphase) fun hopen => absurd hphase hopen
  | data frame =>
      obtain ⟨⟨hopen, hidle⟩, rfl⟩ := Sys.guarded_eq_some hstep
      exact h.data (Option.isNone_iff_eq_none.mp hidle) hopen
  | push =>
      simp only [act] at hstep
      split at hstep
      · rename_i frame hholds
        obtain ⟨-, rfl⟩ := Sys.guarded_eq_some hstep
        exact h.pushed hholds
      · cases hstep
  | giveUp =>
      simp only [act] at hstep
      split at hstep
      · rename_i frame hholds
        simp only [Option.ite_none_left_eq_some, Option.some_inj] at hstep
        obtain ⟨-, rfl⟩ := hstep
        exact h.givenUp hholds
      · cases hstep
  | eof =>
      obtain ⟨-, rfl⟩ := Sys.guarded_eq_some hstep
      exact h.frame Or.inl id id
  | close =>
      obtain ⟨-, rfl⟩ := Sys.guarded_eq_some hstep
      exact h.frame nofun id id
  | loseTunnel =>
      obtain rfl := Option.some.inj hstep
      exact h.frame Or.inl id id
  | shake key =>
      simp only [act] at hstep
      split at hstep
      · rename_i frame rest hqueue
        obtain ⟨⟨-, hphase, hfirst⟩, rfl⟩ := Sys.guarded_eq_some hstep
        exact h.shook hqueue hphase hfirst
      · cases hstep
  | fail =>
      simp only [act, Option.ite_none_right_eq_some] at hstep
      obtain ⟨-, hstep⟩ := hstep
      cases kind with
      | tcp =>
          obtain rfl := Option.some.inj hstep
          exact h.frame nofun nofun fun _ => nofun
      | ws =>
          simp only [Option.ite_none_left_eq_some, Option.some_inj] at hstep
          obtain ⟨-, rfl⟩ := hstep
          exact h.frame nofun nofun fun _ => nofun
  | refuse =>
      obtain ⟨-, rfl⟩ := Sys.guarded_eq_some hstep
      exact h.frame Or.inl nofun fun _ => nofun
  | start =>
      obtain ⟨-, rfl⟩ := Sys.guarded_eq_some hstep
      exact h.frame Or.inl nofun fun _ => nofun
  | readEnds =>
      obtain ⟨-, rfl⟩ := Sys.guarded_eq_some hstep
      exact h.frame Or.inl id id
  | announce =>
      obtain ⟨-, rfl⟩ := Sys.guarded_eq_some hstep
      exact h.frame Or.inl id id
  | readClose =>
      obtain ⟨-, rfl⟩ := Sys.guarded_eq_some hstep
      exact h.frame Or.inl id id
  | joinReader =>
      obtain ⟨-, rfl⟩ := Sys.guarded_eq_some hstep
      exact h.frame Or.inl nofun fun _ => nofun
  | joinWriter =>
      simp only [act] at hstep
      split at hstep
      · obtain ⟨-, rfl⟩ := Sys.guarded_eq_some hstep
        refine h.frame Or.inl ?_ ?_
        · split
          · exact nofun
          · exact nofun
        · intro _
          split
          · exact nofun
          · exact nofun
      · cases hstep
  | abort =>
      obtain ⟨-, rfl⟩ := Sys.guarded_eq_some hstep
      exact h.frame Or.inl nofun fun _ => nofun
  | ceiling =>
      obtain ⟨-, rfl⟩ := Sys.guarded_eq_some hstep
      exact h.frame Or.inl nofun fun _ => nofun
  | remove =>
      obtain ⟨-, rfl⟩ := Sys.guarded_eq_some hstep
      exact h.frame nofun nofun fun _ => nofun

end BackendRelay

/-- **Every stream end is announced**, in every run in which the ends that
nobody announces come after one that was; and in every run the backend is
given the beginning of what the server sent. -/
theorem stream_end_heard {κ T β : Type} {kind : RelayKind}
    {opens : κ → T → Option (κ × List β)} {s : BackendRelay κ T β}
    (h : (backendSys kind opens).Reachable s) :
    s.InOrder opens ∧
      (((backendSys kind opens).restrict (BackendRelay.Heard kind)).Reachable s → s.EndHeard) := by
  constructor
  · have hordered : s.Ordered opens := by
      refine h.invariant ?_ fun s a s' _ hordered hstep => hordered.step hstep
      rintro s ⟨key, rfl⟩
      exact ⟨rfl, fun hne => absurd rfl hne, fun _ => ⟨rfl, rfl, false, rfl⟩, fun _ => rfl,
        fun _ => rfl⟩
    exact hordered.inOrder
  · intro hheard
    have hspoken : s.Spoken := by
      refine hheard.invariant ?_ fun s a s' _ hspoken hstep => hspoken.step hstep.2 hstep.1
      rintro s ⟨key, rfl⟩
      exact ⟨fun hopen => absurd rfl hopen, nofun, nofun, nofun⟩
    exact hspoken.heard

/-! ## A backend that ends, and one that breaks -/

namespace BackendRelay

/-- A stream without encryption. -/
def plain (_ : Unit) (frame : List Nat) : Option (Unit × List Nat) :=
  some ((), frame)

/-- A stream that relayed three bytes, and is about to relay more. -/
theorem relaying_reachable (kind : RelayKind)
    {c : BackendRelay Unit (List Nat) Nat → BackendAct Unit (List Nat) →
      BackendRelay Unit (List Nat) Nat → Prop}
    (hc : ∀ s a s', Heard kind s a s' → c s a s') :
    ((backendSys kind plain).restrict c).Reachable
      { key := (), start := (), phase := .relaying, entry := true, subscribed := true
        sent := [[1, 2, 3]], taken := [[1, 2, 3]], writer := .writing false [3]
        written := [1, 2] } := by
  have h₀ : ((backendSys kind plain).restrict c).Reachable { key := (), start := () } :=
    .init ⟨(), rfl⟩
  have h₁ := h₀.step ⟨show act kind plain _ .register = some _ from rfl, hc _ _ _ trivial⟩
  have h₂ := h₁.step ⟨show act kind plain _ .start = some _ from rfl, hc _ _ _ trivial⟩
  have h₃ := h₂.step ⟨show act kind plain _ (.data [1, 2, 3]) = some _ from rfl,
    hc _ _ _ trivial⟩
  have h₄ := h₃.step ⟨show act kind plain _ .push = some _ from rfl, hc _ _ _ trivial⟩
  have h₅ := h₄.step ⟨show act kind plain _ .take = some _ from rfl, hc _ _ _ trivial⟩
  exact h₅.step ⟨show act kind plain _ (.write 2) = some _ from rfl, hc _ _ _ trivial⟩

end BackendRelay

/-- The backend ends, the server is told, and what it had been given is the
beginning of what was sent. -/
theorem stream_end_heard_once : ∃ s : BackendRelay Unit (List Nat) Nat, s.phase = .ended ∧
    s.entry = false ∧ s.written = [1, 2] ∧ s.InOrder BackendRelay.plain ∧ s.EndHeard := by
  have h₀ := BackendRelay.relaying_reachable .tcp (c := BackendRelay.Heard .tcp) fun _ _ _ => id
  have h₁ := h₀.step ⟨show BackendRelay.act .tcp BackendRelay.plain _ .readEnds = some _ from rfl,
    trivial⟩
  have h₂ := h₁.step ⟨show BackendRelay.act .tcp BackendRelay.plain _ .announce = some _ from rfl,
    trivial⟩
  have h₃ := h₂.step ⟨show BackendRelay.act .tcp BackendRelay.plain _ .joinReader = some _ from rfl,
    trivial⟩
  have h₄ := h₃.step ⟨show BackendRelay.act .tcp BackendRelay.plain _ .remove = some _ from rfl,
    trivial⟩
  obtain ⟨horder, hheard⟩ := stream_end_heard h₄.of_restrict
  exact ⟨_, rfl, rfl, rfl, horder, hheard h₄⟩

/-- A write error ends a stream. -/
theorem BackendRelay.write_error_ends (kind : RelayKind) :
    ∃ s, (backendSys kind BackendRelay.plain).Reachable s ∧ s.phase = .ended ∧ s.entry = false ∧
      s.announced = false ∧ s.serverClosed = false ∧ s.tunnel = true := by
  have h₀ := (BackendRelay.relaying_reachable kind (c := fun _ _ _ => True) fun _ _ _ _ =>
    trivial).of_restrict
  have h₁ := h₀.step (show BackendRelay.act kind BackendRelay.plain _ .writeError = some _ from rfl)
  cases kind with
  | tcp =>
      have h₂ := h₁.step (show BackendRelay.act .tcp BackendRelay.plain _ .joinWriter = some _
        from rfl)
      have h₃ := h₂.step (show BackendRelay.act .tcp BackendRelay.plain _ .remove = some _ from rfl)
      exact ⟨_, h₃, rfl, rfl, rfl, rfl, rfl⟩
  | ws =>
      have h₂ := h₁.step (show BackendRelay.act .ws BackendRelay.plain _ .joinWriter = some _
        from rfl)
      have h₃ := h₂.step (show BackendRelay.act .ws BackendRelay.plain _ .remove = some _ from rfl)
      exact ⟨_, h₃, rfl, rfl, rfl, rfl, rfl⟩

theorem BackendRelay.not_endHeard {κ T β : Type} {s : BackendRelay κ T β}
    (hphase : s.phase = .ended) (hgone : s.entry = false) (hunsaid : s.announced = false)
    (hserver : s.serverClosed = false) (htunnel : s.tunnel = true) : ¬s.EndHeard := by
  intro hheard
  rcases hheard (by rw [hphase]; exact nofun) hgone with (hsaid | hclosed | hlost) | hrefusing
  · cases hunsaid.symm.trans hsaid
  · cases hserver.symm.trans hclosed
  · cases htunnel.symm.trans hlost
  · cases hphase.symm.trans hrefusing

/-- A write error ends either kind of stream, and nobody tells the server. -/
theorem write_error_unheard :
    (∃ s, (backendSys .tcp BackendRelay.plain).Reachable s ∧ s.phase = .ended ∧ ¬s.EndHeard) ∧
    ∃ s, (backendSys .ws BackendRelay.plain).Reachable s ∧ s.phase = .ended ∧ ¬s.EndHeard := by
  obtain ⟨s, hs, hphase, hgone, hunsaid, hserver, htunnel⟩ := BackendRelay.write_error_ends .tcp
  obtain ⟨t, ht, hphase', hgone', hunsaid', hserver', htunnel'⟩ := BackendRelay.write_error_ends .ws
  exact ⟨⟨s, hs, hphase, BackendRelay.not_endHeard hphase hgone hunsaid hserver htunnel⟩,
    t, ht, hphase', BackendRelay.not_endHeard hphase' hgone' hunsaid' hserver' htunnel'⟩

end Aperio
