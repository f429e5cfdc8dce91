import Mathlib.Logic.Function.Iterate
import Aperio.StreamFlow

/-!
# The producer's side of flow control

`flow.rs` of the client, joined to `state/stream.rs` of the server by the
connection between them: the pump of each stream asks for a pause and a
resume, the messages arrive in the order they went out, and the client's read
loop flips the switch of the stream they name. A producer calls
`wait_while_paused` before every chunk.

On the client each access to a switch's flag is a step of its own, and so is
registering as a waiter and `notify_waiters`, so a producer and the read loop
interleave between any two of them; on the server a push and the accounting
of a forwarded item are one step each. The read loop holds the registry's
lock from its lookup to the end of `resume`: until then no producer registers
or goes. An id names one stream, with one producer at a time, and streams of
every kind share the connection.

The safety cap may pass whenever a producer waits and nothing has woken it.
-/

namespace Aperio

/-! ## One switch -/

/-- Where the producer is in `wait_while_paused`. -/
inductive WaitPhase where
  /-- Outside of it. -/
  | working
  /-- About to read the flag at the head of the loop. -/
  | checking
  /-- About to register as a waiter. -/
  | registering
  /-- Registered, and about to read the flag again. -/
  | rereading
  | parked
  /-- The safety cap has passed. -/
  | expired
deriving Repr, DecidableEq

/-- `PauseSignal`, with the one producer that waits on it and whether its
registration has been notified. -/
structure PauseSignal where
  paused : Bool := false
  phase : WaitPhase := .working
  notified : Bool := false
deriving Repr, DecidableEq

namespace PauseSignal

def pause (p : PauseSignal) : PauseSignal := { p with paused := true }

/-- The first half of `resume`. -/
def clear (p : PauseSignal) : PauseSignal := { p with paused := false }

/-- The second half of `resume`: `notify_waiters` reaches who has
registered. -/
def notifyWaiters (p : PauseSignal) : PauseSignal :=
  match p.phase with
  | .rereading | .parked => { p with notified := true }
  | _ => p

/-- The next step of the producer's own in `wait_while_paused`; it takes none
outside of it, and none while it is parked and nothing has woken it. -/
def advance (p : PauseSignal) : PauseSignal :=
  match p.phase with
  | .working => p
  | .checking => { p with phase := if p.paused then .registering else .working }
  | .registering => { p with phase := .rereading, notified := false }
  | .rereading => { p with phase := if p.paused then .parked else .working }
  | .parked => if p.notified then { p with phase := .checking } else p
  | .expired => { p with paused := false, phase := .working }

/-- The producer calls `wait_while_paused`. -/
def wait (p : PauseSignal) : Option PauseSignal :=
  if p.phase = .working then some { p with phase := .checking } else none

/-- `PAUSE_SAFETY_CAP` passes. -/
def expire (p : PauseSignal) : Option PauseSignal :=
  if p.phase = .parked ∧ p.notified = false then some { p with phase := .expired } else none

end PauseSignal

/-! ## The connection -/

def StreamControl.id : StreamControl → String
  | .streamPause id => id
  | .streamResume id => id

/-- `PauseRegistry`. -/
abbrev PauseRegistry := String → Option PauseSignal

def PauseRegistry.modify (pauses : PauseRegistry) (id : String) (f : PauseSignal → PauseSignal) :
    PauseRegistry :=
  Function.update pauses id ((pauses id).map f)

/-- A connection: the server's streams, the control messages on their way,
the resume the client's read loop is in the middle of, and the client's
switches. `handled` records what the read loop has taken. -/
structure FlowConn (T : String → Type) where
  streams : ∀ id, PumpedStream (T id)
  wire : List StreamControl := []
  resuming : Option String := none
  pauses : PauseRegistry := fun _ => none
  handled : List StreamControl := []

inductive FlowAct (T : String → Type) where
  | server (id : String) (a : StreamAct (T id))
  | read
  | notify
  | register (id : String)
  /-- `PauseGuard` drops, also when the producer's task is aborted. -/
  | unregister (id : String)
  | wait (id : String)
  | advance (id : String)
  | expire (id : String)

namespace FlowConn

variable {T : String → Type} [∀ id, PumpCost (T id)]

def server (c : FlowConn T) (id : String) (a : StreamAct (T id)) : Option (FlowConn T) :=
  ((c.streams id).step a).map fun s =>
    { c with
      streams := Function.update c.streams id s
      wire := c.wire ++ s.sent.drop (c.streams id).sent.length }

/-- The `StreamPause` and `StreamResume` arms of the read loop; a message for
an id that is not registered does nothing. -/
def read (c : FlowConn T) : Option (FlowConn T) :=
  match c.resuming, c.wire with
  | none, .streamPause id :: rest =>
    some { c with
      wire := rest
      handled := c.handled ++ [.streamPause id]
      pauses := c.pauses.modify id .pause }
  | none, .streamResume id :: rest =>
    some { c with
      wire := rest
      handled := c.handled ++ [.streamResume id]
      pauses := c.pauses.modify id .clear
      resuming := (c.pauses id).map fun _ => id }
  | _, _ => none

def notify (c : FlowConn T) : Option (FlowConn T) :=
  c.resuming.map fun id =>
    { c with resuming := none, pauses := c.pauses.modify id .notifyWaiters }

def register (c : FlowConn T) (id : String) : Option (FlowConn T) :=
  if c.resuming = none ∧ c.pauses id = none then
    some { c with pauses := Function.update c.pauses id (some {}) }
  else none

def unregister (c : FlowConn T) (id : String) : Option (FlowConn T) :=
  if c.resuming = none then some { c with pauses := Function.update c.pauses id none } else none

/-- A step of the producer of `id`. -/
def produce (c : FlowConn T) (id : String) (f : PauseSignal → Option PauseSignal) :
    Option (FlowConn T) :=
  ((c.pauses id).bind f).map fun p => { c with pauses := Function.update c.pauses id (some p) }

def step (c : FlowConn T) : FlowAct T → Option (FlowConn T)
  | .server id a => c.server id a
  | .read => c.read
  | .notify => c.notify
  | .register id => c.register id
  | .unregister id => c.unregister id
  | .wait id => c.produce id PauseSignal.wait
  | .advance id => c.produce id fun p => some p.advance
  | .expire id => c.produce id PauseSignal.expire

end FlowConn

/-- Every run of one connection, from its first stream on. -/
def flowSys (T : String → Type) [∀ id, PumpCost (T id)] (limits : String → StreamLimits) :
    Sys (FlowConn T) (FlowAct T) where
  init c := c = { streams := fun id => .spawn id (limits id) }
  step c a c' := c.step a = some c'

/-! ## What a stream sends, in its turn on the wire -/

/-- The messages of one stream. -/
def about (id : String) (controls : List StreamControl) : List StreamControl :=
  controls.filter fun m => m.id = id

@[simp] theorem about_append (id : String) (l r : List StreamControl) :
    about id (l ++ r) = about id l ++ about id r :=
  List.filter_append l r

theorem Alternates.mem {α : Type} {a b x : α} {l : List α} (h : Alternates a b l) (hx : x ∈ l) :
    x = a ∨ x = b := by
  obtain ⟨i, hi⟩ := List.getElem?_of_mem hx
  have hx := h i x hi
  split at hx
  · exact .inl hx
  · exact .inr hx

/-- What comes after an `a` starts with a `b`. -/
theorem Alternates.next {α : Type} {a b : α} {l r : List α} (hne : a ≠ b)
    (h : Alternates a b (l ++ r)) (hlast : l.getLast? = some a) : r = [] ∨ b ∈ r := by
  have hl : Alternates a b l := by
    intro i x hx
    have hlt := (List.getElem?_eq_some_iff.mp hx).1
    exact h i x (by rw [List.getElem?_append_left hlt, hx])
  have hodd := (hl.getLast?_iff hne).mp hlast
  cases r with
  | nil => exact .inl rfl
  | cons x r =>
      have hx := h l.length x (by simp)
      rw [if_neg (by omega)] at hx
      exact .inr (hx ▸ List.mem_cons_self)

section Stream

variable {T : Type} [PumpCost T] {streamId : String} {limits : StreamLimits} {s s' : PumpedStream T}
  {a : StreamAct T}

/-- What went out stays out. -/
theorem step_sent (h : s.step a = some s') : s.sent <+: s'.sent := by
  cases a with
  | push item room =>
      obtain ⟨flow, -, rfl⟩ := Option.map_eq_some_iff.mp h
      unfold PumpedStream.push
      by_cases hover : flow.overLimit (PumpCost.cost item) = true
      · simp [hover]
      · cases hrunning : s.running with
        | false => simp [hover]
        | true => simp [hover]
  | recv =>
      simp only [PumpedStream.step] at h
      split at h
      · obtain rfl := Option.some.inj h
        exact List.prefix_rfl
      · cases h
  | forward room =>
      simp only [PumpedStream.step] at h
      split at h
      · obtain rfl := Option.some.inj h
        exact List.prefix_append _ _
      · cases h
  | stop =>
      simp only [PumpedStream.step] at h
      split at h
      · obtain rfl := Option.some.inj h
        exact List.prefix_rfl
      · cases h
  | drop room =>
      simp only [PumpedStream.step] at h
      split at h
      · obtain rfl := Option.some.inj h
        exact List.prefix_append _ _
      · cases h

/-- A stream sends nothing but its own messages. -/
theorem sent_own (h : (streamSys T streamId limits).Reachable s) :
    ∀ m ∈ s.sent, m.id = streamId := by
  intro m hm
  rcases (stream_kept h).turns.mem hm with rfl | rfl <;> rfl

end Stream

theorem about_own {id : String} {l : List StreamControl} (h : ∀ m ∈ l, m.id = id) :
    about id l = l :=
  List.filter_eq_self.mpr fun m hm => by simpa using h m hm

theorem about_other {id id' : String} {l : List StreamControl} (h : ∀ m ∈ l, m.id = id)
    (hne : id' ≠ id) : about id' l = [] :=
  List.filter_eq_nil_iff.mpr fun m hm => by simpa [h m hm] using hne.symm

/-! ## What one step keeps -/

/-- What holds of a switch: a set flag is the doing of a pause that nothing
has taken back yet, and a producer waits for a wakeup only while the flag is
set or the one that clears it is about to notify. -/
structure SwitchKept (id : String) (resuming : Option String) (handled : List StreamControl)
    (p : PauseSignal) : Prop where
  paused : p.paused = true → (about id handled).getLast? = some (.streamPause id)
  parked : p.phase = .parked → p.notified = false → p.paused = true ∨ resuming = some id

section Switch

variable {id : String} {resuming : Option String} {handled : List StreamControl} {p q : PauseSignal}

theorem new_kept : SwitchKept id resuming handled {} where
  paused h := absurd h (by simp)
  parked h := absurd h (by simp)

theorem pause_kept : SwitchKept id resuming (handled ++ [.streamPause id]) p.pause where
  paused _ := by simp [about, StreamControl.id]
  parked _ _ := .inl rfl

theorem clear_kept : SwitchKept id (some id) handled p.clear where
  paused h := absurd h (by simp [PauseSignal.clear])
  parked _ _ := .inr rfl

theorem notifyWaiters_kept (h : SwitchKept id resuming handled p) :
    SwitchKept id none handled p.notifyWaiters := by
  unfold PauseSignal.notifyWaiters
  split
  · exact ⟨h.paused, fun _ hn => absurd hn (by simp)⟩
  · exact ⟨h.paused, fun _ hn => absurd hn (by simp)⟩
  · rename_i hparked
    exact ⟨h.paused, fun hp => absurd hp hparked⟩

theorem wait_kept (h : SwitchKept id resuming handled p) (hw : p.wait = some q) :
    SwitchKept id resuming handled q := by
  unfold PauseSignal.wait at hw
  split at hw
  · obtain rfl := Option.some.inj hw
    exact ⟨h.paused, fun hp => absurd hp (by simp)⟩
  · cases hw

/-- Between the first reading of the flag and the second the producer has
registered, so a resume in between either is seen or notifies it. -/
theorem advance_kept (h : SwitchKept id resuming handled p) :
    SwitchKept id resuming handled p.advance := by
  unfold PauseSignal.advance
  split
  · exact h
  · refine ⟨h.paused, fun hp => ?_⟩
    cases hpaused : p.paused <;> simp [hpaused] at hp
  · exact ⟨h.paused, fun hp => absurd hp (by simp)⟩
  · refine ⟨h.paused, fun hp _ => .inl ?_⟩
    cases hpaused : p.paused with
    | true => rfl
    | false => simp [hpaused] at hp
  · split
    · exact ⟨h.paused, fun hp => absurd hp (by simp)⟩
    · exact h
  · exact ⟨fun hp => absurd hp (by simp), fun hp => absurd hp (by simp)⟩

theorem expire_kept (h : SwitchKept id resuming handled p) (he : p.expire = some q) :
    SwitchKept id resuming handled q := by
  unfold PauseSignal.expire at he
  split at he
  · obtain rfl := Option.some.inj he
    exact ⟨h.paused, fun hp => absurd hp (by simp)⟩
  · cases he

/-- What the read loop does for one stream leaves the switches of the others
as they are. -/
theorem SwitchKept.other {resuming' : Option String} {handled' : List StreamControl}
    (h : SwitchKept id resuming handled p) (hresuming : resuming ≠ some id)
    (hhandled : about id handled' = about id handled) :
    SwitchKept id resuming' handled' p where
  paused hp := by
    rw [hhandled]
    exact h.paused hp
  parked hphase hn := .inl ((h.parked hphase hn).resolve_right hresuming)

end Switch

/-! ## The connection's invariant -/

section Conn

variable {T : String → Type} [∀ id, PumpCost (T id)] {limits : String → StreamLimits}
  {c c' : FlowConn T}

/-- What holds of a connection: each stream runs on its own, what it sent is
what the read loop has taken of it and what is on its way, and every switch
is kept. -/
structure FlowConnKept (limits : String → StreamLimits) (c : FlowConn T) : Prop where
  streams : ∀ id, (streamSys (T id) id (limits id)).Reachable (c.streams id)
  carried : ∀ id, (c.streams id).sent = about id (c.handled ++ c.wire)
  switches : ∀ id p, c.pauses id = some p → SwitchKept id c.resuming c.handled p

theorem server_kept {id : String} {a : StreamAct (T id)} (hc : FlowConnKept limits c)
    (h : c.server id a = some c') : FlowConnKept limits c' := by
  obtain ⟨s, hstep, rfl⟩ := Option.map_eq_some_iff.mp h
  have hs : (streamSys (T id) id (limits id)).Reachable s := .step (hc.streams id) hstep
  obtain ⟨out, hout⟩ := step_sent hstep
  have hown : ∀ m ∈ out, m.id = id := fun m hm => by
    refine sent_own hs m ?_
    rw [← hout]
    exact List.mem_append_right _ hm
  have hdrop : s.sent.drop (c.streams id).sent.length = out := by
    rw [← hout, List.drop_left]
  refine ⟨fun i => ?_, fun i => ?_, hc.switches⟩
  · by_cases hi : i = id
    · subst hi
      simpa using hs
    · simpa [Function.update_of_ne hi] using hc.streams i
  · show (Function.update c.streams id s i).sent = about i (c.handled ++ (c.wire ++ _))
    rw [hdrop, ← List.append_assoc, about_append, ← hc.carried i]
    by_cases hi : i = id
    · subst hi
      rw [Function.update_self, ← hout, about_own hown]
    · rw [Function.update_of_ne hi, about_other hown hi, List.append_nil]

/-- A switch afterwards is the one that was put in place or one of before. -/
theorem update_some {pauses : PauseRegistry} {id i : String} {v : Option PauseSignal}
    {p : PauseSignal} (h : Function.update pauses id v i = some p) :
    (i = id ∧ v = some p) ∨ (i ≠ id ∧ pauses i = some p) := by
  by_cases hi : i = id
  · subst hi
    rw [Function.update_self] at h
    exact .inl ⟨rfl, h⟩
  · rw [Function.update_of_ne hi] at h
    exact .inr ⟨hi, h⟩

theorem modify_some {pauses : PauseRegistry} {id i : String} {f : PauseSignal → PauseSignal}
    {p : PauseSignal} (h : pauses.modify id f i = some p) :
    (i = id ∧ ∃ q, pauses id = some q ∧ f q = p) ∨ (i ≠ id ∧ pauses i = some p) := by
  obtain ⟨hi, hv⟩ | hother := update_some h
  · exact .inl ⟨hi, Option.map_eq_some_iff.mp hv⟩
  · exact .inr hother

theorem about_concat_other {id : String} {m : StreamControl} (l : List StreamControl)
    (hne : id ≠ m.id) : about id (l ++ [m]) = about id l := by
  have hm : ∀ n ∈ [m], n.id = m.id := fun n hn => by rw [List.mem_singleton.mp hn]
  rw [about_append, about_other hm hne, List.append_nil]

theorem read_kept (hc : FlowConnKept limits c) (h : c.read = some c') :
    FlowConnKept limits c' := by
  unfold FlowConn.read at h
  split at h
  · rename_i id rest hidle hwire
    obtain rfl := Option.some.inj h
    refine ⟨hc.streams, fun i => ?_, fun i p hp => ?_⟩
    · rw [hc.carried i, hwire, ← List.append_cons]
    · obtain ⟨rfl, q, -, rfl⟩ | ⟨hi, hp⟩ := modify_some hp
      · exact pause_kept
      · exact (hc.switches i p hp).other (by simp [hidle]) (about_concat_other _ hi)
  · rename_i id rest hidle hwire
    obtain rfl := Option.some.inj h
    refine ⟨hc.streams, fun i => ?_, fun i p hp => ?_⟩
    · rw [hc.carried i, hwire, ← List.append_cons]
    · obtain ⟨rfl, q, hq, rfl⟩ | ⟨hi, hp⟩ := modify_some hp
      · rw [hq]
        exact clear_kept
      · exact (hc.switches i p hp).other (by simp [hidle]) (about_concat_other _ hi)
  · cases h

theorem notify_kept (hc : FlowConnKept limits c) (h : c.notify = some c') :
    FlowConnKept limits c' := by
  obtain ⟨id, hresuming, rfl⟩ := Option.map_eq_some_iff.mp h
  refine ⟨hc.streams, hc.carried, fun i p hp => ?_⟩
  obtain ⟨rfl, q, hq, rfl⟩ | ⟨hi, hp⟩ := modify_some hp
  · exact notifyWaiters_kept (hc.switches i q hq)
  · exact (hc.switches i p hp).other (by simpa [hresuming] using hi.symm) rfl

theorem register_kept {id : String} (hc : FlowConnKept limits c) (h : c.register id = some c') :
    FlowConnKept limits c' := by
  unfold FlowConn.register at h
  split at h
  · obtain rfl := Option.some.inj h
    refine ⟨hc.streams, hc.carried, fun i p hp => ?_⟩
    obtain ⟨rfl, hnew⟩ | ⟨-, hp⟩ := update_some hp
    · obtain rfl := Option.some.inj hnew
      exact new_kept
    · exact hc.switches i p hp
  · cases h

theorem unregister_kept {id : String} (hc : FlowConnKept limits c)
    (h : c.unregister id = some c') : FlowConnKept limits c' := by
  unfold FlowConn.unregister at h
  split at h
  · obtain rfl := Option.some.inj h
    refine ⟨hc.streams, hc.carried, fun i p hp => ?_⟩
    obtain ⟨-, hgone⟩ | ⟨-, hp⟩ := update_some hp
    · cases hgone
    · exact hc.switches i p hp
  · cases h

/-- A producer's step keeps the connection when it keeps the switch. -/
theorem produce_kept {id : String} {f : PauseSignal → Option PauseSignal}
    (hf : ∀ p q, SwitchKept id c.resuming c.handled p → f p = some q →
      SwitchKept id c.resuming c.handled q)
    (hc : FlowConnKept limits c) (h : c.produce id f = some c') : FlowConnKept limits c' := by
  obtain ⟨q, hbind, rfl⟩ := Option.map_eq_some_iff.mp h
  obtain ⟨p, hp, hq⟩ := Option.bind_eq_some_iff.mp hbind
  refine ⟨hc.streams, hc.carried, fun i r hr => ?_⟩
  obtain ⟨rfl, hnew⟩ | ⟨-, hr⟩ := update_some hr
  · obtain rfl := Option.some.inj hnew
    exact hf p q (hc.switches i p hp) hq
  · exact hc.switches i r hr

/-- **Step lemma.** Whatever happens next on a connection, it stays kept. -/
theorem flowStep_kept {a : FlowAct T} (hc : FlowConnKept limits c) (h : c.step a = some c') :
    FlowConnKept limits c' := by
  cases a with
  | server id a => exact server_kept hc h
  | read => exact read_kept hc h
  | notify => exact notify_kept hc h
  | register id => exact register_kept hc h
  | unregister id => exact unregister_kept hc h
  | wait id => exact produce_kept (fun _ _ => wait_kept) hc h
  | advance id =>
      refine produce_kept (fun p q hp hq => ?_) hc h
      obtain rfl := Option.some.inj hq
      exact advance_kept hp
  | expire id => exact produce_kept (fun _ _ => expire_kept) hc h

theorem flow_kept (h : (flowSys T limits).Reachable c) : FlowConnKept limits c := by
  refine h.invariant ?_ ?_
  · rintro c rfl
    exact ⟨fun id => .init rfl, fun id => rfl, fun id p hp => absurd hp (by simp)⟩
  · intro c a c' _ hc hstep
    exact flowStep_kept hc hstep

/-! ## No resume is lost -/

/-- A set flag is owed to a pause: its resume is on the way, or the server
has sent none since. -/
theorem FlowConnKept.owed (hc : FlowConnKept limits c) {id : String} {p : PauseSignal}
    (hp : c.pauses id = some p) (hpaused : p.paused = true) :
    .streamResume id ∈ c.wire ∨ (c.streams id).sent.getLast? = some (.streamPause id) := by
  have hlast := (hc.switches id p hp).paused hpaused
  have hturns := (stream_kept (hc.streams id)).turns
  rw [hc.carried id, about_append] at hturns
  rcases hturns.next (by simp) hlast with hnone | hresume
  · right
    rw [hc.carried id, about_append, hnone, List.append_nil]
    exact hlast
  · exact .inl (List.mem_filter.mp hresume).1

/-- With the flag clear, and unless it waits for a wakeup, a producer is out
of `wait_while_paused` after two steps of its own. -/
theorem advance_working {p : PauseSignal} (hpaused : p.paused = false)
    (hwoken : p.phase = .parked → p.notified = true) :
    (PauseSignal.advance^[2] p).phase = .working := by
  obtain ⟨paused, phase, notified⟩ := p
  obtain rfl : paused = false := hpaused
  cases phase with
  | parked =>
      obtain rfl : notified = true := hwoken rfl
      rfl
  | working => rfl
  | checking => rfl
  | registering => rfl
  | rereading => rfl
  | expired => rfl

/-- **No resume is lost.** In every state of every run of a connection,
whatever its streams do and however the read loop and the producers
interleave: a producer that waits and has not been woken is one the read
loop is about to wake, or its resume is on the way, or the server has paused
it and not resumed it since; and but for these three it is at work again
after two steps of its own, with no need of the safety cap. -/
theorem no_resume_lost (h : (flowSys T limits).Reachable c) {id : String} {p : PauseSignal}
    (hp : c.pauses id = some p) :
    (p.phase = .parked → p.notified = false →
      c.resuming = some id ∨ .streamResume id ∈ c.wire ∨
        ((c.streams id).sent.getLast? = some (.streamPause id) ∧
          ∀ flow, (c.streams id).flow = some flow → flow.paused = true)) ∧
    (c.resuming ≠ some id → .streamResume id ∉ c.wire →
      (c.streams id).sent.getLast? ≠ some (.streamPause id) →
      (PauseSignal.advance^[2] p).phase = .working) := by
  have hc := flow_kept h
  constructor
  · intro hphase hn
    rcases (hc.switches id p hp).parked hphase hn with hpaused | hresuming
    · rcases hc.owed hp hpaused with hresume | hlast
      · exact .inr (.inl hresume)
      · refine .inr (.inr ⟨hlast, fun flow hflow => ?_⟩)
        obtain ⟨waiting, -, -, hkept⟩ := (stream_kept (hc.streams id)).waiting
        have hann := (hkept flow hflow).announced
        exact hann.flag.mpr ((hann.turns.getLast?_iff (by simp)).mp hlast)
    · exact .inl hresuming
  · intro hresuming hresume hlast
    have hclear : p.paused = false := by
      cases hpaused : p.paused with
      | false => rfl
      | true =>
          rcases hc.owed hp hpaused with h | h
          · exact absurd h hresume
          · exact absurd h hlast
    refine advance_working hclear fun hphase => ?_
    cases hn : p.notified with
    | true => rfl
    | false =>
        rcases (hc.switches id p hp).parked hphase hn with h | h
        · simp [hclear] at h
        · exact absurd h hresuming

end Conn

/-- One chunk past the high mark, a producer that parks on the pause, the
chunk handed on, and the resume taken up to the point where it notifies. -/
def pausedAndResumed : List (FlowAct fun _ => TcpConsumerMsg) :=
  [.register "s1", .server "s1" (.push (.data [1, 2, 3]) true), .read, .wait "s1", .advance "s1",
    .advance "s1", .advance "s1", .server "s1" .recv, .server "s1" (.forward true), .read]

theorem no_resume_lost_midway : ∃ c p,
    pausedAndResumed.foldlM FlowConn.step
      { streams := fun id => .spawn id narrowLimits } = some c ∧
    c.pauses "s1" = some p ∧ p.phase = .parked ∧ p.notified = false ∧
    (c.resuming = some "s1" ∨ .streamResume "s1" ∈ c.wire ∨
      ((c.streams "s1").sent.getLast? = some (.streamPause "s1") ∧
        ∀ flow, (c.streams "s1").flow = some flow → flow.paused = true)) := by
  refine ⟨_, _, rfl, rfl, rfl, rfl, ?_⟩
  have hrun := (Sys.Reachable.init rfl).foldlM
    (S := flowSys (fun _ => TcpConsumerMsg) fun _ => narrowLimits) (fun _ _ _ hstep => hstep)
    (rfl : pausedAndResumed.foldlM FlowConn.step _ = some _)
  exact (no_resume_lost hrun rfl).1 rfl rfl

end Aperio
