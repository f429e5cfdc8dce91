import Aperio.PubsubGrants

/-!
# A message once

The client's end of a delivery: `is_duplicate` of the bus and the branch of
the dispatch loop that reads a `Publish`, beside the server of `pubsubSys`.
A connection's frames are read in the order they were written, and may be
lost with the connection. Reading one, looking at the clock, asking the
memory of ids and handing the message out are steps of their own, of as many
connections of one process as there are; acknowledgements reach the server
when they like, or never.

The memory forgets an id by age and by number. `Prompt` is what a second
copy must meet to be recognized: it comes within `seenTtl` of the first, with
fewer than `seenMax` other messages in between.
-/

namespace Aperio

/-! ## The memory -/

def seenTtl : Nat := 90000000000

def seenMax : Nat := 4096

/-- Ids and when each was recorded, the oldest first. -/
abbrev Seen := List (String × Nat)

def staleAt (now : Nat) (entry : String × Nat) : Bool :=
  decide (seenTtl < now - entry.2)

/-- Whether the id is known, and the memory afterwards. -/
def isDuplicate (seen : Seen) (id : String) (now : Nat) : Bool × Seen :=
  let seen := seen.dropWhile (staleAt now)
  if seen.any (·.1 == id) then (true, seen)
  else (false, (if seenMax ≤ seen.length then seen.tail else seen) ++ [(id, now)])

/-! ## The process -/

/-- Where a connection's dispatch loop is with a `Publish`: `now` is what it
read before it took the lock of the memory, and a `fresh` message was not
known there. -/
inductive DispatchAt where
  | waiting
  | received (frame : PublishFrame)
  | looking (frame : PublishFrame) (now : Nat)
  | fresh (frame : PublishFrame)
deriving Repr, DecidableEq

/-- The bus of one process. `delivered` is what `deliver` was called with and
`noted` what was ever recorded in the memory. -/
structure ProcessBus where
  filters : List String := []
  seen : Seen := []
  delivered : List PublishFrame := []
  noted : Seen := []
deriving Repr, DecidableEq

def ProcessBus.wants (bus : ProcessBus) (topic : String) : Bool :=
  bus.filters.any (topicMatches · topic)

/-- `taken` counts the frames a connection has read or lost. -/
structure DispatchState where
  server : MsgState := {}
  taken : String → Nat := fun _ => 0
  dispatch : String → DispatchAt := fun _ => .waiting
  buses : String → ProcessBus := fun _ => {}

inductive DispatchAct where
  | server (a : MsgAct)
  | filters (process : String) (filters : List String)
  | read (conn : String)
  /-- A frame goes with the connection. -/
  | lose (conn : String)
  /-- The loop goes with the connection, wherever it is. -/
  | stop (conn : String)
  | look (conn : String)
  | check (conn : String)
  | deliver (conn : String)

namespace DispatchState

section

variable (s : DispatchState)

/-- The frames written to a connection and not read. -/
def inbox (conn : String) : List PublishFrame :=
  (((s.server.written.reverse.filter (·.connectionId == conn)).map (·.frame))).drop (s.taken conn)

def setDispatch (conn : String) (doing : DispatchAt) : DispatchState :=
  { s with dispatch := Function.update s.dispatch conn doing }

def setBus (process : String) (bus : ProcessBus) : DispatchState :=
  { s with buses := Function.update s.buses process bus }

def take (conn : String) : DispatchState :=
  { s with taken := Function.update s.taken conn (s.taken conn + 1) }

end

/-- `owner` says which process a connection is of. -/
def act (owner : String → String) (s : DispatchState) : DispatchAct → Option DispatchState
  | .server _ => none
  | .filters process filters => some (s.setBus process { s.buses process with filters := filters })
  | .read conn =>
    match s.dispatch conn, s.inbox conn with
    | .waiting, frame :: _ => some ((s.take conn).setDispatch conn (.received frame))
    | _, _ => none
  | .lose conn => some (s.take conn)
  | .stop conn => some (s.setDispatch conn .waiting)
  | .look conn =>
    match s.dispatch conn with
    | .received frame => some (s.setDispatch conn (.looking frame s.server.clock))
    | _ => none
  | .check conn =>
    match s.dispatch conn with
    | .looking frame now =>
      let bus := s.buses (owner conn)
      let (duplicate, seen) := isDuplicate bus.seen frame.id now
      some (if duplicate then
          (s.setBus (owner conn) { bus with seen := seen }).setDispatch conn .waiting
        else
          (s.setBus (owner conn)
            { bus with seen := seen, noted := bus.noted ++ [(frame.id, now)] }).setDispatch conn
              (.fresh frame))
    | _ => none
  | .deliver conn =>
    match s.dispatch conn with
    | .fresh frame =>
      let bus := s.buses (owner conn)
      some ((if bus.wants frame.topic then
          s.setBus (owner conn) { bus with delivered := bus.delivered ++ [frame] }
        else s).setDispatch conn .waiting)
    | _ => none

inductive Step (owner : String → String) : DispatchState → DispatchAct → DispatchState → Prop
  | server {s : DispatchState} {a : MsgAct} {t : MsgState} (h : MsgState.Step s.server a t) :
      Step owner s (.server a) { s with server := t }
  | act {s s' : DispatchState} {a : DispatchAct} (h : s.act owner a = some s') : Step owner s a s'

/-- What the steps of a run must meet: where a process looks an id up that it
has recorded before, that was at most `seenTtl` ago, and it has recorded
fewer than `seenMax` other ids since. -/
def Prompt (owner : String → String) (s : DispatchState) (a : DispatchAct) (_ : DispatchState) :
    Prop :=
  match a with
  | .check conn => ∀ frame now, s.dispatch conn = .looking frame now →
      ∀ pre recorded post, (s.buses (owner conn)).noted = pre ++ (frame.id, recorded) :: post →
        post.length < seenMax ∧ s.server.clock ≤ recorded + seenTtl
  | _ => True

end DispatchState

def dispatchSys (owner : String → String) : Sys DispatchState DispatchAct where
  init s := s = {}
  step := DispatchState.Step owner

/-! ## What the memory keeps -/

/-- The memory is the end of what was ever recorded, and what is before it is
old, or has `seenMax` behind it. -/
def ProcessBus.Remembers (bus : ProcessBus) (clock : Nat) : Prop :=
  ∃ gone, bus.noted = gone ++ bus.seen ∧
    ∀ pre entry post, gone = pre ++ entry :: post →
      seenMax ≤ post.length + bus.seen.length ∨ entry.2 + seenTtl < clock

namespace ProcessBus

variable {bus : ProcessBus} {clock clock' now : Nat} {id : String}

theorem Remembers.later (h : bus.Remembers clock) (hclock : clock ≤ clock') :
    bus.Remembers clock' := by
  obtain ⟨gone, hnoted, hgone⟩ := h
  refine ⟨gone, hnoted, fun pre entry post heq => ?_⟩
  exact (hgone pre entry post heq).imp_right fun hold => Nat.lt_of_lt_of_le hold hclock

/-- The front of the memory is forgotten by age. -/
theorem Remembers.age (h : bus.Remembers clock) (hnow : now ≤ clock) :
    ({ bus with seen := bus.seen.dropWhile (staleAt now) } : ProcessBus).Remembers clock := by
  obtain ⟨gone, hnoted, hgone⟩ := h
  refine ⟨gone ++ bus.seen.takeWhile (staleAt now), ?_, ?_⟩
  · rw [List.append_assoc, List.takeWhile_append_dropWhile]
    exact hnoted
  · intro pre entry post heq
    rcases List.append_eq_append_iff.mp heq with ⟨mid, hpre, hrest⟩ | ⟨mid, hgone', hrest⟩
    · -- the entry was still there, and is stale
      have hmem : entry ∈ bus.seen.takeWhile (staleAt now) := by
        rw [hrest]
        exact List.mem_append_right _ List.mem_cons_self
      have hstale := List.mem_takeWhile_imp hmem
      rw [staleAt, decide_eq_true_eq] at hstale
      exact Or.inr (by omega)
    · cases mid with
      | nil =>
          have hmem : entry ∈ bus.seen.takeWhile (staleAt now) := by
            rw [List.nil_append] at hrest
            rw [← hrest]
            exact List.mem_cons_self
          have hstale := List.mem_takeWhile_imp hmem
          rw [staleAt, decide_eq_true_eq] at hstale
          exact Or.inr (by omega)
      | cons first mid =>
          rw [List.cons_append] at hrest
          obtain ⟨rfl, rfl⟩ := List.cons.inj hrest
          refine (hgone pre entry mid hgone').imp_left fun hmany => ?_
          have hlen := congrArg List.length
            (List.takeWhile_append_dropWhile (p := staleAt now) (l := bus.seen))
          rw [List.length_append] at hlen ⊢
          simp only
          omega

/-- The new id goes to the end, and at the limit the oldest goes. -/
theorem Remembers.push (h : bus.Remembers clock) (entry : String × Nat) :
    ({ bus with
      seen := (if seenMax ≤ bus.seen.length then bus.seen.tail else bus.seen) ++ [entry]
      noted := bus.noted ++ [entry] } : ProcessBus).Remembers clock := by
  obtain ⟨gone, hnoted, hgone⟩ := h
  by_cases hfull : seenMax ≤ bus.seen.length
  · cases hseen : bus.seen with
    | nil =>
        rw [hseen] at hfull
        exact absurd hfull (by decide)
    | cons oldest rest =>
        rw [hseen] at hfull hnoted
        refine ⟨gone ++ [oldest], ?_, ?_⟩
        · simp only [if_pos hfull, List.tail_cons, hnoted, List.append_assoc, List.cons_append,
            List.nil_append]
        · intro pre e post heq
          refine Or.inl ?_
          simp only [if_pos hfull, List.tail_cons, List.length_append, List.length_singleton]
          rw [List.length_cons] at hfull
          omega
  · refine ⟨gone, ?_, ?_⟩
    · simp only [if_neg hfull, hnoted, List.append_assoc]
    · intro pre e post heq
      refine (hgone pre e post heq).imp_left fun hmany => ?_
      simp only [if_neg hfull, List.length_append, List.length_singleton]
      omega

/-- What came again in time is known. -/
theorem Remembers.known (h : bus.Remembers clock) (hnow : now ≤ clock)
    {pre post : Seen} {recorded : Nat} (hnoted : bus.noted = pre ++ (id, recorded) :: post)
    (hfew : post.length < seenMax) (hsoon : clock ≤ recorded + seenTtl) :
    (isDuplicate bus.seen id now).1 = true := by
  obtain ⟨gone, hsplit, hgone⟩ := h.age hnow
  have hmem : (id, recorded) ∈ bus.seen.dropWhile (staleAt now) := by
    simp only at hsplit
    rw [hnoted] at hsplit
    rcases List.append_eq_append_iff.mp hsplit with ⟨mid, hpre, hrest⟩ | ⟨mid, hpre, hrest⟩
    · cases mid with
      | nil =>
          rw [List.nil_append] at hrest
          rw [← hrest]
          exact List.mem_cons_self
      | cons first mid =>
          -- forgotten, so old or with too many behind it
          rw [List.cons_append] at hrest
          obtain ⟨rfl, rfl⟩ := List.cons.inj hrest
          rcases hgone pre _ mid hpre with hmany | hold
          · rw [List.length_append] at hfew
            simp only at hmany
            omega
          · simp only at hold
            omega
    · rw [hrest]
      exact List.mem_append_right _ List.mem_cons_self
  have hany : (bus.seen.dropWhile (staleAt now)).any (·.1 == id) = true :=
    List.any_eq_true.mpr ⟨_, hmem, beq_self_eq_true id⟩
  rw [isDuplicate, if_pos hany]

/-- The memory after a lookup, known or not. -/
theorem Remembers.check_known (h : bus.Remembers clock) (hnow : now ≤ clock)
    (hknown : (isDuplicate bus.seen id now).1 = true) :
    ({ bus with seen := (isDuplicate bus.seen id now).2 } : ProcessBus).Remembers clock := by
  have hage := h.age hnow
  rw [isDuplicate] at hknown ⊢
  split
  · exact hage
  · rename_i hany
    rw [if_neg hany] at hknown
    cases hknown

theorem Remembers.check_fresh (h : bus.Remembers clock) (hnow : now ≤ clock)
    (hfresh : (isDuplicate bus.seen id now).1 = false) :
    ({ bus with
      seen := (isDuplicate bus.seen id now).2
      noted := bus.noted ++ [(id, now)] } : ProcessBus).Remembers clock := by
  have hpush := (h.age hnow).push (id, now)
  rw [isDuplicate] at hfresh ⊢
  split
  · rename_i hany
    rw [if_pos hany] at hfresh
    cases hfresh
  · exact hpush

end ProcessBus

/-! ## Every step -/

theorem MsgState.Step.clock_le {s t : MsgState} {a : MsgAct} (h : MsgState.Step s a t) :
    s.clock ≤ t.clock := by
  cases h with
  | tick elapsed => exact Nat.le_add_right _ _
  | _ => exact Nat.le_refl _

namespace DispatchState

variable {owner : String → String} {s s' : DispatchState} {conn process : String}
  {doing : DispatchAt} {bus : ProcessBus}

/-- What every prompt run keeps of one process. -/
structure BusOk (bus : ProcessBus) (clock : Nat) : Prop where
  remembers : bus.Remembers clock
  noted : (bus.noted.map Prod.fst).Nodup
  delivered : (bus.delivered.map (·.id)).Nodup
  known : ∀ frame ∈ bus.delivered, frame.id ∈ bus.noted.map Prod.fst

/-- What every prompt run keeps: a message that is about to be handed out was
recorded once, and nobody else has it. -/
structure Once (owner : String → String) (s : DispatchState) : Prop where
  buses : ∀ process, BusOk (s.buses process) s.server.clock
  looked : ∀ conn frame now, s.dispatch conn = .looking frame now → now ≤ s.server.clock
  fresh : ∀ conn frame, s.dispatch conn = .fresh frame →
    frame.id ∈ (s.buses (owner conn)).noted.map Prod.fst ∧
      frame.id ∉ (s.buses (owner conn)).delivered.map (·.id)
  apart : ∀ c c' frame frame', c ≠ c' → owner c = owner c' → s.dispatch c = .fresh frame →
    s.dispatch c' = .fresh frame' → frame.id ≠ frame'.id

theorem setDispatch_self : (s.setDispatch conn doing).dispatch conn = doing :=
  Function.update_self ..

theorem setDispatch_other {c : String} (h : c ≠ conn) :
    (s.setDispatch conn doing).dispatch c = s.dispatch c :=
  Function.update_of_ne h ..

theorem setBus_self : (s.setBus process bus).buses process = bus :=
  Function.update_self ..

theorem setBus_other {p : String} (h : p ≠ process) :
    (s.setBus process bus).buses p = s.buses p :=
  Function.update_of_ne h ..

/-- A loop that is not about to hand anything out. -/
theorem Once.setDispatch (h : s.Once owner)
    (hlooked : ∀ frame now, doing = .looking frame now → now ≤ s.server.clock)
    (hfresh : ∀ frame, doing ≠ .fresh frame) : (s.setDispatch conn doing).Once owner := by
  have hold : ∀ c frame, (s.setDispatch conn doing).dispatch c = .fresh frame →
      s.dispatch c = .fresh frame := by
    intro c frame hc
    by_cases heq : c = conn
    · rw [heq, setDispatch_self] at hc
      exact absurd hc (hfresh frame)
    · rwa [setDispatch_other heq] at hc
  refine ⟨h.buses, ?_, ?_, ?_⟩
  · intro c frame now hc
    by_cases heq : c = conn
    · rw [heq, setDispatch_self] at hc
      exact hlooked frame now hc
    · rw [setDispatch_other heq] at hc
      exact h.looked c frame now hc
  · exact fun c frame hc => h.fresh c frame (hold c frame hc)
  · intro c c' frame frame' hne howner hc hc'
    exact h.apart c c' frame frame' hne howner (hold c frame hc) (hold c' frame' hc')

/-- A loop is about to hand out what was noted and nobody else has. -/
theorem Once.setFresh (h : s.Once owner) {frame : PublishFrame}
    (hnew : frame.id ∈ (s.buses (owner conn)).noted.map Prod.fst ∧
      frame.id ∉ (s.buses (owner conn)).delivered.map (·.id))
    (hothers : ∀ c frame', owner c = owner conn → s.dispatch c = .fresh frame' →
      frame'.id ≠ frame.id) :
    (s.setDispatch conn (.fresh frame)).Once owner := by
  refine ⟨h.buses, ?_, ?_, ?_⟩
  · intro c f now hc
    by_cases heq : c = conn
    · rw [heq, setDispatch_self] at hc
      cases hc
    · exact h.looked c f now ((setDispatch_other heq).symm.trans hc)
  · intro c f hc
    by_cases heq : c = conn
    · subst heq
      rw [setDispatch_self] at hc
      obtain rfl := DispatchAt.fresh.inj hc
      exact hnew
    · exact h.fresh c f ((setDispatch_other heq).symm.trans hc)
  · intro c c' f f' hne howner hc hc'
    by_cases heq : c = conn
    · subst heq
      rw [setDispatch_self] at hc
      obtain rfl := DispatchAt.fresh.inj hc
      have hold := (setDispatch_other (Ne.symm hne)).symm.trans hc'
      exact Ne.symm (hothers c' f' howner.symm hold)
    · have hold := (setDispatch_other heq).symm.trans hc
      by_cases heq' : c' = conn
      · subst heq'
        rw [setDispatch_self] at hc'
        obtain rfl := DispatchAt.fresh.inj hc'
        exact hothers c f howner hold
      · exact h.apart c c' f f' hne howner hold ((setDispatch_other heq').symm.trans hc')

/-- A bus changes, and whoever is about to hand something out still may. -/
theorem Once.setBus (h : s.Once owner) (hok : BusOk bus s.server.clock)
    (hfresh : ∀ c frame, owner c = process → s.dispatch c = .fresh frame →
      frame.id ∈ bus.noted.map Prod.fst ∧ frame.id ∉ bus.delivered.map (·.id)) :
    (s.setBus process bus).Once owner := by
  refine ⟨?_, h.looked, ?_, h.apart⟩
  · intro p
    by_cases heq : p = process
    · rw [heq, setBus_self]
      exact hok
    · rw [setBus_other heq]
      exact h.buses p
  · intro c frame hc
    by_cases heq : owner c = process
    · rw [heq, setBus_self]
      exact hfresh c frame heq hc
    · rw [setBus_other heq]
      exact h.fresh c frame hc

/-- A lookup finds the id: the copy goes no further. -/
theorem Once.check_known (h : s.Once owner) {frame : PublishFrame} {now : Nat}
    (hlooking : s.dispatch conn = .looking frame now)
    (hknown : (isDuplicate (s.buses (owner conn)).seen frame.id now).1 = true) :
    ((s.setBus (owner conn) { s.buses (owner conn) with
      seen := (isDuplicate (s.buses (owner conn)).seen frame.id now).2 }).setDispatch conn
        .waiting).Once owner := by
  have hbus := h.buses (owner conn)
  have hnow := h.looked conn frame now hlooking
  have hset : (s.setBus (owner conn) { s.buses (owner conn) with
      seen := (isDuplicate (s.buses (owner conn)).seen frame.id now).2 }).Once owner := h.setBus
    ⟨hbus.remembers.check_known hnow hknown, hbus.noted, hbus.delivered, hbus.known⟩
    fun c f howner hc => howner ▸ h.fresh c f hc
  exact hset.setDispatch (fun _ _ hdoing => by cases hdoing) fun _ hdoing => by cases hdoing

/-- A lookup does not find the id, which was then never recorded. -/
theorem Once.check_fresh (h : s.Once owner) {frame : PublishFrame} {now : Nat}
    (hlooking : s.dispatch conn = .looking frame now)
    (hfresh : (isDuplicate (s.buses (owner conn)).seen frame.id now).1 = false)
    (hnew : frame.id ∉ (s.buses (owner conn)).noted.map Prod.fst) :
    ((s.setBus (owner conn) { s.buses (owner conn) with
      seen := (isDuplicate (s.buses (owner conn)).seen frame.id now).2
      noted := (s.buses (owner conn)).noted ++ [(frame.id, now)] }).setDispatch conn
        (.fresh frame)).Once owner := by
  have hbus := h.buses (owner conn)
  have hnow := h.looked conn frame now hlooking
  refine (h.setBus ⟨hbus.remembers.check_fresh hnow hfresh, ?_, hbus.delivered, ?_⟩ ?_).setFresh
    ⟨?_, ?_⟩ ?_
  · rw [List.map_append, List.map_singleton, ← List.concat_eq_append]
    exact hbus.noted.concat hnew
  · intro f hf
    rw [List.map_append]
    exact List.mem_append_left _ (hbus.known f hf)
  · intro c f howner hc
    have hold := h.fresh c f hc
    rw [howner] at hold
    rw [List.map_append]
    exact ⟨List.mem_append_left _ hold.1, hold.2⟩
  · rw [setBus_self, List.map_append]
    exact List.mem_append_right _ (List.mem_singleton_self _)
  · rw [setBus_self]
    intro hin
    obtain ⟨f, hf, hid⟩ := List.mem_map.mp hin
    have hknown := hbus.known f hf
    rw [hid] at hknown
    exact hnew hknown
  · -- nobody else is about to hand that id out
    intro c f howner hc heq
    have hin := (h.fresh c f hc).1
    rw [howner, heq] at hin
    exact hnew hin

/-- A message is handed out. -/
theorem Once.delivered (h : s.Once owner) {frame : PublishFrame}
    (hfresh : s.dispatch conn = .fresh frame) :
    ((s.setBus (owner conn) { s.buses (owner conn) with
      delivered := (s.buses (owner conn)).delivered ++ [frame] }).setDispatch conn
        .waiting).Once owner := by
  have hbus := h.buses (owner conn)
  obtain ⟨hnoted, hnew⟩ := h.fresh conn frame hfresh
  have hwaiting : (s.setDispatch conn .waiting).Once owner :=
    h.setDispatch (fun _ _ hdoing => by cases hdoing) fun _ hdoing => by cases hdoing
  refine hwaiting.setBus ⟨hbus.remembers, hbus.noted, ?_, ?_⟩ ?_
  · rw [List.map_append, List.map_singleton, ← List.concat_eq_append]
    exact hbus.delivered.concat hnew
  · intro f hf
    rcases List.mem_append.mp hf with hf | hf
    · exact hbus.known f hf
    · rw [List.mem_singleton.mp hf]
      exact hnoted
  · intro c f howner hc
    by_cases heq : c = conn
    · rw [heq, setDispatch_self] at hc
      cases hc
    · have hc' := (setDispatch_other heq).symm.trans hc
      have hold := h.fresh c f hc'
      rw [howner] at hold
      refine ⟨hold.1, ?_⟩
      rw [List.map_append, List.mem_append, not_or]
      refine ⟨hold.2, fun hin => ?_⟩
      exact h.apart c conn f frame heq howner hc' hfresh (List.mem_singleton.mp hin)

theorem Once.server (h : s.Once owner) {t : MsgState} (hclock : s.server.clock ≤ t.clock) :
    ({ s with server := t } : DispatchState).Once owner := by
  refine ⟨?_, ?_, h.fresh, h.apart⟩
  · intro process
    have hbus := h.buses process
    exact ⟨hbus.remembers.later hclock, hbus.noted, hbus.delivered, hbus.known⟩
  · exact fun conn frame now hlooking => (h.looked conn frame now hlooking).trans hclock

theorem Once.take (h : s.Once owner) : (s.take conn).Once owner :=
  ⟨h.buses, h.looked, h.fresh, h.apart⟩

theorem Once.act (h : s.Once owner) {a : DispatchAct} (hprompt : s.Prompt owner a s')
    (hstep : s.act owner a = some s') : s'.Once owner := by
  cases a with
  | server a => cases hstep
  | filters process filters =>
      obtain rfl := Option.some.inj hstep
      have hbus := h.buses process
      exact h.setBus ⟨hbus.remembers, hbus.noted, hbus.delivered, hbus.known⟩
        fun c f howner hc => howner ▸ h.fresh c f hc
  | read conn =>
      simp only [DispatchState.act] at hstep
      split at hstep
      · obtain rfl := Option.some.inj hstep
        exact h.take.setDispatch (fun _ _ hdoing => by cases hdoing) fun _ hdoing => by cases hdoing
      · cases hstep
  | lose conn =>
      obtain rfl := Option.some.inj hstep
      exact h.take
  | stop conn =>
      obtain rfl := Option.some.inj hstep
      exact h.setDispatch (fun _ _ hdoing => by cases hdoing) fun _ hdoing => by cases hdoing
  | look conn =>
      simp only [DispatchState.act] at hstep
      split at hstep
      · obtain rfl := Option.some.inj hstep
        refine h.setDispatch ?_ fun _ hdoing => by cases hdoing
        intro frame now hdoing
        obtain ⟨-, rfl⟩ := DispatchAt.looking.inj hdoing
        exact Nat.le_refl _
      · cases hstep
  | check conn =>
      simp only [DispatchState.act] at hstep
      split at hstep
      · rename_i frame now hlooking
        obtain rfl := Option.some.inj hstep
        cases hknown : (isDuplicate (s.buses (owner conn)).seen frame.id now).1 with
        | true => exact h.check_known hlooking hknown
        | false =>
            refine h.check_fresh hlooking hknown ?_
            -- recorded before, it would have been known
            intro hin
            obtain ⟨⟨id, recorded⟩, hmem, rfl⟩ := List.mem_map.mp hin
            obtain ⟨pre, post, hnoted⟩ := List.append_of_mem hmem
            obtain ⟨hfew, hsoon⟩ := hprompt frame now hlooking pre recorded post hnoted
            have hdup := (h.buses (owner conn)).remembers.known (h.looked conn frame now hlooking)
              hnoted hfew hsoon
            cases hknown.symm.trans hdup
      · cases hstep
  | deliver conn =>
      simp only [DispatchState.act] at hstep
      split at hstep
      · rename_i frame hfresh
        obtain rfl := Option.some.inj hstep
        split
        · exact h.delivered hfresh
        · exact h.setDispatch (fun _ _ hdoing => by cases hdoing) fun _ hdoing => by cases hdoing
      · cases hstep

end DispatchState

/-- **At most once to the application**, in every prompt run: no process hands
one message out twice. -/
theorem delivered_at_most_once {owner : String → String} {s : DispatchState}
    (h : ((dispatchSys owner).restrict (DispatchState.Prompt owner)).Reachable s)
    (process : String) : ((s.buses process).delivered.map (·.id)).Nodup := by
  have honce : s.Once owner := by
    refine h.invariant ?_ ?_
    · intro s hs
      have hs' : s = {} := hs
      rw [hs']
      refine ⟨fun process => ⟨⟨[], rfl, ?_⟩, List.nodup_nil, List.nodup_nil, ?_⟩, ?_, ?_, ?_⟩
      · intro pre entry post heq
        simp at heq
      · exact fun frame hframe => absurd hframe List.not_mem_nil
      · exact fun conn frame now hlooking => by cases hlooking
      · exact fun conn frame hfresh => by cases hfresh
      · exact fun c c' frame frame' _ _ hfresh => by cases hfresh
    · rintro s a s' - honce ⟨hstep, hprompt⟩
      cases hstep with
      | server hserver => exact honce.server hserver.clock_le
      | act hact => exact honce.act hprompt hact
  exact (honce.buses process).delivered

/-! ## A message that is not acknowledged -/

section Sample

open DispatchState

/-- The run so far: one connection of one process, which has read everything
that was written. `ids` are the messages it was handed, the first of them
unacknowledged, and no time has passed. -/
structure Flooding (c : DispatchState → DispatchAct → DispatchState → Prop) (s : DispatchState)
    (ids : List String) (seen : Seen) : Prop where
  reachable : ((dispatchSys fun _ => "worker").restrict c).Reachable s
  clients : s.server.clients = Function.update (fun _ => none) "a" (some worker)
  pending : s.server.pending = recordDelivered (some "acme") deployPending (fun _ => []) ["worker"]
  free : s.server.tasks 0 = none
  clock : s.server.clock = 0
  began : ∀ id, id ∉ ids → s.server.began id = none
  taken : s.taken "a" = (s.server.written.filter (·.connectionId == "a")).length
  waiting : s.dispatch "a" = .waiting
  filters : (s.buses "worker").filters = ["deploy/#"]
  seen : (s.buses "worker").seen = seen
  noted : (s.buses "worker").noted = ids.map (·, 0)
  delivered : (s.buses "worker").delivered.map (·.id) = ids

/-- With everything read, what is written next is read next. -/
theorem inbox_written {s : DispatchState} {conn : String} {w : Written}
    {written : List Written} (hwritten : s.server.written = w :: written)
    (hconn : w.connectionId = conn)
    (htaken : s.taken conn = (written.filter (·.connectionId == conn)).length) :
    s.inbox conn = [w.frame] := by
  have hlen : (((written.filter (·.connectionId == conn)).reverse).map (·.frame)).length =
      s.taken conn := by
    rw [List.length_map, List.length_reverse, htaken]
  rw [inbox, hwritten, List.filter_reverse, List.filter_cons_of_pos (by simp [hconn]),
    List.reverse_cons, List.map_append, List.drop_append_of_le_length (Nat.le_of_eq hlen.symm),
    ← hlen, List.drop_length]
  rfl

/-- The connection reads the one frame there is, and looks at the clock. -/
theorem frame_looked {c : DispatchState → DispatchAct → DispatchState → Prop} {s : DispatchState}
    {owner : String → String} {conn : String} {frame : PublishFrame}
    (hc : ∀ s a s', (∀ conn, a ≠ .check conn) → c s a s')
    (hs : ((dispatchSys owner).restrict c).Reachable s) (hwaiting : s.dispatch conn = .waiting)
    (hinbox : s.inbox conn = [frame]) :
    ((dispatchSys owner).restrict c).Reachable
      ((s.take conn).setDispatch conn (.looking frame s.server.clock)) := by
  have hread : s.act owner (.read conn) = some ((s.take conn).setDispatch conn (.received frame)) := by
    simp only [DispatchState.act, hwaiting, hinbox]
  have hlook : ((s.take conn).setDispatch conn (.received frame)).act owner (.look conn) =
      some ((s.take conn).setDispatch conn (.looking frame s.server.clock)) := by
    simp only [DispatchState.act, setDispatch_self]
    simp only [setDispatch, Function.update_idem]
    rfl
  have h₁ := hs.step ⟨.act hread, hc _ _ _ (by simp)⟩
  exact h₁.step ⟨.act hlook, hc _ _ _ (by simp)⟩

/-- A message the memory does not know is recorded and handed out. -/
theorem frame_delivered {s : DispatchState} {frame : PublishFrame} {now : Nat}
    {c : DispatchState → DispatchAct → DispatchState → Prop} {owner : String → String}
    {conn : String} (hc : ∀ s s', c s (.deliver conn) s')
    (hs : ((dispatchSys owner).restrict c).Reachable s)
    (hlooking : s.dispatch conn = .looking frame now)
    (hcheck : ∀ s', c s (.check conn) s')
    (hfresh : (isDuplicate (s.buses (owner conn)).seen frame.id now).1 = false)
    (hwants : (s.buses (owner conn)).wants frame.topic = true) :
    ((dispatchSys owner).restrict c).Reachable
      ((s.setBus (owner conn) { s.buses (owner conn) with
        seen := (isDuplicate (s.buses (owner conn)).seen frame.id now).2
        noted := (s.buses (owner conn)).noted ++ [(frame.id, now)]
        delivered := (s.buses (owner conn)).delivered ++ [frame] }).setDispatch conn .waiting) := by
  have hfound : s.act owner (.check conn) = some ((s.setBus (owner conn) { s.buses (owner conn) with
      seen := (isDuplicate (s.buses (owner conn)).seen frame.id now).2
      noted := (s.buses (owner conn)).noted ++ [(frame.id, now)] }).setDispatch conn
        (.fresh frame)) := by
    simp [DispatchState.act, hlooking, hfresh]
  have h₁ := hs.step ⟨.act hfound, hcheck _⟩
  refine h₁.step ⟨@DispatchState.Step.act _ _ _ (.deliver conn) ?_, hc _ _⟩
  have hbus : ∀ bus doing, ((s.setBus (owner conn) bus).setDispatch conn doing).buses
      (owner conn) = bus := fun _ _ => setBus_self
  simp only [DispatchState.act, setDispatch_self, hbus]
  rw [if_pos ?_]
  · simp only [setDispatch, DispatchState.setBus, Function.update_idem]
  · exact hwants

theorem worker_wants (bus : ProcessBus) (h : bus.filters = ["deploy/#"]) :
    bus.wants "deploy/web" = true := by
  rw [ProcessBus.wants, h]
  decide +kernel

/-- One message more, which is not kept for an acknowledgement. -/
theorem Flooding.another {s : DispatchState} {ids : List String} {seen : Seen} {id : String}
    (h : Flooding (fun _ _ _ => True) s ids seen) (hid : id ∉ ids)
    (hfresh : (isDuplicate seen id 0).1 = false) :
    ∃ s', Flooding (fun _ _ _ => True) s' (ids ++ [id]) (isDuplicate seen id 0).2 := by
  have horder : Lists [("a", worker)] s.server.clients := by
    rw [h.clients]
    exact lists_one (Function.update_self ..) fun id hne => Function.update_of_ne hne ..
  have h₁ := h.reachable.step ⟨.server (@MsgState.Step.publish _ 0 (some "acme") "deploy/web" []
    (.client "c") 0 id [("a", worker)] h.free (by decide +kernel) (h.began id hid) horder), trivial⟩
  rw [selectTargets_worker] at h₁
  have h₂ := h₁.step ⟨.server (MsgState.Step.send (r := 0) true rfl), trivial⟩
  have h₃ := h₂.step ⟨.server (MsgState.Step.done (r := 0) rfl rfl), trivial⟩
  have h₄ := frame_looked (fun _ _ _ _ => trivial) h₃ h.waiting
    (inbox_written rfl rfl h.taken)
  have hlookup : (isDuplicate (s.buses "worker").seen id s.server.clock).1 = false := by
    rw [h.seen, h.clock]
    exact hfresh
  have h₅ := frame_delivered (fun _ _ => trivial) h₄ setDispatch_self (fun _ => trivial) hlookup
    (worker_wants _ h.filters)
  refine ⟨_, h₅, h.clients, h.pending, rfl, h.clock, ?_, ?_,
    setDispatch_self, ?_, ?_, ?_, ?_⟩
  · intro id' hid'
    rw [List.mem_append, not_or, List.mem_singleton] at hid'
    exact (Function.update_of_ne hid'.2 ..).trans (h.began id' hid'.1)
  · show Function.update s.taken "a" (s.taken "a" + 1) "a" = _
    rw [Function.update_self, h.taken]
    rfl
  · exact (congrArg ProcessBus.filters setBus_self).trans h.filters
  · refine (congrArg ProcessBus.seen setBus_self).trans ?_
    show (isDuplicate (s.buses "worker").seen id s.server.clock).2 = _
    rw [h.seen, h.clock]
  · refine (congrArg ProcessBus.noted setBus_self).trans ?_
    show (s.buses "worker").noted ++ [(id, s.server.clock)] = _
    rw [h.noted, h.clock, List.map_append]
    rfl
  · refine (congrArg (fun bus => List.map _ (ProcessBus.delivered bus)) setBus_self).trans ?_
    show ((s.buses "worker").delivered ++ [_]).map _ = _
    rw [List.map_append, h.delivered]
    rfl

/-- The first message is handed out, and its acknowledgement does not come. -/
theorem flooding_first {c : DispatchState → DispatchAct → DispatchState → Prop}
    (hc : ∀ s a s', Prompt (fun _ => "worker") s a s' → c s a s') :
    ∃ s, Flooding c s ["m1"] [("m1", 0)] ∧ s.taken "a" = 1 := by
  have hsub : (MsgHandle.setSubscriptions ⟨worker.perms, some "worker", []⟩ ["deploy/#"] true).1 =
      worker := by decide +kernel
  have hfree : ∀ s a s', (∀ conn, a ≠ .check conn) → c s a s' := by
    intro s a s' hne
    refine hc s a s' ?_
    cases a with
    | check conn => exact absurd rfl (hne conn)
    | _ => trivial
  have h₀ : ((dispatchSys fun _ => "worker").restrict c).Reachable {} := .init rfl
  have h₁ := h₀.step ⟨.server (MsgState.Step.connect "a" worker.perms (some "worker")),
    hfree _ _ _ (by simp)⟩
  have h₂ := h₁.step ⟨.server (@MsgState.Step.setSubscriptions _ "a" _ ["deploy/#"] true rfl),
    hfree _ _ _ (by simp)⟩
  rw [hsub] at h₂
  have h₃ := h₂.step ⟨@DispatchState.Step.act _ _ _ (.filters "worker" ["deploy/#"]) rfl,
    hfree _ _ _ (by simp)⟩
  have h₄ := h₃.step ⟨.server (@MsgState.Step.publish _ 0 (some "acme") "deploy/web" []
    (.client "c") 1 "m1" [("a", worker)] rfl (by decide +kernel) rfl
    (lists_one rfl fun id hne => by simp [MsgState.setClient, DispatchState.setBus, hne])),
    hfree _ _ _ (by simp)⟩
  rw [selectTargets_worker] at h₄
  have h₅ := h₄.step ⟨.server (MsgState.Step.send (r := 0) true rfl), hfree _ _ _ (by simp)⟩
  have h₆ := h₅.step ⟨.server (MsgState.Step.stamp (r := 0) rfl (by decide)), hfree _ _ _ (by simp)⟩
  have h₇ := h₆.step ⟨.server (MsgState.Step.record (r := 0) rfl), hfree _ _ _ (by simp)⟩
  have h₈ := frame_looked hfree h₇ rfl (inbox_written rfl rfl rfl)
  have h₉ := frame_delivered (fun _ _ => hfree _ _ _ (by simp)) h₈ setDispatch_self
    (fun _ => hc _ _ _ fun frame now _ pre recorded post hnoted => by
      exact absurd hnoted (by simp [DispatchState.setBus, setDispatch, DispatchState.take])) rfl
    (worker_wants _ rfl)
  refine ⟨_, ⟨h₉, ?_, rfl, rfl, rfl, ?_, rfl, rfl, rfl, rfl, rfl, rfl⟩, rfl⟩
  · exact Function.update_idem ..
  · intro id hid
    rw [List.mem_singleton] at hid
    exact Function.update_of_ne hid ..

/-- The first message is written again once its time is up, and looked up. -/
theorem Flooding.again {c : DispatchState → DispatchAct → DispatchState → Prop}
    (hc : ∀ s a s', (∀ conn, a ≠ .check conn) → c s a s') {s : DispatchState} {ids : List String}
    {seen : Seen} (h : Flooding c s ids seen) :
    ∃ s', ((dispatchSys fun _ => "worker").restrict c).Reachable s' ∧
      s'.dispatch "a" = .looking deployFrame ackTimeout ∧ s'.buses = s.buses ∧
      s'.server.clock = ackTimeout ∧ s'.taken "a" = s.taken "a" + 1 := by
  have hclock : s.server.clock + ackTimeout = 0 + ackTimeout := by rw [h.clock]
  have hkeys : ∀ key, key ∈ [(some "acme", "worker")] ↔
      dueMessages (s.server.pending key) (0 + ackTimeout) ≠ [] := by
    rw [h.pending]
    exact due_deployPending
  have hdue : dueMessages (s.server.pending (some "acme", "worker")) (0 + ackTimeout) =
      [("m1", deployFrame)] := by
    rw [h.pending]
    exact dueMessages_deployPending
  have horder : Lists [("a", worker)] s.server.clients := by
    rw [h.clients]
    exact lists_one (Function.update_self ..) fun id hne => Function.update_of_ne hne ..
  have htarget : resendTarget [("a", worker)] (some "acme", "worker") = some ("a", worker) := by
    decide +kernel
  have h₁ := h.reachable.step ⟨.server (MsgState.Step.tick ackTimeout), hc _ _ _ (by simp)⟩
  rw [hclock] at h₁
  have h₂ := h₁.step ⟨.server (@MsgState.Step.sweep _ 0 h.free), hc _ _ _ (by simp)⟩
  have h₃ := h₂.step ⟨.server (MsgState.Step.snapshot (r := 0) rfl (List.nodup_singleton _) hkeys),
    hc _ _ _ (by simp)⟩
  rw [List.map_singleton, MsgState.setTask_pending] at h₃
  simp only [hdue] at h₃
  have h₄ := h₃.step ⟨.server (MsgState.Step.pick (r := 0) rfl horder), hc _ _ _ (by simp)⟩
  rw [htarget] at h₄
  have h₅ := h₄.step ⟨.server (MsgState.Step.resend (r := 0) true rfl), hc _ _ _ (by simp)⟩
  have h₆ := frame_looked hc h₅ h.waiting (inbox_written rfl rfl h.taken)
  refine ⟨_, h₆, setDispatch_self, rfl, rfl, ?_⟩
  show Function.update s.taken "a" (s.taken "a" + 1) "a" = _
  exact Function.update_self ..

/-- Nothing recorded at the start of the clock is stale within the time of an
acknowledgement. -/
theorem isDuplicate_recent {ids : List String} {id : String} {now : Nat} (hnow : now ≤ ackTimeout) :
    isDuplicate (ids.map (·, 0)) id now =
      if id ∈ ids then (true, ids.map (·, 0))
      else (false, (if seenMax ≤ ids.length then (ids.map (·, 0)).tail else ids.map (·, 0)) ++
        [(id, now)]) := by
  have hkept : (ids.map (·, 0)).dropWhile (staleAt now) = ids.map (·, 0) := by
    cases ids with
    | nil => rfl
    | cons first rest =>
        rw [List.map_cons, List.dropWhile_cons_of_neg]
        have hle : ackTimeout ≤ seenTtl := by decide
        simp only [staleAt, Nat.sub_zero, decide_eq_true_eq]
        omega
  have hany : (ids.map (·, 0)).any (·.1 == id) = decide (id ∈ ids) := by
    rw [Bool.eq_iff_iff, decide_eq_true_eq, List.any_map, List.any_eq_true]
    simp
  rw [isDuplicate, hkept, hany, List.length_map]
  simp only [decide_eq_true_eq]

/-- A supply of ids. -/
def idOf (n : Nat) : String := String.ofList (List.replicate n 'x')

theorem idOf_inj {n m : Nat} (h : idOf n = idOf m) : n = m := by
  have hlen := congrArg (fun s => s.toList.length) h
  simpa [idOf] using hlen

theorem idOf_ne_first (n : Nat) : idOf n ≠ "m1" := by
  intro h
  have hmem : 'm' ∈ (idOf n).toList := by
    rw [h]
    decide
  simp [idOf] at hmem

theorem idOf_notMem (n : Nat) : idOf n ∉ "m1" :: (List.range n).map idOf := by
  rw [List.mem_cons, not_or]
  refine ⟨idOf_ne_first n, fun hmem => ?_⟩
  obtain ⟨m, hm, heq⟩ := List.mem_map.mp hmem
  rw [idOf_inj heq] at hm
  exact absurd (List.mem_range.mp hm) (Nat.lt_irrefl n)

/-- As many messages more as the memory holds beside the first. -/
theorem flooded (n : Nat) (hn : n < seenMax) :
    ∃ s, Flooding (fun _ _ _ => True) s ("m1" :: (List.range n).map idOf)
      (("m1" :: (List.range n).map idOf).map (·, 0)) := by
  induction n with
  | zero =>
      obtain ⟨s, hs, -⟩ := @flooding_first (fun _ _ _ => True) fun _ _ _ _ => trivial
      exact ⟨s, hs⟩
  | succ n ih =>
      obtain ⟨s, hs⟩ := ih (Nat.lt_of_succ_lt hn)
      have hroom : ¬seenMax ≤ ("m1" :: (List.range n).map idOf).length := by
        rw [List.length_cons, List.length_map, List.length_range]
        omega
      have hlookup := @isDuplicate_recent ("m1" :: (List.range n).map idOf) (idOf n) 0
        (Nat.zero_le _)
      rw [if_neg (idOf_notMem n), if_neg hroom] at hlookup
      obtain ⟨s', hs'⟩ := hs.another (idOf_notMem n) (by rw [hlookup])
      have hids : "m1" :: (List.range (n + 1)).map idOf =
          ("m1" :: (List.range n).map idOf) ++ [idOf n] := by
        rw [List.range_succ, List.map_append]
        rfl
      rw [hlookup] at hs'
      refine ⟨s', ?_⟩
      rw [hids, List.map_append]
      exact hs'

/-- And one more: the first is forgotten. -/
theorem memory_full {n : Nat} (hn : n + 1 = seenMax) :
    ∃ (s : DispatchState) (ids others : List String),
      Flooding (fun _ _ _ => True) s ids (others.map (·, 0)) ∧ ids.count "m1" = 1 ∧ "m1" ∉ others := by
  obtain ⟨s, hs⟩ := flooded n (Nat.lt_of_lt_of_eq (Nat.lt_succ_self n) hn)
  have hfull : seenMax ≤ ("m1" :: (List.range n).map idOf).length := by
    rw [List.length_cons, List.length_map, List.length_range]
    exact Nat.le_of_eq hn.symm
  have hlookup := @isDuplicate_recent ("m1" :: (List.range n).map idOf) (idOf n) 0 (Nat.zero_le _)
  rw [if_neg (idOf_notMem n), if_pos hfull] at hlookup
  obtain ⟨s', hs'⟩ := hs.another (idOf_notMem n) (by rw [hlookup])
  have hothers : "m1" ∉ (List.range n).map idOf ++ [idOf n] := by
    rw [List.mem_append, not_or, List.mem_singleton]
    refine ⟨fun hmem => ?_, Ne.symm (idOf_ne_first n)⟩
    obtain ⟨m, -, heq⟩ := List.mem_map.mp hmem
    exact idOf_ne_first m heq
  refine ⟨s', "m1" :: (List.range n).map idOf ++ [idOf n], (List.range n).map idOf ++ [idOf n], ?_,
    ?_, hothers⟩
  · rw [hlookup] at hs'
    rw [List.map_append]
    exact hs'
  · rw [List.cons_append, List.count_cons_self, List.count_eq_zero_of_not_mem hothers]

end Sample

/-- The second copy of a message arrives, and is not handed out. -/
theorem delivered_at_most_once_resent : ∃ s : DispatchState, s.taken "a" = 2 ∧
    (s.buses "worker").delivered.map (·.id) = ["m1"] ∧
    ((s.buses "worker").delivered.map (·.id)).Nodup := by
  obtain ⟨s, hs, htaken⟩ := flooding_first (c := DispatchState.Prompt fun _ => "worker")
    fun _ _ _ => id
  have hfree : ∀ s a s', (∀ conn, a ≠ DispatchAct.check conn) →
      DispatchState.Prompt (fun _ => "worker") s a s' := by
    intro s a s' hne
    cases a with
    | check conn => exact absurd rfl (hne conn)
    | _ => trivial
  obtain ⟨s', hs', hlooking, hbuses, hclock, htaken'⟩ := hs.again hfree
  have hknown : (isDuplicate (s'.buses "worker").seen "m1" ackTimeout) = (true, [("m1", 0)]) := by
    rw [hbuses, hs.seen]
    decide
  have hcheck : s'.act (fun _ => "worker") (.check "a") =
      some ((s'.setBus "worker" { s'.buses "worker" with seen := [("m1", 0)] }).setDispatch "a"
        .waiting) := by
    simp only [DispatchState.act, hlooking, show deployFrame.id = "m1" from rfl, hknown]
    rfl
  have hdelivered : (((s'.setBus "worker" { s'.buses "worker" with
      seen := [("m1", 0)] }).setDispatch "a" .waiting).buses "worker").delivered.map (·.id) =
        ["m1"] := by
    refine (congrArg (fun bus => List.map _ (ProcessBus.delivered bus))
      DispatchState.setBus_self).trans ?_
    show (s'.buses "worker").delivered.map _ = _
    rw [hbuses]
    exact hs.delivered
  refine ⟨_, ?_, hdelivered, delivered_at_most_once (hs'.step ⟨.act hcheck, ?_⟩) "worker"⟩
  · show s'.taken "a" = 2
    rw [htaken', htaken]
  · intro frame now hnow pre recorded post hnoted
    rw [hbuses, hs.noted] at hnoted
    have hlen := congrArg List.length hnoted
    have hmem : (frame.id, recorded) ∈ [("m1", 0)] := by
      rw [show [("m1", 0)] = pre ++ (frame.id, recorded) :: post from hnoted]
      exact List.mem_append_right _ List.mem_cons_self
    obtain ⟨-, rfl⟩ := Prod.mk.inj (List.mem_singleton.mp hmem)
    simp only [List.map_cons, List.map_nil, List.length_append, List.length_cons,
      List.length_nil] at hlen
    refine ⟨?_, ?_⟩
    · rw [seenMax]
      omega
    · rw [hclock]
      decide

/-- With `seenMax` other messages between the delivery and the resend, the
process acts on the first message twice. -/
theorem delivered_twice : ∃ s, (dispatchSys fun _ => "worker").Reachable s ∧
    ((s.buses "worker").delivered.map (·.id)).count "m1" = 2 ∧
    ¬((s.buses "worker").delivered.map (·.id)).Nodup := by
  obtain ⟨s, ids, others, hs, hfirst, hgone⟩ := memory_full (Nat.sub_add_cancel (by decide))
  obtain ⟨t, ht, hlooking, hbuses, -, -⟩ := hs.again fun _ _ _ _ => trivial
  have hfresh : (isDuplicate (t.buses "worker").seen deployFrame.id ackTimeout).1 = false := by
    rw [hbuses, hs.seen, isDuplicate_recent (Nat.le_refl _),
      if_neg (show deployFrame.id ∉ others from hgone)]
  have hwants : (t.buses "worker").wants deployFrame.topic = true := by
    rw [hbuses]
    exact worker_wants _ hs.filters
  have hend := frame_delivered (fun _ _ => trivial) ht hlooking (fun _ => trivial) hfresh hwants
  obtain ⟨final, hfinal, hdelivered⟩ : ∃ final, (dispatchSys fun _ => "worker").Reachable final ∧
      (final.buses "worker").delivered = (t.buses "worker").delivered ++ [deployFrame] :=
    ⟨_, hend.of_restrict, congrArg ProcessBus.delivered DispatchState.setBus_self⟩
  have htwice : ((final.buses "worker").delivered.map (·.id)).count "m1" = 2 := by
    rw [hdelivered, hbuses, List.map_append, hs.delivered, List.map_singleton, List.count_append,
      hfirst]
    rfl
  refine ⟨final, hfinal, htwice, fun hnodup => ?_⟩
  have hle := List.nodup_iff_count_le_one.mp hnodup "m1"
  exact absurd (htwice.symm.trans_le hle) (by decide)

end Aperio
