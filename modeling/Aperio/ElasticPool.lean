import Mathlib.Data.List.Nodup
import Mathlib.Data.List.Perm.Subperm
import Aperio.Run

/-!
# A pool of connections that follows its load

`client/pool.rs` of the client. `run_elastic_pool` opens `connections_min`
connections of a service, and every two seconds may open one more or give one
back. Each connection is a task of its own, which ends by itself or because it
was told to; the pool finds out at its next tick, or waits for it.

A tick is told the peak of the requests in flight (`take_peak`) as any number:
requests come and go between the instructions that read it. Instants are in
nanoseconds.
-/

namespace Aperio

/-! ## The numbers -/

/-- What of a `ServiceSpec` the pool reads. Only a range has a supervisor. -/
structure PoolSpec where
  connectionsMin : Nat
  connections : Nat
  ranged : connectionsMin < connections

def poolGrowPerConnection : Nat := 8

def poolShrinkPerConnection : Nat := 2

def poolGrowCooldown : Nat := 10 * 1000000000

def poolShrinkCooldown : Nat := 120 * 1000000000

def poolRefusedHold : Nat := 120 * 1000000000

/-- `next_connection_number`. One number more than are taken is enough to look
at (`nextConnectionNumber_spec`). -/
def nextConnectionNumber (taken : List Nat) : Nat :=
  (((List.range (taken.length + 1)).map (· + 1)).find? fun n => !taken.contains n).getD 1

/-! ## The supervisor -/

structure PoolTask where
  number : Nat
  running : Bool := true
deriving Repr, DecidableEq

/-- What the pool did: how many were open, the peak of the load, and what the
server permitted. -/
inductive PoolEvent where
  | started
  | opened (open_ peak permitted : Nat)
  /-- The last connection is told to go. -/
  | retiring (open_ peak : Nat)
  | retired
  /-- Connections of the pool were found not running. -/
  | missed
deriving Repr, DecidableEq

/-- `tasks` are all that were ever spawned, and the pool holds places in it.
While `retiring` is waited for the pool does nothing else. `events` is what
happened, the last first. -/
structure ElasticPool where
  tasks : List PoolTask
  pool : List Nat
  retiring : Option Nat := none
  stopping : Bool := false
  clock : Nat
  grewAt : Nat
  shrankAt : Nat
  growAfter : Nat
  /-- The ceiling the server announced. -/
  ceiling : Option Nat := none
  /-- `pool_load.open`, which the heartbeat announces. -/
  announced : Nat
  events : List (Nat × PoolEvent)

inductive PoolAct where
  | wait (elapsed : Nat)
  | announce (permitted : Nat)
  /-- A task ends. -/
  | finish (i : Nat)
  | tick (peak : Nat)
  /-- The connection that was told to go has gone. -/
  | retired
  | cancel
deriving Repr, DecidableEq

namespace ElasticPool

def start (spec : PoolSpec) (clock : Nat) : ElasticPool where
  tasks := (List.range spec.connectionsMin).map fun i => { number := i + 1 }
  pool := List.range spec.connectionsMin
  clock := clock
  grewAt := clock
  shrankAt := clock
  growAfter := clock
  announced := spec.connectionsMin
  events := [(clock, .started)]

variable (s : ElasticPool)

def running (i : Nat) : Bool :=
  s.tasks[i]?.any (·.running)

def numberAt (i : Nat) : Nat :=
  (s.tasks[i]?.map (·.number)).getD 0

/-- `pool.retain`: a connection whose task has ended is not open. -/
def swept : ElasticPool :=
  let left := s.pool.filter s.running
  if left.length = s.pool.length then s
  else { s with
    pool := left
    growAfter := s.clock + poolRefusedHold
    announced := left.length
    events := (s.clock, .missed) :: s.events }

/-- The server's announced ceiling wins over the file. -/
def permitted (spec : PoolSpec) : Nat :=
  min (s.ceiling.getD spec.connections) spec.connections

/-- What a tick does once the pool holds running connections only. -/
def decided (spec : PoolSpec) (peak : Nat) : ElasticPool :=
  let open_ := s.pool.length
  if open_ < s.permitted spec ∧ open_ * poolGrowPerConnection ≤ peak ∧
      poolGrowCooldown ≤ s.clock - s.grewAt ∧ s.growAfter ≤ s.clock then
    { s with
      tasks := s.tasks ++ [{ number := nextConnectionNumber (s.pool.map s.numberAt) }]
      pool := s.pool ++ [s.tasks.length]
      announced := open_ + 1
      grewAt := s.clock
      shrankAt := s.clock
      events := (s.clock, .opened open_ peak (s.permitted spec)) :: s.events }
  else if spec.connectionsMin < open_ ∧ peak ≤ (open_ - 1) * poolShrinkPerConnection ∧
      poolShrinkCooldown ≤ s.clock - s.shrankAt then
    { s with
      pool := s.pool.dropLast
      retiring := s.pool.getLast?
      events := (s.clock, .retiring open_ peak) :: s.events }
  else s

def act (spec : PoolSpec) : PoolAct → Option ElasticPool
  | .wait elapsed => some { s with clock := s.clock + elapsed }
  | .announce permitted => some { s with ceiling := some permitted }
  | .finish i => some { s with tasks := s.tasks.modify i fun t => { t with running := false } }
  | .tick peak =>
    if s.stopping ∨ s.retiring.isSome then none else some (s.swept.decided spec peak)
  | .retired =>
    match s.retiring with
    | none => none
    | some i =>
      if s.running i then none
      else some { s with
        retiring := none
        announced := s.pool.length
        shrankAt := s.clock
        grewAt := s.clock
        events := (s.clock, .retired) :: s.events }
  | .cancel => if s.retiring.isSome then none else some { s with stopping := true }

end ElasticPool

def poolSys (spec : PoolSpec) : Sys ElasticPool PoolAct where
  init s := ∃ clock, s = .start spec clock
  step s a s' := s.act spec a = some s'

/-! ## What it is for -/

/-- Where the pool's size changed. -/
def PoolEvent.changes : PoolEvent → Bool
  | .started | .opened .. | .retired => true
  | _ => false

/-- How long after `earlier` the pool waits before `later`. -/
def PoolEvent.gap (later earlier : PoolEvent) : Nat :=
  match later with
  | .opened .. =>
    if earlier = .missed then poolRefusedHold
    else if earlier.changes then poolGrowCooldown else 0
  | .retiring .. => if earlier.changes then poolShrinkCooldown else 0
  | _ => 0

/-- A connection is opened within what the server permits, under load; one is
given back above the floor, at less than a quarter of that load. -/
def PoolEvent.Justified (spec : PoolSpec) : PoolEvent → Prop
  | .opened open_ peak permitted =>
    open_ < permitted ∧ permitted ≤ spec.connections ∧ open_ * poolGrowPerConnection ≤ peak
  | .retiring open_ peak =>
    spec.connectionsMin < open_ ∧ peak ≤ (open_ - 1) * poolShrinkPerConnection
  | _ => True

namespace ElasticPool

/-- No two running connections have one number, and the numbers are those of
`connections`. -/
def NumbersApart (spec : PoolSpec) (s : ElasticPool) : Prop :=
  (∀ i, s.running i → 1 ≤ s.numberAt i ∧ s.numberAt i ≤ spec.connections) ∧
    ∀ i j, s.running i → s.running j → s.numberAt i = s.numberAt j → i = j

def Paced (s : ElasticPool) : Prop :=
  s.events.Pairwise fun later earlier => earlier.1 + later.2.gap earlier.2 ≤ later.1

/-- The places of the pool, and the one that is waited for. -/
def places (s : ElasticPool) : List Nat :=
  s.pool ++ s.retiring.toList

/-- What the heartbeat says is what the pool holds. -/
def Honest (s : ElasticPool) : Prop :=
  s.announced = s.places.length

end ElasticPool

/-! ## One step -/

theorem nextConnectionNumber_spec (taken : List Nat) :
    nextConnectionNumber taken ∉ taken ∧ 1 ≤ nextConnectionNumber taken ∧
      nextConnectionNumber taken ≤ taken.length + 1 ∧
      ∀ n, 1 ≤ n → n < nextConnectionNumber taken → n ∈ taken := by
  have hfound : (((List.range (taken.length + 1)).map (· + 1)).find?
      fun n => !taken.contains n).isSome := by
    by_contra hnone
    rw [Bool.not_eq_true, Option.isSome_eq_false_iff, Option.isNone_iff_eq_none,
      List.find?_eq_none] at hnone
    have hnodup : ((List.range (taken.length + 1)).map (· + 1)).Nodup :=
      List.nodup_range.map fun a b h => Nat.succ.inj h
    have hin : (List.range (taken.length + 1)).map (· + 1) ⊆ taken := by
      intro n hn
      simpa using hnone n hn
    have hsub := (hnodup.subperm hin).length_le
    rw [List.length_map, List.length_range] at hsub
    omega
  obtain ⟨n, hn⟩ := Option.isSome_iff_exists.mp hfound
  obtain ⟨hfree, i, hi, rfl, hbefore⟩ := List.find?_eq_some_iff_getElem.mp hn
  rw [nextConnectionNumber, hn, Option.getD_some]
  rw [List.length_map, List.length_range] at hi
  simp only [List.getElem_map, List.getElem_range] at hfree hbefore ⊢
  refine ⟨by simpa using hfree, by omega, by omega, ?_⟩
  intro m hone hlt
  have hm := hbefore (m - 1) (by omega)
  rw [Nat.sub_add_cancel hone] at hm
  simpa using hm

namespace ElasticPool

variable {spec : PoolSpec} {s s' : ElasticPool} {a : PoolAct} {i : Nat}

theorem places_of_idle (hidle : s.retiring = none) : s.places = s.pool := by
  rw [places, hidle, Option.toList_none, List.append_nil]

theorem lt_of_running (h : s.running i = true) : i < s.tasks.length := by
  rw [running] at h
  cases htask : s.tasks[i]? with
  | none => simp [htask] at h
  | some t => exact (List.getElem?_eq_some_iff.mp htask).1

/-- What every run keeps of the connections. -/
structure Sound (spec : PoolSpec) (s : ElasticPool) : Prop where
  nodup : s.places.Nodup
  placed : ∀ i ∈ s.places, i < s.tasks.length
  held : ∀ i, s.running i = true → i ∈ s.places
  apart : (s.places.map s.numberAt).Nodup
  numbers : ∀ i ∈ s.places, 1 ≤ s.numberAt i ∧ s.numberAt i ≤ spec.connections

theorem Sound.numbersApart (h : s.Sound spec) : s.NumbersApart spec := by
  refine ⟨fun i hi => h.numbers i (h.held i hi), fun i j hi hj heq => ?_⟩
  exact List.inj_on_of_nodup_map h.apart (h.held i hi) (h.held j hj) heq

theorem Sound.start (spec : PoolSpec) (clock : Nat) : (ElasticPool.start spec clock).Sound spec := by
  have hnumber : ∀ i < spec.connectionsMin,
      (ElasticPool.start spec clock).numberAt i = i + 1 := by
    intro i hi
    simp [numberAt, ElasticPool.start, hi]
  have hplaces : (ElasticPool.start spec clock).places = List.range spec.connectionsMin :=
    List.append_nil _
  have htasks : (ElasticPool.start spec clock).tasks.length = spec.connectionsMin := by
    simp [ElasticPool.start]
  refine ⟨?_, ?_, ?_, ?_, ?_⟩
  · rw [hplaces]
    exact List.nodup_range
  · rw [hplaces, htasks]
    exact fun i hi => List.mem_range.mp hi
  · intro i hi
    rw [hplaces, List.mem_range, ← htasks]
    exact lt_of_running hi
  · rw [hplaces, List.map_congr_left fun i hi => hnumber i (List.mem_range.mp hi)]
    exact List.nodup_range.map fun a b h => Nat.succ.inj h
  · rw [hplaces]
    intro i hi
    rw [hnumber i (List.mem_range.mp hi)]
    have := List.mem_range.mp hi
    have := spec.ranged
    omega

/-- A task that ends keeps its number. -/
theorem Sound.finish (h : s.Sound spec) (i : Nat) :
    ({ s with tasks := s.tasks.modify i fun t => { t with running := false } } :
      ElasticPool).Sound spec := by
  have hnumber : ({ s with tasks := s.tasks.modify i fun t => { t with running := false } } :
      ElasticPool).numberAt = s.numberAt := by
    funext j
    simp only [numberAt, List.getElem?_modify]
    split
    · simp [Function.comp_def]
    · simp
  refine ⟨h.nodup, ?_, ?_, ?_, ?_⟩
  · intro j hj
    rw [List.length_modify]
    exact h.placed j hj
  · intro j hj
    refine h.held j ?_
    simp only [running, List.getElem?_modify] at hj ⊢
    cases htask : s.tasks[j]? with
    | none => simp [htask] at hj
    | some t =>
        rw [htask] at hj
        split at hj
        · cases hj
        · simpa using hj
  · rw [hnumber]
    exact h.apart
  · rw [hnumber]
    exact h.numbers

theorem Sound.swept (h : s.Sound spec) (hidle : s.retiring = none) : s.swept.Sound spec := by
  unfold ElasticPool.swept
  dsimp only
  split
  · exact h
  · have hplaces := places_of_idle hidle
    have hleft : ∀ clock growAfter announced events, ({ s with
        pool := s.pool.filter s.running
        growAfter := growAfter
        clock := clock
        announced := announced
        events := events } : ElasticPool).places = s.pool.filter s.running := by
      intros
      rw [places]
      exact (congrArg (fun r : Option Nat => s.pool.filter s.running ++ r.toList) hidle).trans
        (List.append_nil _)
    have hsub : (s.pool.filter s.running).Sublist s.places := by
      rw [hplaces]
      exact List.filter_sublist
    refine ⟨?_, ?_, ?_, ?_, ?_⟩
    · rw [hleft]
      exact h.nodup.sublist hsub
    · rw [hleft]
      exact fun i hi => h.placed i (hsub.subset hi)
    · rw [hleft]
      intro i hi
      refine List.mem_filter.mpr ⟨?_, hi⟩
      rw [← hplaces]
      exact h.held i hi
    · rw [hleft]
      exact h.apart.sublist (hsub.map _)
    · rw [hleft]
      exact fun i hi => h.numbers i (hsub.subset hi)

/-- The new connection is the last task, under a number nobody answers to. -/
theorem Sound.grown (h : s.Sound spec) (hidle : s.retiring = none) {events : List (Nat × PoolEvent)}
    (hroom : s.pool.length < spec.connections) :
    ({ s with
      tasks := s.tasks ++ [{ number := nextConnectionNumber (s.pool.map s.numberAt) }]
      pool := s.pool ++ [s.tasks.length]
      announced := s.pool.length + 1
      grewAt := s.clock
      shrankAt := s.clock
      events := events } : ElasticPool).Sound spec := by
  have hplaces := places_of_idle hidle
  obtain ⟨hfree, hone, hle, -⟩ := nextConnectionNumber_spec (s.pool.map s.numberAt)
  rw [List.length_map] at hle
  generalize nextConnectionNumber (s.pool.map s.numberAt) = number at hfree hone hle ⊢
  have hnew := h.placed
  rw [hplaces] at hnew
  have hnumbers : ∀ i, i < s.tasks.length → ((s.tasks ++ [{ number := number }])[i]?.map
      (·.number)).getD 0 = s.numberAt i := by
    intro i hi
    rw [List.getElem?_append_left hi]
    rfl
  have hlast : ((s.tasks ++ [({ number := number } : PoolTask)])[s.tasks.length]?.map
      (·.number)).getD 0 = number := by
    simp
  have hmap : (s.pool ++ [s.tasks.length]).map (fun i =>
      ((s.tasks ++ [({ number := number } : PoolTask)])[i]?.map (·.number)).getD 0) =
        s.pool.map s.numberAt ++ [number] := by
    rw [List.map_append, List.map_singleton, hlast]
    exact congrArg (· ++ [number]) (List.map_congr_left fun i hi => hnumbers i (hnew i hi))
  refine ⟨?_, ?_, ?_, ?_, ?_⟩
  · rw [places, hidle, Option.toList_none, List.append_nil, List.nodup_append]
    refine ⟨hplaces ▸ h.nodup, List.nodup_singleton _, ?_⟩
    rintro i hi _ hj rfl
    rw [List.mem_singleton] at hj
    exact absurd (hj ▸ hnew i hi) (Nat.lt_irrefl _)
  · rw [places, hidle, Option.toList_none, List.append_nil]
    intro i hi
    rw [List.length_append, List.length_singleton]
    rcases List.mem_append.mp hi with hi | hi
    · exact Nat.lt_succ_of_lt (hnew i hi)
    · rw [List.mem_singleton.mp hi]
      exact Nat.lt_succ_self _
  · intro i hi
    rw [places, hidle, Option.toList_none, List.append_nil, List.mem_append, List.mem_singleton]
    by_cases hold : i < s.tasks.length
    · refine .inl ?_
      rw [← hplaces]
      refine h.held i ?_
      rw [running, List.getElem?_append_left hold] at hi
      exact hi
    · have hlt := lt_of_running hi
      rw [List.length_append, List.length_singleton] at hlt
      exact .inr (by omega)
  · rw [places, hidle, Option.toList_none, List.append_nil]
    refine (congrArg List.Nodup hmap).mpr (List.nodup_append.mpr ⟨hplaces ▸ h.apart,
      List.nodup_singleton _, ?_⟩)
    rintro n hn _ hm rfl
    exact hfree (List.mem_singleton.mp hm ▸ hn)
  · rw [places, hidle, Option.toList_none, List.append_nil]
    intro i hi
    rcases List.mem_append.mp hi with hi | hi
    · refine (congrArg (fun n => 1 ≤ n ∧ n ≤ spec.connections) (hnumbers i (hnew i hi))).mpr ?_
      exact h.numbers i (hplaces ▸ hi)
    · rw [List.mem_singleton.mp hi]
      refine (congrArg (fun n => 1 ≤ n ∧ n ≤ spec.connections) hlast).mpr ⟨hone, ?_⟩
      omega

/-- The last connection of the pool is the one that is waited for. -/
theorem places_retiring (hidle : s.retiring = none) :
    s.pool.dropLast ++ s.pool.getLast?.toList = s.places := by
  rw [places, hidle, Option.toList_none, List.append_nil]
  rcases List.eq_nil_or_concat s.pool with hnil | ⟨rest, i, hlast⟩
  · rw [hnil]
    rfl
  · rw [hlast, List.concat_eq_append, List.dropLast_concat, List.getLast?_concat]
    rfl

theorem Sound.decided (h : s.Sound spec) (hidle : s.retiring = none) (peak : Nat) :
    (s.decided spec peak).Sound spec := by
  unfold ElasticPool.decided
  dsimp only
  split
  · rename_i hgrow
    exact h.grown hidle (Nat.lt_of_lt_of_le hgrow.1 (Nat.min_le_right _ _))
  · split
    · have hplaces := places_retiring hidle
      refine ⟨?_, ?_, ?_, ?_, ?_⟩
      · rw [places, hplaces]
        exact h.nodup
      · rw [places, hplaces]
        exact h.placed
      · rw [places, hplaces]
        exact h.held
      · rw [places, hplaces]
        exact h.apart
      · rw [places, hplaces]
        exact h.numbers
    · exact h

theorem retiring_swept : s.swept.retiring = s.retiring := by
  unfold swept
  dsimp only
  split
  · rfl
  · rfl

theorem Sound.step (h : s.Sound spec) (hact : s.act spec a = some s') : s'.Sound spec := by
  cases a with
  | wait elapsed =>
      obtain rfl := Option.some.inj hact
      exact ⟨h.nodup, h.placed, h.held, h.apart, h.numbers⟩
  | announce permitted =>
      obtain rfl := Option.some.inj hact
      exact ⟨h.nodup, h.placed, h.held, h.apart, h.numbers⟩
  | finish i =>
      obtain rfl := Option.some.inj hact
      exact h.finish i
  | tick peak =>
      simp only [act, Option.ite_none_left_eq_some, Option.some_inj, not_or, Bool.not_eq_true,
        Option.isSome_eq_false_iff, Option.isNone_iff_eq_none] at hact
      obtain ⟨⟨-, hidle⟩, rfl⟩ := hact
      exact (h.swept hidle).decided (retiring_swept.trans hidle) peak
  | retired =>
      simp only [act] at hact
      split at hact
      · cases hact
      · rename_i i hretiring
        simp only [Option.ite_none_left_eq_some, Option.some_inj] at hact
        obtain ⟨hgone, rfl⟩ := hact
        have hplaces : s.places = s.pool ++ [i] := by rw [places, hretiring]; rfl
        have hsub : s.pool.Sublist s.places := by
          rw [hplaces]
          exact List.sublist_append_left _ _
        have hpool : ∀ j, s.running j = true → j ∈ s.pool := by
          intro j hj
          have hheld := h.held j hj
          rw [hplaces, List.mem_append, List.mem_singleton] at hheld
          exact hheld.resolve_right fun heq => hgone (heq ▸ hj)
        refine ⟨?_, ?_, ?_, ?_, ?_⟩
        · rw [places, Option.toList_none, List.append_nil]
          exact h.nodup.sublist hsub
        · rw [places, Option.toList_none, List.append_nil]
          exact fun j hj => h.placed j (hsub.subset hj)
        · rw [places, Option.toList_none, List.append_nil]
          exact hpool
        · rw [places, Option.toList_none, List.append_nil]
          exact h.apart.sublist (hsub.map _)
        · rw [places, Option.toList_none, List.append_nil]
          exact fun j hj => h.numbers j (hsub.subset hj)
  | cancel =>
      simp only [act, Option.ite_none_left_eq_some, Option.some_inj] at hact
      obtain ⟨-, rfl⟩ := hact
      exact ⟨h.nodup, h.placed, h.held, h.apart, h.numbers⟩

/-- What every run keeps of what happened. -/
structure Timed (spec : PoolSpec) (s : ElasticPool) : Prop where
  past : ∀ e ∈ s.events, e.1 ≤ s.clock
  marks : ∀ e ∈ s.events, e.2.changes = true → e.1 ≤ s.grewAt ∧ e.1 ≤ s.shrankAt
  missed : ∀ e ∈ s.events, e.2 = .missed → e.1 + poolRefusedHold ≤ s.growAfter
  paced : s.Paced
  justified : ∀ e ∈ s.events, e.2.Justified spec
  honest : s.Honest

/-- An event now, after which both marks are at most now. -/
theorem Timed.happen (h : s.Timed spec) (event : PoolEvent) (hjust : event.Justified spec)
    (hgap : ∀ e ∈ s.events, e.1 + event.gap e.2 ≤ s.clock) :
    (∀ e ∈ (s.clock, event) :: s.events, e.1 ≤ s.clock) ∧
      (((s.clock, event) :: s.events).Pairwise fun later earlier =>
        earlier.1 + later.2.gap earlier.2 ≤ later.1) ∧
      ∀ e ∈ (s.clock, event) :: s.events, e.2.Justified spec := by
  refine ⟨?_, List.pairwise_cons.mpr ⟨hgap, h.paced⟩, ?_⟩
  · intro e he
    rcases List.mem_cons.mp he with rfl | he
    · exact Nat.le_refl _
    · exact h.past e he
  · intro e he
    rcases List.mem_cons.mp he with rfl | he
    · exact hjust
    · exact h.justified e he

theorem Timed.start (spec : PoolSpec) (clock : Nat) : (ElasticPool.start spec clock).Timed spec where
  past := by
    intro e he
    rw [List.mem_singleton.mp he]
    exact Nat.le_refl _
  marks := by
    intro e he _
    rw [List.mem_singleton.mp he]
    exact ⟨Nat.le_refl _, Nat.le_refl _⟩
  missed := by
    intro e he hmissed
    rw [List.mem_singleton.mp he] at hmissed
    cases hmissed
  paced := List.pairwise_singleton _ _
  justified := by
    intro e he
    rw [List.mem_singleton.mp he]
    trivial
  honest := by
    rw [Honest, places_of_idle rfl]
    exact List.length_range.symm

theorem Timed.swept (h : s.Timed spec) (hidle : s.retiring = none) : s.swept.Timed spec := by
  unfold ElasticPool.swept
  dsimp only
  split
  · exact h
  · obtain ⟨hpast, hpaced, hjust⟩ := h.happen .missed trivial fun e he => h.past e he
    refine ⟨hpast, ?_, ?_, hpaced, hjust, ?_⟩
    · intro e he hchanges
      rcases List.mem_cons.mp he with rfl | he
      · cases hchanges
      · exact h.marks e he hchanges
    · intro e he _
      exact Nat.add_le_add_right (hpast e he) _
    · rw [Honest, places_of_idle (by exact hidle)]

theorem Timed.decided (h : s.Timed spec) (hidle : s.retiring = none) (peak : Nat) :
    (s.decided spec peak).Timed spec := by
  unfold ElasticPool.decided
  dsimp only
  split
  · rename_i hgrow
    obtain ⟨hroom, hload, hcool, hafter⟩ := hgrow
    have hgap : ∀ e ∈ s.events,
        e.1 + (PoolEvent.opened s.pool.length peak (s.permitted spec)).gap e.2 ≤ s.clock := by
      intro e he
      simp only [PoolEvent.gap]
      split
      · rename_i hmissed
        exact Nat.le_trans (h.missed e he hmissed) hafter
      · split
        · rename_i hchanges
          have hmark := (h.marks e he hchanges).1
          rw [poolGrowCooldown] at hcool ⊢
          omega
        · exact h.past e he
    obtain ⟨hpast, hpaced, hjust⟩ := h.happen (.opened s.pool.length peak (s.permitted spec))
      ⟨hroom, Nat.min_le_right _ _, hload⟩ hgap
    refine ⟨hpast, fun e he _ => ⟨hpast e he, hpast e he⟩, ?_, hpaced, hjust, ?_⟩
    · intro e he hmissed
      rcases List.mem_cons.mp he with rfl | he
      · cases hmissed
      · exact h.missed e he hmissed
    · rw [Honest, places_of_idle (by exact hidle), List.length_append, List.length_singleton]
  · split
    · rename_i hshrink
      obtain ⟨hfloor, hload, hcool⟩ := hshrink
      have hgap : ∀ e ∈ s.events,
          e.1 + (PoolEvent.retiring s.pool.length peak).gap e.2 ≤ s.clock := by
        intro e he
        simp only [PoolEvent.gap]
        split
        · rename_i hchanges
          have hmark := (h.marks e he hchanges).2
          rw [poolShrinkCooldown] at hcool ⊢
          omega
        · exact h.past e he
      obtain ⟨hpast, hpaced, hjust⟩ := h.happen (.retiring s.pool.length peak) ⟨hfloor, hload⟩ hgap
      refine ⟨hpast, ?_, ?_, hpaced, hjust, ?_⟩
      · intro e he hchanges
        rcases List.mem_cons.mp he with rfl | he
        · cases hchanges
        · exact h.marks e he hchanges
      · intro e he hmissed
        rcases List.mem_cons.mp he with rfl | he
        · cases hmissed
        · exact h.missed e he hmissed
      · have hhonest : s.announced = s.places.length := h.honest
        rw [Honest, hhonest, ← places_retiring hidle]
        rfl
    · exact h

theorem Timed.step (h : s.Timed spec) (hact : s.act spec a = some s') : s'.Timed spec := by
  cases a with
  | wait elapsed =>
      obtain rfl := Option.some.inj hact
      exact ⟨fun e he => Nat.le_trans (h.past e he) (Nat.le_add_right _ _), h.marks, h.missed, h.paced,
        h.justified, h.honest⟩
  | announce permitted =>
      obtain rfl := Option.some.inj hact
      exact ⟨h.past, h.marks, h.missed, h.paced, h.justified, h.honest⟩
  | finish i =>
      obtain rfl := Option.some.inj hact
      exact ⟨h.past, h.marks, h.missed, h.paced, h.justified, h.honest⟩
  | tick peak =>
      simp only [act, Option.ite_none_left_eq_some, Option.some_inj, not_or, Bool.not_eq_true,
        Option.isSome_eq_false_iff, Option.isNone_iff_eq_none] at hact
      obtain ⟨⟨-, hidle⟩, rfl⟩ := hact
      exact (h.swept hidle).decided (retiring_swept.trans hidle) peak
  | retired =>
      simp only [act] at hact
      split at hact
      · cases hact
      · simp only [Option.ite_none_left_eq_some, Option.some_inj] at hact
        obtain ⟨-, rfl⟩ := hact
        obtain ⟨hpast, hpaced, hjust⟩ := h.happen .retired trivial
          fun e he => h.past e he
        refine ⟨hpast, fun e he _ => ⟨hpast e he, hpast e he⟩, ?_, hpaced, hjust, ?_⟩
        · intro e he hmissed
          rcases List.mem_cons.mp he with rfl | he
          · cases hmissed
          · exact h.missed e he hmissed
        · rw [Honest, places_of_idle rfl]
  | cancel =>
      simp only [act, Option.ite_none_left_eq_some, Option.some_inj] at hact
      obtain ⟨-, rfl⟩ := hact
      exact ⟨h.past, h.marks, h.missed, h.paced, h.justified, h.honest⟩

end ElasticPool

/-! ## Every run -/

/-- **The pool follows its load**: in every run no two running connections
answer to one number, the size changes at most at the pace of its cooldowns,
every connection opened or given back has its reason, and what is announced is
what is held. -/
theorem elastic_pool {spec : PoolSpec} {s : ElasticPool} (h : (poolSys spec).Reachable s) :
    s.NumbersApart spec ∧ s.Paced ∧ (∀ e ∈ s.events, e.2.Justified spec) ∧ s.Honest := by
  have hsound : s.Sound spec := by
    refine h.invariant ?_ fun s a s' _ hsound hstep => hsound.step hstep
    rintro s ⟨clock, rfl⟩
    exact .start spec clock
  have htimed : s.Timed spec := by
    refine h.invariant ?_ fun s a s' _ htimed hstep => htimed.step hstep
    rintro s ⟨clock, rfl⟩
    exact .start spec clock
  exact ⟨hsound.numbersApart, htimed.paced, htimed.justified, htimed.honest⟩

/-- One to three connections. -/
def oneToThree : PoolSpec where
  connectionsMin := 1
  connections := 3
  ranged := by decide

/-- A second connection, the first one lost, and a third after the pause. -/
def renumberedRun : List PoolAct :=
  [.wait poolGrowCooldown, .tick 8, .finish 0, .tick 20, .wait poolRefusedHold, .tick 20]

/-- Under load a second connection is opened, the first ends, and the next one
opened is the first again. -/
theorem elastic_pool_renumbered : ∃ s, (poolSys oneToThree).Reachable s ∧
    s.pool.map s.numberAt = [2, 1] ∧ s.NumbersApart oneToThree ∧ s.Paced ∧
    (∀ e ∈ s.events, e.2.Justified oneToThree) ∧ s.Honest := by
  have hrun := @Sys.Reachable.foldlM _ _ (poolSys oneToThree) _ _ _ (.init ⟨0, rfl⟩)
    renumberedRun (fun _ _ _ hstep => hstep) rfl
  exact ⟨_, hrun, by decide, elastic_pool hrun⟩

end Aperio
