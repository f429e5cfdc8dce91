import Aperio.ScalingBounds
import Aperio.SinceMark

/-!
# Scaling on sustained load

One record's share of `run_scale_out_loop`: what a pass measures, which of the
two samplers it goes through and what it asks for. The samplers keep since-marks
instead of a history (`Aperio.SinceMark`), so a mark tells the truth only while
every pass is observed, or would not have dropped it. The passes that skip a
sampler are those without an instance or without a capacity, those at the
ceiling for the one and those at the floor for the other.

A utilization is a quotient here; a pass takes place at one instant, a whole
second as every window is. Between passes everything else goes on that does not
sample this record.
-/

namespace Aperio

open SinceMark

/-- What a pass of the loop measured of a record. -/
structure LoopPass where
  now : ClockReading
  instances : Nat
  capacity : Nat
  utilization : ℚ

def LoopPass.time (p : LoopPass) : Nat :=
  p.now.secs

/-! ## One pass -/

section

variable (record : DeclaredScaling)

/-- `target_utilization * SCALE_IN_FRACTION`. -/
def scaleInBelow : ℚ :=
  record.targetUtilization / 2

/-- At the ceiling there is nothing to scale out to. -/
def saturationHalf (s : SampledRuntime) (p : LoopPass) : Bool × SampledRuntime :=
  let atCeiling := decide (record.max ≤ p.instances)
  if atCeiling then (false, s)
  else s.saturationReached record (decide (p.utilization < record.targetUtilization)) p.now

/-- The far side of the curve. A pool at its floor has nothing to give back. -/
def idleHalf (s : SampledRuntime) (p : LoopPass) : Bool × SampledRuntime :=
  if max record.min 1 < p.instances then
    s.idleReached record (decide (scaleInBelow record ≤ p.utilization)) p.now
  else (false, s)

/-- One record's share of a pass: the capacity it asks for, if any. -/
def scaleOutPass (s : SampledRuntime) (p : LoopPass) : Option Reason × SampledRuntime :=
  if record.max = 0 then (none, s)
  else if p.instances = 0 ∨ p.capacity = 0 then (none, s)
  else
    match saturationHalf record s p with
    | (true, s) => (some .scaleOut, s)
    | (false, s) =>
      match idleHalf record s p with
      | (true, s) => (some .scaleIn, s)
      | (false, s) => (none, s)

/-- The record whose marks an operation touches. -/
def ScalingOp.sampled : ScalingOp → Option String
  | .saturation record _ _ | .idle record _ _ => some record.id
  | .forget id => some id
  | .begin .. | .finish .. | .rearm _ => none

/-- What takes place: a pass over the record, or anything else. -/
inductive LoopAct where
  | pass (p : LoopPass)
  | other (op : ScalingOp)

structure LoopState where
  runtime : SampledRuntime := {}
  /-- The passes so far, the latest last. -/
  passes : List LoopPass := []

/-- The loop over one record: instants do not decrease, and nothing else feeds
the record's samplers. -/
def loopSys : Sys LoopState LoopAct where
  init s := s = {}
  step s a s' :=
    match a with
    | .pass p => (∀ q ∈ s.passes, q.time ≤ p.time) ∧
        s' = { runtime := (scaleOutPass record s.runtime p).2, passes := s.passes ++ [p] }
    | .other op => op.sampled ≠ some record.id ∧ ∃ runtime, s.runtime.step op = some runtime ∧
        s' = { s with runtime := runtime }

/-- The pass gets as far as the samplers. -/
def Measured (p : LoopPass) : Prop :=
  record.max ≠ 0 ∧ p.instances ≠ 0 ∧ p.capacity ≠ 0

/-- The pass would not leave a stale mark behind: what it measured bears the
marks out, or is seen by a sampler that drops them. -/
def NoStaleMark (s : LoopState) (p : LoopPass) : Prop :=
  let marks := s.runtime.samplesOf record.id
  (marks.saturatedSince.isSome → p.utilization < record.targetUtilization →
    Measured record p ∧ p.instances < record.max) ∧
  (marks.idleSince.isSome → scaleInBelow record ≤ p.utilization →
    Measured record p ∧ (max record.min 1 < p.instances ∨
      p.instances < record.max ∧ record.targetUtilization ≤ p.utilization))

/-- The runs in which no pass does. -/
def observedSys : Sys LoopState LoopAct :=
  (loopSys record).restrict fun s a _ => ∀ p, a = .pass p → NoStaleMark record s p

end

/-! ## The marks -/

section

variable {record : DeclaredScaling} {s : SampledRuntime} {p : LoopPass} {id : String}

@[simp] theorem samplesOf_putSamples_self (samples : BindSamples) :
    (s.putSamples id samples).samplesOf id = samples := by
  simp [SampledRuntime.samplesOf, SampledRuntime.putSamples]

theorem samplesOf_putSamples_ne {id' : String} (samples : BindSamples) (h : id' ≠ id) :
    (s.putSamples id' samples).samplesOf id = s.samplesOf id := by
  simp [SampledRuntime.samplesOf, SampledRuntime.putSamples, AList.lookup_insert_ne h.symm]

/-- `saturation_reached`: the mark of saturation observes, and a saturated bind
is not idle. -/
theorem saturationReached_marks (below : Bool) (now : ClockReading) :
    ((s.saturationReached record below now).2.samplesOf record.id).saturatedSince =
        observe (!below) now.secs (s.samplesOf record.id).saturatedSince ∧
      ((s.saturationReached record below now).2.samplesOf record.id).idleSince =
        if below then (s.samplesOf record.id).idleSince else none := by
  cases below with
  | true => simp [SampledRuntime.saturationReached]
  | false =>
      cases h : (s.samplesOf record.id).saturatedSince <;>
        simp [SampledRuntime.saturationReached, h]

theorem idleReached_marks (busy : Bool) (now : ClockReading) :
    ((s.idleReached record busy now).2.samplesOf record.id).saturatedSince =
        (s.samplesOf record.id).saturatedSince ∧
      ((s.idleReached record busy now).2.samplesOf record.id).idleSince =
        observe (!busy) now.secs (s.samplesOf record.id).idleSince := by
  cases busy with
  | true => simp [SampledRuntime.idleReached]
  | false =>
      cases h : (s.samplesOf record.id).idleSince <;>
        simp [SampledRuntime.idleReached, h]

theorem saturationReached_iff (below : Bool) (now : ClockReading) :
    (s.saturationReached record below now).1 = true ↔ below = false ∧
      ∃ since, (s.samplesOf record.id).saturatedSince = some since ∧
        record.windowSecs ≤ now.secs - since := by
  cases below with
  | true => simp [SampledRuntime.saturationReached]
  | false =>
      cases h : (s.samplesOf record.id).saturatedSince <;>
        simp [SampledRuntime.saturationReached, h]

theorem idleReached_iff (busy : Bool) (now : ClockReading) :
    (s.idleReached record busy now).1 = true ↔ busy = false ∧
      ∃ since, (s.samplesOf record.id).idleSince = some since ∧
        idleWindowSecs record ≤ now.secs - since := by
  cases busy with
  | true => simp [SampledRuntime.idleReached]
  | false =>
      cases h : (s.samplesOf record.id).idleSince <;>
        simp [SampledRuntime.idleReached, h]

theorem saturationHalf_eq (h : p.instances < record.max) :
    saturationHalf record s p =
      s.saturationReached record (decide (p.utilization < record.targetUtilization)) p.now :=
  if_neg (by simpa using h)

theorem saturationHalf_marks :
    ((saturationHalf record s p).2.samplesOf record.id).saturatedSince =
        (if p.instances < record.max then
          observe (decide (record.targetUtilization ≤ p.utilization)) p.time
            (s.samplesOf record.id).saturatedSince
        else (s.samplesOf record.id).saturatedSince) ∧
      ((saturationHalf record s p).2.samplesOf record.id).idleSince =
        if p.instances < record.max ∧ record.targetUtilization ≤ p.utilization then none
        else (s.samplesOf record.id).idleSince := by
  by_cases hmax : record.max ≤ p.instances
  · simp [saturationHalf, hmax, Nat.not_lt.mpr hmax]
  · rw [not_le] at hmax
    rw [saturationHalf_eq hmax, (saturationReached_marks _ _).1, (saturationReached_marks _ _).2]
    by_cases htarget : p.utilization < record.targetUtilization
    · simp [hmax, htarget, not_le.mpr htarget]
    · simp [hmax, htarget, not_lt.mp htarget, LoopPass.time]

theorem idleHalf_marks :
    ((idleHalf record s p).2.samplesOf record.id).saturatedSince =
        (s.samplesOf record.id).saturatedSince ∧
      ((idleHalf record s p).2.samplesOf record.id).idleSince =
        if max record.min 1 < p.instances then
          observe (decide (p.utilization < scaleInBelow record)) p.time
            (s.samplesOf record.id).idleSince
        else (s.samplesOf record.id).idleSince := by
  unfold idleHalf
  split
  · rw [(idleReached_marks _ _).1, (idleReached_marks _ _).2]
    by_cases hbelow : p.utilization < scaleInBelow record
    · simp [hbelow, not_le.mpr hbelow, LoopPass.time]
    · simp [hbelow, not_lt.mp hbelow]
  · exact ⟨rfl, rfl⟩

/-- What a pass can do: nothing, stop after the first half, or go through
both. -/
theorem scaleOutPass_cases {ask : Option Reason} {s' : SampledRuntime}
    (h : scaleOutPass record s p = (ask, s')) :
    (¬Measured record p ∧ ask = none ∧ s' = s) ∨
    (Measured record p ∧ saturationHalf record s p = (true, s') ∧ ask = some .scaleOut) ∨
    (Measured record p ∧ ∃ s₁ idle, saturationHalf record s p = (false, s₁) ∧
      idleHalf record s₁ p = (idle, s') ∧ ask = if idle then some .scaleIn else none) := by
  unfold scaleOutPass at h
  split at h
  · rename_i hzero
    cases h
    exact Or.inl ⟨fun hm => hm.1 hzero, rfl, rfl⟩
  · rename_i hmax
    split at h
    · rename_i hempty
      cases h
      refine Or.inl ⟨?_, rfl, rfl⟩
      rintro ⟨-, hinstances, hcapacity⟩
      exact hempty.elim hinstances hcapacity
    · rename_i hmeasured
      have hm : Measured record p := ⟨hmax, not_or.mp hmeasured⟩
      refine Or.inr ?_
      split at h
      · rename_i s₁ hhalf
        cases h
        exact Or.inl ⟨hm, hhalf, rfl⟩
      · rename_i s₁ hhalf
        refine Or.inr ⟨hm, s₁, ?_⟩
        split at h
        · rename_i s₂ hidle
          cases h
          exact ⟨true, hhalf, hidle, rfl⟩
        · rename_i s₂ hidle
          cases h
          exact ⟨false, hhalf, hidle, rfl⟩

theorem saturationHalf_true {s' : SampledRuntime} (h : saturationHalf record s p = (true, s')) :
    p.instances < record.max ∧ record.targetUtilization ≤ p.utilization ∧
      ∃ since, (s.samplesOf record.id).saturatedSince = some since ∧
        record.windowSecs ≤ p.time - since := by
  by_cases hmax : record.max ≤ p.instances
  · simp [saturationHalf, hmax] at h
  · rw [not_le] at hmax
    obtain ⟨htarget, hsince⟩ := (saturationReached_iff _ _).mp
      (by rw [← saturationHalf_eq hmax, h])
    exact ⟨hmax, by simpa using htarget, hsince⟩

theorem idleHalf_true {s' : SampledRuntime} (h : idleHalf record s p = (true, s')) :
    max record.min 1 < p.instances ∧ p.utilization < scaleInBelow record ∧
      ∃ since, (s.samplesOf record.id).idleSince = some since ∧
        idleWindowSecs record ≤ p.time - since := by
  unfold idleHalf at h
  split at h
  · rename_i hfloor
    obtain ⟨hbelow, hsince⟩ := (idleReached_iff _ _).mp (by rw [h])
    exact ⟨hfloor, by simpa using hbelow, hsince⟩
  · cases h

/-! ## What a pass asks for -/

theorem scaleOutPass_scaleOut (h : (scaleOutPass record s p).1 = some .scaleOut) :
    p.instances < record.max ∧ record.targetUtilization ≤ p.utilization ∧
      ∃ since, (s.samplesOf record.id).saturatedSince = some since ∧
        record.windowSecs ≤ p.time - since := by
  rcases hpass : scaleOutPass record s p with ⟨ask, s'⟩
  rw [hpass] at h
  rcases scaleOutPass_cases hpass with ⟨-, rfl, -⟩ | ⟨-, hhalf, -⟩ | ⟨-, s₁, idle, -, -, rfl⟩
  · cases h
  · exact saturationHalf_true hhalf
  · cases idle <;> cases h

/-- The mark the second half goes by is the one from before the pass. -/
theorem scaleOutPass_scaleIn (h : (scaleOutPass record s p).1 = some .scaleIn) :
    max record.min 1 < p.instances ∧ p.utilization < scaleInBelow record ∧
      ∃ since, (s.samplesOf record.id).idleSince = some since ∧
        idleWindowSecs record ≤ p.time - since := by
  rcases hpass : scaleOutPass record s p with ⟨ask, s'⟩
  rw [hpass] at h
  rcases scaleOutPass_cases hpass with ⟨-, rfl, -⟩ | ⟨-, -, rfl⟩ |
    ⟨-, s₁, idle, hhalf, hidle, rfl⟩
  · cases h
  · cases h
  · cases idle with
    | false => cases h
    | true =>
        obtain ⟨hfloor, hbelow, since, hsince, hlong⟩ := idleHalf_true hidle
        have hmark : ((saturationHalf record s p).2.samplesOf record.id).idleSince = _ :=
          saturationHalf_marks.2
        rw [hhalf, hsince] at hmark
        split at hmark
        · cases hmark
        · exact ⟨hfloor, hbelow, since, hmark.symm, hlong⟩

theorem scaleOutPass_ne_coldStart : (scaleOutPass record s p).1 ≠ some .coldStart := by
  rcases hpass : scaleOutPass record s p with ⟨ask, s'⟩
  rcases scaleOutPass_cases hpass with ⟨-, rfl, -⟩ | ⟨-, -, rfl⟩ | ⟨-, s₁, idle, -, -, rfl⟩
  · simp
  · simp
  · cases idle <;> simp

/-! ## Marks that tell the truth -/

/-- Everything measured after a mark bears it out. -/
structure MarksBacked (record : DeclaredScaling) (s : LoopState) : Prop where
  saturated : Backed (fun q => record.targetUtilization ≤ q.utilization) LoopPass.time
    (s.runtime.samplesOf record.id).saturatedSince s.passes
  idle : Backed (fun q => q.utilization < scaleInBelow record) LoopPass.time
    (s.runtime.samplesOf record.id).idleSince s.passes

section

variable {seen : List LoopPass}

/-- The first half: a pass it does not see bears the mark out. -/
theorem saturationHalf_backed
    (h : Backed (fun q => record.targetUtilization ≤ q.utilization) LoopPass.time
      (s.samplesOf record.id).saturatedSince seen)
    (hlast : ∀ q ∈ seen, q.time ≤ p.time)
    (hstale : (s.samplesOf record.id).saturatedSince.isSome →
      p.utilization < record.targetUtilization → p.instances < record.max) :
    Backed (fun q => record.targetUtilization ≤ q.utilization) LoopPass.time
      ((saturationHalf record s p).2.samplesOf record.id).saturatedSince (seen ++ [p]) := by
  rw [saturationHalf_marks.1]
  split
  · exact h.observe of_decide_eq_true hlast
  · rename_i hceiling
    exact h.skip fun hmark => not_lt.mp fun hlow => hceiling (hstale hmark hlow)

/-- The second half, after the first, which drops the mark of a saturated
bind. -/
theorem idleHalf_backed
    (h : Backed (fun q => q.utilization < scaleInBelow record) LoopPass.time
      (s.samplesOf record.id).idleSince seen)
    (hlast : ∀ q ∈ seen, q.time ≤ p.time)
    (hstale : (s.samplesOf record.id).idleSince.isSome → scaleInBelow record ≤ p.utilization →
      max record.min 1 < p.instances) :
    Backed (fun q => q.utilization < scaleInBelow record) LoopPass.time
      ((idleHalf record s p).2.samplesOf record.id).idleSince (seen ++ [p]) := by
  rw [idleHalf_marks.2]
  split
  · exact h.observe of_decide_eq_true hlast
  · rename_i hfloor
    exact h.skip fun hmark => not_le.mp fun hhigh => hfloor (hstale hmark hhigh)

end

/-- One pass. -/
theorem MarksBacked.pass {s : LoopState} (hs : MarksBacked record s)
    (hlast : ∀ q ∈ s.passes, q.time ≤ p.time) (hstale : NoStaleMark record s p) :
    MarksBacked record
      { runtime := (scaleOutPass record s.runtime p).2, passes := s.passes ++ [p] } := by
  rcases hpass : scaleOutPass record s.runtime p with ⟨ask, s'⟩
  rcases scaleOutPass_cases hpass with ⟨hm, -, rfl⟩ | ⟨hm, hhalf, -⟩ | ⟨hm, s₁, idle, hhalf, hidle, -⟩
  · refine ⟨hs.saturated.skip fun hmark => ?_, hs.idle.skip fun hmark => ?_⟩
    · exact not_lt.mp fun hlow => hm (hstale.1 hmark hlow).1
    · exact not_le.mp fun hhigh => hm (hstale.2 hmark hhigh).1
  · -- saturated for its window: the pass stops, and the bind is not idle
    have hsaturated := saturationHalf_backed hs.saturated hlast fun hmark hlow =>
      (hstale.1 hmark hlow).2
    have hdropped : ((saturationHalf record s.runtime p).2.samplesOf record.id).idleSince = _ :=
      saturationHalf_marks.2
    obtain ⟨hceiling, htarget, -⟩ := saturationHalf_true hhalf
    rw [if_pos ⟨hceiling, htarget⟩] at hdropped
    rw [hhalf] at hsaturated hdropped
    refine ⟨hsaturated, ?_⟩
    rw [hdropped]
    exact backed_none
  · have hsaturated := saturationHalf_backed hs.saturated hlast fun hmark hlow =>
      (hstale.1 hmark hlow).2
    have hfirst : ((saturationHalf record s.runtime p).2.samplesOf record.id).idleSince = _ :=
      saturationHalf_marks.2
    have hkept : ((idleHalf record s₁ p).2.samplesOf record.id).saturatedSince = _ :=
      idleHalf_marks.1
    rw [hhalf] at hsaturated hfirst
    have hsecond : Backed (fun q => q.utilization < scaleInBelow record) LoopPass.time
        ((idleHalf record s₁ p).2.samplesOf record.id).idleSince (s.passes ++ [p]) := by
      refine idleHalf_backed ?_ hlast fun hmark hhigh => ?_
      · rw [hfirst]
        split
        · exact backed_none
        · exact hs.idle
      · rw [hfirst] at hmark
        split at hmark
        · cases hmark
        · rename_i hnot
          exact (hstale.2 hmark hhigh).2.resolve_right hnot
    rw [hidle] at hkept hsecond
    exact ⟨by rw [hkept]; exact hsaturated, hsecond⟩

/-- What else goes on leaves the record's marks alone. -/
theorem step_samplesOf {op : ScalingOp} {s' : SampledRuntime} (h : s.step op = some s')
    (hop : op.sampled ≠ some id) : s'.samplesOf id = s.samplesOf id := by
  cases op with
  | begin r now =>
      cases h
      rfl
  | finish r success now =>
      simp only [SampledRuntime.step, SampledRuntime.finish, Option.bind_eq_bind,
        Option.bind_eq_some_iff] at h
      obtain ⟨_, -, h⟩ := h
      cases h
      rfl
  | saturation r below now =>
      cases h
      have hne : r.id ≠ id := fun heq => hop (congrArg some heq)
      unfold SampledRuntime.saturationReached
      dsimp only
      split
      · exact samplesOf_putSamples_ne _ hne
      · split <;> exact samplesOf_putSamples_ne _ hne
  | idle r busy now =>
      cases h
      have hne : r.id ≠ id := fun heq => hop (congrArg some heq)
      unfold SampledRuntime.idleReached
      dsimp only
      split
      · exact samplesOf_putSamples_ne _ hne
      · split
        · rfl
        · exact samplesOf_putSamples_ne _ hne
  | rearm id' =>
      cases h
      rfl
  | forget id' =>
      cases h
      have hne : id ≠ id' := fun heq => hop (congrArg some heq.symm)
      simp [SampledRuntime.samplesOf, AList.lookup_erase_ne hne]

/-! ## Runs -/

theorem marksBacked {s : LoopState} (hs : (observedSys record).Reachable s) :
    MarksBacked record s := by
  refine hs.invariant ?_ ?_
  · rintro s rfl
    exact ⟨backed_nil, backed_nil⟩
  · rintro s a s' - hinv ⟨hstep, hstale⟩
    cases a with
    | pass p =>
        obtain ⟨hlast, rfl⟩ := hstep
        exact hinv.pass hlast (hstale p rfl)
    | other op =>
        obtain ⟨hop, runtime, hrun, rfl⟩ := hstep
        have hmarks := step_samplesOf hrun hop
        exact ⟨by rw [hmarks]; exact hinv.saturated, by rw [hmarks]; exact hinv.idle⟩

end

/-- What the next pass asks for follows the load of the last window, or of the
last four, and is one more or fewer. -/
def FollowsLoad (record : DeclaredScaling) (s : LoopState) : Prop :=
  ∀ p : LoopPass, (∀ q ∈ s.passes, q.time ≤ p.time) →
    let ask := (scaleOutPass record s.runtime p).1
    let desired := desiredCapacity record.toScalingRecord
    (ask = some .scaleOut →
      (∀ q ∈ s.passes ++ [p], p.time < q.time + record.windowSecs →
        record.targetUtilization ≤ q.utilization) ∧
      desired .scaleOut p.instances = p.instances + 1 ∧
      desired .scaleOut p.instances ≤ record.max) ∧
    (ask = some .scaleIn →
      (∀ q ∈ s.passes ++ [p], p.time < q.time + record.windowSecs * 4 →
        q.utilization < scaleInBelow record) ∧
      desired .scaleIn p.instances < p.instances ∧
      max record.min 1 ≤ desired .scaleIn p.instances) ∧
    ask ≠ some .coldStart

/-- A window no clock gets past is not cut short. -/
theorem idleWindow_le {record : DeclaredScaling} {p : LoopPass} {since : Nat}
    (h : idleWindowSecs record ≤ p.time - since) : record.windowSecs * 4 ≤ p.time - since := by
  have hfar := p.now.far
  unfold idleWindowSecs u64Bound at h
  unfold LoopPass.time at h ⊢
  unfold instantBound at hfar
  omega

/-- **Scaling follows sustained load** where no pass leaves a stale mark
behind. -/
theorem sustained_load {record : DeclaredScaling} (hmax : record.max < u32Bound) {s : LoopState}
    (hs : (observedSys record).Reachable s) : FollowsLoad record s := by
  intro p hlast
  have hmarks := marksBacked hs
  dsimp only
  refine ⟨fun hask => ?_, fun hask => ?_, scaleOutPass_ne_coldStart⟩
  · obtain ⟨hceiling, htarget, since, hsince, hlong⟩ := scaleOutPass_scaleOut hask
    have hbacked := hmarks.saturated
    rw [hsince] at hbacked
    have hdesired : desiredCapacity record.toScalingRecord .scaleOut p.instances =
        p.instances + 1 := by
      unfold u32Bound at hmax
      rw [desiredCapacity]
      omega
    refine ⟨fun q hq hrecent => ?_, hdesired, by omega⟩
    rcases List.mem_append.mp hq with hq | hq
    · exact hbacked.window hlong hq (hlast q hq) hrecent
    · rw [List.mem_singleton.mp hq]
      exact htarget
  · obtain ⟨hfloor, hbelow, since, hsince, hlong⟩ := scaleOutPass_scaleIn hask
    have hbacked := hmarks.idle
    rw [hsince] at hbacked
    refine ⟨fun q hq hrecent => ?_, ?_, ?_⟩
    · rcases List.mem_append.mp hq with hq | hq
      · exact hbacked.window (idleWindow_le hlong) hq (hlast q hq) hrecent
      · rw [List.mem_singleton.mp hq]
        exact hbelow
    · rw [desiredCapacity]
      omega
    · rw [desiredCapacity]
      omega

/-! ## Runs written out -/

section

variable (record : DeclaredScaling)

/-- One pass after the other, with nothing in between. -/
def passedAll (s : LoopState) (ps : List LoopPass) : LoopState :=
  ps.foldl (fun s p =>
    { runtime := (scaleOutPass record s.runtime p).2, passes := s.passes ++ [p] }) s

variable {record}

theorem passedAll_passes (s : LoopState) (ps : List LoopPass) :
    (passedAll record s ps).passes = s.passes ++ ps := by
  induction ps using List.reverseRecOn with
  | nil => simp [passedAll]
  | append_singleton ps p ih =>
      rw [passedAll] at ih ⊢
      rw [List.foldl_append, List.foldl_cons, List.foldl_nil, ih, List.append_assoc]

theorem loopSys_passedAll {ps : List LoopPass} (h : ps.Pairwise (·.time ≤ ·.time)) :
    (loopSys record).Reachable (passedAll record {} ps) := by
  induction ps using List.reverseRecOn with
  | nil => exact .init rfl
  | append_singleton ps p ih =>
      obtain ⟨hps, -, hlast⟩ := List.pairwise_append.mp h
      refine .step (a := .pass p) (ih hps) ⟨fun q hq => ?_, ?_⟩
      · rw [passedAll_passes, List.nil_append] at hq
        exact hlast q hq p List.mem_cons_self
      · rw [passedAll, List.foldl_append]
        rfl

end

/-- At most three instances, a window of fifteen seconds. -/
def smallPool : DeclaredScaling where
  id := "org|app.example.com|"
  hostname := "app.example.com"
  min := 0
  cooldownSecs := 60
  orgId := none
  path := none
  url := "https://scale.example.com"
  secret := none
  max := 3
  coldStartSecs := 45
  targetUtilization := 4 / 5
  windowSecs := 15

/-- Saturated; then at the ceiling and idle, which the first sampler does not
see; then saturated once more. -/
def ceilingPasses : List LoopPass :=
  [{ now := ⟨100, by decide⟩, instances := 2, capacity := 20, utilization := 9 / 10 },
   { now := ⟨105, by decide⟩, instances := 3, capacity := 30, utilization := 1 / 10 }]

/-- Idle; then at the floor and busy, which the second sampler does not see;
then idle once more. -/
def floorPasses : List LoopPass :=
  [{ now := ⟨100, by decide⟩, instances := 2, capacity := 20, utilization := 1 / 10 },
   { now := ⟨105, by decide⟩, instances := 1, capacity := 10, utilization := 7 / 10 }]

def saturatedAgain : LoopPass :=
  { now := ⟨115, by decide⟩, instances := 2, capacity := 20, utilization := 9 / 10 }

def idleAgain : LoopPass :=
  { now := ⟨160, by decide⟩, instances := 2, capacity := 20, utilization := 1 / 10 }

/-- Marks go stale: an instance is asked for ten seconds after the pool was
idle, and one given back less than four windows after it was busy. -/
theorem stale_marks :
    ((loopSys smallPool).Reachable (passedAll smallPool {} ceilingPasses) ∧
      ¬FollowsLoad smallPool (passedAll smallPool {} ceilingPasses)) ∧
    (loopSys smallPool).Reachable (passedAll smallPool {} floorPasses) ∧
      ¬FollowsLoad smallPool (passedAll smallPool {} floorPasses) := by
  refine ⟨⟨loopSys_passedAll (by decide), fun h => ?_⟩, loopSys_passedAll (by decide), fun h => ?_⟩
  · have hask : (scaleOutPass smallPool (passedAll smallPool {} ceilingPasses).runtime
        saturatedAgain).1 = some .scaleOut := by decide +kernel
    have hsustained := ((h saturatedAgain (by decide +kernel)).1 hask).1
    revert hsustained
    decide +kernel
  · have hask : (scaleOutPass smallPool (passedAll smallPool {} floorPasses).runtime
        idleAgain).1 = some .scaleIn := by decide +kernel
    have hsustained := ((h idleAgain (by decide +kernel)).2.1 hask).1
    revert hsustained
    decide +kernel

/-- Saturated, and still saturated fifteen seconds later. -/
theorem sustained_load_saturated :
    (scaleOutPass smallPool (passedAll smallPool {} (ceilingPasses.take 1)).runtime
      saturatedAgain).1 = some .scaleOut ∧
    FollowsLoad smallPool (passedAll smallPool {} (ceilingPasses.take 1)) := by
  have hfirst : (observedSys smallPool).step {}
      (.pass { now := ⟨100, by decide⟩, instances := 2, capacity := 20, utilization := 9 / 10 })
      (passedAll smallPool {} (ceilingPasses.take 1)) := by
    refine ⟨⟨fun q hq => absurd hq List.not_mem_nil, rfl⟩, fun p _ => ?_⟩
    exact ⟨fun hmark => absurd hmark (by decide), fun hmark => absurd hmark (by decide)⟩
  exact ⟨by decide +kernel, sustained_load (by decide) (.step (.init rfl) hfirst)⟩

end Aperio
