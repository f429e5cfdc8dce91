import Aperio.SiteAnswers
import Mathlib.Order.Bounds.Basic

/-!
# Maintenance windows around a clock change

`Window::active_until` of `sites/maintenance.rs` over a time zone that is an
offset with finitely many jumps. Whether a window runs is read off the local
time; where it ends is the first instant the local clock shows its end, and a
jump can skip that, repeat it, or set the clock out of the window in between.
`maintenance_covers_iff` says that nothing else goes wrong.
-/

namespace Aperio

/-! ## Zones -/

/-- The offset before the first jump, and each jump with the offset from its
instant on. -/
structure OffsetZone where
  base : Int
  jumps : List (Int × Int) := []
  ordered : jumps.Pairwise fun a b => a.1 < b.1 := by decide

namespace OffsetZone

def offsetFrom (offset : Int) : List (Int × Int) → Int → Int
  | [], _ => offset
  | (jump, next) :: rest, t => if t < jump then offset else offsetFrom next rest t

/-- The local date and time at an instant, as seconds. -/
def localSecond (z : OffsetZone) (t : Int) : Int :=
  t + offsetFrom z.base z.jumps t

def earliestFrom (since : Option Int) (offset : Int) : List (Int × Int) → Int → Option Int
  | [], shown => if since.all (· ≤ shown - offset) then some (shown - offset) else none
  | (jump, next) :: rest, shown =>
    if since.all (· ≤ shown - offset) ∧ shown - offset < jump then some (shown - offset)
    else earliestFrom (some jump) next rest shown

/-- `from_local_datetime` and `earliest`. -/
def earliest (z : OffsetZone) (shown : Int) : Option Int :=
  earliestFrom none z.base z.jumps shown

/-- The instants from `since` on at which the clock shows a time. -/
def Shows (since : Option Int) (offset : Int) (jumps : List (Int × Int)) (shown : Int) : Set Int :=
  {t | since.all (· ≤ t) = true ∧ t + offsetFrom offset jumps t = shown}

variable {since : Option Int} {offset : Int} {jumps : List (Int × Int)} {shown t : Int}

theorem shows_cons {jump next : Int} (hsince : ∀ b ∈ since, b < jump)
    (hskip : ¬ (since.all (· ≤ shown - offset) ∧ shown - offset < jump)) :
    Shows since offset ((jump, next) :: jumps) shown = Shows (some jump) next jumps shown := by
  ext t
  simp only [Shows, Set.mem_ofPred_eq, offsetFrom, Option.all_some, decide_eq_true_eq]
  constructor
  · rintro ⟨hfrom, hshown⟩
    by_cases ht : t < jump
    · rw [if_pos ht] at hshown
      obtain rfl : t = shown - offset := by omega
      exact absurd ⟨hfrom, ht⟩ hskip
    · rw [if_neg ht] at hshown
      exact ⟨by omega, hshown⟩
  · rintro ⟨hjump, hshown⟩
    refine ⟨?_, by rwa [if_neg (by omega)]⟩
    cases since with
    | none => rfl
    | some b =>
        have hb := hsince b rfl
        simp only [Option.all_some, decide_eq_true_eq]
        omega

theorem earliestFrom_spec (hordered : jumps.Pairwise fun a b => a.1 < b.1)
    (hsince : ∀ b ∈ since, ∀ j ∈ jumps, b < j.1) :
    match earliestFrom since offset jumps shown with
    | some t => IsLeast (Shows since offset jumps shown) t
    | none => Shows since offset jumps shown = ∅ := by
  induction jumps generalizing since offset with
  | nil =>
      unfold earliestFrom
      by_cases hfrom : since.all (· ≤ shown - offset) = true
      · rw [if_pos hfrom]
        refine ⟨⟨hfrom, by simp [offsetFrom]⟩, ?_⟩
        rintro u ⟨-, hu⟩
        simp only [offsetFrom] at hu
        omega
      · rw [if_neg hfrom]
        rw [Set.eq_empty_iff_forall_notMem]
        rintro u ⟨hu, hshown⟩
        simp only [offsetFrom] at hshown
        obtain rfl : u = shown - offset := by omega
        exact hfrom hu
  | cons j rest ih =>
      obtain ⟨jump, next⟩ := j
      obtain ⟨hfirst, hrest⟩ := List.pairwise_cons.mp hordered
      unfold earliestFrom
      by_cases hhere : since.all (· ≤ shown - offset) ∧ shown - offset < jump
      · rw [if_pos hhere]
        refine ⟨⟨hhere.1, by simp [offsetFrom, hhere.2]⟩, ?_⟩
        rintro u ⟨-, hu⟩
        simp only [offsetFrom] at hu
        split at hu <;> omega
      · rw [if_neg hhere, shows_cons (fun b hb => hsince b hb _ List.mem_cons_self) hhere]
        exact ih hrest fun b hb j hj => by
          obtain rfl := Option.some.inj hb
          exact hfirst j hj

/-- The clock shows the time at this instant and at none before. -/
def FirstShown (z : OffsetZone) (shown t : Int) : Prop :=
  IsLeast {u | z.localSecond u = shown} t

variable {z : OffsetZone}

theorem shows_none : Shows none z.base z.jumps shown = {u | z.localSecond u = shown} := by
  ext u
  simp [Shows, localSecond]

theorem earliest_eq_some : z.earliest shown = some t ↔ z.FirstShown shown t := by
  have hspec := @earliestFrom_spec none z.base z.jumps shown z.ordered (by simp)
  rw [shows_none] at hspec
  unfold earliest FirstShown
  cases hearliest : earliestFrom none z.base z.jumps shown with
  | none =>
      rw [hearliest] at hspec
      simp only [reduceCtorEq, false_iff, hspec]
      rintro ⟨hmem, -⟩
      exact hmem
  | some u =>
      rw [hearliest] at hspec
      rw [Option.some.injEq]
      constructor
      · rintro rfl
        exact hspec
      · exact hspec.unique

/-- Between two jumps the clock runs. -/
theorem localSecond_succ (hjump : ∀ j ∈ z.jumps, j.1 ≠ t + 1) :
    z.localSecond (t + 1) = z.localSecond t + 1 := by
  have hoffset : ∀ offset (jumps : List (Int × Int)), (∀ j ∈ jumps, j.1 ≠ t + 1) →
      offsetFrom offset jumps (t + 1) = offsetFrom offset jumps t := by
    intro offset jumps h
    induction jumps generalizing offset with
    | nil => rfl
    | cons j rest ih =>
        have hne := h j List.mem_cons_self
        unfold offsetFrom
        by_cases ht : t < j.1
        · rw [if_pos ht, if_pos (by omega)]
        · rw [if_neg ht, if_neg (by omega)]
          exact ih _ fun j hj => h j (List.mem_cons_of_mem _ hj)
  rw [localSecond, localSecond, hoffset _ _ hjump]
  omega

end OffsetZone

/-! ## Windows -/

/-- A time of day; a leap second stands behind the second it is written after. -/
structure NaiveTime where
  second : Nat
  leap : Bool := false
  lt : second < 86400 := by decide
deriving DecidableEq

namespace NaiveTime

def before (a b : NaiveTime) : Bool :=
  decide (a.second < b.second) || (a.second == b.second && !a.leap && b.leap)

/-- The time of day of a local second. -/
def ofLocal (shown : Int) : NaiveTime where
  second := (shown % 86400).toNat
  lt := by omega

/-- The first whole second that is not before the time. -/
def key (a : NaiveTime) : Nat :=
  if a.leap then a.second + 1 else a.second

theorem before_ofLocal {shown : Int} {a : NaiveTime} :
    (ofLocal shown).before a = true ↔ shown % 86400 < a.key := by
  unfold before ofLocal key
  cases a.leap <;> simp <;> omega

theorem not_before_ofLocal {shown : Int} {a : NaiveTime} :
    (ofLocal shown).before a = false ↔ a.key ≤ shown % 86400 := by
  rw [Bool.eq_false_iff, ne_eq, before_ofLocal, not_lt]

theorem key_le_of_not_before {a b : NaiveTime} (h : a.before b = false) : b.key ≤ a.key := by
  unfold before at h
  unfold key
  cases ha : a.leap <;> cases hb : b.leap <;> simp [ha, hb] at h ⊢ <;> omega

theorem key_bounds (a : NaiveTime) :
    a.second ≤ a.key ∧ a.key ≤ a.second + 1 ∧ a.key ≤ 86400 := by
  have hlt := a.lt
  unfold key
  split <;> omega

end NaiveTime

/-- A compiled window; `compile` refuses two times that are the same. -/
structure ZonedWindow where
  start : NaiveTime
  stop : NaiveTime
  days : List Weekday := []
  tz : OffsetZone
  reason : Option String := none
  distinct : start ≠ stop := by decide

namespace ZonedWindow

variable (w : ZonedWindow)

def listed (day : Int) : Bool :=
  w.days.isEmpty || w.days.contains (.ofDay day)

/-- The unix second of a local time; a leap second has none of its own. -/
def instantOf (day : Int) (time : NaiveTime) : Option Nat :=
  (w.tz.earliest (day * 86400 + time.second)).map Int.toNat

def activeUntil (nowSecs : Nat) : Option Nat :=
  let shown := w.tz.localSecond nowSecs
  let today := shown / 86400
  let time := NaiveTime.ofLocal shown
  if w.start.before w.stop then
    if w.listed today && !time.before w.start && time.before w.stop then w.instantOf today w.stop
    else none
  else if w.listed today && !time.before w.start then w.instantOf (today + 1) w.stop
  else if w.listed (today - 1) && time.before w.stop then w.instantOf today w.stop
  else none

/-- The same window over seconds alone. -/
def seconds : MaintenanceWindow where
  start := w.start.second
  stop := w.stop.second
  days := w.days
  tz :=
    { localAt := fun t =>
        some (w.tz.localSecond t / 86400, (w.tz.localSecond t % 86400).toNat)
      earliest := fun day time => w.tz.earliest (day * 86400 + time) }
  reason := w.reason

/-! ## Compiling -/

structure MaintenanceSchedule where
  days : Option (List String) := none
  starts : String
  ends : String
  tz : Option String := none
  reason : Option String := none

def parseDay (text : String) : Option Weekday :=
  match toAsciiLowercase (trim text) with
  | "mon" | "monday" => some .mon
  | "tue" | "tues" | "tuesday" => some .tue
  | "wed" | "weds" | "wednesday" => some .wed
  | "thu" | "thur" | "thurs" | "thursday" => some .thu
  | "fri" | "friday" => some .fri
  | "sat" | "saturday" => some .sat
  | "sun" | "sunday" => some .sun
  | _ => none

/-- The days of a list, each once. -/
def parseDays (place : String) (days : List Weekday) : List String → Except String (List Weekday)
  | [] => .ok days
  | text :: rest =>
    match parseDay text with
    | none => .error (place ++ ": `" ++ toAsciiLowercase (trim text) ++ "` is not a weekday")
    | some day => parseDays place (if days.contains day then days else days ++ [day]) rest

/-- `parseTime` reads `%H:%M` or `%H:%M:%S`, `parseZone` a name of the zone
database. -/
def compile (parseTime : String → Option NaiveTime) (parseZone : String → Option OffsetZone)
    (schedule : MaintenanceSchedule) (place : String) : Except String ZonedWindow :=
  match parseTime (trim schedule.starts) with
  | none => .error (place ++ ": `from: " ++ schedule.starts ++ "` is not HH:MM")
  | some start =>
    match parseTime (trim schedule.ends) with
    | none => .error (place ++ ": `to: " ++ schedule.ends ++ "` is not HH:MM")
    | some stop =>
      if h : start = stop then
        .error (place ++ ": `from` and `to` are the same time, which is either an empty window " ++
          "or a whole day; write 00:00 to 23:59 if you meant all day")
      else
        match (schedule.tz.map trim).filter (· ≠ "") with
        | none => (parseDays place [] (schedule.days.getD [])).map fun days =>
            { start, stop, days, tz := { base := 0 }, distinct := h
              reason := schedule.reason.filter (trim · ≠ "") }
        | some name =>
          match parseZone name with
          | none => .error (place ++ ": `tz: " ++ name ++
              "` is not an IANA time zone (e.g. Europe/Istanbul)")
          | some tz => (parseDays place [] (schedule.days.getD [])).map fun days =>
              { start, stop, days, tz, distinct := h
                reason := schedule.reason.filter (trim · ≠ "") }

/-! ## Where a window runs -/

/-- The day the window that starts on `day` ends on. -/
def endDay (day : Int) : Int :=
  if w.start.before w.stop then day else day + 1

/-- The local time is in the window that starts on this listed day. -/
structure Runs (day shown : Int) : Prop where
  listed : w.listed day = true
  started : day * 86400 + w.start.key ≤ shown
  stops : shown < w.endDay day * 86400 + w.stop.key

/-- What the clock shows when the window that started on `day` ends. -/
def endShown (day : Int) : Int :=
  w.endDay day * 86400 + w.stop.second

variable {w} {day : Int} {nowSecs : Nat}

theorem Runs.day_eq {shown : Int} (h : w.Runs day shown) :
    day = shown / 86400 ∨ w.start.before w.stop = false ∧ day = shown / 86400 - 1 := by
  obtain ⟨-, hstart, hstop⟩ := h
  have hkey := w.stop.key_bounds
  unfold endDay at hstop
  cases hwrap : w.start.before w.stop with
  | true =>
      rw [if_pos hwrap] at hstop
      left
      omega
  | false =>
      rw [hwrap, if_neg Bool.false_ne_true] at hstop
      have hcases : day = shown / 86400 ∨ day = shown / 86400 - 1 := by omega
      exact hcases.imp_right fun h => ⟨rfl, h⟩

/-- A running window answers with the first instant its end is shown at. -/
theorem activeUntil_of_runs (h : w.Runs day (w.tz.localSecond nowSecs)) :
    w.activeUntil nowSecs = (w.tz.earliest (w.endShown day)).map Int.toNat := by
  have hday := h.day_eq
  obtain ⟨hlisted, hstart, hstop⟩ := h
  unfold activeUntil endShown
  unfold endDay at hstop ⊢
  dsimp only
  generalize w.tz.localSecond nowSecs = shown at *
  have hkeys := @NaiveTime.key_le_of_not_before w.start w.stop
  have hbounds := w.stop.key_bounds
  cases hwrap : w.start.before w.stop with
  | true =>
      rw [if_pos hwrap] at hstop
      obtain rfl : day = shown / 86400 := by
        rcases hday with hday | ⟨hfalse, -⟩
        · exact hday
        · rw [hwrap] at hfalse
          cases hfalse
      have hafter : (NaiveTime.ofLocal shown).before w.start = false := by
        rw [NaiveTime.not_before_ofLocal]
        omega
      have hbefore : (NaiveTime.ofLocal shown).before w.stop = true := by
        rw [NaiveTime.before_ofLocal]
        omega
      simp [hlisted, hafter, hbefore, instantOf]
  | false =>
      have hkey := hkeys hwrap
      rw [hwrap, if_neg Bool.false_ne_true] at hstop
      rcases hday with rfl | ⟨-, rfl⟩
      · have hafter : (NaiveTime.ofLocal shown).before w.start = false := by
          rw [NaiveTime.not_before_ofLocal]
          omega
        simp [hlisted, hafter, instantOf]
      · have hbefore : (NaiveTime.ofLocal shown).before w.stop = true := by
          rw [NaiveTime.before_ofLocal]
          omega
        have hyet : (NaiveTime.ofLocal shown).before w.start = true := by
          rw [NaiveTime.before_ofLocal]
          omega
        simp [hlisted, hbefore, hyet, instantOf]

theorem runs_of_activeUntil (h : (w.activeUntil nowSecs).isSome) :
    ∃ day, w.Runs day (w.tz.localSecond nowSecs) := by
  unfold activeUntil at h
  dsimp only at h
  generalize w.tz.localSecond nowSecs = shown at *
  have hbounds := w.stop.key_bounds
  cases hwrap : w.start.before w.stop with
  | true =>
      rw [hwrap, if_pos rfl] at h
      split at h
      · rename_i hcond
        simp only [Bool.and_eq_true, Bool.not_eq_true', NaiveTime.not_before_ofLocal,
          NaiveTime.before_ofLocal] at hcond
        refine ⟨shown / 86400, hcond.1.1, by omega, ?_⟩
        rw [endDay, if_pos hwrap]
        omega
      · cases h
  | false =>
      rw [hwrap, if_neg Bool.false_ne_true] at h
      split at h
      · rename_i hcond
        simp only [Bool.and_eq_true, Bool.not_eq_true', NaiveTime.not_before_ofLocal] at hcond
        refine ⟨shown / 86400, hcond.1, by omega, ?_⟩
        rw [endDay, hwrap, if_neg Bool.false_ne_true]
        omega
      · split at h
        · rename_i hcond
          simp only [Bool.and_eq_true, NaiveTime.before_ofLocal] at hcond
          have hkey := w.start.key_bounds
          refine ⟨shown / 86400 - 1, hcond.1, by omega, ?_⟩
          rw [endDay, hwrap, if_neg Bool.false_ne_true]
          omega
        · cases h

/-- The window that runs is the one: no two days' windows overlap. -/
theorem Runs.unique {shown : Int} {day' : Int} (h : w.Runs day shown) (h' : w.Runs day' shown) :
    day = day' := by
  have hday := h.day_eq
  have hday' := h'.day_eq
  have hkeys := @NaiveTime.key_le_of_not_before w.start w.stop
  obtain ⟨-, hstart, hstop⟩ := h
  obtain ⟨-, hstart', hstop'⟩ := h'
  unfold endDay at hstop hstop'
  cases hwrap : w.start.before w.stop with
  | true =>
      rw [hwrap] at hday hday'
      simp only [Bool.true_eq_false, false_and, or_false] at hday hday'
      rw [hday, hday']
  | false =>
      have hkey := hkeys hwrap
      rw [hwrap, if_neg Bool.false_ne_true] at hstop hstop'
      omega

/-! ## What a clock change does -/

/-- The clock gets to the window's end, for the first time, after `t`, and no
jump before that sets it out of the window. -/
def Reaches (w : ZonedWindow) (day t : Int) : Prop :=
  ∃ stop, w.tz.FirstShown (w.endShown day) stop ∧ t < stop ∧
    ∀ j ∈ w.tz.jumps, t < j.1 → j.1 < stop → w.Runs day (w.tz.localSecond j.1)

/-- Second by second, a window whose end is still to come runs on. -/
theorem Runs.until {t stop : Int} (hruns : w.Runs day (w.tz.localSecond t))
    (hfirst : w.tz.FirstShown (w.endShown day) stop)
    (hjumps : ∀ j ∈ w.tz.jumps, t < j.1 → j.1 < stop → w.Runs day (w.tz.localSecond j.1))
    (n : Nat) (hn : t + n < stop) : w.Runs day (w.tz.localSecond (t + n)) := by
  induction n with
  | zero =>
      rw [Nat.cast_zero, add_zero]
      exact hruns
  | succ n ih =>
      have hbefore := ih (by omega)
      have hcast : t + (n + 1 : Nat) = t + n + 1 := by omega
      rw [hcast]
      by_cases hjump : ∃ j ∈ w.tz.jumps, j.1 = t + n + 1
      · obtain ⟨j, hj, heq⟩ := hjump
        rw [← heq]
        exact hjumps j hj (by omega) (by omega)
      · have hnot : ∀ j ∈ w.tz.jumps, j.1 ≠ t + n + 1 := fun j hj heq => hjump ⟨j, hj, heq⟩
        rw [OffsetZone.localSecond_succ hnot]
        obtain ⟨hlisted, hstart, hstop⟩ := hbefore
        refine ⟨hlisted, by omega, ?_⟩
        -- The end would have been shown before the instant it is first shown at.
        by_contra hend
        have hbounds := w.stop.key_bounds
        have hshown : w.tz.localSecond (t + n) = w.endShown day ∨
            w.tz.localSecond (t + n + 1) = w.endShown day := by
          rw [OffsetZone.localSecond_succ hnot, endShown]
          omega
        rcases hshown with hshown | hshown
        · have hle := hfirst.2 hshown
          omega
        · have hle := hfirst.2 hshown
          omega

/-- The local time is in the window of some listed day. -/
def Active (w : ZonedWindow) (t : Int) : Prop :=
  ∃ day, w.Runs day (w.tz.localSecond t)

/-- The window is found running exactly when it runs, and runs until the end
that is answered, if and only if the clock gets to the end of the window it is
in: not skipped, not shown before, and without a jump out of the window. -/
theorem maintenance_covers_iff (w : ZonedWindow) (t : Nat) :
    (((w.activeUntil t).isSome ↔ w.Active t) ∧
      ∀ stop, w.activeUntil t = some stop → t < stop ∧
        ∃ day, ∀ u : Nat, t ≤ u → u < stop → w.Runs day (w.tz.localSecond u)) ↔
    ∀ day, w.Runs day (w.tz.localSecond t) → w.Reaches day t := by
  constructor
  · rintro ⟨hsome, hstop⟩ day hruns
    have hactive := activeUntil_of_runs hruns
    obtain ⟨stop, heq⟩ := Option.isSome_iff_exists.mp (hsome.mpr ⟨day, hruns⟩)
    obtain ⟨hlt, day', hcovers⟩ := hstop stop heq
    rw [heq] at hactive
    obtain ⟨e, hearliest, he⟩ := Option.map_eq_some_iff.mp hactive.symm
    obtain rfl := (hcovers t le_rfl hlt).unique hruns
    refine ⟨e, OffsetZone.earliest_eq_some.mp hearliest, by omega, ?_⟩
    intro j hj hafter hbefore
    have hu := hcovers j.1.toNat (by omega) (by omega)
    rwa [Int.toNat_of_nonneg (by omega)] at hu
  · intro h
    have hsome : (w.activeUntil t).isSome ↔ w.Active t := by
      constructor
      · exact runs_of_activeUntil
      · rintro ⟨day, hruns⟩
        obtain ⟨e, hfirst, -⟩ := h day hruns
        rw [activeUntil_of_runs hruns, OffsetZone.earliest_eq_some.mpr hfirst]
        rfl
    refine ⟨hsome, ?_⟩
    intro stop heq
    obtain ⟨day, hruns⟩ := hsome.mp (by rw [heq]; rfl)
    obtain ⟨e, hfirst, hlt, hjumps⟩ := h day hruns
    rw [activeUntil_of_runs hruns, OffsetZone.earliest_eq_some.mpr hfirst] at heq
    obtain rfl := Option.some.inj heq
    refine ⟨by omega, day, ?_⟩
    intro u hfrom hbefore
    have hu := hruns.until hfirst hjumps (u - t) (by omega)
    have hcast : (t : Int) + (u - t : Nat) = u := by omega
    rwa [hcast] at hu

/-! ## Clocks that jump -/

/-- A clock set forward at 02:00 on the first day and back at 03:00 on the third. -/
def summerTime : OffsetZone where
  base := 0
  jumps := [(7200, 3600), (180000, 0)]

def from0100to0230 : ZonedWindow where
  start := { second := 3600 }
  stop := { second := 9000 }
  tz := summerTime

/-- An end in the skipped hour is never shown, and the window is not found;
one in the repeated hour is over when the clock shows the window again. -/
theorem window_at_the_jump :
    (from0100to0230.Active 5400 ∧ from0100to0230.activeUntil 5400 = none) ∧
    (from0100to0230.Active 180600 ∧ from0100to0230.activeUntil 180600 = some 178200) := by
  refine ⟨⟨⟨0, ?_⟩, by decide⟩, ⟨⟨2, ?_⟩, by decide⟩⟩
  · exact ⟨by decide, by decide, by decide⟩
  · exact ⟨by decide, by decide, by decide⟩

end ZonedWindow

end Aperio
