import Mathlib.Algebra.GroupWithZero.Nat
import Mathlib.Data.List.AList
import Mathlib.Data.String.Basic
import Aperio.Text

/-!
# The statistics store

`StatsStore` of `store/stats.rs`. A request is counted in the aggregate and
again in its organization's slice, and in each of the two under its token and
its hostname, for all time and once more for every day and month. What an
operator has erased, and what is past its retention, has to go from all of
them.

The current period keys, and the key of the day a retention starts with, are
given from outside. When the rows are written to disk is left out.
-/

namespace Aperio

/-! ## Maps -/

abbrev StrMap (β : Type) := AList fun _ : String => β

namespace StrMap

variable {β : Type}

def mapValues (f : β → β) (m : StrMap β) : StrMap β where
  entries := m.entries.map fun e => ⟨e.1, f e.2⟩
  nodupKeys := by
    have hkeys : (m.entries.map fun e => (⟨e.1, f e.2⟩ : Sigma fun _ : String => β)).keys =
        m.entries.keys := by
      simp [List.keys, List.map_map, Function.comp_def]
    rw [List.NodupKeys, hkeys]
    exact m.nodupKeys

/-- Every value that is there. -/
def values (m : StrMap β) : List β :=
  m.entries.map (·.2)

theorem values_mapValues (f : β → β) (m : StrMap β) :
    (m.mapValues f).values = m.values.map f := by
  simp [values, mapValues, List.map_map, Function.comp_def]

/-- The entry, or a default one, changed. -/
def modifyD (m : StrMap β) (key : String) (default : β) (f : β → β) : StrMap β :=
  m.insert key (f ((m.lookup key).getD default))

end StrMap

/-! ## Counters -/

structure PeriodStats where
  requests : Nat := 0
  success : Nat := 0
  failed : Nat := 0
  bytesSent : Nat := 0
  bytesReceived : Nat := 0
  durationMs : Nat := 0
deriving Repr, DecidableEq

/-- What one request adds. -/
structure RequestSample where
  success : Bool
  bytesIn : Nat
  bytesOut : Nat
  durationMs : Nat

def PeriodStats.bump (p : PeriodStats) (r : RequestSample) : PeriodStats where
  requests := p.requests + 1
  success := if r.success then p.success + 1 else p.success
  failed := if r.success then p.failed else p.failed + 1
  bytesSent := p.bytesSent + r.bytesOut
  bytesReceived := p.bytesReceived + r.bytesIn
  durationMs := p.durationMs + r.durationMs

/-- What a label is of. -/
inductive LabelKind where
  | token
  | hostname
deriving DecidableEq

structure PersistentStats where
  totalRequests : Nat := 0
  totalSuccess : Nat := 0
  totalFailed : Nat := 0
  totalBytesSent : Nat := 0
  totalBytesReceived : Nat := 0
  totalRequestDurationMs : Nat := 0
  periods : StrMap PeriodStats := ∅
  byToken : StrMap PeriodStats := ∅
  byHostname : StrMap PeriodStats := ∅
  byTokenPeriods : StrMap (StrMap PeriodStats) := ∅
  byHostnamePeriods : StrMap (StrMap PeriodStats) := ∅

namespace PersistentStats

def labels (s : PersistentStats) : LabelKind → StrMap PeriodStats
  | .token => s.byToken
  | .hostname => s.byHostname

def setLabels (s : PersistentStats) (m : StrMap PeriodStats) : LabelKind → PersistentStats
  | .token => { s with byToken := m }
  | .hostname => { s with byHostname := m }

def labelPeriods (s : PersistentStats) : LabelKind → StrMap (StrMap PeriodStats)
  | .token => s.byTokenPeriods
  | .hostname => s.byHostnamePeriods

def setLabelPeriods (s : PersistentStats) (m : StrMap (StrMap PeriodStats)) :
    LabelKind → PersistentStats
  | .token => { s with byTokenPeriods := m }
  | .hostname => { s with byHostnamePeriods := m }

end PersistentStats

def labelCap : Nat := 200

/-- Labels that are one too many are counted together. -/
def bumpLabel (m : StrMap PeriodStats) (label : String) (r : RequestSample) :
    StrMap PeriodStats :=
  let key := if label ∈ m ∨ m.keys.length < labelCap then label else "__other"
  StrMap.modifyD m key {} (·.bump r)

/-! ## Recording -/

/-- `period_keys`: the current day, week, month and year. -/
structure PeriodKeys where
  day : String
  week : String
  month : String
  year : String

def PeriodKeys.all (keys : PeriodKeys) : List String :=
  [keys.day, keys.week, keys.month, keys.year]

namespace PersistentStats

/-- One label, for all time and for the day and the month. -/
def bumpLabels (s : PersistentStats) (kind : LabelKind) (keys : PeriodKeys) (r : RequestSample)
    (label : Option String) : PersistentStats :=
  match label with
  | none => s
  | some label =>
    let s := s.setLabels (bumpLabel (s.labels kind) label r) kind
    let dated := keys.all.filter fun key => startsWith key "d:" || startsWith key "m:"
    s.setLabelPeriods
      (dated.foldl (fun m key => StrMap.modifyD m key ∅ (bumpLabel · label r))
        (s.labelPeriods kind)) kind

def bumpStats (s : PersistentStats) (keys : PeriodKeys) (r : RequestSample)
    (token hostname : Option String) : PersistentStats :=
  let s := (s.bumpLabels .token keys r token).bumpLabels .hostname keys r hostname
  { s with
    totalRequests := s.totalRequests + 1
    totalSuccess := if r.success then s.totalSuccess + 1 else s.totalSuccess
    totalFailed := if r.success then s.totalFailed else s.totalFailed + 1
    totalBytesReceived := s.totalBytesReceived + r.bytesIn
    totalBytesSent := s.totalBytesSent + r.bytesOut
    totalRequestDurationMs := s.totalRequestDurationMs + r.durationMs
    periods := keys.all.foldl (fun m key => StrMap.modifyD m key {} (·.bump r)) s.periods }

end PersistentStats

def eraseAll {β : Type} (keys : List String) (m : StrMap β) : StrMap β :=
  keys.foldl (fun m key => m.erase key) m

theorem mem_eraseAll {β : Type} (keys : List String) (m : StrMap β) (key : String) :
    key ∈ eraseAll keys m ↔ key ∈ m ∧ key ∉ keys := by
  induction keys generalizing m with
  | nil => simp [eraseAll]
  | cons k rest ih =>
      have hstep : eraseAll (k :: rest) m = eraseAll rest (m.erase k) := rfl
      rw [hstep, ih, AList.mem_erase, List.mem_cons, not_or]
      tauto

def statsRetention : List (String × Nat) :=
  [("d:", 60), ("w:", 26), ("m:", 24), ("y:", 10)]

/-- Drops the oldest keys of a kind beyond what is kept. Keys of a kind sort
by date. -/
def dropOldest {β : Type} (kind : String) (keep : Nat) (m : StrMap β) : StrMap β :=
  let keys := (m.keys.filter (startsWith · kind)).mergeSort fun a b => decide (a ≤ b)
  eraseAll (keys.take (keys.length - keep)) m

def PersistentStats.prunePeriods (s : PersistentStats) : PersistentStats :=
  statsRetention.foldl (fun s (kind, keep) =>
    { s with
      periods := dropOldest kind keep s.periods
      byTokenPeriods := dropOldest kind keep s.byTokenPeriods
      byHostnamePeriods := dropOldest kind keep s.byHostnamePeriods }) s

/-- The store, and what it exports: the aggregate and the slice of each
organization. -/
structure PersistedStats where
  global : PersistentStats := {}
  byOrg : StrMap PersistentStats := ∅

def masterOrgKey : String := "master"

namespace PersistedStats

variable (S : PersistedStats)

def recordRequestLabeled (keys : PeriodKeys) (r : RequestSample)
    (token hostname org : Option String) : PersistedStats where
  global := (S.global.bumpStats keys r token hostname).prunePeriods
  byOrg := StrMap.modifyD S.byOrg (org.getD masterOrgKey) {} fun s =>
    (s.bumpStats keys r token hostname).prunePeriods

/-! ## Erasing -/

/-- Drops the rows of one label, and says how many there were. -/
def purge (kind : LabelKind) (label : String) : Nat × PersistedStats :=
  let drop (s : PersistentStats) := s.setLabels ((s.labels kind).erase label) kind
  ((S.global :: S.byOrg.values).countP fun s => decide (label ∈ s.labels kind),
    { global := drop S.global, byOrg := S.byOrg.mapValues drop })

def purgeHostname (hostname : String) : Nat × PersistedStats :=
  S.purge .hostname hostname

def purgeToken (token : String) : Nat × PersistedStats :=
  S.purge .token token

end PersistedStats

/-- A day before the one the retention starts with. -/
def oldDay (cutoffKey key : String) : Bool :=
  startsWith key "d:" && decide (key < cutoffKey)

namespace PersistedStats

variable (S : PersistedStats)

def pruneDayBucketsOlderThan (cutoffKey : String) : Nat × PersistedStats :=
  let old (s : PersistentStats) := s.periods.keys.filter (oldDay cutoffKey)
  let drop (s : PersistentStats) :=
    { s with periods := eraseAll (old s) s.periods }
  (((S.global :: S.byOrg.values).map fun s => (old s).length).sum,
    { global := drop S.global, byOrg := S.byOrg.mapValues drop })

/-! ## What erasing promises -/

/-- The aggregate and every organization's slice. -/
def slices : List PersistentStats :=
  S.global :: S.byOrg.values

/-- No map by this kind of label has a row of it, however it is written. -/
def Erased (kind : LabelKind) (label : String) : Prop :=
  ∀ s ∈ S.slices, (∀ key ∈ s.labels kind, eqIgnoreAsciiCase key label = false) ∧
    ∀ m ∈ (s.labelPeriods kind).values, ∀ key ∈ m, eqIgnoreAsciiCase key label = false

/-- No map has a bucket of a day that is past its retention. -/
def Pruned (cutoffKey : String) : Prop :=
  ∀ s ∈ S.slices, (∀ key ∈ s.periods, oldDay cutoffKey key = false) ∧
    ∀ kind, ∀ key ∈ s.labelPeriods kind, oldDay cutoffKey key = false

end PersistedStats

/-! ## What it reaches -/

namespace PersistedStats

variable {S : PersistedStats} {kind : LabelKind} {label cutoffKey : String}

theorem slices_map (S : PersistedStats) (f : PersistentStats → PersistentStats) :
    slices { global := f S.global, byOrg := S.byOrg.mapValues f } = S.slices.map f := by
  rw [slices, StrMap.values_mapValues]
  rfl

/-- The totals go, under the one spelling; the periods stay. -/
theorem purged_slice (s : PersistentStats) :
    (s.setLabels ((s.labels kind).erase label) kind).labels kind = (s.labels kind).erase label ∧
      (s.setLabels ((s.labels kind).erase label) kind).labelPeriods kind =
        s.labelPeriods kind := by
  cases kind <;> exact ⟨rfl, rfl⟩

theorem erased_iff : (S.purge kind label).2.Erased kind label ↔
    ∀ s ∈ S.slices,
      (∀ key ∈ s.labels kind, eqIgnoreAsciiCase key label = true → key = label) ∧
        ∀ m ∈ (s.labelPeriods kind).values, ∀ key ∈ m, eqIgnoreAsciiCase key label = false := by
  have hslices : (S.purge kind label).2.slices =
      S.slices.map fun s => s.setLabels ((s.labels kind).erase label) kind :=
    slices_map S fun s => s.setLabels ((s.labels kind).erase label) kind
  rw [Erased, hslices, List.forall_mem_map]
  refine forall₂_congr fun s _ => ?_
  obtain ⟨hlabels, hperiods⟩ := @purged_slice kind label s
  rw [hlabels, hperiods]
  refine and_congr_left fun _ => forall_congr' fun key => ?_
  rw [AList.mem_erase]
  constructor
  · intro h hkey hsame
    by_contra hne
    rw [h ⟨hne, hkey⟩] at hsame
    cases hsame
  · rintro h ⟨hne, hkey⟩
    cases hsame : eqIgnoreAsciiCase key label with
    | false => rfl
    | true => exact absurd (h hkey hsame) hne

theorem pruned_iff : (S.pruneDayBucketsOlderThan cutoffKey).2.Pruned cutoffKey ↔
    ∀ s ∈ S.slices, ∀ kind, ∀ key ∈ s.labelPeriods kind, oldDay cutoffKey key = false := by
  have hslices : (S.pruneDayBucketsOlderThan cutoffKey).2.slices = S.slices.map fun s =>
      { s with periods := eraseAll (s.periods.keys.filter (oldDay cutoffKey)) s.periods } :=
    slices_map S fun s =>
      { s with periods := eraseAll (s.periods.keys.filter (oldDay cutoffKey)) s.periods }
  rw [Pruned, hslices, List.forall_mem_map]
  refine forall₂_congr fun s _ => ?_
  have hgone : ∀ key ∈ eraseAll (s.periods.keys.filter (oldDay cutoffKey)) s.periods,
      oldDay cutoffKey key = false := by
    intro key hkey
    obtain ⟨hmem, hout⟩ := (mem_eraseAll _ _ _).mp hkey
    cases hold : oldDay cutoffKey key with
    | false => rfl
    | true => exact absurd (List.mem_filter.mpr ⟨AList.mem_keys.mp hmem, hold⟩) hout
  constructor
  · rintro ⟨-, h⟩ kind
    cases kind with
    | token => exact h .token
    | hostname => exact h .hostname
  · intro h
    refine ⟨hgone, fun kind => ?_⟩
    cases kind with
    | token => exact h .token
    | hostname => exact h .hostname

/-- **Erasing reaches the totals under one spelling, and retention the
unlabelled buckets**: they keep their promise exactly where there is nothing
else to reach. -/
theorem erasure_iff (S : PersistedStats) (kind : LabelKind) (label cutoffKey : String) :
    ((S.purge kind label).2.Erased kind label ↔
      ∀ s ∈ S.slices,
        (∀ key ∈ s.labels kind, eqIgnoreAsciiCase key label = true → key = label) ∧
          ∀ m ∈ (s.labelPeriods kind).values, ∀ key ∈ m,
            eqIgnoreAsciiCase key label = false) ∧
    ((S.pruneDayBucketsOlderThan cutoffKey).2.Pruned cutoffKey ↔
      ∀ s ∈ S.slices, ∀ kind, ∀ key ∈ s.labelPeriods kind, oldDay cutoffKey key = false) :=
  ⟨erased_iff, pruned_iff⟩

end PersistedStats

/-! ## One request -/

/-- A request for a site, counted on one day. -/
def countedOnce : PersistedStats :=
  ({} : PersistedStats).recordRequestLabeled ⟨"d:2026-01-02", "w:2026-W01", "m:2026-01", "y:2026"⟩
    ⟨true, 1, 2, 3⟩ (some "Alice") (some "app.test") none

/-- Its hostname and its day are still there afterwards, and so is its token,
asked for as the erasing writes it. -/
theorem counted_after_erasing :
    ¬(countedOnce.purgeHostname "app.test").2.Erased .hostname "app.test" ∧
      ¬(countedOnce.purgeToken "alice").2.Erased .token "alice" ∧
      ¬(countedOnce.pruneDayBucketsOlderThan "d:2026-12-31").2.Pruned "d:2026-12-31" := by
  refine ⟨fun h => ?_, fun h => ?_, fun h => ?_⟩
  · obtain ⟨day, hday, hkept⟩ : ∃ day ∈ (countedOnce.global.labelPeriods .hostname).values,
        "app.test" ∈ day := by decide +kernel
    have hgone := (PersistedStats.erased_iff.mp h countedOnce.global List.mem_cons_self).2
      day hday "app.test" hkept
    exact absurd hgone (by decide)
  · have htotals := (PersistedStats.erased_iff.mp h countedOnce.global List.mem_cons_self).1
      "Alice" (by decide +kernel) (by decide +kernel)
    exact absurd htotals (by decide)
  · have hday := PersistedStats.pruned_iff.mp h countedOnce.global List.mem_cons_self .token
      "d:2026-01-02" (by decide +kernel)
    exact absurd hday (by decide +kernel)

end Aperio
