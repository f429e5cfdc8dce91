import Aperio.AuditChain
import Aperio.AuditJson
import Aperio.Lineage

/-!
# What tampering shows

The lines of a log that was only ever recorded to are one lineage, whatever
files rotation spread them over: each names the one before it by hash. The
check reads file by file, and a line is vouched for by the next one of its
file only. So a change shows at every line that has a neighbour on both
sides; at the last line of a generation it shows only if it was made
carelessly, and the first line of a file can be taken out.

`verify_edit_iff` says for every change of one line whether it is found.
-/

namespace Aperio

variable {fmt : AuditFormat}

/-! ## Logs on record -/

/-- A log that was recorded to and rotated, and every line written to it, in
order. -/
inductive Recording (fmt : AuditFormat) : AuditState → List String → Prop
  | start (maxSize maxFiles : Nat) : Recording fmt (AuditState.load fmt {} maxSize maxFiles) []
  | written {s : AuditState} {w : List String} (call : AuditCall) (io : RotateIo)
      (h : Recording fmt s w) :
      Recording fmt (s.record fmt call .written io) (w ++ [s.lineFor fmt call])
  | failed {s : AuditState} {w : List String} (call : AuditCall) (created : Bool) (io : RotateIo)
      (h : Recording fmt s w) : Recording fmt (s.record fmt call (.failed created) io) w
  | setRotation {s : AuditState} {w : List String} (maxSize maxFiles : Nat)
      (h : Recording fmt s w) : Recording fmt (s.setRotation maxSize maxFiles) w

/-- Every generation is still on disk: between them and the active file they
hold all that was written. -/
def AuditDir.Holds (dir : AuditDir) (w : List String) : Prop :=
  ∃ gens : List String, dir.generations = gens.map some ∧
    gens.reverse.flatMap lines ++ lines (dir.active.getD "") = w

/-! ## Changes -/

/-- A change of one line. -/
inductive LineEdit where
  | replace (text : String)
  | delete
deriving Repr, DecidableEq

/-- What stands in the file in place of the line. -/
def LineEdit.text : LineEdit → String
  | .replace text => text ++ "\n"
  | .delete => ""

/-- The lines the check finds there. -/
def LineEdit.reads (edit : LineEdit) : List String :=
  logLines edit.text

/-- The file with the line between `pre` and `post` changed. -/
def AuditDir.edit (dir : AuditDir) (file : AuditFile) (pre : List String) (edit : LineEdit)
    (post : List String) : AuditDir :=
  dir.put file (some (linesText pre ++ (edit.text ++ linesText post)))

/-- The changes nobody is promised to see: at the newest line of the active
file, and the oldest line retained gone. -/
def Exempt (w : List String) (file : AuditFile) (l : String) (post : List String)
    (edit : LineEdit) : Prop :=
  (file = .active ∧ post = []) ∨ (edit = .delete ∧ w.head? = some l)

/-- The lines written before `l`. -/
def writtenBefore (w : List String) (l : String) : List String :=
  w.takeWhile (· != l)

/-- What must be read in place of `l` for a change to show. At the end of a
file: an event that does not follow. At its beginning: anything but the
lines that led up to `l`, or the last few of them, or none. In between:
anything but `l`. -/
def Evident (fmt : AuditFormat) (w pre : List String) (l : String) (post : List String)
    (edit : LineEdit) : Prop :=
  match pre, post with
  | _, [] => ¬ Follows fmt pre.getLast? edit.reads
  | [], _ :: _ => ¬ edit.reads <:+ writtenBefore w l ++ [l]
  | _ :: _, _ :: _ => edit.reads ≠ [l]

/-! ## The lineage of a log -/

/-- What is known of a log on record. -/
structure OnRecord (fmt : AuditFormat) (s : AuditState) (w : List String) : Prop where
  sound : s.Sound fmt
  recorded : ∀ l ∈ w, RecordedLine fmt l
  chain : w.IsChain (Links fmt)
  genesis : ∀ l ∈ w.head?, ∃ ev, fmt.fromJson l = some ev ∧ ev.prev = genesisHash
  lastHash : s.log.lastHash = (w.getLast?.map fmt.lineHash).getD genesisHash

theorem record_written_lastHash (s : AuditState) (call : AuditCall) (io : RotateIo) :
    (s.record fmt call .written io).log.lastHash = fmt.lineHash (s.lineFor fmt call) := by
  simp only [AuditState.record]
  split
  · exact (AuditState.rotate_spec _ io).2.2
  · rfl

theorem Recording.onRecord {s : AuditState} {w : List String} (h : Recording fmt s w) :
    OnRecord fmt s w := by
  induction h with
  | start maxSize maxFiles =>
      exact ⟨AuditState.sound_run fmt maxSize maxFiles [], fun _ hl => absurd hl List.not_mem_nil,
        List.IsChain.nil, fun _ hl => (by cases hl), rfl⟩
  | @written s w call io _ ih =>
      have hev : fmt.fromJson (s.lineFor fmt call) = some (call.eventAfter s.log.lastHash) :=
        fmt.fromJson_toJson _
      refine ⟨ih.sound.record call .written io, ?_, ?_, ?_, ?_⟩
      · intro l hl
        rcases List.mem_append.mp hl with hold | hnew
        · exact ih.recorded l hold
        · exact ⟨_, List.mem_singleton.mp hnew⟩
      · refine ih.chain.append (List.IsChain.singleton _) ?_
        intro a ha b hb
        obtain rfl : s.lineFor fmt call = b := by simpa using hb
        refine ⟨_, hev, ?_⟩
        show s.log.lastHash = _
        rw [ih.lastHash, Option.mem_def.mp ha]
        rfl
      · intro l hl
        cases w with
        | nil =>
            obtain rfl : s.lineFor fmt call = l := by simpa using hl
            exact ⟨_, hev, ih.lastHash⟩
        | cons a as => exact ih.genesis l hl
      · rw [record_written_lastHash, List.getLast?_concat]
        rfl
  | failed call created io _ ih =>
      exact ⟨ih.sound.record call (.failed created) io, ih.recorded, ih.chain, ih.genesis,
        ih.lastHash⟩
  | setRotation maxSize maxFiles _ ih =>
      exact ⟨ih.sound.step (.setRotation maxSize maxFiles), ih.recorded, ih.chain, ih.genesis,
        ih.lastHash⟩

/-- One line passes after another. -/
def PassesAfter (fmt : AuditFormat) (a b : String) : Prop :=
  Passes fmt (some a) b

theorem Links.onlyBefore (hinj : Function.Injective fmt.lineHash) {a b : String}
    (h : Links fmt a b) : OnlyBefore (PassesAfter fmt) a b := by
  refine ⟨h.passes, ?_⟩
  rintro a' ⟨ev', hev', hpass⟩
  obtain ⟨ev, hev, hprev⟩ := h
  obtain rfl : ev = ev' := Option.some.inj (hev.symm.trans hev')
  rw [hprev] at hpass
  rcases hpass with hempty | hhash
  · exact absurd hempty (fmt.hash_ne_empty a)
  · exact (hinj (hhash a' rfl)).symm

theorem OnRecord.lineage {s : AuditState} {w : List String} (h : OnRecord fmt s w)
    (hinj : Function.Injective fmt.lineHash) : Lineage (PassesAfter fmt) w := by
  refine ⟨h.chain.imp fun a b hab => hab.onlyBefore hinj, ?_⟩
  rintro r hr a ⟨ev', hev', hpass⟩
  obtain ⟨ev, hev, hprev⟩ := h.genesis r hr
  obtain rfl : ev = ev' := Option.some.inj (hev.symm.trans hev')
  rw [hprev] at hpass
  rcases hpass with hempty | hhash
  · exact absurd hempty (by decide)
  · exact fmt.hash_ne_genesis a (hhash a rfl).symm

/-! ## Lines that follow -/

theorem follows_append {before : Option String} {xs ys : List String} :
    Follows fmt before (xs ++ ys) ↔
      Follows fmt before xs ∧ Follows fmt (xs.getLast?.or before) ys := by
  induction xs generalizing before with
  | nil => simp [Follows]
  | cons x xs ih =>
      rw [List.cons_append, Follows, Follows, ih, and_assoc]
      have hlast : (x :: xs).getLast?.or before = xs.getLast?.or (some x) := by
        cases xs using List.reverseRecOn with
        | nil => rfl
        | append_singleton xs y =>
            rw [← List.cons_append, List.getLast?_concat, List.getLast?_concat]
            rfl
      rw [hlast]

theorem follows_some_iff {a : String} {ls : List String} :
    Follows fmt (some a) ls ↔ (a :: ls).IsChain (PassesAfter fmt) := by
  induction ls generalizing a with
  | nil => simp [Follows]
  | cons b bs ih =>
      rw [Follows, ih, List.isChain_cons_cons]
      rfl

theorem Follows.isChain {ls : List String} (h : Follows fmt none ls) :
    ls.IsChain (PassesAfter fmt) := by
  cases ls with
  | nil => exact List.IsChain.nil
  | cons l ls => exact follows_some_iff.mp h.2

/-- The part of a log between any two places follows from nothing. -/
theorem OnRecord.follows {s : AuditState} {w ls : List String} (h : OnRecord fmt s w)
    (hls : ls <:+: w) : Follows fmt none ls :=
  @LogFile.follows fmt (linesText ls) ls
    ⟨rfl, fun l hl => h.recorded l (hls.subset hl), h.chain.infix hls⟩

/-! ## One file changed -/

section Files

variable {dir : AuditDir}

theorem verifyGenerations_map_some {n : Nat} {gens : List String} :
    verifyGenerations fmt n (gens.map some) = [] ↔ ∀ raw ∈ gens, verifyChain fmt raw = none := by
  induction gens generalizing n with
  | nil => simp [verifyGenerations]
  | cons raw gens ih =>
      rw [List.map_cons, verifyGenerations, List.append_eq_nil_iff, ih, List.forall_mem_cons]
      cases hraw : verifyChain fmt raw with
      | none => simp [brokenIn, hraw]
      | some line => simp [brokenIn, hraw]

/-- Where no generation is missing, the check reaches every file. -/
theorem verify_eq_nil_iff {gens : List String} (hgens : dir.generations = gens.map some) :
    dir.verify fmt = [] ↔ (∀ raw ∈ gens, verifyChain fmt raw = none) ∧
      ∀ raw, dir.active = some raw → verifyChain fmt raw = none := by
  rw [AuditDir.verify, hgens, List.append_eq_nil_iff, verifyGenerations_map_some]
  refine and_congr_right fun _ => ?_
  cases dir.active with
  | none => simp
  | some raw =>
      cases hraw : verifyChain fmt raw with
      | none => simp [brokenIn, hraw]
      | some line => simp [brokenIn, hraw]

theorem getElem?_of_get {n : Nat} {raw : String} {gens : List String}
    (hgens : dir.generations = gens.map some) (hget : dir.get (.generation (n + 1)) = some raw) :
    gens[n]? = some raw := by
  rw [AuditDir.get, hgens, List.getElem?_map] at hget
  cases hn : gens[n]? with
  | none =>
      rw [hn] at hget
      cases hget
  | some r =>
      rw [hn] at hget
      exact hget

/-- Of a directory with every file in order, the check finds what is wrong
with the one that was written over. -/
theorem verify_put_eq_nil_iff {gens : List String} (hgens : dir.generations = gens.map some)
    (hok : ∀ f raw, dir.get f = some raw → verifyChain fmt raw = none) {file : AuditFile}
    {raw : String} (hget : dir.get file = some raw) (raw' : String) :
    (dir.put file (some raw')).verify fmt = [] ↔ verifyChain fmt raw' = none := by
  have hgensOk : ∀ r ∈ gens, verifyChain fmt r = none := by
    intro r hr
    obtain ⟨n, hn⟩ := List.mem_iff_getElem?.mp hr
    exact hok (.generation (n + 1)) r (by simp [AuditDir.get, hgens, hn])
  cases file with
  | active =>
      rw [@verify_eq_nil_iff fmt (dir.put .active (some raw')) gens hgens]
      simp only [AuditDir.put, Option.some.injEq, forall_eq', and_iff_right_iff_imp]
      exact fun _ => hgensOk
  | generation n =>
      cases n with
      | zero => cases hget
      | succ n =>
          have hn := getElem?_of_get hgens hget
          have hlt : n < gens.length := (List.getElem?_eq_some_iff.mp hn).1
          have hset : (dir.put (.generation (n + 1)) (some raw')).generations =
              (gens.set n raw').map some := by
            simp only [AuditDir.put, setSlot, hgens, List.length_map]
            rw [Nat.sub_eq_zero_of_le hlt, List.replicate_zero, List.append_nil, List.map_set]
          rw [verify_eq_nil_iff hset, AuditDir.active_put_generation]
          constructor
          · intro h
            exact h.1 raw' (List.mem_set hlt raw')
          · intro h
            refine ⟨fun r hr => ?_, fun r hr => hok .active r hr⟩
            rcases List.mem_or_eq_of_mem_set hr with hold | rfl
            · exact hgensOk r hold
            · exact h

/-- A file of a complete log holds a part of it. -/
theorem AuditDir.Holds.infix {w : List String} (h : dir.Holds w) {file : AuditFile} {raw : String}
    (hget : dir.get file = some raw) : lines raw <:+: w := by
  obtain ⟨gens, hgens, rfl⟩ := h
  cases file with
  | active =>
      rw [show dir.active = some raw from hget]
      exact (List.suffix_append _ _).isInfix
  | generation n =>
      cases n with
      | zero => cases hget
      | succ n =>
          have hmem : raw ∈ gens.reverse :=
            List.mem_reverse.mpr (List.mem_of_getElem? (getElem?_of_get hgens hget))
          exact (List.infix_flatMap_of_mem hmem lines).trans (List.prefix_append _ _).isInfix

end Files

theorem logLines_edit {pre post : List String} (hpre : ∀ l ∈ pre, RecordedLine fmt l)
    (hpost : ∀ l ∈ post, RecordedLine fmt l) (edit : LineEdit) :
    logLines (linesText pre ++ (edit.text ++ linesText post)) = pre ++ (edit.reads ++ post) := by
  have hclosed : Closed edit.text := by
    cases edit with
    | replace text => exact closed_line text
    | delete => exact .inl rfl
  rw [logLines, lines_append (closed_linesText pre), lines_append hclosed, List.filter_append,
    List.filter_append]
  exact congrArg₂ (· ++ ·) (logLines_recorded hpre)
    (congrArg₂ (· ++ ·) rfl (logLines_recorded hpost))

theorem writtenBefore_eq {before after : List String} {l : String} (h : l ∉ before) :
    writtenBefore (before ++ l :: after) l = before := by
  rw [writtenBefore, List.takeWhile_append_of_pos]
  · simp
  · intro a ha
    simpa using fun hal : a = l => h (hal ▸ ha)

/-! ## Which changes are found -/

section Edit

variable {s : AuditState} {w pre post : List String} {l : String}

/-- Whether the changed file still checks, by where the line stood. -/
theorem follows_edit_iff (h : OnRecord fmt s w) (hinj : Function.Injective fmt.lineHash)
    (hpart : pre ++ l :: post <:+: w) (edit : LineEdit) :
    Follows fmt none (pre ++ (edit.reads ++ post)) ↔ ¬ Evident fmt w pre l post edit := by
  have hline := h.lineage hinj
  obtain ⟨front, back, rfl⟩ := hpart
  cases post with
  | nil =>
      -- nothing vouches for the line
      have hpre : Follows fmt none pre :=
        h.follows ⟨front, [l] ++ back, by simp⟩
      rw [List.append_nil, follows_append, and_iff_right hpre, Option.or_none, Evident, not_not]
  | cons n post =>
      cases pre using List.reverseRecOn with
      | nil =>
          have hfree : l ∉ front := by
            have hnodup := hline.nodup
            simp only [List.nil_append, List.append_assoc, List.cons_append] at hnodup
            have := (List.nodup_middle.mp hnodup).notMem
            exact fun hmem => this (List.mem_append_left _ hmem)
          have hbefore : writtenBefore (front ++ ([] ++ l :: n :: post) ++ back) l = front := by
            rw [List.nil_append, List.append_assoc, List.cons_append]
            exact writtenBefore_eq hfree
          have hpast : Lineage (PassesAfter fmt) (front ++ [l] ++ [n]) := by
            have hcut : front ++ ([] ++ l :: n :: post) ++ back =
                (front ++ [l] ++ [n]) ++ (post ++ back) := by simp
            rw [hcut] at hline
            exact hline.left
          rw [Evident, not_not, hbefore, List.nil_append]
          constructor
          · intro hf
            have hcut : edit.reads ++ n :: post = edit.reads ++ [n] ++ post := by simp
            rw [hcut] at hf
            exact hpast.suffix hf.isChain.left_of_append
          · rintro ⟨older, holder⟩
            refine h.follows ⟨older, back, ?_⟩
            rw [← List.append_assoc, holder]
            simp
      | append_singleton pre m =>
          have hcase : Evident fmt (front ++ (pre ++ [m] ++ l :: n :: post) ++ back) (pre ++ [m]) l
              (n :: post) edit ↔ edit.reads ≠ [l] := by
            cases pre with
            | nil => exact Iff.rfl
            | cons p ps => exact Iff.rfl
          have hpast : Lineage (PassesAfter fmt) ((front ++ pre) ++ m :: [l] ++ [n]) := by
            have hcut : front ++ (pre ++ [m] ++ l :: n :: post) ++ back =
                ((front ++ pre) ++ m :: [l] ++ [n]) ++ (post ++ back) := by simp
            rw [hcut] at hline
            exact hline.left
          rw [hcase, not_ne_iff]
          constructor
          · intro hf
            have hcut : pre ++ [m] ++ (edit.reads ++ n :: post) =
                pre ++ ((m :: edit.reads ++ [n]) ++ post) := by simp
            rw [hcut] at hf
            exact hpast.between hf.isChain.right_of_append.left_of_append
          · intro hsame
            refine h.follows ⟨front, back, ?_⟩
            rw [hsame]
            simp

/-- A change is found exactly when it is evident where it was made. -/
theorem verify_edit_iff (h : OnRecord fmt s w) (hinj : Function.Injective fmt.lineHash)
    (hheld : s.dir.Holds w) {file : AuditFile} {raw : String} (hget : s.dir.get file = some raw)
    (hlines : lines raw = pre ++ l :: post) (edit : LineEdit) :
    (s.dir.edit file pre edit post).verify fmt ≠ [] ↔ Evident fmt w pre l post edit := by
  have hpart := hheld.infix hget
  rw [hlines] at hpart
  obtain ⟨gens, hgens, -⟩ := hheld
  have hok : ∀ f raw, s.dir.get f = some raw → verifyChain fmt raw = none := by
    intro f r hr
    obtain ⟨ls, hls⟩ := h.sound.files f r hr
    exact hls.verifyChain_eq_none
  have hrec : ∀ x ∈ pre ++ l :: post, RecordedLine fmt x :=
    fun x hx => h.recorded x (hpart.subset hx)
  have hread := logLines_edit (fun x hx => hrec x (List.mem_append_left _ hx))
    (fun x hx => hrec x (List.mem_append_right _ (List.mem_cons_of_mem _ hx))) edit
  rw [ne_eq, AuditDir.edit, verify_put_eq_nil_iff hgens hok hget, verifyChain, hread,
    verifyLines_eq_none, follows_edit_iff h hinj hpart, not_not]

end Edit

/-! ## Headline: what is evident, and where -/

/-- Of every log recorded and rotated with its generations on disk, a change
of one line that is not exempt is reported exactly when it is evident. -/
theorem audit_tamper_evident_iff (fmt : AuditFormat) (hinj : Function.Injective fmt.lineHash)
    (s : AuditState) (w : List String) (hrec : Recording fmt s w) (hheld : s.dir.Holds w)
    (file : AuditFile) (raw : String) (pre : List String) (l : String) (post : List String)
    (hget : s.dir.get file = some raw) (hlines : lines raw = pre ++ l :: post)
    (edit : LineEdit) :
    (edit ≠ .replace l → ¬ Exempt w file l post edit →
        (s.dir.edit file pre edit post).verify fmt ≠ []) ↔
      (edit ≠ .replace l → ¬ Exempt w file l post edit → Evident fmt w pre l post edit) := by
  refine imp_congr_right fun _ => imp_congr_right fun _ => ?_
  exact verify_edit_iff hrec.onRecord hinj hheld hget hlines edit

/-! ### A log of two files -/

theorem record_dir_unlimited {s : AuditState} (h : s.log.maxSize = 0) (call : AuditCall)
    (io : RotateIo) : (s.record fmt call .written io).dir =
      s.dir.put .active (some (s.dir.active.getD "" ++ (s.lineFor fmt call ++ "\n"))) := by
  simp [AuditState.record, h]

/-- The first rotation, at the smallest limit. -/
theorem record_dir_rotates {s : AuditState} (hsize : s.log.maxSize = 1)
    (hfiles : s.log.maxFiles = 1) (hgens : s.dir.generations = []) (call : AuditCall) :
    (s.record fmt call .written {}).dir =
      { active := none
        generations := [some (s.dir.active.getD "" ++ (s.lineFor fmt call ++ "\n"))] } := by
  simp [AuditState.record, AuditState.rotate, hsize, hfiles, hgens, shiftGenerations,
    AuditDir.removeFile, AuditDir.rename, AuditDir.put, AuditDir.get, setSlot]

/-- The line of a call after another line. -/
def nextLine (fmt : AuditFormat) (before : String) (call : AuditCall) : String :=
  fmt.toJson (call.eventAfter (fmt.lineHash before))

theorem lineFor_record (s : AuditState) (call next : AuditCall) (io : RotateIo) :
    (s.record fmt call .written io).lineFor fmt next =
      nextLine fmt (s.lineFor fmt call) next := by
  rw [AuditState.lineFor, record_written_lastHash]
  rfl

/-- Two events in one generation, and one in the active file. -/
def rotatedLog (fmt : AuditFormat) (a b c : AuditCall) : AuditState :=
  (((((AuditState.load fmt {} 0 1).record fmt a .written {}).setRotation 1 1).record fmt b .written
    {}).setRotation 0 1).record fmt c .written {}

theorem rotatedLog_spec (a b c : AuditCall) {l₁ l₂ l₃ : String}
    (h₁ : fmt.toJson (a.eventAfter genesisHash) = l₁) (h₂ : nextLine fmt l₁ b = l₂)
    (h₃ : nextLine fmt l₂ c = l₃) :
    Recording fmt (rotatedLog fmt a b c) [l₁, l₂, l₃] ∧
      (rotatedLog fmt a b c).dir =
        { active := some (linesText [l₃]), generations := [some (linesText [l₁, l₂])] } := by
  generalize hs₀ : AuditState.load fmt {} 0 1 = s₀
  have hline₁ : s₀.lineFor fmt a = l₁ := by
    rw [← h₁, ← hs₀]
    rfl
  generalize hs₁ : (s₀.record fmt a .written {}).setRotation 1 1 = s₁
  have hline₂ : s₁.lineFor fmt b = l₂ := by
    rw [← hs₁]
    exact (lineFor_record s₀ a b {}).trans (by rw [hline₁, h₂])
  have hdir₁ : s₁.dir.generations = [] ∧ s₁.dir.active = some (linesText [l₁]) := by
    have hdir := @record_dir_unlimited fmt s₀ (by rw [← hs₀]; rfl) a {}
    rw [← hs₁, AuditState.setRotation, hdir, hline₁, ← hs₀]
    refine ⟨rfl, ?_⟩
    simp [AuditState.load, AuditDir.put, linesText_cons]
  generalize hs₂ : (s₁.record fmt b .written {}).setRotation 0 1 = s₂
  have hline₃ : s₂.lineFor fmt c = l₃ := by
    rw [← hs₂]
    exact (lineFor_record s₁ b c {}).trans (by rw [hline₂, h₃])
  have hdir₂ : s₂.dir = { active := none, generations := [some (linesText [l₁, l₂])] } := by
    have hdir := @record_dir_rotates fmt s₁ (by rw [← hs₁]; rfl)
      (by rw [← hs₁]; rfl) hdir₁.1 b
    rw [← hs₂, AuditState.setRotation, hdir, hline₂, hdir₁.2]
    simp [linesText_cons]
  have hlog : rotatedLog fmt a b c = s₂.record fmt c .written {} := by
    rw [← hs₂, ← hs₁, ← hs₀]
    rfl
  rw [hlog]
  refine ⟨?_, ?_⟩
  · have hrec : Recording fmt (s₂.record fmt c .written {})
        ([] ++ [s₀.lineFor fmt a] ++ [s₁.lineFor fmt b] ++ [s₂.lineFor fmt c]) := by
      refine .written c {} ?_
      rw [← hs₂]
      refine .setRotation 0 1 (.written b {} ?_)
      rw [← hs₁]
      refine .setRotation 1 1 (.written a {} ?_)
      rw [← hs₀]
      exact .start 0 1
    rw [hline₁, hline₂, hline₃] at hrec
    exact hrec
  · rw [record_dir_unlimited (by rw [← hs₂]; rfl), hdir₂, hline₃]
    simp [AuditDir.put, linesText_cons]

/-! ### A hash with the digests of three lines -/

/-- A hash given by a table, which marks and spells out all other lines. -/
def tableHash (table : List (String × String)) (line : String) : String :=
  (table.lookup line).getD ("#" ++ line)

section Table

variable {table : List (String × String)}

theorem spelled_ne {d : String} (hd : d.toList.head? ≠ some '#') (line : String) :
    "#" ++ line ≠ d := by
  intro h
  refine hd ?_
  rw [← h, String.toList_append]
  rfl

theorem tableHash_injective (hmark : ∀ p ∈ table, p.2.toList.head? ≠ some '#')
    (hnodup : (table.map Prod.snd).Nodup) : Function.Injective (tableHash table) := by
  have hmem : ∀ {x d}, table.lookup x = some d → (x, d) ∈ table := by
    intro x d hx
    obtain ⟨front, back, rfl, -⟩ := List.lookup_eq_some_iff.mp hx
    simp
  intro x y h
  unfold tableHash at h
  cases hx : table.lookup x with
  | none =>
      rw [hx] at h
      cases hy : table.lookup y with
      | none =>
          rw [hy] at h
          exact (String.append_right_inj "#").mp h
      | some d =>
          rw [hy] at h
          exact absurd h (spelled_ne (hmark _ (hmem hy)) x)
  | some d =>
      rw [hx] at h
      cases hy : table.lookup y with
      | none =>
          rw [hy] at h
          exact absurd h.symm (spelled_ne (hmark _ (hmem hx)) y)
      | some d' =>
          rw [hy] at h
          have hsame := List.inj_on_of_nodup_map hnodup (hmem hx) (hmem hy) h
          exact congrArg Prod.fst hsame

theorem tableHash_ne {d : String} (hd : d.toList.head? ≠ some '#')
    (hnot : d ∉ table.map Prod.snd) (line : String) : tableHash table line ≠ d := by
  unfold tableHash
  cases hx : table.lookup line with
  | none => exact spelled_ne hd line
  | some d' =>
      rintro rfl
      obtain ⟨front, back, rfl, -⟩ := List.lookup_eq_some_iff.mp hx
      exact hnot (by simp)

end Table

/-! ### A change that shows, and one that does not -/

section Sample

def sampleEvent (event prev : String) : AuditEvent :=
  ⟨1, "1970-01-01T00:00:01+00:00", event, "aperio", "10.0.0.1", none, "", prev⟩

def sampleCall (event : String) : AuditCall :=
  ⟨1, "1970-01-01T00:00:01+00:00", event, "aperio", "10.0.0.1", none, ""⟩

/-- Three lines and their SHA-256. -/
def sampleDigests : List (String × String) :=
  [(String.ofList (writeEvent (sampleEvent "login_success" genesisHash)),
      "fec00811c01d718717ac677635af57921731725f8850259f40205b9182197936"),
    (String.ofList (writeEvent (sampleEvent "token_created"
      "fec00811c01d718717ac677635af57921731725f8850259f40205b9182197936")),
      "fb71f2bc0a10f7a0d54c637087a5e1bf3f396ffac053309759fa054e99c21cb4"),
    (String.ofList (writeEvent (sampleEvent "token_deleted"
      "fb71f2bc0a10f7a0d54c637087a5e1bf3f396ffac053309759fa054e99c21cb4")),
      "358873ed8ca032b7722171db87948903f8b084baf2a2a8d89e6d1af6ad104a1e")]

theorem sampleDigests_nodup : (sampleDigests.map Prod.snd).Nodup := by
  simp [sampleDigests]

theorem sampleDigests_hex : ∀ p ∈ sampleDigests, p.2.toList.head? ≠ some '#' := by
  simp [sampleDigests]

theorem sampleDigests_ne : genesisHash ∉ sampleDigests.map Prod.snd ∧
    "" ∉ sampleDigests.map Prod.snd := by
  simp [sampleDigests, genesisHash]

def sampleFormat : AuditFormat :=
  jsonFormat (tableHash sampleDigests) (tableHash_ne (by decide) sampleDigests_ne.1)
    (tableHash_ne (by decide) sampleDigests_ne.2)

theorem sampleFormat_injective : Function.Injective sampleFormat.lineHash := by
  rw [sampleFormat, jsonFormat_lineHash]
  exact tableHash_injective sampleDigests_hex sampleDigests_nodup

/-- A login and a new token in the first generation, the token deleted
since. -/
def sampleLog : AuditState :=
  rotatedLog sampleFormat (sampleCall "login_success") (sampleCall "token_created")
    (sampleCall "token_deleted")

/-- Its three lines. -/
def sampleLogin : String :=
  sampleFormat.toJson ((sampleCall "login_success").eventAfter genesisHash)

def sampleCreated : String :=
  nextLine sampleFormat sampleLogin (sampleCall "token_created")

def sampleDeleted : String :=
  nextLine sampleFormat sampleCreated (sampleCall "token_deleted")

theorem sampleLog_spec :
    Recording sampleFormat sampleLog [sampleLogin, sampleCreated, sampleDeleted] ∧
      sampleLog.dir =
        { active := some (linesText [sampleDeleted])
          generations := [some (linesText [sampleLogin, sampleCreated])] } := by
  unfold sampleLog
  refine rotatedLog_spec _ _ _ ?_ ?_ ?_
  · rw [sampleLogin]
  · rw [sampleCreated]
  · rw [sampleDeleted]

theorem sampleLog_recorded :
    ∀ l ∈ [sampleLogin, sampleCreated, sampleDeleted], RecordedLine sampleFormat l :=
  sampleLog_spec.1.onRecord.recorded

theorem lines_sampleGeneration :
    lines (linesText [sampleLogin, sampleCreated]) = [sampleLogin, sampleCreated] :=
  lines_recorded fun l hl => sampleLog_recorded l (by
    rcases List.mem_pair.mp hl with rfl | rfl <;> simp)

theorem sampleLog_holds : sampleLog.dir.Holds [sampleLogin, sampleCreated, sampleDeleted] := by
  have hactive : lines (linesText [sampleDeleted]) = [sampleDeleted] :=
    lines_recorded fun l hl => sampleLog_recorded l (by
      rw [List.mem_singleton.mp hl]
      simp)
  rw [sampleLog_spec.2]
  refine ⟨[linesText [sampleLogin, sampleCreated]], rfl, ?_⟩
  simp [lines_sampleGeneration, hactive]

theorem sampleLog_generation :
    sampleLog.dir.get (.generation 1) = some (linesText [sampleLogin, sampleCreated]) := by
  rw [sampleLog_spec.2]
  rfl

/-- Another text in place of the first line of a generation. -/
theorem audit_tamper_evident_iff_replaced :
    (sampleLog.dir.edit (.generation 1) [] (.replace "tampered") [sampleCreated]).verify
      sampleFormat ≠ [] := by
  have hplain : "tampered" ≠ sampleLogin := by
    intro h
    obtain ⟨members, hm⟩ := sampleFormat.braces ((sampleCall "login_success").eventAfter genesisHash)
    have hlist := (congrArg String.toList h).trans hm
    cases hlist
  have hreads : (LineEdit.replace "tampered").reads = ["tampered"] := by decide
  refine (audit_tamper_evident_iff sampleFormat sampleFormat_injective sampleLog _
    sampleLog_spec.1 sampleLog_holds (.generation 1) _ [] sampleLogin [sampleCreated]
    sampleLog_generation lines_sampleGeneration (.replace "tampered")).mpr ?_ ?_ ?_
  · intro _ _ hsuffix
    have hbefore : writtenBefore [sampleLogin, sampleCreated, sampleDeleted] sampleLogin = [] := by
      simp [writtenBefore]
    rw [hreads, hbefore, List.nil_append] at hsuffix
    exact hplain (List.cons.inj (hsuffix.eq_of_length (by simp))).1
  · intro h
    exact hplain (LineEdit.replace.inj h)
  · rintro (⟨hfile, -⟩ | ⟨hedit, -⟩)
    · cases hfile
    · cases hedit

/-- The new token is struck from the record, neither the oldest line nor the
newest, and nothing shows. -/
theorem audit_tamper_unnoticed :
    Function.Injective sampleFormat.lineHash ∧
      Recording sampleFormat sampleLog [sampleLogin, sampleCreated, sampleDeleted] ∧
      sampleLog.dir.Holds [sampleLogin, sampleCreated, sampleDeleted] ∧
      sampleLog.dir.get (.generation 1) = some (linesText [sampleLogin, sampleCreated]) ∧
      lines (linesText [sampleLogin, sampleCreated]) = [sampleLogin] ++ sampleCreated :: [] ∧
      ¬ Exempt [sampleLogin, sampleCreated, sampleDeleted] (.generation 1) sampleCreated []
        .delete ∧
      (sampleLog.dir.edit (.generation 1) [sampleLogin] .delete []).verify sampleFormat = [] := by
  refine ⟨sampleFormat_injective, sampleLog_spec.1, sampleLog_holds, sampleLog_generation,
    lines_sampleGeneration, ?_, ?_⟩
  · rintro (⟨hfile, -⟩ | ⟨-, hhead⟩)
    · cases hfile
    · have hnodup := (sampleLog_spec.1.onRecord.lineage sampleFormat_injective).nodup
      have hsame : sampleLogin = sampleCreated := Option.some.inj hhead
      rw [hsame] at hnodup
      exact (List.nodup_cons.mp hnodup).1 List.mem_cons_self
  · by_contra hfound
    have hevident := (verify_edit_iff sampleLog_spec.1.onRecord sampleFormat_injective
      sampleLog_holds sampleLog_generation lines_sampleGeneration .delete).mp hfound
    exact hevident trivial

end Sample

end Aperio
