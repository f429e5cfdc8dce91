import Mathlib.Data.List.Chain
import Aperio.AuditLog

/-!
# The chain raises no false alarm

Whatever is recorded, rotated, pruned and restarted, in whatever order and
with whichever writes failing, every file is a text of recorded lines in
which each carries the hash of the one before it, and the hash in memory is
that of the newest line of the active file. Rotation and retention only
move whole files about or cut lines off the front, so all of it rests on
`record` and `load` agreeing on the running hash.
-/

namespace Aperio

variable {fmt : AuditFormat}

/-! ## Recorded lines -/

/-- A line some event was written as. -/
def RecordedLine (fmt : AuditFormat) (line : String) : Prop :=
  ∃ ev, line = fmt.toJson ev

/-- The second line carries the hash of the first. -/
def Links (fmt : AuditFormat) (before line : String) : Prop :=
  ∃ ev, fmt.fromJson line = some ev ∧ ev.prev = fmt.lineHash before

/-- A file of recorded lines, each linked to the one before it. -/
structure LogFile (fmt : AuditFormat) (raw : String) (ls : List String) : Prop where
  text : raw = linesText ls
  recorded : ∀ l ∈ ls, RecordedLine fmt l
  chain : ls.IsChain (Links fmt)

theorem RecordedLine.isLine {line : String} (h : RecordedLine fmt line) : IsLine line := by
  obtain ⟨ev, rfl⟩ := h
  refine ⟨fmt.no_newline ev, ?_⟩
  obtain ⟨members, hm⟩ := fmt.braces ev
  rw [hm, List.getLast?_concat]
  decide

theorem trim_ne_empty_of_mem {s : String} {c : Char} (hc : c ∈ s.toList)
    (hblank : isWhiteSpace c = false) : trim s ≠ "" := by
  intro h
  have hempty : ((s.toList.dropWhile isWhiteSpace).rdropWhile isWhiteSpace) = [] := by
    have := congrArg String.toList h
    simpa [trim] using this
  have hall : ∀ x ∈ s.toList.dropWhile isWhiteSpace, isWhiteSpace x = true :=
    List.rdropWhile_eq_nil_iff.mp hempty
  have hnil : s.toList.dropWhile isWhiteSpace = [] := by
    by_contra hne
    have hhead := List.head_dropWhile_not isWhiteSpace hne
    rw [hall _ (List.head_mem hne)] at hhead
    cases hhead
  rw [List.dropWhile_eq_nil_iff.mp hnil c hc] at hblank
  cases hblank

theorem RecordedLine.trim_ne_empty {line : String} (h : RecordedLine fmt line) :
    trim line ≠ "" := by
  obtain ⟨ev, rfl⟩ := h
  obtain ⟨members, hm⟩ := fmt.braces ev
  refine trim_ne_empty_of_mem (c := '{') ?_ (by decide)
  rw [hm]
  exact List.mem_cons_self

section Reading

variable {ls : List String}

theorem lines_recorded (h : ∀ l ∈ ls, RecordedLine fmt l) : lines (linesText ls) = ls :=
  lines_linesText fun l hl => (h l hl).isLine

theorem logLines_recorded (h : ∀ l ∈ ls, RecordedLine fmt l) : logLines (linesText ls) = ls := by
  rw [logLines, lines_recorded h, List.filter_eq_self]
  intro l hl
  simpa using (h l hl).trim_ne_empty

end Reading

namespace LogFile

variable {raw : String} {ls : List String}

theorem logLines_eq (h : LogFile fmt raw ls) : logLines raw = ls := by
  rw [h.text, logLines_recorded h.recorded]

theorem lines_eq (h : LogFile fmt raw ls) : lines raw = ls := by
  rw [h.text, lines_recorded h.recorded]

theorem empty : LogFile fmt "" [] :=
  ⟨rfl, fun _ hl => absurd hl List.not_mem_nil, List.IsChain.nil⟩

/-- One more line, carrying the hash of the newest one. -/
theorem append (h : LogFile fmt raw ls) {ev : AuditEvent}
    (hprev : ∀ l, ls.getLast? = some l → ev.prev = fmt.lineHash l) :
    LogFile fmt (raw ++ (fmt.toJson ev ++ "\n")) (ls ++ [fmt.toJson ev]) := by
  refine ⟨?_, ?_, ?_⟩
  · rw [linesText_append, linesText_cons, linesText_nil, String.append_empty, h.text]
  · intro l hl
    rcases List.mem_append.mp hl with hold | hnew
    · exact h.recorded l hold
    · exact ⟨ev, List.mem_singleton.mp hnew⟩
  · refine h.chain.append (List.IsChain.singleton _) ?_
    intro a ha b hb
    obtain rfl : fmt.toJson ev = b := by simpa using hb
    exact ⟨ev, fmt.fromJson_toJson ev, hprev a ha⟩

/-- The front of a file is cut off. -/
theorem drop (h : LogFile fmt raw ls) (n : Nat) :
    LogFile fmt (linesText (ls.drop n)) (ls.drop n) :=
  ⟨rfl, fun l hl => h.recorded l (List.mem_of_mem_drop hl), h.chain.drop n⟩

end LogFile

/-! ## What the check lets stand -/

/-- A line that passes after `before`: it is an event, and either carries no
hash or the right one. -/
def Passes (fmt : AuditFormat) (before : Option String) (line : String) : Prop :=
  ∃ ev, fmt.fromJson line = some ev ∧ (ev.prev = "" ∨ ∀ p ∈ before, ev.prev = fmt.lineHash p)

/-- Lines that pass one after the other. -/
def Follows (fmt : AuditFormat) : Option String → List String → Prop
  | _, [] => True
  | before, line :: rest => Passes fmt before line ∧ Follows fmt (some line) rest

theorem verifyLines_eq_none {before : Option String} {idx : Nat} {ls : List String} :
    verifyLines fmt before idx ls = none ↔ Follows fmt before ls := by
  induction ls generalizing before idx with
  | nil => simp [verifyLines, Follows]
  | cons line rest ih =>
      rw [verifyLines, Follows, Passes]
      cases hev : fmt.fromJson line with
      | none => simp
      | some ev =>
          by_cases hbad : ev.prev != "" && before.any (fun p => ev.prev != fmt.lineHash p)
          · simp only [hbad, if_true, reduceCtorEq, Option.some.injEq, exists_eq_left', false_iff,
              not_and]
            intro hok
            rw [Bool.and_eq_true, bne_iff_ne, Option.any_eq_true] at hbad
            obtain ⟨hne, p, hp, hpne⟩ := hbad
            rcases hok with hempty | hall
            · exact absurd hempty hne
            · exact absurd (hall p hp) (by simpa using hpne)
          · simp only [hbad, Bool.false_eq_true, if_false, ih, Option.some.injEq, exists_eq_left']
            refine (and_iff_right ?_).symm
            rw [Bool.and_eq_true, not_and_or, bne_iff_ne, not_not, Option.any_eq_true] at hbad
            rcases hbad with hempty | hnone
            · exact .inl hempty
            · refine .inr fun p hp => ?_
              by_contra hpne
              exact hnone ⟨p, hp, by simpa using hpne⟩

theorem Links.passes {a b : String} (h : Links fmt a b) : Passes fmt (some a) b := by
  obtain ⟨ev, hev, hprev⟩ := h
  refine ⟨ev, hev, .inr fun p hp => ?_⟩
  rw [← Option.some.inj hp]
  exact hprev

theorem RecordedLine.passes_first {line : String} (h : RecordedLine fmt line) :
    Passes fmt none line := by
  obtain ⟨ev, rfl⟩ := h
  exact ⟨ev, fmt.fromJson_toJson ev, .inr fun p hp => by cases hp⟩

theorem follows_of_isChain {a : String} {ls : List String}
    (h : (a :: ls).IsChain (Links fmt)) : Follows fmt (some a) ls := by
  induction ls generalizing a with
  | nil => trivial
  | cons b bs ih =>
      obtain ⟨hab, hrest⟩ := List.isChain_cons_cons.mp h
      exact ⟨hab.passes, ih hrest⟩

theorem LogFile.follows {raw : String} {ls : List String} (h : LogFile fmt raw ls) :
    Follows fmt none ls := by
  cases ls with
  | nil => trivial
  | cons l ls => exact ⟨(h.recorded l List.mem_cons_self).passes_first, follows_of_isChain h.chain⟩

theorem LogFile.verifyChain_eq_none {raw : String} {ls : List String} (h : LogFile fmt raw ls) :
    verifyChain fmt raw = none := by
  rw [verifyChain, h.logLines_eq, verifyLines_eq_none]
  exact h.follows

/-! ## Files that only move -/

section Files

variable {dir : AuditDir}

theorem join_getElem?_setSlot (slots : List (Option String)) (n m : Nat) (x : Option String) :
    (setSlot slots n x)[m]?.join = if m = n then x else slots[m]?.join := by
  cases x with
  | none =>
      rw [setSlot, List.getElem?_set]
      by_cases hm : m = n
      · subst hm
        rw [if_pos rfl, if_pos rfl]
        split <;> rfl
      · rw [if_neg (Ne.symm hm), if_neg hm]
  | some raw =>
      rw [setSlot, List.getElem?_set]
      by_cases hm : m = n
      · subst hm
        rw [if_pos rfl, if_pos rfl, if_pos (by simp; omega)]
        rfl
      · rw [if_neg (Ne.symm hm), if_neg hm, List.getElem?_append]
        by_cases hlt : m < slots.length
        · rw [if_pos hlt]
        · rw [if_neg hlt, List.getElem?_replicate, List.getElem?_eq_none (Nat.le_of_not_lt hlt)]
          split <;> rfl

namespace AuditDir

theorem get_put {f : AuditFile} (hf : f ≠ .generation 0) (raw : Option String) (g : AuditFile) :
    (dir.put f raw).get g = if g = f then raw else dir.get g := by
  cases f with
  | active =>
      cases g with
      | active => rfl
      | generation n => cases n <;> rfl
  | generation n =>
      cases n with
      | zero => exact absurd rfl hf
      | succ n =>
          cases g with
          | active => rfl
          | generation m =>
              cases m with
              | zero => rfl
              | succ m =>
                  show (setSlot dir.generations n raw)[m]?.join = _
                  rw [join_getElem?_setSlot]
                  simp [get]

/-- Every file of the first directory is one of the second. -/
def Within (dir dir' : AuditDir) : Prop :=
  ∀ f raw, dir.get f = some raw → ∃ g, dir'.get g = some raw

theorem Within.refl (dir : AuditDir) : dir.Within dir :=
  fun f _ h => ⟨f, h⟩

theorem Within.trans {dir dir' dir'' : AuditDir} (h : dir.Within dir') (h' : dir'.Within dir'') :
    dir.Within dir'' := by
  intro f raw hget
  obtain ⟨g, hg⟩ := h f raw hget
  exact h' g raw hg

theorem put_none_within {f : AuditFile} (hf : f ≠ .generation 0) : (dir.put f none).Within dir := by
  intro g raw hg
  rw [get_put hf] at hg
  split at hg
  · cases hg
  · exact ⟨g, hg⟩

theorem removeFile_within {ok : Bool} {f : AuditFile} (hf : f ≠ .generation 0) :
    (dir.removeFile ok f).Within dir := by
  unfold removeFile
  split
  · exact put_none_within hf
  · exact .refl dir

theorem rename_within {ok : Bool} {src dst : AuditFile} (hsrc : src ≠ .generation 0)
    (hdst : dst ≠ .generation 0) : (dir.rename ok src dst).Within dir := by
  unfold rename
  split
  · rename_i raw hraw
    intro g raw' hg
    rw [get_put hdst] at hg
    split at hg
    · obtain rfl := Option.some.inj hg
      exact ⟨src, hraw⟩
    · exact put_none_within hsrc g raw' hg
  · exact .refl dir

theorem active_put_generation (n : Nat) (raw : Option String) :
    (dir.put (.generation n) raw).active = dir.active := by
  cases n <;> rfl

theorem active_rename_generation (ok : Bool) (n m : Nat) :
    (dir.rename ok (.generation n) (.generation m)).active = dir.active := by
  unfold rename
  split
  · rw [active_put_generation, active_put_generation]
  · rfl

theorem active_removeFile_generation (ok : Bool) (n : Nat) :
    (dir.removeFile ok (.generation n)).active = dir.active := by
  unfold removeFile
  split
  · exact active_put_generation n none
  · rfl

end AuditDir

theorem shiftGenerations_within (io : RotateIo) (maxFiles : Nat) :
    (shiftGenerations io maxFiles dir).Within dir := by
  unfold shiftGenerations
  have hpos : ∀ n ∈ (List.range' 1 (maxFiles - 1)).reverse, n ≠ 0 := by
    intro n hn
    rw [List.mem_reverse, List.mem_range'_1] at hn
    omega
  revert hpos
  generalize (List.range' 1 (maxFiles - 1)).reverse = ns
  intro hpos
  induction ns generalizing dir with
  | nil => exact .refl dir
  | cons n ns ih =>
      rw [List.foldl_cons]
      refine (ih fun m hm => hpos m (List.mem_cons_of_mem _ hm)).trans ?_
      have hn : n ≠ 0 := hpos n List.mem_cons_self
      exact AuditDir.rename_within (by simpa using hn) (by simp)

theorem active_shiftGenerations (io : RotateIo) (maxFiles : Nat) :
    (shiftGenerations io maxFiles dir).active = dir.active := by
  unfold shiftGenerations
  generalize (List.range' 1 (maxFiles - 1)).reverse = ns
  induction ns generalizing dir with
  | nil => rfl
  | cons n ns ih => rw [List.foldl_cons, ih, AuditDir.active_rename_generation]

end Files

/-! ## The invariant -/

namespace AuditState

/-- Every file is a chain of recorded lines, and the hash in memory is that
of the newest line of the active one. -/
structure Sound (fmt : AuditFormat) (s : AuditState) : Prop where
  files : ∀ f raw, s.dir.get f = some raw → ∃ ls, LogFile fmt raw ls
  newest : ∀ raw l, s.dir.active = some raw → (logLines raw).getLast? = some l →
    s.log.lastHash = fmt.lineHash l

variable {s s' : AuditState}

/-- Files may be moved and dropped, the active one dropped only. -/
theorem Sound.of_within (h : s.Sound fmt) (hdir : s'.dir.Within s.dir)
    (hactive : s'.dir.active = none ∨ s'.dir.active = s.dir.active)
    (hhash : s'.log.lastHash = s.log.lastHash) : s'.Sound fmt := by
  refine ⟨?_, ?_⟩
  · intro f raw hget
    obtain ⟨g, hg⟩ := hdir f raw hget
    exact h.files g raw hg
  · intro raw l hraw hl
    rcases hactive with hnone | hsame
    · rw [hnone] at hraw
      cases hraw
    · rw [hhash]
      exact h.newest raw l (hsame ▸ hraw) hl

theorem rotate_spec (s : AuditState) (io : RotateIo) :
    (s.rotate io).dir.Within s.dir ∧
      ((s.rotate io).dir.active = none ∨ (s.rotate io).dir.active = s.dir.active) ∧
      (s.rotate io).log.lastHash = s.log.lastHash := by
  unfold rotate
  split
  · refine ⟨AuditDir.removeFile_within (by simp), ?_, rfl⟩
    cases io.removeActive with
    | true => exact .inl rfl
    | false => exact .inr rfl
  · rename_i hfiles
    have hshift := (shiftGenerations_within io s.log.maxFiles).trans
      (@AuditDir.removeFile_within s.dir io.removeOldest (.generation s.log.maxFiles)
        (by simpa using hfiles))
    have hactive := (active_shiftGenerations io s.log.maxFiles).trans
      (@AuditDir.active_removeFile_generation s.dir io.removeOldest s.log.maxFiles)
    simp only
    split
    · rename_i hok
      rw [Bool.and_eq_true] at hok
      refine ⟨(AuditDir.rename_within (by simp) (by simp)).trans hshift, .inl ?_, rfl⟩
      obtain ⟨raw, hraw⟩ := Option.isSome_iff_exists.mp hok.2
      simp only [AuditDir.rename, AuditDir.get, hraw, hok.1]
      rfl
    · exact ⟨hshift, .inr hactive, rfl⟩

theorem Sound.rotate (h : s.Sound fmt) (io : RotateIo) : (s.rotate io).Sound fmt := by
  obtain ⟨hdir, hactive, hhash⟩ := rotate_spec s io
  exact h.of_within hdir hactive hhash

/-- The active file, as a file that may be missing. -/
theorem Sound.active (h : s.Sound fmt) : ∃ ls, LogFile fmt (s.dir.active.getD "") ls ∧
    ∀ l, ls.getLast? = some l → s.log.lastHash = fmt.lineHash l := by
  cases hraw : s.dir.active with
  | none => exact ⟨[], .empty, fun l hl => by cases hl⟩
  | some raw =>
      obtain ⟨ls, hls⟩ := h.files .active raw hraw
      refine ⟨ls, hls, fun l hl => h.newest raw l hraw ?_⟩
      rw [hls.logLines_eq]
      exact hl

/-- The active file is written over with a chain whose newest line is the
one in memory. -/
theorem Sound.write (h : s.Sound fmt) {raw : String} {ls : List String}
    (hfile : LogFile fmt raw ls) (hdir : s'.dir = s.dir.put .active (some raw))
    (hlast : ∀ l, ls.getLast? = some l → s'.log.lastHash = fmt.lineHash l) : s'.Sound fmt := by
  refine ⟨?_, ?_⟩
  · intro f raw' hget
    rw [hdir, AuditDir.get_put (by simp)] at hget
    split at hget
    · obtain rfl := Option.some.inj hget
      exact ⟨ls, hfile⟩
    · exact h.files f raw' hget
  · intro raw' l hraw hl
    rw [hdir] at hraw
    obtain rfl := Option.some.inj hraw
    rw [hfile.logLines_eq] at hl
    exact hlast l hl

theorem Sound.record (h : s.Sound fmt) (call : AuditCall) (append : AppendOutcome)
    (io : RotateIo) : (s.record fmt call append io).Sound fmt := by
  obtain ⟨ls, hfile, hlast⟩ := h.active
  cases append with
  | failed created =>
      cases created with
      | false => exact h.of_within (.refl _) (.inr rfl) rfl
      | true => exact h.write hfile rfl hlast
  | written =>
      have hwritten := @LogFile.append fmt _ _ hfile (call.eventAfter s.log.lastHash) hlast
      simp only [AuditState.record]
      split
      · refine Sound.rotate (h.write hwritten rfl ?_) io
        intro l hl
        rw [List.getLast?_concat] at hl
        rw [← Option.some.inj hl]
        rfl
      · refine h.write hwritten rfl ?_
        intro l hl
        rw [List.getLast?_concat] at hl
        rw [← Option.some.inj hl]
        rfl

/-! ### Retention -/

theorem pruneGenerations_spec (cutoff : Nat) (removeOk : Nat → Bool) (count n : Nat) (hn : n ≠ 0)
    (dir : AuditDir) (removed : Nat) :
    (pruneGenerations fmt cutoff removeOk count n dir removed).1.Within dir ∧
      (pruneGenerations fmt cutoff removeOk count n dir removed).1.active = dir.active := by
  induction count generalizing n dir removed with
  | zero => exact ⟨.refl dir, rfl⟩
  | succ count ih =>
      rw [pruneGenerations]
      cases dir.get (.generation n) with
      | none => exact ⟨.refl dir, rfl⟩
      | some raw =>
          simp only
          split
          · obtain ⟨hwithin, hactive⟩ := ih (n + 1) (Nat.succ_ne_zero n)
              (dir.put (.generation n) none) (removed + (logLines raw).length)
            refine ⟨hwithin.trans (AuditDir.put_none_within (by simpa using hn)), ?_⟩
            rw [hactive, AuditDir.active_put_generation]
          · exact ih (n + 1) (Nat.succ_ne_zero n) dir removed

theorem join_lines {ls : List String} (h : ∀ l ∈ ls, RecordedLine fmt l) :
    (if join ls "\n" = "" then join ls "\n" else join ls "\n" ++ "\n") = linesText ls := by
  cases ls with
  | nil => rfl
  | cons l ls =>
      have hne : join (l :: ls) "\n" ≠ "" := by
        intro hempty
        have htext := join_newline (List.cons_ne_nil l ls)
        rw [hempty, linesText_cons] at htext
        obtain ⟨ev, rfl⟩ := h l List.mem_cons_self
        obtain ⟨members, hm⟩ := fmt.braces ev
        have hlist := congrArg String.toList htext
        simp [hm] at hlist
      rw [if_neg hne, join_newline (List.cons_ne_nil l ls)]

theorem Sound.prune (h : s.Sound fmt) (cutoff : Nat) (removeOk : Nat → Bool) (rewriteOk : Bool) :
    (s.pruneOlderThan fmt cutoff removeOk rewriteOk).1.Sound fmt := by
  obtain ⟨hwithin, hactive⟩ := @pruneGenerations_spec fmt cutoff removeOk
    (max s.log.maxFiles 1) 1 (by simp) s.dir 0
  have hgens : ({ s with dir := (pruneGenerations fmt cutoff removeOk (max s.log.maxFiles 1) 1 s.dir
      0).1 } : AuditState).Sound fmt := h.of_within hwithin (.inr hactive) rfl
  rw [pruneOlderThan]
  generalize pruneGenerations fmt cutoff removeOk (max s.log.maxFiles 1) 1 s.dir 0 = pruned at *
  obtain ⟨dir, removed⟩ := pruned
  simp only
  cases hraw : dir.active with
  | none => exact hgens
  | some raw =>
      simp only
      split
      · obtain ⟨ls, hfile⟩ := hgens.files .active raw hraw
        have hdrop := hfile.drop ((logLines raw).findIdx (notExpired fmt cutoff))
        refine hgens.write hdrop ?_ ?_
        · rw [← hfile.logLines_eq] at hdrop ⊢
          rw [join_lines hdrop.recorded]
        · intro l hl
          refine hgens.newest raw l hraw ?_
          rw [hfile.logLines_eq]
          rw [List.getLast?_drop] at hl
          split at hl
          · cases hl
          · exact hl
      · exact hgens

/-! ### Restarts -/

theorem Sound.load {dir : AuditDir}
    (hfiles : ∀ f raw, dir.get f = some raw → ∃ ls, LogFile fmt raw ls) (maxSize maxFiles : Nat) :
    (load fmt dir maxSize maxFiles).Sound fmt := by
  refine ⟨hfiles, ?_⟩
  intro raw l hraw hl
  have hnewest : newestHash fmt dir.active = some (fmt.lineHash l) := by
    rw [newestHash, show dir.active = some raw from hraw, Option.bind_some, hl]
    rfl
  simp only [AuditState.load, hnewest, Option.getD_some, if_neg (fmt.hash_ne_genesis l)]

theorem Sound.step (h : s.Sound fmt) (step : AuditStep) : (s.step fmt step).Sound fmt := by
  cases step with
  | record call append io => exact h.record call append io
  | setRotation maxSize maxFiles => exact h.of_within (.refl _) (.inr rfl) rfl
  | prune cutoff removeOk rewriteOk => exact h.prune cutoff removeOk rewriteOk
  | restart maxSize maxFiles => exact Sound.load h.files maxSize maxFiles

theorem sound_run (fmt : AuditFormat) (maxSize maxFiles : Nat) (steps : List AuditStep) :
    (run fmt maxSize maxFiles steps).Sound fmt := by
  unfold run
  have hstart : (AuditState.load fmt {} maxSize maxFiles).Sound fmt := by
    refine Sound.load ?_ maxSize maxFiles
    intro f raw hget
    match f with
    | .active => cases hget
    | .generation 0 => cases hget
    | .generation (n + 1) => cases hget
  generalize AuditState.load fmt {} maxSize maxFiles = s at hstart
  induction steps generalizing s with
  | nil => exact hstart
  | cons step steps ih =>
      rw [List.foldl_cons]
      exact ih _ (hstart.step step)

end AuditState

/-! ## Headline -/

theorem verifyGenerations_eq_nil {n : Nat} {gens : List (Option String)}
    (h : ∀ raw, some raw ∈ gens → verifyChain fmt raw = none) :
    verifyGenerations fmt n gens = [] := by
  induction gens generalizing n with
  | nil => rfl
  | cons g gens ih =>
      cases g with
      | none => rfl
      | some raw =>
          rw [verifyGenerations, brokenIn, h raw List.mem_cons_self,
            ih fun r hr => h r (List.mem_cons_of_mem _ hr)]
          rfl

theorem AuditDir.verify_eq_nil {dir : AuditDir}
    (h : ∀ f raw, dir.get f = some raw → verifyChain fmt raw = none) : dir.verify fmt = [] := by
  have hgens : verifyGenerations fmt 1 dir.generations = [] := by
    refine verifyGenerations_eq_nil fun raw hraw => ?_
    obtain ⟨n, hn⟩ := List.mem_iff_getElem?.mp hraw
    exact h (.generation (n + 1)) raw (by simp [AuditDir.get, hn])
  rw [AuditDir.verify, hgens, List.nil_append]
  cases hraw : dir.active with
  | none => rfl
  | some raw => simp [brokenIn, h .active raw hraw]

/-- The chain raises no false alarm: after any run from an empty directory
`verify` finds nothing, and every line but the first of its file carries the
hash of the line before it. -/
theorem audit_no_false_alarm (fmt : AuditFormat) (maxSize maxFiles : Nat)
    (steps : List AuditStep) :
    (AuditState.run fmt maxSize maxFiles steps).dir.verify fmt = [] ∧
      ∀ file raw, (AuditState.run fmt maxSize maxFiles steps).dir.get file = some raw →
        ∀ front before line back, lines raw = front ++ before :: line :: back →
          ∃ ev, fmt.fromJson line = some ev ∧ ev.prev = fmt.lineHash before := by
  have hsound := AuditState.sound_run fmt maxSize maxFiles steps
  refine ⟨AuditDir.verify_eq_nil fun f raw hget => ?_, ?_⟩
  · obtain ⟨ls, hfile⟩ := hsound.files f raw hget
    exact hfile.verifyChain_eq_none
  · intro file raw hget front before line back hlines
    obtain ⟨ls, hfile⟩ := hsound.files file raw hget
    have hchain := hfile.chain
    rw [← hfile.lines_eq, hlines] at hchain
    exact List.isChain_iff_forall_rel_of_append_cons_cons.mp hchain rfl

end Aperio
