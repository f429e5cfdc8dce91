import Aperio.Ip
import Mathlib.Data.List.Perm.Basic
import Mathlib.Data.List.Forall2

/-!
# How long a response may be kept

The header readers of `cache.rs`: `response_uncacheable`, which a negative
answer is judged by, and `response_cache_ttl`, which every other answer is.

`response_cache_ttl` walks the headers in order and stops at the first
directive that settles the matter. `marks` is what it looks at, in that
order, and `scan` is the walk over it; the walk stops at whichever of a
prohibition and a usable `s-maxage` comes first, so a prohibition that comes
later is not seen. `responseCacheTtl_order_iff` says for which responses no order of
headers and directives makes a difference.
-/

namespace Aperio

/-! ## The readers -/

/-- `str::parse::<u64>`: an optional `+`, then digits, below `2 ^ 64`. -/
def parseU64 (s : String) : Option Nat :=
  let digits :=
    match s.toList with
    | '+' :: rest => rest
    | cs => cs
  match readDigits 10 (toDigit 10) digits 0 0 with
  | (v, n, []) => if n = 0 ∨ 18446744073709551616 ≤ v then none else some v
  | _ => none

/-- A directive as both readers compare it. -/
def directiveText (directive : String) : String :=
  toAsciiLowercase (trim directive)

def forbidsStoring (d : String) : Bool :=
  d == "no-store" || d == "no-cache" || d == "private"

/-- The seconds of `key=…`, when they are a number. -/
def directiveSecs (key d : String) : Option Nat :=
  (stripPrefix d key).bind fun v => parseU64 (trim v)

def responseUncacheable : List (String × String) → Bool
  | [] => false
  | (name, value) :: rest =>
    let name := toAsciiLowercase name
    if name = "vary" ∨ name = "set-cookie" then true
    else if name = "cache-control" ∧
        (split value ',').any (fun d => forbidsStoring (directiveText d)) then true
    else responseUncacheable rest

/-- A lifetime of no seconds is no lifetime. -/
def positive (secs : Nat) : Option Nat :=
  if 0 < secs then some secs else none

/-- One directive: the walk ends with an answer, or goes on with the
`max-age` to fall back on. -/
def ttlDirective (ttl : Option Nat) (directive : String) : Except (Option Nat) (Option Nat) :=
  let d := directiveText directive
  if forbidsStoring d then .error none
  else
    match directiveSecs "s-maxage=" d with
    | some secs => .error (positive secs)
    | none =>
      match directiveSecs "max-age=" d with
      | some secs => .ok (some secs)
      | none => .ok ttl

def ttlHeader (acc : Option Nat × Bool) (header : String × String) :
    Except (Option Nat) (Option Nat × Bool) :=
  let name := toAsciiLowercase header.1
  if name = "vary" ∨ name = "set-cookie" then .error none
  else if name = "cache-control" then
    match (split header.2 ',').foldlM ttlDirective acc.1 with
    | .error answer => .error answer
    | .ok ttl => .ok (ttl, true)
  else .ok acc

/-- `response_cache_ttl`, in seconds. -/
def responseCacheTtl (headers : List (String × String)) : Option Nat :=
  match headers.foldlM ttlHeader (none, false) with
  | .error answer => answer
  | .ok (_, false) => none
  | .ok (ttl, true) => ttl.bind positive

example : responseCacheTtl [("Cache-Control", "public, max-age=60")] = some 60 := by decide

/-! ## What the walk looks at -/

inductive Mark where
  | forbid
  | shared (secs : Nat)
  | own (secs : Nat)
deriving Repr, DecidableEq

def directiveMarks (directive : String) : List Mark :=
  let d := directiveText directive
  if forbidsStoring d then [.forbid]
  else
    match directiveSecs "s-maxage=" d with
    | some secs => [.shared secs]
    | none =>
      match directiveSecs "max-age=" d with
      | some secs => [.own secs]
      | none => []

def headerMarks (header : String × String) : List Mark :=
  let name := toAsciiLowercase header.1
  if name = "vary" ∨ name = "set-cookie" then [.forbid]
  else if name = "cache-control" then (split header.2 ',').flatMap directiveMarks
  else []

def marks (headers : List (String × String)) : List Mark :=
  headers.flatMap headerMarks

/-- The walk, over what it looks at. -/
def scan : Option Nat → List Mark → Except (Option Nat) (Option Nat)
  | ttl, [] => .ok ttl
  | _, .forbid :: _ => .error none
  | _, .shared secs :: _ => .error (positive secs)
  | _, .own secs :: rest => scan (some secs) rest

/-- The answer of a walk. -/
def scanned (l : List Mark) : Option Nat :=
  match scan none l with
  | .error answer => answer
  | .ok ttl => ttl.bind positive

theorem scan_append (ttl : Option Nat) (l l' : List Mark) :
    scan ttl (l ++ l') = (scan ttl l).bind fun t => scan t l' := by
  induction l generalizing ttl with
  | nil => rfl
  | cons m l ih =>
      cases m with
      | forbid => rfl
      | shared secs => rfl
      | own secs => exact ih (some secs)

theorem ttlDirective_eq (ttl : Option Nat) (d : String) :
    ttlDirective ttl d = scan ttl (directiveMarks d) := by
  simp only [ttlDirective, directiveMarks]
  split
  · rfl
  · split
    · rfl
    · split <;> rfl

theorem ttlDirectives_eq (ttl : Option Nat) (ds : List String) :
    ds.foldlM ttlDirective ttl = scan ttl (ds.flatMap directiveMarks) := by
  induction ds generalizing ttl with
  | nil => rfl
  | cons d ds ih =>
      rw [List.foldlM_cons, List.flatMap_cons, scan_append, ttlDirective_eq]
      cases scan ttl (directiveMarks d) with
      | error answer => rfl
      | ok t => exact ih t

/-- A header the walk gets past leaves the fallback of its own marks; the
flag is set by every header that leaves one. -/
theorem ttlHeader_eq (acc : Option Nat × Bool) (header : String × String) :
    (∃ answer, ttlHeader acc header = .error answer ∧
        scan acc.1 (headerMarks header) = .error answer) ∨
      ∃ ttl has, ttlHeader acc header = .ok (ttl, has) ∧
        scan acc.1 (headerMarks header) = .ok ttl ∧ (has = false → ttl = acc.1 ∧ acc.2 = false) := by
  simp only [ttlHeader, headerMarks]
  split
  · exact .inl ⟨none, rfl, rfl⟩
  · split
    · rw [ttlDirectives_eq]
      cases scan acc.1 ((split header.2 ',').flatMap directiveMarks) with
      | error answer => exact .inl ⟨answer, rfl, rfl⟩
      | ok ttl => exact .inr ⟨ttl, true, rfl, rfl, by simp⟩
    · exact .inr ⟨acc.1, acc.2, rfl, rfl, fun h => ⟨rfl, h⟩⟩

theorem ttlHeaders_eq (headers : List (String × String)) (acc : Option Nat × Bool)
    (hacc : acc.2 = false → acc.1 = none) :
    (∃ answer, headers.foldlM ttlHeader acc = .error answer ∧
        scan acc.1 (marks headers) = .error answer) ∨
      ∃ ttl has, headers.foldlM ttlHeader acc = .ok (ttl, has) ∧
        scan acc.1 (marks headers) = .ok ttl ∧ (has = false → ttl = none) := by
  induction headers generalizing acc with
  | nil => exact .inr ⟨acc.1, acc.2, rfl, rfl, hacc⟩
  | cons header rest ih =>
      rw [List.foldlM_cons, marks, List.flatMap_cons, scan_append]
      rcases ttlHeader_eq acc header with ⟨answer, h, hs⟩ | ⟨ttl, has, h, hs, hhas⟩
      · rw [h, hs]
        exact .inl ⟨answer, rfl, rfl⟩
      · rw [h, hs]
        refine ih (ttl, has) ?_
        intro hf
        obtain ⟨httl, hacc2⟩ := hhas hf
        exact httl.trans (hacc hacc2)

theorem responseCacheTtl_eq (headers : List (String × String)) :
    responseCacheTtl headers = scanned (marks headers) := by
  unfold responseCacheTtl scanned
  rcases ttlHeaders_eq headers (none, false) (fun _ => rfl) with
    ⟨answer, h, hs⟩ | ⟨ttl, has, h, hs, hhas⟩
  · rw [h, hs]
  · rw [h, hs]
    cases has with
    | true => rfl
    | false => rw [hhas rfl]; rfl

/-! ## Orders -/

/-- The same header with its comma-separated directives in another order. -/
def SameDirectives (p q : String × String) : Prop :=
  p.1 = q.1 ∧ (split p.2 ',').Perm (split q.2 ',')

/-- The headers in another order, and the directives of each as well. -/
def Reordered (headers headers' : List (String × String)) : Prop :=
  ∃ g, headers.Perm g ∧ List.Forall₂ SameDirectives g headers'

theorem headerMarks_perm {p q : String × String} (h : SameDirectives p q) :
    (headerMarks p).Perm (headerMarks q) := by
  obtain ⟨hname, hperm⟩ := h
  simp only [headerMarks, hname]
  split
  · exact List.Perm.refl _
  · split
    · exact hperm.flatMap_right directiveMarks
    · exact List.Perm.refl _

theorem marks_perm {headers headers' : List (String × String)} (h : Reordered headers headers') :
    (marks headers).Perm (marks headers') := by
  obtain ⟨g, hperm, hsame⟩ := h
  refine (hperm.flatMap_right headerMarks).trans ?_
  clear hperm
  induction hsame with
  | nil => exact List.Perm.refl _
  | cons hpq _ ih =>
      rw [List.flatMap_cons, marks, List.flatMap_cons]
      exact (headerMarks_perm hpq).append ih

/-- The directives of a header can be written in any order. -/
theorem exists_reordered_value {s : String} {ds : List String} {c : Char}
    (h : (split s c).Perm ds) : ∃ s', split s' c = ds := by
  refine ⟨join ds (String.singleton c), split_join ?_ ?_⟩
  · intro hnil
    rw [hnil] at h
    exact split_ne_nil s c h.eq_nil
  · intro d hd
    exact not_mem_of_mem_split (h.mem_iff.mpr hd)

theorem headerMarks_cacheControl {p : String × String}
    (hname : toAsciiLowercase p.1 = "cache-control") :
    headerMarks p = (split p.2 ',').flatMap directiveMarks := by
  have hne : ¬ (toAsciiLowercase p.1 = "vary" ∨ toAsciiLowercase p.1 = "set-cookie") := by
    rw [hname]
    decide
  simp only [headerMarks, if_neg hne, if_pos hname]

section Moved

variable {headers : List (String × String)} {p : String × String} {d : String}

/-- Any directive of a `Cache-Control` header can come first of all. -/
theorem reordered_first (hp : p ∈ headers) (hname : toAsciiLowercase p.1 = "cache-control")
    (hd : d ∈ split p.2 ',') :
    ∃ headers' rest, Reordered headers headers' ∧ marks headers' = directiveMarks d ++ rest := by
  have hperm := List.perm_cons_erase hd
  obtain ⟨v, hv⟩ := exists_reordered_value hperm
  refine ⟨(p.1, v) :: headers.erase p,
    ((split p.2 ',').erase d).flatMap directiveMarks ++ (headers.erase p).flatMap headerMarks,
    ⟨p :: headers.erase p, List.perm_cons_erase hp, ?_⟩, ?_⟩
  · exact .cons ⟨rfl, by rw [hv]; exact hperm⟩ (List.forall₂_same.mpr fun q _ => ⟨rfl, .refl _⟩)
  · rw [marks, List.flatMap_cons, headerMarks_cacheControl (p := (p.1, v)) hname, hv,
      List.flatMap_cons, List.append_assoc]

/-- And it can come last of all. -/
theorem reordered_last (hp : p ∈ headers) (hname : toAsciiLowercase p.1 = "cache-control")
    (hd : d ∈ split p.2 ',') :
    ∃ headers' front, Reordered headers headers' ∧ marks headers' = front ++ directiveMarks d := by
  have hperm : (split p.2 ',').Perm ((split p.2 ',').erase d ++ [d]) :=
    (List.perm_cons_erase hd).trans (List.perm_append_singleton _ _).symm
  obtain ⟨v, hv⟩ := exists_reordered_value hperm
  refine ⟨headers.erase p ++ [(p.1, v)],
    (headers.erase p).flatMap headerMarks ++ ((split p.2 ',').erase d).flatMap directiveMarks,
    ⟨headers.erase p ++ [p], ?_, ?_⟩, ?_⟩
  · exact (List.perm_cons_erase hp).trans (List.perm_append_singleton _ _).symm
  · refine List.rel_append (List.forall₂_same.mpr fun q _ => ⟨rfl, .refl _⟩) ?_
    exact .cons ⟨rfl, by rw [hv]; exact hperm⟩ .nil
  · rw [marks, List.flatMap_append, List.flatMap_singleton,
      headerMarks_cacheControl (p := (p.1, v)) hname, hv, List.flatMap_append,
      List.flatMap_singleton, List.append_assoc]

end Moved

/-! ## What a response advertises -/

/-- The response is for one visitor: it varies, it sets a cookie, or it
forbids storing. -/
def ForOneVisitor (headers : List (String × String)) : Prop :=
  ∃ p ∈ headers, toAsciiLowercase p.1 = "vary" ∨ toAsciiLowercase p.1 = "set-cookie" ∨
    toAsciiLowercase p.1 = "cache-control" ∧
      ∃ d ∈ split p.2 ',', forbidsStoring (directiveText d) = true

/-- A `Cache-Control` header holds `key` with that many seconds. -/
def Advertises (headers : List (String × String)) (key : String) (secs : Nat) : Prop :=
  ∃ p ∈ headers, toAsciiLowercase p.1 = "cache-control" ∧
    ∃ d ∈ split p.2 ',', directiveSecs key (directiveText d) = some secs

theorem responseUncacheable_iff (headers : List (String × String)) :
    responseUncacheable headers = true ↔ ForOneVisitor headers := by
  induction headers with
  | nil => simp [responseUncacheable, ForOneVisitor]
  | cons p rest ih =>
      have hcons : ForOneVisitor (p :: rest) ↔
          (toAsciiLowercase p.1 = "vary" ∨ toAsciiLowercase p.1 = "set-cookie" ∨
            toAsciiLowercase p.1 = "cache-control" ∧
              ∃ d ∈ split p.2 ',', forbidsStoring (directiveText d) = true) ∨
            ForOneVisitor rest := by
        simp only [ForOneVisitor, List.mem_cons, exists_eq_or_imp]
      rw [hcons, ← ih]
      simp only [responseUncacheable, List.any_eq_true]
      split
      · rename_i h
        simp [← or_assoc, h]
      · rename_i h
        split
        · rename_i hcc
          simp [hcc]
        · rename_i hcc
          simp [h, hcc]

theorem directiveSecs_of_forbids {d : String} (h : forbidsStoring d = true) :
    directiveSecs "s-maxage=" d = none ∧ directiveSecs "max-age=" d = none := by
  simp only [forbidsStoring, Bool.or_eq_true, beq_iff_eq] at h
  rcases h with (rfl | rfl) | rfl
  · exact ⟨by decide, by decide⟩
  · exact ⟨by decide, by decide⟩
  · exact ⟨by decide, by decide⟩

theorem startsWith_of_directiveSecs {key d : String} {secs : Nat}
    (h : directiveSecs key d = some secs) : startsWith d key = true := by
  by_contra hno
  simp [directiveSecs, stripPrefix, hno] at h

/-- No directive is read as both ages. -/
theorem directiveSecs_shared_of_own {d : String} {secs : Nat}
    (h : directiveSecs "max-age=" d = some secs) : directiveSecs "s-maxage=" d = none := by
  by_contra hno
  obtain ⟨n, hn⟩ := Option.ne_none_iff_exists'.mp hno
  have hown := startsWith_iff.mp (startsWith_of_directiveSecs h)
  have hshared := startsWith_iff.mp (startsWith_of_directiveSecs hn)
  obtain ⟨t, ht⟩ := hown
  obtain ⟨t', ht'⟩ := hshared
  rw [← ht] at ht'
  simp at ht'

theorem forbid_mem_directiveMarks {d : String} :
    Mark.forbid ∈ directiveMarks d ↔ forbidsStoring (directiveText d) = true := by
  simp only [directiveMarks]
  split
  · simp_all
  · rename_i hno
    split
    · simp [hno]
    · split <;> simp [hno]

theorem directiveMarks_shared {d : String} {secs : Nat} :
    directiveSecs "s-maxage=" (directiveText d) = some secs ↔
      directiveMarks d = [.shared secs] := by
  simp only [directiveMarks]
  split
  · rename_i hforbid
    simp [(directiveSecs_of_forbids hforbid).1]
  · split
    · rename_i n hn
      simp [hn]
    · rename_i hnone
      rw [hnone]
      split <;> simp

theorem directiveMarks_own {d : String} {secs : Nat} :
    directiveSecs "max-age=" (directiveText d) = some secs ↔ directiveMarks d = [.own secs] := by
  simp only [directiveMarks]
  split
  · rename_i hforbid
    simp [(directiveSecs_of_forbids hforbid).2]
  · split
    · rename_i n hn
      constructor
      · intro hown
        rw [directiveSecs_shared_of_own hown] at hn
        exact absurd hn (by simp)
      · simp
    · split
      · rename_i n hn
        simp [hn]
      · rename_i hnone
        simp [hnone]

/-- A directive leaves one mark at most. -/
theorem directiveMarks_of_mem {d : String} {m : Mark} (h : m ∈ directiveMarks d) :
    directiveMarks d = [m] := by
  revert h
  simp only [directiveMarks]
  split
  · simp_all
  · split
    · simp_all
    · split <;> simp_all

theorem mem_headerMarks {p : String × String} {m : Mark} :
    m ∈ headerMarks p ↔
      (m = .forbid ∧ (toAsciiLowercase p.1 = "vary" ∨ toAsciiLowercase p.1 = "set-cookie")) ∨
      (toAsciiLowercase p.1 = "cache-control" ∧ ∃ d ∈ split p.2 ',', m ∈ directiveMarks d) := by
  by_cases hcc : toAsciiLowercase p.1 = "cache-control"
  · rw [headerMarks_cacheControl hcc, List.mem_flatMap]
    simp [hcc]
  · by_cases hone : toAsciiLowercase p.1 = "vary" ∨ toAsciiLowercase p.1 = "set-cookie"
    · simp [headerMarks, hone, hcc]
    · simp [headerMarks, hone, hcc]

theorem forbid_mem_marks {headers : List (String × String)} :
    Mark.forbid ∈ marks headers ↔ ForOneVisitor headers := by
  simp only [marks, List.mem_flatMap, mem_headerMarks, forbid_mem_directiveMarks, true_and,
    ForOneVisitor, or_assoc]

/-- An age comes from a directive that leaves that mark and no other. -/
theorem age_mem_marks {headers : List (String × String)} {m : Mark} (hm : m ≠ .forbid) :
    m ∈ marks headers ↔ ∃ p ∈ headers, toAsciiLowercase p.1 = "cache-control" ∧
      ∃ d ∈ split p.2 ',', directiveMarks d = [m] := by
  simp only [marks, List.mem_flatMap, mem_headerMarks, hm, false_and, false_or]
  refine exists_congr fun p => and_congr_right fun _ => and_congr_right fun _ => ?_
  refine exists_congr fun d => and_congr_right fun _ => ⟨directiveMarks_of_mem, ?_⟩
  intro h
  rw [h]
  exact List.mem_singleton_self _

theorem shared_mem_marks {headers : List (String × String)} {secs : Nat} :
    Mark.shared secs ∈ marks headers ↔ Advertises headers "s-maxage=" secs := by
  rw [age_mem_marks (by simp)]
  simp only [Advertises, directiveMarks_shared]

theorem own_mem_marks {headers : List (String × String)} {secs : Nat} :
    Mark.own secs ∈ marks headers ↔ Advertises headers "max-age=" secs := by
  rw [age_mem_marks (by simp)]
  simp only [Advertises, directiveMarks_own]

/-! ## The walk over any order -/

theorem positive_injective : Function.Injective positive := by
  intro m n h
  simp only [positive] at h
  split at h <;> split at h <;> simp at h <;> omega

/-- Where a prohibition stands among `s-maxage=0` at most, the walk ends
with no lifetime wherever it stops. -/
theorem scan_forbid {l : List Mark} (hforbid : Mark.forbid ∈ l)
    (hzero : ∀ n, Mark.shared n ∈ l → n = 0) (ttl : Option Nat) : scan ttl l = .error none := by
  induction l generalizing ttl with
  | nil => exact absurd hforbid List.not_mem_nil
  | cons m l ih =>
      cases m with
      | forbid => rfl
      | shared n =>
          rw [hzero n List.mem_cons_self]
          rfl
      | own n =>
          have htail : Mark.forbid ∈ l := by simpa using hforbid
          exact ih htail (fun k hk => hzero k (List.mem_cons_of_mem _ hk)) (some n)

theorem scan_shared {l : List Mark} {secs : Nat} (hforbid : Mark.forbid ∉ l)
    (hmem : Mark.shared secs ∈ l) (hsame : ∀ n, Mark.shared n ∈ l → n = secs)
    (ttl : Option Nat) : scan ttl l = .error (positive secs) := by
  induction l generalizing ttl with
  | nil => exact absurd hmem List.not_mem_nil
  | cons m l ih =>
      cases m with
      | forbid => exact absurd List.mem_cons_self hforbid
      | shared n =>
          rw [hsame n List.mem_cons_self]
          rfl
      | own n =>
          have htail : Mark.shared secs ∈ l := by simpa using hmem
          exact ih (fun h => hforbid (List.mem_cons_of_mem _ h)) htail
            (fun k hk => hsame k (List.mem_cons_of_mem _ hk)) (some n)

/-- With neither, the walk reaches the end with the last `max-age`. -/
theorem scan_own {l : List Mark} (hforbid : Mark.forbid ∉ l) (hshared : ∀ n, Mark.shared n ∉ l)
    (ttl : Option Nat) : ∃ t, scan ttl l = .ok t ∧
      (t = ttl ∧ (∀ n, Mark.own n ∉ l) ∨ ∃ n, t = some n ∧ Mark.own n ∈ l) := by
  induction l generalizing ttl with
  | nil => exact ⟨ttl, rfl, .inl ⟨rfl, fun n => List.not_mem_nil⟩⟩
  | cons m l ih =>
      cases m with
      | forbid => exact absurd List.mem_cons_self hforbid
      | shared n => exact absurd List.mem_cons_self (hshared n)
      | own n =>
          obtain ⟨t, ht, hlast⟩ := ih (fun h => hforbid (List.mem_cons_of_mem _ h))
            (fun k hk => hshared k (List.mem_cons_of_mem _ hk)) (some n)
          refine ⟨t, ht, .inr ?_⟩
          rcases hlast with ⟨rfl, -⟩ | ⟨k, rfl, hk⟩
          · exact ⟨n, rfl, List.mem_cons_self⟩
          · exact ⟨k, rfl, List.mem_cons_of_mem _ hk⟩

/-- The marks agree on an answer. -/
def MarksAgree (l : List Mark) : Prop :=
  (Mark.forbid ∈ l → ∀ n, Mark.shared n ∈ l → n = 0) ∧
  (Mark.forbid ∉ l → (∀ m n, Mark.shared m ∈ l → Mark.shared n ∈ l → m = n) ∧
    ((∀ n, Mark.shared n ∉ l) → ∀ m n, Mark.own m ∈ l → Mark.own n ∈ l → m = n))

theorem scanned_perm {l l' : List Mark} (hperm : l.Perm l') (h : MarksAgree l) :
    scanned l' = scanned l := by
  have hmem : ∀ m, m ∈ l' ↔ m ∈ l := fun m => hperm.mem_iff.symm
  by_cases hforbid : Mark.forbid ∈ l
  · have hzero := h.1 hforbid
    rw [scanned, scanned, scan_forbid hforbid hzero,
      scan_forbid ((hmem _).mpr hforbid) fun n hn => hzero n ((hmem _).mp hn)]
  · have hforbid' : Mark.forbid ∉ l' := fun hin => hforbid ((hmem _).mp hin)
    obtain ⟨hsame, hown⟩ := h.2 hforbid
    by_cases hshared : ∃ n, Mark.shared n ∈ l
    · obtain ⟨n, hn⟩ := hshared
      rw [scanned, scanned, scan_shared hforbid hn fun k hk => hsame k n hk hn,
        scan_shared hforbid' ((hmem _).mpr hn) fun k hk => hsame k n ((hmem _).mp hk) hn]
    · have hnone : ∀ n, Mark.shared n ∉ l := fun n hn => hshared ⟨n, hn⟩
      obtain ⟨t, ht, hlast⟩ := scan_own hforbid hnone none
      obtain ⟨t', ht', hlast'⟩ := scan_own hforbid' (fun n hn => hnone n ((hmem _).mp hn)) none
      -- the last `max-age` may be another one, with the same seconds
      have heq : t' = t := by
        rcases hlast with ⟨rfl, hno⟩ | ⟨m, rfl, hm⟩
        · rcases hlast' with ⟨rfl, -⟩ | ⟨n, rfl, hn⟩
          · rfl
          · exact absurd ((hmem _).mp hn) (hno n)
        · rcases hlast' with ⟨rfl, hno⟩ | ⟨n, rfl, hn⟩
          · exact absurd ((hmem _).mpr hm) (hno m)
          · rw [hown hnone n m ((hmem _).mp hn) hm]
      rw [scanned, scanned, ht, ht', heq]

/-! ## Order does not matter, and when it does -/

/-- A response for one visitor gets no lifetime, the lifetime is the same
in every order of headers and directives, and what `response_uncacheable`
refuses gets none. -/
def OrderIndependent (headers : List (String × String)) : Prop :=
  (ForOneVisitor headers → responseCacheTtl headers = none) ∧
  (∀ headers', Reordered headers headers' →
    responseCacheTtl headers' = responseCacheTtl headers) ∧
  (responseUncacheable headers = true → responseCacheTtl headers = none)

/-- Some order gives the lifetime of any one `s-maxage`. -/
theorem reordered_shared {headers : List (String × String)} {secs : Nat}
    (h : Advertises headers "s-maxage=" secs) :
    ∃ headers', Reordered headers headers' ∧ responseCacheTtl headers' = positive secs := by
  obtain ⟨p, hp, hname, d, hd, hsecs⟩ := h
  obtain ⟨headers', rest, hre, hmarks⟩ := reordered_first hp hname hd
  rw [directiveMarks_shared.mp hsecs] at hmarks
  refine ⟨headers', hre, ?_⟩
  rw [responseCacheTtl_eq, hmarks]
  rfl

/-- With no prohibition and no `s-maxage`, some order gives the lifetime of
any one `max-age`. -/
theorem reordered_own {headers : List (String × String)} {secs : Nat}
    (hone : ¬ ForOneVisitor headers) (hno : ∀ n, ¬ Advertises headers "s-maxage=" n)
    (h : Advertises headers "max-age=" secs) :
    ∃ headers', Reordered headers headers' ∧ responseCacheTtl headers' = positive secs := by
  obtain ⟨p, hp, hname, d, hd, hsecs⟩ := h
  obtain ⟨headers', front, hre, hmarks⟩ := reordered_last hp hname hd
  rw [directiveMarks_own.mp hsecs] at hmarks
  refine ⟨headers', hre, ?_⟩
  have hmem : ∀ m ∈ front, m ∈ marks headers := by
    intro m hm
    rw [(marks_perm hre).mem_iff, hmarks]
    exact List.mem_append_left _ hm
  obtain ⟨t, ht, -⟩ := scan_own (l := front) (fun hf => hone (forbid_mem_marks.mp (hmem _ hf)))
    (fun n hn => hno n (shared_mem_marks.mp (hmem _ hn))) none
  rw [responseCacheTtl_eq, hmarks, scanned, scan_append, ht]
  rfl

/-- **Order.** The lifetime of a response is the same in every order, and
nothing for one visitor has one, exactly when a response for one visitor
has no `s-maxage` but zero, and any other response does not contradict
itself: all its `s-maxage` agree or, where it has none, all its
`max-age`. -/
theorem responseCacheTtl_order_iff (headers : List (String × String)) :
    OrderIndependent headers ↔
      (ForOneVisitor headers → ∀ n, Advertises headers "s-maxage=" n → n = 0) ∧
      (¬ ForOneVisitor headers →
        (∀ m n, Advertises headers "s-maxage=" m → Advertises headers "s-maxage=" n → m = n) ∧
        ((∀ n, ¬ Advertises headers "s-maxage=" n) →
          ∀ m n, Advertises headers "max-age=" m → Advertises headers "max-age=" n → m = n)) := by
  constructor
  · rintro ⟨hone, horder, -⟩
    refine ⟨?_, fun hnot => ⟨?_, ?_⟩⟩
    · intro hpriv n hn
      obtain ⟨headers', hre, httl⟩ := reordered_shared hn
      rw [horder headers' hre, hone hpriv] at httl
      exact (@positive_injective 0 n httl).symm
    · intro m n hm hn
      obtain ⟨headers₁, hre₁, httl₁⟩ := reordered_shared hm
      obtain ⟨headers₂, hre₂, httl₂⟩ := reordered_shared hn
      rw [horder headers₁ hre₁] at httl₁
      rw [horder headers₂ hre₂] at httl₂
      exact positive_injective (httl₁.symm.trans httl₂)
    · intro hno m n hm hn
      obtain ⟨headers₁, hre₁, httl₁⟩ := reordered_own hnot hno hm
      obtain ⟨headers₂, hre₂, httl₂⟩ := reordered_own hnot hno hn
      rw [horder headers₁ hre₁] at httl₁
      rw [horder headers₂ hre₂] at httl₂
      exact positive_injective (httl₁.symm.trans httl₂)
  · intro hcond
    have hsettled : MarksAgree (marks headers) := by
      simpa only [MarksAgree, forbid_mem_marks, shared_mem_marks, own_mem_marks] using hcond
    have hnone : ForOneVisitor headers → responseCacheTtl headers = none := by
      intro hpriv
      have hforbid := forbid_mem_marks.mpr hpriv
      rw [responseCacheTtl_eq, scanned, scan_forbid hforbid (hsettled.1 hforbid)]
    refine ⟨hnone, ?_, fun h => hnone ((responseUncacheable_iff headers).mp h)⟩
    intro headers' hre
    rw [responseCacheTtl_eq, responseCacheTtl_eq]
    exact scanned_perm (marks_perm hre) hsettled

/-- A session cookie set by a response that also gives itself a minute in
shared caches: seen first it forbids storing, seen last it does not. -/
theorem setCookie_after_sMaxage :
    ¬ OrderIndependent [("cache-control", "s-maxage=60"), ("set-cookie", "sid=1")] := by
  rintro ⟨-, -, h⟩
  exact absurd (h (by decide)) (by decide)

end Aperio
