import Mathlib.Data.List.Basic
import Mathlib.Data.List.DropRight

/-!
# Text

The string operations the server uses, over Lean's `String`: both are
sequences of Unicode scalar values, and a length is a length in UTF-8
bytes on both sides. Each operation is written over the character list so
that it evaluates in the kernel.

Nothing here knows of the server; the names are those of the Rust standard
library.
-/

namespace Aperio

/-! ## Whitespace and trimming -/

/-- Unicode `White_Space`, which `str::trim` strips. -/
def isWhiteSpace (c : Char) : Bool :=
  let n := c.toNat
  (0x9 ≤ n && n ≤ 0xD) || n = 0x20 || n = 0x85 || n = 0xA0 || n = 0x1680 ||
    (0x2000 ≤ n && n ≤ 0x200A) || n = 0x2028 || n = 0x2029 || n = 0x202F ||
    n = 0x205F || n = 0x3000

/-- `str::trim`. -/
def trim (s : String) : String :=
  String.ofList ((s.toList.dropWhile isWhiteSpace).rdropWhile isWhiteSpace)

/-- `str::trim_end_matches` with a character. -/
def trimEndMatches (s : String) (c : Char) : String :=
  String.ofList (s.toList.rdropWhile (· == c))

/-- `str::trim_start_matches` with a character. -/
def trimStartMatches (s : String) (c : Char) : String :=
  String.ofList (s.toList.dropWhile (· == c))

/-! ## Case -/

def toAsciiLowercase (s : String) : String :=
  String.ofList (s.toList.map Char.toLower)

def eqIgnoreAsciiCase (s t : String) : Bool :=
  toAsciiLowercase s == toAsciiLowercase t

/-! ## Splitting -/

/-- `str::split` with a set of separator characters. -/
def splitBy (p : Char → Bool) (s : String) : List String :=
  (s.toList.splitOnP p).map String.ofList

/-- `str::split` with one character. -/
def split (s : String) (c : Char) : List String :=
  splitBy (· == c) s

/-- `str::split_once` with one character: what stands before the first
occurrence and what stands after it. -/
def splitOnce (s : String) (c : Char) : Option (String × String) :=
  if c ∈ s.toList then
    some (String.ofList (s.toList.takeWhile (· != c)),
      String.ofList ((s.toList.dropWhile (· != c)).drop 1))
  else
    none

/-- `str::rsplit_once` with one character: the same at the last occurrence. -/
def rsplitOnce (s : String) (c : Char) : Option (String × String) :=
  if c ∈ s.toList then
    some (String.ofList (s.toList.rdropWhile (· != c)).dropLast,
      String.ofList (s.toList.rtakeWhile (· != c)))
  else
    none

/-- `[&str]::join`. -/
def join (parts : List String) (sep : String) : String :=
  String.ofList (sep.toList.intercalate (parts.map String.toList))

def startsWith (s p : String) : Bool :=
  p.toList.isPrefixOf s.toList

def endsWith (s p : String) : Bool :=
  p.toList.isSuffixOf s.toList

/-- `str::contains` with a text. -/
def containsText (s p : String) : Bool :=
  s.toList.tails.any p.toList.isPrefixOf

def stripPrefix (s p : String) : Option String :=
  if startsWith s p then some (String.ofList (s.toList.drop p.toList.length)) else none

def isAsciiDigit (c : Char) : Bool :=
  '0' ≤ c && c ≤ '9'

def isAsciiAlphanumeric (c : Char) : Bool :=
  isAsciiDigit c || ('a' ≤ c && c ≤ 'z') || ('A' ≤ c && c ≤ 'Z')

/-! ## Names -/

def maxNameLen : Nat := 64

def nameChar (c : Char) : Bool :=
  isAsciiDigit c || ('a' ≤ c && c ≤ 'z') || c == '_'

/-- `aperio_config::validate_name`, as a test. -/
def validName (name : String) : Bool :=
  let trimmed := trim name
  trimmed != "" && decide (trimmed.toList.length ≤ maxNameLen) && trimmed.toList.all nameChar

/-- `char::to_digit(16)` on a byte read as a character. -/
def hexDigit (b : UInt8) : Option Nat :=
  let n := b.toNat
  if 0x30 ≤ n ∧ n ≤ 0x39 then some (n - 0x30)
  else if 0x61 ≤ n ∧ n ≤ 0x66 then some (n - 0x61 + 10)
  else if 0x41 ≤ n ∧ n ≤ 0x46 then some (n - 0x41 + 10)
  else none

/-! ## Trimming and case, once more -/

theorem rdropWhile_dropWhile_idem {α : Type} (p : α → Bool) (l : List α) :
    (((l.dropWhile p).rdropWhile p).dropWhile p).rdropWhile p = (l.dropWhile p).rdropWhile p := by
  have hdrop : ((l.dropWhile p).rdropWhile p).dropWhile p = (l.dropWhile p).rdropWhile p := by
    rw [List.dropWhile_eq_self_iff]
    intro hlen
    -- what is left starts as the list did after the first pass
    have hpre := List.rdropWhile_prefix p (l.dropWhile p)
    have hhead := List.dropWhile_get_zero_not p l (hlen.trans_le hpre.length_le)
    rw [List.get_eq_getElem, ← hpre.getElem hlen] at hhead
    exact hhead
  rw [hdrop, List.rdropWhile_idempotent]

theorem mem_of_mem_trim {s : String} {c : Char} (h : c ∈ (trim s).toList) : c ∈ s.toList := by
  rw [trim, String.toList_ofList] at h
  exact (List.dropWhile_sublist _).mem ((List.rdropWhile_prefix _ _).mem h)

theorem trim_eq_self {s : String} (h : ∀ c ∈ s.toList, isWhiteSpace c = false) : trim s = s := by
  have hdrop : s.toList.dropWhile isWhiteSpace = s.toList := by
    rw [List.dropWhile_eq_self_iff]
    intro hlen
    simp [h _ (List.getElem_mem hlen)]
  have hrdrop : s.toList.rdropWhile isWhiteSpace = s.toList := by
    rw [List.rdropWhile_eq_self_iff]
    intro hne
    simp [h _ (List.getLast_mem hne)]
  rw [trim, hdrop, hrdrop, String.ofList_toList]

theorem trim_trim (s : String) : trim (trim s) = trim s := by
  simp only [trim, String.toList_ofList, rdropWhile_dropWhile_idem]

/-- A capital letter moves up by 0x20; everything else stays. -/
theorem toLower_cases (c : Char) :
    (0x41 ≤ c.toNat ∧ c.toNat ≤ 0x5A ∧ c.toLower.toNat = c.toNat + 0x20) ∨
      (¬(0x41 ≤ c.toNat ∧ c.toNat ≤ 0x5A) ∧ c.toLower = c) := by
  by_cases hupper : c.val ≥ 'A'.val ∧ c.val ≤ 'Z'.val
  · have hlower : c.toLower = ⟨c.val + ('a'.val - 'A'.val), _⟩ := dif_pos hupper
    have hZ : c.val.toNat ≤ 0x5A := hupper.2
    have hshift : ('a'.val - 'A'.val).toNat = 0x20 := by decide
    refine Or.inl ⟨hupper.1, hZ, ?_⟩
    rw [hlower]
    show (c.val + ('a'.val - 'A'.val)).toNat = c.val.toNat + 0x20
    rw [UInt32.toNat_add]
    omega
  · exact Or.inr ⟨hupper, dif_neg hupper⟩

theorem toLower_toLower (c : Char) : c.toLower.toLower = c.toLower := by
  rcases toLower_cases c with ⟨hA, -, hlow⟩ | ⟨-, hsame⟩
  · rcases toLower_cases c.toLower with ⟨-, hZ, -⟩ | ⟨-, hsame⟩
    · omega
    · exact hsame
  · rw [hsame, hsame]

theorem toLower_of_mem_toAsciiLowercase {s : String} {c : Char}
    (h : c ∈ (toAsciiLowercase s).toList) : c.toLower = c := by
  rw [toAsciiLowercase, String.toList_ofList] at h
  obtain ⟨d, -, rfl⟩ := List.mem_map.mp h
  exact toLower_toLower d

theorem toAsciiLowercase_eq_self {s : String} (h : ∀ c ∈ s.toList, c.toLower = c) :
    toAsciiLowercase s = s := by
  rw [toAsciiLowercase, List.map_congr_left h, List.map_id', String.ofList_toList]

theorem eqIgnoreAsciiCase_refl (s : String) : eqIgnoreAsciiCase s s = true := by
  simp [eqIgnoreAsciiCase]

theorem eqIgnoreAsciiCase_comm (s t : String) : eqIgnoreAsciiCase s t = eqIgnoreAsciiCase t s := by
  simp only [eqIgnoreAsciiCase, Bool.beq_comm]

/-! ## Prefix order -/

theorem startsWith_iff {s p : String} :
    startsWith s p = true ↔ p.toList <+: s.toList := by
  simp [startsWith]

theorem startsWith_append (p t : String) : startsWith (p ++ t) p = true := by
  rw [startsWith_iff, String.toList_append]
  exact List.prefix_append _ _

theorem startsWith_trans {s t u : String} (h₁ : startsWith s t = true)
    (h₂ : startsWith t u = true) : startsWith s u = true := by
  rw [startsWith_iff] at *
  exact h₂.trans h₁

/-! ## Splitting and joining -/

theorem split_ne_nil (s : String) (c : Char) : split s c ≠ [] := by
  simp [split, splitBy]

/-- A part holds what the list holds, and no separator. -/
theorem mem_of_mem_splitOnP {α : Type} {p : α → Bool} {l part : List α} {x : α}
    (h : part ∈ l.splitOnP p) (hx : x ∈ part) : x ∈ l ∧ p x = false := by
  induction l generalizing part with
  | nil =>
      rw [List.splitOnP_nil, List.mem_singleton] at h
      rw [h] at hx
      exact absurd hx List.not_mem_nil
  | cons a l ih =>
      have hlater (later : List α) (hl : later ∈ l.splitOnP p) (hxl : x ∈ later) :
          x ∈ a :: l ∧ p x = false := by
        obtain ⟨hin, hne⟩ := ih hl hxl
        exact ⟨List.mem_cons_of_mem _ hin, hne⟩
      rw [List.splitOnP_cons_eq_if_modifyHead] at h
      split at h
      · rcases List.mem_cons.mp h with rfl | h
        · exact absurd hx List.not_mem_nil
        · exact hlater part h hx
      · rename_i hne
        obtain ⟨y, ys, hy⟩ := List.exists_cons_of_ne_nil (List.splitOnP_ne_nil p l)
        rw [hy] at hlater
        rw [hy, List.modifyHead_cons] at h
        rcases List.mem_cons.mp h with rfl | h
        · rcases List.mem_cons.mp hx with rfl | hx
          · exact ⟨List.mem_cons_self, by simpa using hne⟩
          · exact hlater y List.mem_cons_self hx
        · exact hlater part (List.mem_cons_of_mem _ h) hx

/-- What is no separator is in one of the parts. -/
theorem exists_mem_splitOnP {α : Type} {p : α → Bool} {l : List α} {x : α} (hx : x ∈ l)
    (hp : p x = false) : ∃ part ∈ l.splitOnP p, x ∈ part := by
  induction l with
  | nil => cases hx
  | cons y l ih =>
      obtain ⟨q, qs, hq⟩ := List.exists_cons_of_ne_nil (List.splitOnP_ne_nil p l)
      rw [List.splitOnP_cons_eq_if_modifyHead]
      rw [hq] at ih ⊢
      rcases List.mem_cons.mp hx with rfl | hmem
      · exact ⟨x :: q, by simp [hp], List.mem_cons_self⟩
      · obtain ⟨part, hpart, hin⟩ := ih hmem
        by_cases hy : p y = true
        · rw [if_pos hy]
          exact ⟨part, List.mem_cons_of_mem _ hpart, hin⟩
        · rw [if_neg hy, List.modifyHead_cons]
          rcases List.mem_cons.mp hpart with rfl | hlater
          · exact ⟨y :: part, List.mem_cons_self, List.mem_cons_of_mem _ hin⟩
          · exact ⟨part, List.mem_cons_of_mem _ hlater, hin⟩

theorem mem_of_mem_split {s d : String} {c x : Char} (h : d ∈ split s c) (hx : x ∈ d.toList) :
    x ∈ s.toList ∧ x ≠ c := by
  simp only [split, splitBy, List.mem_map] at h
  obtain ⟨cs, hcs, rfl⟩ := h
  rw [String.toList_ofList] at hx
  obtain ⟨hin, hne⟩ := mem_of_mem_splitOnP hcs hx
  exact ⟨hin, by simpa using hne⟩

theorem not_mem_of_mem_split {s d : String} {c : Char} (h : d ∈ split s c) : c ∉ d.toList :=
  fun hc => (mem_of_mem_split h hc).2 rfl

/-- A text without the separator is its one part. -/
theorem split_eq_singleton {s : String} {c : Char} (h : c ∉ s.toList) : split s c = [s] := by
  have hone : s.toList.splitOnP (· == c) = [s.toList] := by
    refine List.splitOnP_eq_singleton fun x hx => beq_eq_false_iff_ne.mpr ?_
    rintro rfl
    exact h hx
  rw [split, splitBy, hone, List.map_singleton, String.ofList_toList]

theorem split_join {ds : List String} {c : Char} (hne : ds ≠ [])
    (hsep : ∀ d ∈ ds, c ∉ d.toList) : split (join ds (String.singleton c)) c = ds := by
  have hparts : ∀ l ∈ ds.map String.toList, c ∉ l := by
    intro l hl
    obtain ⟨d, hd, rfl⟩ := List.mem_map.mp hl
    exact hsep d hd
  have hsplit := List.splitOn_intercalate c hparts (by simpa using hne)
  rw [List.splitOn_eq_splitOnP] at hsplit
  rw [split, splitBy, join, String.toList_ofList, String.toList_singleton, hsplit, List.map_map]
  simp [Function.comp_def]

theorem trim_cons_space (cs : List Char) :
    trim (String.ofList (' ' :: cs)) = trim (String.ofList cs) := by
  have hspace : isWhiteSpace ' ' = true := by decide
  simp only [trim, String.toList_ofList, List.dropWhile_cons, hspace, if_true]

/-- A blank in front of a list of parts is trimmed with the first one. -/
theorem map_trim_splitBy_cons_space {p : Char → Bool} (hp : p ' ' = false) (cs : List Char) :
    ((splitBy p (String.ofList (' ' :: cs))).map trim) = (splitBy p (String.ofList cs)).map trim := by
  simp only [splitBy, String.toList_ofList, List.splitOnP_cons_eq_if_modifyHead, hp,
    Bool.false_eq_true, if_false]
  obtain ⟨x, xs, hx⟩ := List.exists_cons_of_ne_nil (List.splitOnP_ne_nil p cs)
  rw [hx, List.modifyHead_cons, List.map_cons, List.map_cons, List.map_cons, List.map_cons,
    trim_cons_space]

/-- Parts without blanks around them come back from a join with a blank
after each separator. -/
theorem map_trim_split_join {c : Char} (hc : c ≠ ' ') {ds : List String} (hne : ds ≠ [])
    (hsep : ∀ d ∈ ds, c ∉ d.toList) (htrim : ∀ d ∈ ds, trim d = d) :
    (split (join ds (String.ofList [c, ' '])) c).map trim = ds := by
  induction ds with
  | nil => exact absurd rfl hne
  | cons d ds ih =>
      have hd : ∀ x ∈ d.toList, (x == c) = false := by
        intro x hx
        have : x ≠ c := fun h => hsep d List.mem_cons_self (h ▸ hx)
        simpa using this
      cases ds with
      | nil =>
          have hsplit : split (join [d] (String.ofList [c, ' '])) c = [d] := by
            simp [split, splitBy, join, List.splitOnP_eq_singleton hd]
          rw [hsplit]
          simp [htrim d List.mem_cons_self]
      | cons e es =>
          have hrest := ih (by simp) (fun x hx => hsep x (List.mem_cons_of_mem _ hx))
            (fun x hx => htrim x (List.mem_cons_of_mem _ hx))
          have hjoin : (join (d :: e :: es) (String.ofList [c, ' '])).toList =
              d.toList ++ c :: ' ' :: (join (e :: es) (String.ofList [c, ' '])).toList := by
            simp [join]
          have hsplit : split (join (d :: e :: es) (String.ofList [c, ' '])) c =
              d :: splitBy (· == c)
                (String.ofList (' ' :: (join (e :: es) (String.ofList [c, ' '])).toList)) := by
            rw [split, splitBy, hjoin,
              List.splitOnP_append_cons_of_forall_mem hd c (by simp), List.map_cons,
              String.ofList_toList, splitBy, String.toList_ofList]
          have hblank : (' ' == c) = false := by simpa using hc.symm
          rw [hsplit, List.map_cons, map_trim_splitBy_cons_space hblank, String.ofList_toList,
            htrim d List.mem_cons_self]
          exact congrArg (d :: ·) hrest

theorem splitOnce_eq_some {s k v : String} {c : Char} :
    splitOnce s c = some (k, v) ↔ s.toList = k.toList ++ c :: v.toList ∧ c ∉ k.toList := by
  constructor
  · intro h
    unfold splitOnce at h
    split at h
    · rename_i hmem
      simp only [Option.some.injEq, Prod.mk.injEq] at h
      rw [← h.1, ← h.2, String.toList_ofList, String.toList_ofList]
      have hne : s.toList.dropWhile (· != c) ≠ [] := by
        intro hnil
        have := List.dropWhile_eq_nil_iff.mp hnil c hmem
        simp at this
      obtain ⟨x, xs, hx⟩ := List.exists_cons_of_ne_nil hne
      have hxc : x = c := by
        have hhead := List.head?_dropWhile_not (fun a => a != c) s.toList
        rw [hx] at hhead
        simpa using hhead
      constructor
      · conv_lhs => rw [← List.takeWhile_append_dropWhile (p := (· != c)) (l := s.toList)]
        rw [hx, hxc, List.drop_one, List.tail_cons]
      · intro hc
        have := List.mem_takeWhile_imp hc
        simp at this
    · cases h
  · rintro ⟨hs, hk⟩
    have hpass : ∀ x ∈ k.toList, (x != c) = true := by
      intro x hx
      rw [bne_iff_ne]
      rintro rfl
      exact hk hx
    have htake : s.toList.takeWhile (· != c) = k.toList := by
      rw [hs, List.takeWhile_append_of_pos hpass, List.takeWhile_cons_of_neg (by simp),
        List.append_nil]
    have hdrop : s.toList.dropWhile (· != c) = c :: v.toList := by
      rw [hs, List.dropWhile_append_of_pos hpass, List.dropWhile_cons_of_neg (by simp)]
    have hmem : c ∈ s.toList := by
      rw [hs]
      exact List.mem_append_right _ List.mem_cons_self
    rw [splitOnce, if_pos hmem, htake, hdrop, List.drop_one, List.tail_cons, String.ofList_toList,
      String.ofList_toList]

theorem startsWith_of_splitOnce {s k v : String} {c : Char} (h : splitOnce s c = some (k, v)) :
    startsWith s (k ++ String.singleton c) = true := by
  rw [startsWith_iff, (splitOnce_eq_some.mp h).1, String.toList_append, String.toList_singleton]
  exact ⟨v.toList, List.append_assoc _ _ _⟩

theorem stripPrefix_eq_some {s p rest : String} :
    stripPrefix s p = some rest ↔ s.toList = p.toList ++ rest.toList := by
  unfold stripPrefix
  constructor
  · intro h
    split at h
    · rename_i hstarts
      obtain ⟨tail, htail⟩ := startsWith_iff.mp hstarts
      cases h
      rw [String.toList_ofList, ← htail, List.drop_left]
    · cases h
  · intro h
    have hstarts : startsWith s p = true := startsWith_iff.mpr ⟨rest.toList, h.symm⟩
    rw [if_pos hstarts, h, List.drop_left, String.ofList_toList]

/-! ## UTF-8

`String::from_utf8_lossy` puts one U+FFFD in place of each maximal part of
the input that no valid encoding continues. -/

abbrev Bytes := List UInt8

/-- The bytes of a text. -/
def utf8Bytes (s : String) : List UInt8 :=
  s.toList.flatMap String.utf8EncodeChar

theorem toByteArray_eq_utf8Bytes (s : String) : s.toByteArray = (utf8Bytes s).toByteArray := by
  have h := @String.toByteArray_ofList s.toList
  rw [String.ofList_toList] at h
  exact h

theorem utf8Bytes_injective : Function.Injective utf8Bytes := by
  intro s t h
  apply String.toByteArray_inj.mp
  rw [toByteArray_eq_utf8Bytes, toByteArray_eq_utf8Bytes, h]

theorem utf8Bytes_append (s t : String) : utf8Bytes (s ++ t) = utf8Bytes s ++ utf8Bytes t := by
  simp [utf8Bytes]

/-- A byte below 0x80 is the whole spelling of its character. -/
theorem toNat_of_mem_utf8EncodeChar {c : Char} {b : UInt8} (hb : b.toNat < 0x80)
    (h : b ∈ String.utf8EncodeChar c) : c.toNat = b.toNat := by
  have hlong (v k : Nat) (hk : 0x80 ≤ (v + k) % 256) : b ≠ UInt8.ofNat (v + k) := by
    rintro rfl
    rw [UInt8.toNat_ofNat'] at hb
    omega
  simp only [String.utf8EncodeChar] at h
  split at h
  · rename_i hlow
    rw [List.mem_singleton.mp h, UInt8.toNat_ofNat']
    change c.val.toNat = _
    omega
  -- every byte of a longer spelling has its top bit set
  · split at h
    · simp only [List.mem_cons, List.not_mem_nil, or_false] at h
      rcases h with h | h
      · exact absurd h (hlong _ _ (by omega))
      · exact absurd h (hlong _ _ (by omega))
    · split at h
      · simp only [List.mem_cons, List.not_mem_nil, or_false] at h
        rcases h with h | h | h
        · exact absurd h (hlong _ _ (by omega))
        · exact absurd h (hlong _ _ (by omega))
        · exact absurd h (hlong _ _ (by omega))
      · simp only [List.mem_cons, List.not_mem_nil, or_false] at h
        rcases h with h | h | h | h
        · exact absurd h (hlong _ _ (by omega))
        · exact absurd h (hlong _ _ (by omega))
        · exact absurd h (hlong _ _ (by omega))
        · exact absurd h (hlong _ _ (by omega))

theorem mem_utf8EncodeChar_dot {c : Char} : 0x2E ∈ String.utf8EncodeChar c ↔ c = '.' := by
  constructor
  · intro h
    exact Char.ext (UInt32.toNat_inj.mp (toNat_of_mem_utf8EncodeChar (by decide) h))
  · rintro rfl
    decide

def isContinuation (b : UInt8) : Bool :=
  0x80 ≤ b && b ≤ 0xBF

/-- Whether `b1` may follow the lead byte `b0` of a longer sequence: the
ranges that exclude overlong forms, surrogates and values past U+10FFFF. -/
def secondByteOk (b0 b1 : UInt8) : Bool :=
  if b0 = 0xE0 then 0xA0 ≤ b1 && b1 ≤ 0xBF
  else if b0 = 0xED then 0x80 ≤ b1 && b1 ≤ 0x9F
  else if b0 = 0xF0 then 0x90 ≤ b1 && b1 ≤ 0xBF
  else if b0 = 0xF4 then 0x80 ≤ b1 && b1 ≤ 0x8F
  else isContinuation b1

/-- Reads one character, or one malformed part, off the front. -/
def utf8Head (b0 : UInt8) (rest : List UInt8) : Char × List UInt8 :=
  let low (b : UInt8) := b.toNat % 0x40
  let bad := Char.ofNat 0xFFFD
  if b0 < 0x80 then (Char.ofNat b0.toNat, rest)
  else if 0xC2 ≤ b0 ∧ b0 ≤ 0xDF then
    match rest with
    | b1 :: r =>
      if isContinuation b1 then (Char.ofNat ((b0.toNat % 0x20) * 0x40 + low b1), r)
      else (bad, rest)
    | [] => (bad, rest)
  else if 0xE0 ≤ b0 ∧ b0 ≤ 0xEF then
    match rest with
    | b1 :: r1 =>
      if secondByteOk b0 b1 then
        match r1 with
        | b2 :: r2 =>
          if isContinuation b2 then
            (Char.ofNat (((b0.toNat % 0x10) * 0x40 + low b1) * 0x40 + low b2), r2)
          else (bad, r1)
        | [] => (bad, r1)
      else (bad, rest)
    | [] => (bad, rest)
  else if 0xF0 ≤ b0 ∧ b0 ≤ 0xF4 then
    match rest with
    | b1 :: r1 =>
      if secondByteOk b0 b1 then
        match r1 with
        | b2 :: r2 =>
          if isContinuation b2 then
            match r2 with
            | b3 :: r3 =>
              if isContinuation b3 then
                (Char.ofNat ((((b0.toNat % 0x8) * 0x40 + low b1) * 0x40 + low b2) * 0x40
                  + low b3), r3)
              else (bad, r2)
            | [] => (bad, r2)
          else (bad, r1)
        | [] => (bad, r1)
      else (bad, rest)
    | [] => (bad, rest)
  else (bad, rest)

/-- Every step of the loop reads at least one byte, so as many steps as
there are bytes read them all. -/
def utf8LossyLoop : Nat → List UInt8 → List Char
  | 0, _ => []
  | _ + 1, [] => []
  | fuel + 1, b :: rest =>
    let (c, rest') := utf8Head b rest
    c :: utf8LossyLoop fuel rest'

/-- `String::from_utf8_lossy`. -/
def fromUtf8Lossy (bs : List UInt8) : String :=
  String.ofList (utf8LossyLoop bs.length bs)

/-- `str::from_utf8`. -/
def fromUtf8 (bytes : Bytes) : Option String :=
  let text := fromUtf8Lossy bytes
  if utf8Bytes text = bytes then some text else none

end Aperio
