import Aperio.CacheControl
import Aperio.Text

/-!
# Durations and sizes

`Span` and `ByteSize` of the configuration (`units.rs`): a number and a unit,
read the way a person writes them and written back with the largest unit that
divides them. `parse_duration_secs` of the server (`api/scaling.rs`) reads the
durations of a scaling declaration, and says it mirrors `Span::parse`.

A `Span` holds a `std::time::Duration`; every one that is read is a whole
number of milliseconds, and seconds that fit 64 bits.
-/

namespace Aperio

/-! ## A number and what follows it -/

/-- Where the digits a text starts with end. -/
def splitNumber (value : String) : String × String :=
  (String.ofList (value.toList.takeWhile isAsciiDigit),
    String.ofList (value.toList.dropWhile isAsciiDigit))

/-- What `u64` holds, and not one more. -/
def u64Bound : Nat := 18446744073709551616

/-- A value of the configuration where a unit is read: the deserializer
refuses every other kind. -/
inductive UnitValue where
  | number (n : Nat) (fits : n < u64Bound)
  | text (t : String)

/-! ## Durations -/

@[ext] structure Span where
  millis : Nat
  /-- The seconds are a `u64`. -/
  fits : millis < u64Bound * 1000
deriving DecidableEq

namespace Span

def secs (n : Nat) (h : n < u64Bound) : Span where
  millis := n * 1000
  fits := Nat.mul_lt_mul_of_pos_right h (by decide)

def ofMillis (n : Nat) (h : n < u64Bound) : Span where
  millis := n
  fits := Nat.lt_of_lt_of_le h (Nat.le_mul_of_pos_right _ (by decide))

/-- The milliseconds of each unit. -/
def millisPer (unit : String) : Option Nat :=
  if unit = "" ∨ unit = "s" ∨ unit = "sec" ∨ unit = "secs" then some 1000
  else if unit = "ms" then some 1
  else if unit = "m" ∨ unit = "min" then some 60000
  else if unit = "h" then some 3600000
  else if unit = "d" then some 86400000
  else if unit = "w" then some 604800000
  else none

def parse (raw : String) : Except String Span :=
  let value := toAsciiLowercase (trim raw)
  if value = "" then .error "an empty duration"
  else
    let (number, unit) := splitNumber value
    match parseU64 number with
    | none => .error ("`" ++ raw ++ "` is not a duration (write 30s, 5m, 2h, 1d)")
    | some n =>
      match millisPer (trim unit) with
      | none => .error ("`" ++ raw ++ "` has an unknown unit `" ++ trim unit ++
          "` (use ms, s, m, h, d or w)")
      | some per =>
        if h : n * per < u64Bound then .ok (ofMillis (n * per) h)
        else .error ("`" ++ raw ++ "` is too long")

/-- The units a duration is written with, the largest first. -/
def units : List (String × Nat) :=
  [("w", 604800000), ("d", 86400000), ("h", 3600000), ("m", 60000), ("s", 1000)]

/-- `as_millis() as u64`, and the largest unit it is a multiple of. -/
def display (s : Span) : String :=
  let ms := s.millis % u64Bound
  if ms = 0 then "0s"
  else
    match units.find? fun u => decide (ms % u.2 = 0) with
    | some (unit, per) => toString (ms / per) ++ unit
    | none => toString ms ++ "ms"

def deserialize : UnitValue → Except String Span
  | .number n fits => .ok (secs n fits)
  | .text t => parse t

end Span

/-! ## Sizes -/

@[ext] structure ByteSize where
  bytes : Nat
  fits : bytes < u64Bound
deriving DecidableEq

namespace ByteSize

/-- The bytes of each unit; the units are binary. -/
def bytesPer (unit : String) : Option Nat :=
  if unit = "" ∨ unit = "b" then some 1
  else if unit = "k" ∨ unit = "kb" ∨ unit = "kib" then some 1024
  else if unit = "m" ∨ unit = "mb" ∨ unit = "mib" then some 1048576
  else if unit = "g" ∨ unit = "gb" ∨ unit = "gib" then some 1073741824
  else none

def parse (raw : String) : Except String ByteSize :=
  let value := String.ofList ((toAsciiLowercase (trim raw)).toList.filter (· != ' '))
  if value = "" then .error "an empty size"
  else
    let (number, unit) := splitNumber value
    match parseU64 number with
    | none => .error ("`" ++ raw ++ "` is not a size (write 512KB, 10MB, 1GB)")
    | some n =>
      match bytesPer unit with
      | none => .error ("`" ++ raw ++ "` has an unknown unit `" ++ unit ++ "` (use KB, MB or GB)")
      | some per =>
        if h : n * per < u64Bound then .ok ⟨n * per, h⟩
        else .error ("`" ++ raw ++ "` is too large")

def units : List (String × Nat) :=
  [("GB", 1073741824), ("MB", 1048576), ("KB", 1024)]

def display (s : ByteSize) : String :=
  if s.bytes = 0 then "0"
  else
    match units.find? fun u => decide (s.bytes % u.2 = 0) with
    | some (unit, per) => toString (s.bytes / per) ++ unit
    | none => toString s.bytes

def deserialize : UnitValue → Except String ByteSize
  | .number n fits => .ok ⟨n, fits⟩
  | .text t => parse t

end ByteSize

/-! ## The server's reader -/

/-- The seconds of the unit a text ends with, and what stands before it. -/
def durationUnit (value : String) : String × Nat :=
  let number := String.ofList value.toList.dropLast
  match value.toList.getLast? with
  | some 's' => (number, 1)
  | some 'm' => (number, 60)
  | some 'h' => (number, 3600)
  | some 'd' => (number, 86400)
  | _ => (value, 1)

def parseDurationSecs (raw : String) : Except String Nat :=
  let value := toAsciiLowercase (trim raw)
  if value = "" then .error "empty duration"
  else
    let (number, multiplier) := durationUnit value
    match parseU64 number with
    | none => .error ("invalid duration '" ++ raw ++ "'")
    | some n =>
      if n * multiplier < u64Bound then .ok (n * multiplier)
      else .error ("duration '" ++ raw ++ "' is too large")

/-! ## Reading digits -/

theorem toDigit_of_digit {c : Char} (h : isAsciiDigit c = true) :
    toDigit 10 c = some (c.toNat - 48) := by
  have hrange : '0' ≤ c ∧ c ≤ '9' := by simpa [isAsciiDigit] using h
  have hlt : c.toNat - 0x30 < 10 := by
    have hle : c.toNat ≤ 57 := hrange.2
    omega
  simp [toDigit, hrange, hlt]

theorem toDigit_of_not_digit {c : Char} (h : isAsciiDigit c = false) : toDigit 10 c = none := by
  have hrange : ¬('0' ≤ c ∧ c ≤ '9') := by simpa [isAsciiDigit] using h
  dsimp only [toDigit]
  rw [if_neg hrange]
  split
  · rename_i hlow
    have hle : 97 ≤ c.toNat := hlow.1
    simp only [Option.filter_eq_none_iff, Option.some.injEq, forall_eq', decide_eq_true_eq]
    omega
  · split
    · rename_i hup
      have hle : 65 ≤ c.toNat := hup.1
      simp only [Option.filter_eq_none_iff, Option.some.injEq, forall_eq', decide_eq_true_eq]
      omega
    · rfl

/-- The text goes on with something else than a digit, or ends. -/
def NoDigit (rest : List Char) : Prop :=
  ∀ c ∈ rest.head?, isAsciiDigit c = false

instance (rest : List Char) : Decidable (NoDigit rest) :=
  match rest with
  | [] => isTrue nofun
  | c :: _ => decidable_of_iff (isAsciiDigit c = false) (by simp [NoDigit])

theorem readDigits_append {ds rest : List Char} (hds : ∀ c ∈ ds, isAsciiDigit c = true)
    (hrest : NoDigit rest) (acc n : Nat) :
    readDigits 10 (toDigit 10) (ds ++ rest) acc n =
      (Nat.ofDigitChars 10 ds acc, n + ds.length, rest) := by
  induction ds generalizing acc n with
  | nil =>
      cases rest with
      | nil => rfl
      | cons c rest =>
          have hc := toDigit_of_not_digit (hrest c rfl)
          simp [readDigits, hc]
  | cons d ds ih =>
      obtain ⟨hd, hds⟩ := List.forall_mem_cons.mp hds
      rw [List.cons_append, readDigits, toDigit_of_digit hd]
      simp only [ih hds, Nat.ofDigitChars_cons, List.length_cons]
      rw [Nat.mul_comm acc 10]
      have hcount : n + 1 + ds.length = n + (ds.length + 1) := by omega
      rw [hcount]
      rfl

/-- A number is read from digits alone. -/
theorem parseU64_append {ds rest : List Char} (hne : ds ≠ [])
    (hds : ∀ c ∈ ds, isAsciiDigit c = true) (hrest : NoDigit rest) :
    parseU64 (String.ofList (ds ++ rest)) =
      if rest = [] ∧ Nat.ofDigitChars 10 ds 0 < u64Bound then some (Nat.ofDigitChars 10 ds 0)
      else none := by
  obtain ⟨d, tail, rfl⟩ := List.exists_cons_of_ne_nil hne
  have hplus : d ≠ '+' := by
    rintro rfl
    exact absurd (hds '+' List.mem_cons_self) (by decide)
  have hread := readDigits_append hds hrest 0 0
  unfold parseU64
  rw [String.toList_ofList]
  extract_lets digits
  have hdigits : digits = d :: tail ++ rest := by
    dsimp only [digits]
    split
    · rename_i heq
      exact absurd (List.cons.inj heq).1 hplus
    · rfl
  rw [hdigits, hread]
  cases rest with
  | nil =>
      simp only [List.length_cons, true_and, u64Bound]
      split
      · rename_i hbad
        rw [if_neg (by omega)]
      · rename_i hgood
        rw [if_pos (by omega)]
  | cons c rest => simp

theorem takeWhile_append_noDigit {ds rest : List Char}
    (hds : ∀ c ∈ ds, isAsciiDigit c = true) (hrest : NoDigit rest) :
    (ds ++ rest).takeWhile isAsciiDigit = ds ∧ (ds ++ rest).dropWhile isAsciiDigit = rest := by
  have htake : rest.takeWhile isAsciiDigit = [] := by
    cases rest with
    | nil => rfl
    | cons c rest => exact List.takeWhile_cons_of_neg (by simp [hrest c rfl])
  have hdrop : rest.dropWhile isAsciiDigit = rest := by
    cases rest with
    | nil => rfl
    | cons c rest => exact List.dropWhile_cons_of_neg (by simp [hrest c rfl])
  rw [List.takeWhile_append_of_pos hds, List.dropWhile_append_of_pos hds, htake, hdrop,
    List.append_nil]
  exact ⟨rfl, rfl⟩

/-! ## A printed number with its unit -/

/-- A unit as it is printed: letters, and none of them a digit. -/
def PlainUnit (unit : String) : Prop :=
  ∀ c ∈ unit.toList, isWhiteSpace c = false ∧ isAsciiDigit c = false

instance (unit : String) : Decidable (PlainUnit unit) :=
  List.decidableBAll _ unit.toList

theorem isAsciiDigit_of_mem_toString {n : Nat} {c : Char} (h : c ∈ (toString n).toList) :
    isAsciiDigit c = true := by
  rw [Nat.toString_eq_repr, Nat.toList_repr] at h
  exact Nat.isDigit_of_mem_toDigits (by decide) (by decide) h

theorem digit_plain {c : Char} (h : isAsciiDigit c = true) :
    isWhiteSpace c = false ∧ c.toLower = c := by
  have hrange : '0' ≤ c ∧ c ≤ '9' := by simpa [isAsciiDigit] using h
  have hlow : 48 ≤ c.toNat := hrange.1
  have hhigh : c.toNat ≤ 57 := hrange.2
  refine ⟨?_, ?_⟩
  · simp [isWhiteSpace]
    omega
  · obtain ⟨hup, -, -⟩ | ⟨-, hsame⟩ := toLower_cases c
    · omega
    · exact hsame

/-- Only the unit changes where a printed value is read. -/
theorem lower_trim_printed {n : Nat} {unit : String} (h : PlainUnit unit) :
    toAsciiLowercase (trim (toString n ++ unit)) = toString n ++ toAsciiLowercase unit := by
  have htrim : trim (toString n ++ unit) = toString n ++ unit := by
    refine trim_eq_self fun c hc => ?_
    rw [String.toList_append, List.mem_append] at hc
    rcases hc with hc | hc
    · exact (digit_plain (isAsciiDigit_of_mem_toString hc)).1
    · exact (h c hc).1
  have hdigits : (toString n).toList.map Char.toLower = (toString n).toList :=
    (List.map_congr_left fun c hc => (digit_plain (isAsciiDigit_of_mem_toString hc)).2).trans
      (List.map_id _)
  rw [htrim]
  unfold toAsciiLowercase
  rw [String.toList_append, List.map_append, hdigits, String.ofList_append, String.ofList_toList]

theorem splitNumber_printed {n : Nat} {unit : String} (h : NoDigit unit.toList) :
    splitNumber (toString n ++ unit) = (toString n, unit) := by
  obtain ⟨htake, hdrop⟩ := takeWhile_append_noDigit
    (fun c => isAsciiDigit_of_mem_toString (n := n)) h
  rw [splitNumber, String.toList_append, htake, hdrop, String.ofList_toList, String.ofList_toList]

theorem parseU64_toString {n : Nat} (h : n < u64Bound) : parseU64 (toString n) = some n := by
  have hne : (toString n).toList ≠ [] := by
    rw [Nat.toString_eq_repr, Nat.toList_repr]
    exact Nat.toDigits_ne_nil
  have hread := @parseU64_append _ [] hne (fun c => isAsciiDigit_of_mem_toString (n := n))
    (by intro c hc; cases hc)
  have hvalue : Nat.ofDigitChars 10 (toString n).toList 0 = n := by
    rw [Nat.toString_eq_repr, Nat.toList_repr, Nat.ofDigitChars_ten_toDigits]
  rw [List.append_nil, String.ofList_toList, hvalue, if_pos ⟨rfl, h⟩] at hread
  exact hread

theorem printed_ne_empty {n : Nat} {unit : String} : toString n ++ unit ≠ "" := by
  intro h
  have hnil : (toString n).toList = [] := by
    have hboth : (toString n ++ unit).toList = [] := by rw [h]; rfl
    rw [String.toList_append] at hboth
    exact (List.append_eq_nil_iff.mp hboth).1
  rw [Nat.toString_eq_repr, Nat.toList_repr] at hnil
  exact Nat.toDigits_ne_nil hnil

/-! ## Durations come back -/

namespace Span

theorem parse_printed {n per : Nat} {unit : String} (hplain : PlainUnit unit)
    (hlower : NoDigit (toAsciiLowercase unit).toList)
    (hper : millisPer (trim (toAsciiLowercase unit)) = some per) (hn : n < u64Bound)
    (h : n * per < u64Bound) : parse (toString n ++ unit) = .ok (ofMillis (n * per) h) := by
  unfold parse
  rw [lower_trim_printed hplain]
  dsimp only
  rw [if_neg printed_ne_empty, splitNumber_printed hlower]
  simp only [parseU64_toString hn, hper, dif_pos h]

/-- A unit a duration is written with is read as that unit. -/
theorem units_read : ∀ u ∈ units, PlainUnit u.1 ∧
    NoDigit (toAsciiLowercase u.1).toList ∧
    millisPer (trim (toAsciiLowercase u.1)) = some u.2 ∧ 0 < u.2 := by
  decide

theorem parse_display {s : Span} (h : s.millis < u64Bound) : parse s.display = .ok s := by
  have hms : s.millis % u64Bound = s.millis := Nat.mod_eq_of_lt h
  unfold display
  rw [hms]
  dsimp only
  split
  · rename_i hzero
    have hread := @parse_printed 0 1000 "s" (by decide)
      (by decide) (by decide) (by decide) (by decide)
    have htext : "0s" = toString 0 ++ "s" := by decide
    rw [htext, hread]
    exact congrArg Except.ok (Span.ext hzero.symm)
  · split
    · rename_i unit per hfind
      obtain ⟨hplain, hlower, hper, hpos⟩ := units_read _ (List.mem_of_find?_eq_some hfind)
      have hdvd : s.millis % per = 0 := by simpa using List.find?_some hfind
      have hback : s.millis / per * per = s.millis :=
        Nat.div_mul_cancel (Nat.dvd_of_mod_eq_zero hdvd)
      have hn : s.millis / per < u64Bound := Nat.lt_of_le_of_lt (Nat.div_le_self _ _) h
      rw [parse_printed hplain hlower hper hn (by rw [hback]; exact h)]
      exact congrArg Except.ok (Span.ext hback)
    · have hback : s.millis * 1 = s.millis := Nat.mul_one _
      rw [@parse_printed s.millis 1 "ms" (by decide) (by decide) (by decide) h
        (by rw [hback]; exact h)]
      exact congrArg Except.ok (Span.ext hback)

/-- What is read is a number of milliseconds that fits 64 bits. -/
theorem parse_millis {raw : String} {s : Span} (h : parse raw = .ok s) : s.millis < u64Bound := by
  unfold parse at h
  extract_lets value at h
  split at h
  · cases h
  · split at h
    rename_i number unit hsplit
    split at h
    · cases h
    · split at h
      · cases h
      · split at h
        · rename_i hfits
          obtain rfl := Except.ok.inj h
          exact hfits
        · cases h

theorem parse_display_iff {s : Span} : parse s.display = .ok s ↔ s.millis < u64Bound :=
  ⟨parse_millis, parse_display⟩

end Span

/-! ## Sizes come back -/

namespace ByteSize

/-- A unit that is read as it is lowercased: no space in it, and no digit. -/
def LowerUnit (unit : String) : Prop :=
  ∀ c ∈ unit.toList, c ≠ ' ' ∧ isAsciiDigit c = false

instance (unit : String) : Decidable (LowerUnit unit) :=
  List.decidableBAll _ unit.toList

theorem parse_printed {n per : Nat} {unit : String} (hplain : PlainUnit unit)
    (hlower : LowerUnit (toAsciiLowercase unit))
    (hper : bytesPer (toAsciiLowercase unit) = some per) (hn : n < u64Bound)
    (h : n * per < u64Bound) : parse (toString n ++ unit) = .ok ⟨n * per, h⟩ := by
  have hspaces : (toString n ++ toAsciiLowercase unit).toList.filter (· != ' ') =
      (toString n ++ toAsciiLowercase unit).toList := by
    refine List.filter_eq_self.mpr fun c hc => ?_
    rw [String.toList_append, List.mem_append] at hc
    rcases hc with hc | hc
    · have hdigit := isAsciiDigit_of_mem_toString hc
      simp only [bne_iff_ne, ne_eq]
      rintro rfl
      exact absurd hdigit (by decide)
    · simpa using (hlower c hc).1
  have hnext : NoDigit (toAsciiLowercase unit).toList := fun c hc =>
    (hlower c (List.mem_of_mem_head? hc)).2
  unfold parse
  rw [lower_trim_printed hplain, hspaces, String.ofList_toList]
  dsimp only
  rw [if_neg printed_ne_empty, splitNumber_printed hnext]
  simp only [parseU64_toString hn, hper, dif_pos h]

theorem units_read : ∀ u ∈ units, PlainUnit u.1 ∧
    LowerUnit (toAsciiLowercase u.1) ∧
    bytesPer (toAsciiLowercase u.1) = some u.2 := by
  decide

theorem parse_plain {n : Nat} (h : n < u64Bound) : parse (toString n) = .ok ⟨n, h⟩ := by
  have hread := @parse_printed n 1 "" (by decide) (by decide) (by decide) h (by omega)
  rw [String.append_empty] at hread
  rw [hread]
  exact congrArg Except.ok (ByteSize.ext (Nat.mul_one n))

theorem parse_display (s : ByteSize) : parse s.display = .ok s := by
  unfold display
  split
  · rename_i hzero
    have htext : "0" = toString 0 := by decide
    rw [htext, parse_plain (by decide)]
    exact congrArg Except.ok (ByteSize.ext hzero.symm)
  · split
    · rename_i unit per hfind
      obtain ⟨hplain, hlower, hper⟩ := units_read _ (List.mem_of_find?_eq_some hfind)
      have hdvd : s.bytes % per = 0 := by simpa using List.find?_some hfind
      have hback : s.bytes / per * per = s.bytes :=
        Nat.div_mul_cancel (Nat.dvd_of_mod_eq_zero hdvd)
      have hn : s.bytes / per < u64Bound := Nat.lt_of_le_of_lt (Nat.div_le_self _ _) s.fits
      rw [parse_printed hplain hlower hper hn (by rw [hback]; exact s.fits)]
      exact congrArg Except.ok (ByteSize.ext hback)
    · exact parse_plain s.fits

end ByteSize

/-! ## What the server reads -/

/-- The unit of a duration, as it is spelled. -/
def unitOf (raw : String) : String :=
  (splitNumber (toAsciiLowercase (trim raw))).2

/-- The letters the server takes for a unit. -/
def serverUnits : List (Char × Nat) :=
  [('s', 1), ('m', 60), ('h', 3600), ('d', 86400)]

theorem serverUnits_millis : ∀ u ∈ serverUnits,
    Span.millisPer (trim (String.ofList [u.1])) = some (u.2 * 1000) ∧ isAsciiDigit u.1 = false := by
  decide

theorem durationUnit_cases (value : String) :
    (durationUnit value = (value, 1) ∧
      ∀ u ∈ serverUnits, value.toList.getLast? ≠ some u.1) ∨
    ∃ u ∈ serverUnits, value.toList.getLast? = some u.1 ∧
      durationUnit value = (String.ofList value.toList.dropLast, u.2) := by
  unfold durationUnit
  dsimp only
  split
  · rename_i hlast
    exact Or.inr ⟨('s', 1), by decide, hlast, rfl⟩
  · rename_i hlast
    exact Or.inr ⟨('m', 60), by decide, hlast, rfl⟩
  · rename_i hlast
    exact Or.inr ⟨('h', 3600), by decide, hlast, rfl⟩
  · rename_i hlast
    exact Or.inr ⟨('d', 86400), by decide, hlast, rfl⟩
  · rename_i hs hm hh hd
    refine Or.inl ⟨rfl, ?_⟩
    intro u hu
    simp only [serverUnits, List.mem_cons, List.not_mem_nil, or_false] at hu
    obtain rfl | rfl | rfl | rfl := hu
    · exact hs
    · exact hm
    · exact hh
    · exact hd

/-- What `Span::parse` found in a text it read. -/
theorem Span.parse_ok {raw : String} {s : Span} (h : Span.parse raw = .ok s) :
    toAsciiLowercase (trim raw) ≠ "" ∧
      ∃ k per, parseU64 (splitNumber (toAsciiLowercase (trim raw))).1 = some k ∧
        millisPer (trim (unitOf raw)) = some per ∧ s.millis = k * per := by
  unfold Span.parse at h
  extract_lets value at h
  split at h
  · cases h
  · rename_i hne
    refine ⟨hne, ?_⟩
    split at h
    rename_i number unit hsplit
    split at h
    · cases h
    · rename_i k hk
      split at h
      · cases h
      · rename_i per hper
        split at h
        · obtain rfl := Except.ok.inj h
          refine ⟨k, per, ?_, ?_, rfl⟩
          · rw [hsplit]
            exact hk
          · rw [unitOf, hsplit]
            exact hper
        · cases h

theorem noDigit_dropWhile (l : List Char) : NoDigit (l.dropWhile isAsciiDigit) := by
  intro c hc
  have hhead := List.head?_dropWhile_not isAsciiDigit l
  rw [Option.mem_def.mp hc] at hhead
  simpa using hhead

/-- A text as its digits and the unit after them. -/
theorem value_split (value : String) :
    value.toList = (splitNumber value).1.toList ++ (splitNumber value).2.toList ∧
      (∀ c ∈ (splitNumber value).1.toList, isAsciiDigit c = true) ∧
      NoDigit (splitNumber value).2.toList := by
  simp only [splitNumber, String.toList_ofList]
  refine ⟨List.takeWhile_append_dropWhile.symm, fun c hc => ?_, noDigit_dropWhile _⟩
  exact List.mem_takeWhile_imp hc

/-- The last letter of a text whose digits have ended belongs to the unit. -/
theorem unit_last {number unit : List Char} {c : Char}
    (hdigits : ∀ d ∈ number, isAsciiDigit d = true) (hc : isAsciiDigit c = false)
    (hlast : (number ++ unit).getLast? = some c) : ∃ init, unit = init ++ [c] := by
  rcases List.eq_nil_or_concat unit with rfl | ⟨init, d, rfl⟩
  · rw [List.append_nil] at hlast
    rw [hdigits c (List.mem_of_getLast? hlast)] at hc
    cases hc
  · rw [List.concat_eq_append, ← List.append_assoc, List.getLast?_concat] at hlast
    obtain rfl := Option.some.inj hlast
    exact ⟨init, List.concat_eq_append⟩

section Digits

variable {raw number unit : String} {k n : Nat}

/-- Behind the digits of a text the server reads there is nothing, or one of its
letters alone. -/
theorem unit_of_server (hne : toAsciiLowercase (trim raw) ≠ "")
    (hvalue : (toAsciiLowercase (trim raw)).toList = number.toList ++ unit.toList)
    (hdigits : ∀ c ∈ number.toList, isAsciiDigit c = true) (hnext : NoDigit unit.toList)
    (hnonempty : number.toList ≠ []) (hserver : parseDurationSecs raw = .ok n) :
    unit = "" ∨ ∃ u ∈ serverUnits, unit = String.ofList [u.1] := by
  unfold parseDurationSecs at hserver
  generalize toAsciiLowercase (trim raw) = value at hne hvalue hserver
  dsimp only at hserver
  rw [if_neg hne] at hserver
  rcases durationUnit_cases value with ⟨hunit, -⟩ | ⟨u, hu, hlast, hunit⟩
  · have hwhole := parseU64_append hnonempty hdigits hnext
    rw [← hvalue, String.ofList_toList] at hwhole
    rw [hunit] at hserver
    simp only [hwhole] at hserver
    by_cases hnil : unit.toList = []
    · exact Or.inl (by rw [← String.ofList_toList (s := unit), hnil])
    · rw [if_neg fun hboth => hnil hboth.1] at hserver
      cases hserver
  · refine Or.inr ⟨u, hu, ?_⟩
    obtain ⟨init, hinit⟩ := unit_last hdigits (serverUnits_millis u hu).2 (hvalue ▸ hlast)
    have hbefore : value.toList.dropLast = number.toList ++ init := by
      rw [hvalue, hinit, ← List.append_assoc, List.dropLast_concat]
    have hstart : NoDigit init := by
      intro c hc
      refine hnext c ?_
      rw [hinit, List.head?_append, Option.mem_def.mp hc]
      rfl
    have hpart := parseU64_append hnonempty hdigits hstart
    rw [hunit] at hserver
    simp only [hbefore, hpart] at hserver
    by_cases hnil : init = []
    · rw [← String.ofList_toList (s := unit), hinit, hnil]
      rfl
    · rw [if_neg fun hboth => hnil hboth.1] at hserver
      cases hserver

/-- Digits alone count seconds on both ends. -/
theorem server_reads_bare (hne : toAsciiLowercase (trim raw) ≠ "")
    (htext : toAsciiLowercase (trim raw) = number)
    (hdigits : ∀ c ∈ number.toList, isAsciiDigit c = true) (hk : parseU64 number = some k)
    (hbound : k < u64Bound) : parseDurationSecs raw = .ok k := by
  unfold parseDurationSecs
  rw [htext] at hne ⊢
  dsimp only
  rw [if_neg hne]
  rcases durationUnit_cases number with ⟨hlast, -⟩ | ⟨u, hu, hlast, -⟩
  · rw [hlast]
    simp only [hk, Nat.mul_one, if_pos hbound]
  · have hdigit := hdigits u.1 (List.mem_of_getLast? hlast)
    rw [(serverUnits_millis u hu).2] at hdigit
    cases hdigit

/-- A letter of the server's behind the digits multiplies as it does for the client. -/
theorem server_reads_letter {u : Char × Nat} (hne : toAsciiLowercase (trim raw) ≠ "")
    (hu : u ∈ serverUnits)
    (hvalue : (toAsciiLowercase (trim raw)).toList = number.toList ++ [u.1])
    (hk : parseU64 number = some k)
    (hn : ∀ per, Span.millisPer (trim (String.ofList [u.1])) = some per → k * per = n * 1000)
    (hbound : n < u64Bound) : parseDurationSecs raw = .ok n := by
  unfold parseDurationSecs
  generalize toAsciiLowercase (trim raw) = value at hne hvalue ⊢
  dsimp only
  rw [if_neg hne]
  have hlast : value.toList.getLast? = some u.1 := by
    rw [hvalue, List.getLast?_append_of_ne_nil _ (List.cons_ne_nil _ _)]
    rfl
  rcases durationUnit_cases value with ⟨-, hother⟩ | ⟨u', hu', hlast', hserver⟩
  · exact absurd hlast (hother u hu)
  · have hletter : u.1 = u'.1 := Option.some.inj (hlast.symm.trans hlast')
    have hsame : k * u'.2 = n := by
      have hmul : k * u'.2 * 1000 = n * 1000 := by
        rw [Nat.mul_assoc]
        exact hn _ (hletter ▸ (serverUnits_millis u' hu').1)
      omega
    rw [hserver, hvalue, List.dropLast_concat, String.ofList_toList]
    simp only [hk, hsame, if_pos hbound]

end Digits

theorem server_reads_iff {raw : String} {s : Span} {n : Nat} (h : Span.parse raw = .ok s)
    (hn : s.millis = n * 1000) :
    parseDurationSecs raw = .ok n ↔
      unitOf raw = "" ∨ ∃ u ∈ serverUnits, unitOf raw = String.ofList [u.1] := by
  have hfits := Span.parse_millis h
  have hbound : n < u64Bound := by omega
  obtain ⟨hne, k, per, hk, hper, hmillis⟩ := Span.parse_ok h
  unfold unitOf at hper ⊢
  obtain ⟨hvalue, hdigits, hnext⟩ := value_split (toAsciiLowercase (trim raw))
  generalize (splitNumber (toAsciiLowercase (trim raw))).1 = number at hk hvalue hdigits
  generalize (splitNumber (toAsciiLowercase (trim raw))).2 = unit at hper hvalue hnext ⊢
  have hnonempty : number.toList ≠ [] := by
    intro hnil
    have hempty : number = "" := by rw [← String.ofList_toList (s := number), hnil]
    have hnone : parseU64 "" = none := by decide
    rw [hempty, hnone] at hk
    cases hk
  constructor
  · exact unit_of_server hne hvalue hdigits hnext hnonempty
  · rintro (hunit | ⟨u, hu, hunit⟩)
    · rw [hunit] at hper hvalue
      have hsecs : some 1000 = some per := hper
      obtain rfl := Option.some.inj hsecs
      have hsame : k = n := by omega
      have htext : toAsciiLowercase (trim raw) = number := by
        rw [← String.ofList_toList (s := toAsciiLowercase (trim raw)), hvalue,
          String.toList_empty, List.append_nil, String.ofList_toList]
      rw [← hsame] at hbound ⊢
      exact server_reads_bare hne htext hdigits hk hbound
    · rw [hunit] at hper hvalue
      rw [String.toList_ofList] at hvalue
      refine server_reads_letter hne hu hvalue hk (fun per' hper' => ?_) hbound
      rw [← Option.some.inj (hper.symm.trans hper'), ← hmillis, hn]

/-- **Durations and sizes on both ends.** Every size is read back from what is
written for it, and every duration whose milliseconds fit 64 bits; of the
texts for a whole number of seconds the server reads those with one of its own
letters, or none, right behind the digits. -/
theorem units_agree_iff (v : UnitValue) (raw : String) :
    (∀ s, Span.deserialize v = .ok s → (Span.parse s.display = .ok s ↔ s.millis < u64Bound)) ∧
    (∀ s, ByteSize.deserialize v = .ok s → ByteSize.parse s.display = .ok s) ∧
    ∀ s n, Span.parse raw = .ok s → s.millis = n * 1000 →
      (parseDurationSecs raw = .ok n ↔
        unitOf raw = "" ∨ ∃ u ∈ serverUnits, unitOf raw = String.ofList [u.1]) :=
  ⟨fun _ _ => Span.parse_display_iff, fun s _ => ByteSize.parse_display s,
    fun _ _ hparse hsecs => server_reads_iff hparse hsecs⟩

theorem units_agree_hour :
    (∃ s, Span.deserialize (.text "1h") = .ok s ∧ Span.parse s.display = .ok s) ∧
      parseDurationSecs "1h" = .ok 3600 := by
  obtain ⟨hspan, -, hserver⟩ := units_agree_iff (.text "1h") "1h"
  have hread : Span.parse "1h" = .ok ⟨3600000, by decide⟩ := by decide
  exact ⟨⟨_, hread, (hspan _ hread).mpr (by decide)⟩,
    (hserver _ 3600 hread rfl).mpr (Or.inr ⟨('h', 3600), by decide, by decide⟩)⟩

/-- A bare number of seconds is written as 384 milliseconds, and two spellings
of the configuration are no durations to the server. -/
theorem units_differ :
    (∃ s, Span.deserialize (.number 18446744073709552 (by decide)) = .ok s ∧
      s.display = "384ms" ∧ Span.parse s.display ≠ .ok s) ∧
    ∀ raw ∈ ["5 s", "5sec"], ∃ s, Span.parse raw = .ok s ∧ s.millis = 5 * 1000 ∧
      parseDurationSecs raw ≠ .ok 5 := by
  refine ⟨⟨_, rfl, by decide, ?_⟩, ?_⟩
  · rw [ne_eq, Span.parse_display_iff]
    decide
  · intro raw hraw
    simp only [List.mem_cons, List.not_mem_nil, or_false] at hraw
    obtain rfl | rfl := hraw
    · exact ⟨⟨5000, by decide⟩, by decide, rfl, by decide⟩
    · exact ⟨⟨5000, by decide⟩, by decide, rfl, by decide⟩

end Aperio
