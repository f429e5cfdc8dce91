import Aperio.AuditLog

/-!
# Audit events as JSON lines

What serde_json writes for an `AuditEvent`: one object, its fields in the
order of the struct, strings with control characters, quotes and backslashes
escaped. The reader takes the lines of this shape back, and
`jsonFormat` gives an `AuditFormat` for every hash of lines.
-/

namespace Aperio

/-! ## Strings -/

def hexChar (d : Nat) : Char :=
  if d < 10 then Char.ofNat (d + 0x30) else Char.ofNat (d - 10 + 0x61)

/-- One character of a JSON string, as serde_json escapes it. -/
def escapeChar (c : Char) : List Char :=
  if c = '"' then ['\\', '"']
  else if c = '\\' then ['\\', '\\']
  else if c = '\x08' then ['\\', 'b']
  else if c = '\x0c' then ['\\', 'f']
  else if c = '\n' then ['\\', 'n']
  else if c = '\r' then ['\\', 'r']
  else if c = '\t' then ['\\', 't']
  else if c.toNat < 0x20 then
    ['\\', 'u', '0', '0', hexChar (c.toNat / 16), hexChar (c.toNat % 16)]
  else [c]

def writeString (s : String) : List Char :=
  '"' :: s.toList.flatMap escapeChar ++ ['"']

def writeOption : Option String → List Char
  | none => "null".toList
  | some s => writeString s

/-- The escape after a backslash, other than `u`. -/
def unescape : Char → Option Char
  | '"' => some '"'
  | '\\' => some '\\'
  | '/' => some '/'
  | 'b' => some '\x08'
  | 'f' => some '\x0c'
  | 'n' => some '\n'
  | 'r' => some '\r'
  | 't' => some '\t'
  | _ => none

def hexValue (c : Char) : Option Nat :=
  if '0' ≤ c ∧ c ≤ '9' then some (c.toNat - 0x30)
  else if 'a' ≤ c ∧ c ≤ 'f' then some (c.toNat - 0x61 + 10)
  else none

/-- A string up to its closing quote, and the rest. -/
def readChars : List Char → Option (List Char × List Char)
  | [] => none
  | '"' :: rest => some ([], rest)
  | '\\' :: 'u' :: '0' :: '0' :: a :: b :: rest => do
    let hi ← hexValue a
    let lo ← hexValue b
    let (cs, rest) ← readChars rest
    return (Char.ofNat (16 * hi + lo) :: cs, rest)
  | '\\' :: e :: rest => do
    let c ← unescape e
    let (cs, rest) ← readChars rest
    return (c :: cs, rest)
  | c :: rest => do
    let (cs, rest) ← readChars rest
    return (c :: cs, rest)

def readLiteral (lit : String) (input : List Char) : Option (List Char) :=
  lit.toList.isPrefixOf? input

def readString (input : List Char) : Option (String × List Char) := do
  let rest ← readLiteral "\"" input
  let (cs, rest) ← readChars rest
  return (String.ofList cs, rest)

def readOption (input : List Char) : Option (Option String × List Char) :=
  match readLiteral "null" input with
  | some rest => some (none, rest)
  | none => (readString input).map fun p => (some p.1, p.2)

def readNat (input : List Char) : Option (Nat × List Char) :=
  if input.takeWhile Char.isDigit = [] then none
  else some (Nat.ofDigitChars 10 (input.takeWhile Char.isDigit) 0, input.dropWhile Char.isDigit)

/-! ## Events -/

def writeMembers (ev : AuditEvent) : List Char :=
  "\"ts\":".toList ++ (Nat.toDigits 10 ev.ts ++
    (",\"timestamp\":".toList ++ (writeString ev.timestamp ++
    (",\"event\":".toList ++ (writeString ev.event ++
    (",\"actor\":".toList ++ (writeString ev.actor ++
    (",\"actor_ip\":".toList ++ (writeString ev.actorIp ++
    (",\"org_id\":".toList ++ (writeOption ev.orgId ++
    (",\"details\":".toList ++ (writeString ev.details ++
    (",\"prev\":".toList ++ writeString ev.prev))))))))))))))

def writeEvent (ev : AuditEvent) : List Char :=
  "\x7b".toList ++ (writeMembers ev ++ "\x7d".toList)

def readEvent (input : List Char) : Option AuditEvent := do
  let rest ← readLiteral "\x7b" input
  let rest ← readLiteral "\"ts\":" rest
  let (ts, rest) ← readNat rest
  let rest ← readLiteral ",\"timestamp\":" rest
  let (timestamp, rest) ← readString rest
  let rest ← readLiteral ",\"event\":" rest
  let (event, rest) ← readString rest
  let rest ← readLiteral ",\"actor\":" rest
  let (actor, rest) ← readString rest
  let rest ← readLiteral ",\"actor_ip\":" rest
  let (actorIp, rest) ← readString rest
  let rest ← readLiteral ",\"org_id\":" rest
  let (orgId, rest) ← readOption rest
  let rest ← readLiteral ",\"details\":" rest
  let (details, rest) ← readString rest
  let rest ← readLiteral ",\"prev\":" rest
  let (prev, rest) ← readString rest
  let rest ← readLiteral "\x7d" rest
  if rest = [] then
    some ⟨ts, timestamp, event, actor, actorIp, orgId, details, prev⟩
  else none

/-! ## Reading back -/

theorem readLiteral_append (lit : String) (rest : List Char) :
    readLiteral lit (lit.toList ++ rest) = some rest :=
  List.isPrefixOf?_eq_some_iff_append_eq.mpr rfl

theorem hexValue_hexChar {d : Nat} (hd : d < 16) : hexValue (hexChar d) = some d := by
  have hall : ∀ d : Fin 16, hexValue (hexChar d.val) = some d.val := by decide
  exact hall ⟨d, hd⟩

theorem readChars_unescape {c e : Char} (he : unescape e = some c) (input : List Char) :
    readChars ('\\' :: e :: input) = (readChars input).map fun p => (c :: p.1, p.2) := by
  have hu : e ≠ 'u' := by
    rintro rfl
    cases he
  cases hrest : readChars input with
  | none => simp [readChars, hu, he, hrest]
  | some p => simp [readChars, hu, he, hrest]

/-- The characters that keep their spelling: those no rule of the escape
is about. -/
structure PlainChar (c : Char) : Prop where
  quote : c ≠ '"'
  backslash : c ≠ '\\'
  visible : 0x20 ≤ c.toNat

/-- How a character is written: with a letter for it, by its number, or as
it is. -/
theorem escapeChar_cases (c : Char) :
    (∃ e, unescape e = some c ∧ e ≠ '\n' ∧ escapeChar c = ['\\', e]) ∨
      (c.toNat < 0x20 ∧ escapeChar c =
        ['\\', 'u', '0', '0', hexChar (c.toNat / 16), hexChar (c.toNat % 16)]) ∨
      (PlainChar c ∧ escapeChar c = [c]) := by
  have hletter : ∀ e d, unescape e = some d → e ≠ '\n' → escapeChar d = ['\\', e] → c = d →
      ∃ e, unescape e = some c ∧ e ≠ '\n' ∧ escapeChar c = ['\\', e] := by
    rintro e d hd hne hesc rfl
    exact ⟨e, hd, hne, hesc⟩
  by_cases hquote : c = '"'
  · exact .inl (hletter '"' _ rfl (by decide) rfl hquote)
  by_cases hslash : c = '\\'
  · exact .inl (hletter '\\' _ rfl (by decide) rfl hslash)
  by_cases hb : c = '\x08'
  · exact .inl (hletter 'b' _ rfl (by decide) rfl hb)
  by_cases hf : c = '\x0c'
  · exact .inl (hletter 'f' _ rfl (by decide) rfl hf)
  by_cases hn : c = '\n'
  · exact .inl (hletter 'n' _ rfl (by decide) rfl hn)
  by_cases hr : c = '\r'
  · exact .inl (hletter 'r' _ rfl (by decide) rfl hr)
  by_cases ht : c = '\t'
  · exact .inl (hletter 't' _ rfl (by decide) rfl ht)
  have hrest : escapeChar c = if c.toNat < 0x20 then
      ['\\', 'u', '0', '0', hexChar (c.toNat / 16), hexChar (c.toNat % 16)] else [c] := by
    rw [escapeChar, if_neg hquote, if_neg hslash, if_neg hb, if_neg hf, if_neg hn, if_neg hr,
      if_neg ht]
  by_cases hctl : c.toNat < 0x20
  · exact .inr (.inl ⟨hctl, by rw [hrest, if_pos hctl]⟩)
  · refine .inr (.inr ⟨⟨hquote, hslash, Nat.le_of_not_lt hctl⟩, ?_⟩)
    rw [hrest, if_neg hctl]

/-- An escaped character reads as itself. -/
theorem readChars_escapeChar (c : Char) (input : List Char) :
    readChars (escapeChar c ++ input) = (readChars input).map fun p => (c :: p.1, p.2) := by
  obtain ⟨e, he, -, hc⟩ | ⟨hctl, hc⟩ | ⟨hplain, hc⟩ := escapeChar_cases c
  · rw [hc]
    exact readChars_unescape he input
  · have hback : Char.ofNat (16 * (c.toNat / 16) + c.toNat % 16) = c := by
      rw [Nat.div_add_mod, Char.ofNat_toNat]
    have hhi : hexValue (hexChar (c.toNat / 16)) = some (c.toNat / 16) :=
      hexValue_hexChar (by omega)
    have hlo : hexValue (hexChar (c.toNat % 16)) = some (c.toNat % 16) :=
      hexValue_hexChar (Nat.mod_lt _ (by decide))
    cases hrest : readChars input with
    | none => simp [hc, readChars, hhi, hlo, hrest]
    | some p => simp [hc, readChars, hhi, hlo, hback, hrest]
  · cases hrest : readChars input with
    | none => simp [hc, hplain.quote, hplain.backslash, readChars, hrest]
    | some p => simp [hc, hplain.quote, hplain.backslash, readChars, hrest]

theorem readChars_append (cs rest : List Char) :
    readChars (cs.flatMap escapeChar ++ '"' :: rest) = some (cs, rest) := by
  induction cs with
  | nil => simp [readChars]
  | cons c cs ih =>
      rw [List.flatMap_cons, List.append_assoc, readChars_escapeChar, ih]
      rfl

theorem readString_append (s : String) (rest : List Char) :
    readString (writeString s ++ rest) = some (s, rest) := by
  have hopen : writeString s ++ rest =
      "\"".toList ++ (s.toList.flatMap escapeChar ++ '"' :: rest) := by
    simp [writeString]
  rw [readString, hopen, readLiteral_append]
  simp [readChars_append]

theorem readOption_append (o : Option String) (rest : List Char) :
    readOption (writeOption o ++ rest) = some (o, rest) := by
  cases o with
  | none => rw [readOption, writeOption, readLiteral_append]
  | some s =>
      have hnot : readLiteral "null" (writeString s ++ rest) = none := by
        simp [readLiteral, writeString, List.isPrefixOf?]
      rw [readOption, writeOption, hnot, readString_append]
      rfl

theorem readNat_append (n : Nat) {c : Char} (hc : c.isDigit = false) (rest : List Char) :
    readNat (Nat.toDigits 10 n ++ c :: rest) = some (n, c :: rest) := by
  have hdigits : ∀ d ∈ Nat.toDigits 10 n, d.isDigit = true :=
    fun d hd => Nat.isDigit_of_mem_toDigits (by decide) (by decide) hd
  have htake : (Nat.toDigits 10 n ++ c :: rest).takeWhile Char.isDigit = Nat.toDigits 10 n := by
    rw [List.takeWhile_append_of_pos hdigits]
    simp [hc]
  have hdrop : (Nat.toDigits 10 n ++ c :: rest).dropWhile Char.isDigit = c :: rest := by
    rw [List.dropWhile_append_of_pos hdigits]
    simp [hc]
  rw [readNat, htake, hdrop, if_neg Nat.toDigits_ne_nil, Nat.ofDigitChars_ten_toDigits]

theorem readEvent_writeEvent (ev : AuditEvent) : readEvent (writeEvent ev) = some ev := by
  have hliteral {β : Type} (lit : String) (rest : List Char) (k : List Char → Option β) :
      (readLiteral lit (lit.toList ++ rest) >>= k) = k rest := by
    rw [readLiteral_append]
    rfl
  have hstring {β : Type} (t : String) (rest : List Char) (k : String × List Char → Option β) :
      (readString (writeString t ++ rest) >>= k) = k (t, rest) := by
    rw [readString_append]
    rfl
  have hoption {β : Type} (o : Option String) (rest : List Char)
      (k : Option String × List Char → Option β) :
      (readOption (writeOption o ++ rest) >>= k) = k (o, rest) := by
    rw [readOption_append]
    rfl
  have hnat {β : Type} (rest : List Char) (k : Nat × List Char → Option β) :
      (readNat (Nat.toDigits 10 ev.ts ++ (",\"timestamp\":".toList ++ rest)) >>= k) =
        k (ev.ts, ",\"timestamp\":".toList ++ rest) := by
    rw [show readNat (Nat.toDigits 10 ev.ts ++ (",\"timestamp\":".toList ++ rest)) =
      some (ev.ts, ",\"timestamp\":".toList ++ rest) from
        readNat_append ev.ts (c := ',') (by decide) ("\"timestamp\":".toList ++ rest)]
    rfl
  have hclose : readLiteral "\x7d" "\x7d".toList = some [] := by decide
  delta readEvent writeEvent writeMembers
  simp only [List.append_assoc]
  -- each read is done before the reads behind it are looked at
  simp only [↓hliteral, ↓hstring, ↓hoption, ↓hnat]
  rw [hclose]
  rfl

/-! ## No newlines -/

theorem hexChar_ne_newline {d : Nat} (hd : d < 16) : hexChar d ≠ '\n' := by
  have hall : ∀ d : Fin 16, hexChar d.val ≠ '\n' := by decide
  exact hall ⟨d, hd⟩

theorem newline_notMem_escapeChar (c : Char) : '\n' ∉ escapeChar c := by
  obtain ⟨e, -, he, hc⟩ | ⟨hctl, hc⟩ | ⟨hplain, hc⟩ := escapeChar_cases c
  · simpa [hc] using he.symm
  · have hhi := hexChar_ne_newline (d := c.toNat / 16) (by omega)
    have hlo := hexChar_ne_newline (d := c.toNat % 16) (Nat.mod_lt _ (by decide))
    simp [hc, hhi.symm, hlo.symm]
  · have hne : c ≠ '\n' := by
      rintro rfl
      exact absurd hplain.visible (by decide)
    simpa [hc] using hne.symm

theorem newline_notMem_writeString (s : String) : '\n' ∉ writeString s := by
  simp only [writeString, List.cons_append, List.mem_cons, List.mem_append, List.mem_flatMap,
    not_or, not_exists, not_and]
  exact ⟨by decide, fun c _ => newline_notMem_escapeChar c, by decide⟩

theorem newline_notMem_writeEvent (ev : AuditEvent) : '\n' ∉ writeEvent ev := by
  have hdigits : '\n' ∉ Nat.toDigits 10 ev.ts := by
    intro hmem
    exact absurd (Nat.isDigit_of_mem_toDigits (by decide) (by decide) hmem) (by decide)
  have horg : '\n' ∉ writeOption ev.orgId := by
    cases ev.orgId with
    | none => decide
    | some s => exact newline_notMem_writeString s
  delta writeEvent writeMembers
  simp only [List.mem_append, not_or]
  refine ⟨by decide, ⟨by decide, hdigits, by decide, newline_notMem_writeString _, by decide,
    newline_notMem_writeString _, by decide, newline_notMem_writeString _, by decide,
    newline_notMem_writeString _, by decide, horg, by decide, newline_notMem_writeString _,
    by decide, newline_notMem_writeString _⟩, by decide⟩

/-! ## The format -/

/-- Events as serde_json writes them, under a hash of lines. -/
def jsonFormat (lineHash : String → String) (hgenesis : ∀ line, lineHash line ≠ genesisHash)
    (hempty : ∀ line, lineHash line ≠ "") : AuditFormat where
  toJson ev := String.ofList (writeEvent ev)
  fromJson line := readEvent line.toList
  lineHash := lineHash
  fromJson_toJson ev := by rw [String.toList_ofList, readEvent_writeEvent]
  no_newline ev := by
    rw [String.toList_ofList]
    exact newline_notMem_writeEvent ev
  braces ev := by
    rw [String.toList_ofList]
    exact ⟨writeMembers ev, rfl⟩
  hash_ne_genesis := hgenesis
  hash_ne_empty := hempty

@[simp] theorem jsonFormat_toJson {lineHash : String → String}
    (hgenesis : ∀ line, lineHash line ≠ genesisHash) (hempty : ∀ line, lineHash line ≠ "")
    (ev : AuditEvent) :
    (jsonFormat lineHash hgenesis hempty).toJson ev = String.ofList (writeEvent ev) := rfl

@[simp] theorem jsonFormat_lineHash {lineHash : String → String}
    (hgenesis : ∀ line, lineHash line ≠ genesisHash) (hempty : ∀ line, lineHash line ≠ "") :
    (jsonFormat lineHash hgenesis hempty).lineHash = lineHash := rfl

end Aperio
