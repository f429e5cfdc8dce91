import Aperio.HostActions
import Aperio.PlainRequest
import Aperio.SiteRank
import Aperio.Unhindered

/-!
# Names the server hands out

`random_subdomain_hostname` and its seeded variant fill the placeholder of a
configured pattern (`routing/binds.rs`), and an organization's entries stand for
the names its clients may bind (`store/orgs.rs`). Both normalizers try a pattern
with a short label filled in, through a normalizer that drops a port, and keep
the pattern as it was written. Which of the patterns kept name something a
request can name is a matter of two things: no port and no blank in it, and the
room the longer label leaves.
-/

namespace Aperio

/-! ## Labels -/

/-- A digit as `{:02x}` writes it. -/
def hexDigitChar (n : Nat) : Char :=
  "0123456789abcdef".toList.getD n '0'

def hexByte (b : UInt8) : List Char :=
  [hexDigitChar (b.toNat / 16), hexDigitChar (b.toNat % 16)]

theorem hexDigitChar_spec (n : Nat) :
    (isAsciiDigit (hexDigitChar n) ∨ ('a' ≤ hexDigitChar n ∧ hexDigitChar n ≤ 'f')) ∧
      (String.utf8EncodeChar (hexDigitChar n)).length = 1 := by
  by_cases h : n < 16
  · have hall : ∀ n : Fin 16, (isAsciiDigit (hexDigitChar n) ∨
        ('a' ≤ hexDigitChar n ∧ hexDigitChar n ≤ 'f')) ∧
        (String.utf8EncodeChar (hexDigitChar n)).length = 1 := by decide
    exact hall ⟨n, h⟩
  · have hpast : "0123456789abcdef".toList.length ≤ n := not_lt.mp h
    have hdefault : hexDigitChar n = '0' := by
      rw [hexDigitChar, List.getD_eq_getElem?_getD, List.getElem?_eq_none hpast]
      rfl
    rw [hdefault]
    decide

theorem mem_hexBytes {bytes : List UInt8} {c : Char} (h : c ∈ bytes.flatMap hexByte) :
    ∃ n, c = hexDigitChar n := by
  obtain ⟨b, -, hc⟩ := List.mem_flatMap.mp h
  rcases List.mem_cons.mp hc with rfl | hc
  · exact ⟨_, rfl⟩
  · exact ⟨_, List.mem_singleton.mp hc⟩

/-- The first ten digits of a fresh UUID. -/
def uuidLabel (uuid : Vector UInt8 16) : RandomLabel where
  text := String.ofList ((uuid.toList.flatMap hexByte).take 10)
  hex c hc := by
    rw [String.toList_ofList] at hc
    obtain ⟨n, rfl⟩ := mem_hexBytes (List.mem_of_mem_take hc)
    exact (hexDigitChar_spec n).1

/-- Five bytes of the seed's digest, as ten digits. -/
def seededLabel (sha256 : Bytes → Vector UInt8 32) (seed : String) : RandomLabel where
  text := String.ofList (((sha256 (utf8Bytes seed)).toList.take 5).flatMap hexByte)
  hex c hc := by
    rw [String.toList_ofList] at hc
    obtain ⟨n, rfl⟩ := mem_hexBytes hc
    exact (hexDigitChar_spec n).1

/-- `random_subdomain_hostname_seeded`: every connection of one client process
arrives at the same name. -/
def randomSubdomainHostnameSeeded (sha256 : Bytes → Vector UInt8 32) (pattern seed : String) :
    String :=
  randomSubdomainHostname pattern (seededLabel sha256 seed)

theorem utf8ByteSize_ofHex {cs : List Char} (h : ∀ c ∈ cs, ∃ n, c = hexDigitChar n) :
    (String.ofList cs).utf8ByteSize = cs.length := by
  rw [HostPattern.utf8ByteSize_eq, utf8Bytes, String.toList_ofList]
  induction cs with
  | nil => rfl
  | cons c cs ih =>
      obtain ⟨n, rfl⟩ := h c List.mem_cons_self
      rw [List.flatMap_cons, List.length_append, (hexDigitChar_spec n).2,
        ih fun c hc => h c (List.mem_cons_of_mem _ hc), List.length_cons, Nat.add_comm]

theorem length_hexBytes (bytes : List UInt8) :
    (bytes.flatMap hexByte).length = 2 * bytes.length := by
  induction bytes with
  | nil => rfl
  | cons b bytes ih =>
      rw [List.flatMap_cons, List.length_append, ih, List.length_cons]
      exact (Nat.mul_succ 2 bytes.length).symm ▸ Nat.add_comm 2 _

theorem size_uuidLabel (uuid : Vector UInt8 16) : (uuidLabel uuid).text.utf8ByteSize = 10 := by
  rw [uuidLabel, utf8ByteSize_ofHex fun c hc => mem_hexBytes (List.mem_of_mem_take hc),
    List.length_take, length_hexBytes, Vector.length_toList]
  rfl

theorem size_seededLabel (sha256 : Bytes → Vector UInt8 32) (seed : String) :
    (seededLabel sha256 seed).text.utf8ByteSize = 10 := by
  rw [seededLabel, utf8ByteSize_ofHex fun c hc => mem_hexBytes hc, length_hexBytes,
    List.length_take, Vector.length_toList]
  rfl

/-! ## What the normalizer of binds does to a plain text -/

/-- No port, and no blank. -/
def PlainText (p : String) : Prop :=
  ∀ c ∈ p.toList, c ≠ ':' ∧ isWhiteSpace c = false

theorem plainText_append {s t : String} : PlainText (s ++ t) ↔ PlainText s ∧ PlainText t := by
  simp only [PlainText, String.toList_append, List.mem_append, or_imp]
  exact forall_and

theorem plainText_of_alphanumeric {x : String}
    (hx : ∀ c ∈ x.toList, isAsciiAlphanumeric c = true) : PlainText x :=
  fun c hc => ⟨(alphanumeric_plain (hx c hc)).2.1, (alphanumeric_plain (hx c hc)).1⟩

/-- On a text at hand. -/
theorem plainText_of_all {s : String}
    (h : s.toList.all (fun c => c != ':' && !isWhiteSpace c) = true) : PlainText s := by
  intro c hc
  simpa using List.all_eq_true.mp h c hc

theorem lower_of_all {s : String} (h : s.toList.all (fun c => c.toLower == c) = true) :
    ∀ c ∈ s.toList, c.toLower = c :=
  fun c hc => beq_iff_eq.mp (List.all_eq_true.mp h c hc)

theorem normalizeHostnameBind_of_plain {t : String} (hplain : PlainText t)
    (hlower : ∀ c ∈ t.toList, c.toLower = c) (hlast : t.toList.getLast? ≠ some '.') :
    normalizeHostnameBind t =
      if t = "" ∨ maxHostnameLen < t.utf8ByteSize then none
      else if (split t '.').all hostnameLabelOk then some t else none := by
  have htrim : trim t = t := trim_eq_self fun c hc => (hplain c hc).2
  have hdots : trimEndMatches t '.' = t := trimEndMatches_eq_self_iff.mpr hlast
  have hlow : toAsciiLowercase t = t := toAsciiLowercase_eq_self hlower
  have hport : splitOnce t ':' = none := if_neg fun hc => (hplain ':' hc).1 rfl
  simp only [normalizeHostnameBind, htrim, hdots, hlow, hport]

theorem normalizeHostnameBind_size {raw h : String} (hh : normalizeHostnameBind raw = some h) :
    h ≠ "" ∧ h.utf8ByteSize ≤ maxHostnameLen := by
  unfold normalizeHostnameBind at hh
  extract_lets trimmed withoutPort at hh
  split at hh
  · cases hh
  · rename_i hfits
    split at hh
    · obtain rfl := Option.some.inj hh
      exact ⟨fun he => hfits (.inl he), not_lt.mp fun hlong => hfits (.inr hlong)⟩
    · cases hh

theorem normalizeHostnameBind_plainText {raw h : String}
    (hh : normalizeHostnameBind raw = some h) : PlainText h := by
  intro c hc
  rcases hostname_char (normalizeHostnameBind_eq_some hh).2 hc with rfl | rfl | halnum
  · decide
  · decide
  · exact ⟨(alphanumeric_plain halnum).2.1, (alphanumeric_plain halnum).1⟩

/-- The first label of a text and the others. -/
theorem split_label {label rest : String} (h : '.' ∉ label.toList) :
    split (label ++ "." ++ rest) '.' = label :: split rest '.' := by
  have hpass : ∀ c ∈ label.toList, (c == '.') = false := by
    intro c hc
    rw [beq_eq_false_iff_ne]
    rintro rfl
    exact h hc
  have htext : (label ++ "." ++ rest).toList = label.toList ++ '.' :: rest.toList := by simp
  rw [split, splitBy, htext, List.splitOnP_append_cons_of_forall_mem hpass '.' (by decide),
    List.map_cons, String.ofList_toList]
  rfl

/-! ## Random hostnames -/

/-- The name the client is told is a hostname, the pattern's own, and one a
`Host` header can name. -/
def Routable (pattern host : String) : Prop :=
  normalizeHostnameBind host = some host ∧ hostMatchesRandomPattern host pattern = true ∧
    extractRequestHost (some host) = some host

section

variable {before after rest x : String}

theorem plainText_filled (hplain : PlainText (before ++ "*" ++ (after ++ "." ++ rest)))
    (hx : ∀ c ∈ x.toList, isAsciiAlphanumeric c = true) :
    PlainText (before ++ x ++ (after ++ "." ++ rest)) := by
  simp only [plainText_append (s := before ++ _), plainText_append (s := before)] at hplain ⊢
  exact ⟨⟨hplain.1.1, plainText_of_alphanumeric hx⟩, hplain.2⟩

theorem lower_filled (hlower : ∀ c ∈ (before ++ "*" ++ (after ++ "." ++ rest)).toList, c.toLower = c)
    (hx : ∀ c ∈ x.toList, c.toLower = c) :
    ∀ c ∈ (before ++ x ++ (after ++ "." ++ rest)).toList, c.toLower = c := by
  intro c hc
  rw [String.toList_append, String.toList_append, List.mem_append, List.mem_append] at hc
  rcases hc with (hc | hc) | hc
  · refine hlower c ?_
    rw [String.toList_append, String.toList_append]
    exact List.mem_append_left _ (List.mem_append_left _ hc)
  · exact hx c hc
  · refine hlower c ?_
    rw [String.toList_append]
    exact List.mem_append_right _ hc

theorem not_dot_of_alphanumeric (hx : ∀ c ∈ x.toList, isAsciiAlphanumeric c = true) :
    '.' ∉ x.toList :=
  fun h => absurd (hx '.' h) (by decide)

/-- What fills the placeholder matters by its length alone. -/
theorem normalizeHostnameBind_filled
    (hplain : PlainText (before ++ "*" ++ (after ++ "." ++ rest)))
    (hlower : ∀ c ∈ (before ++ "*" ++ (after ++ "." ++ rest)).toList, c.toLower = c)
    (hdots : '.' ∉ before.toList ∧ '.' ∉ after.toList)
    (hlast : ('.' :: rest.toList).getLast? ≠ some '.') (hne : x ≠ "")
    (hx : ∀ c ∈ x.toList, isAsciiAlphanumeric c = true) (hxlower : ∀ c ∈ x.toList, c.toLower = c) :
    normalizeHostnameBind (before ++ x ++ (after ++ "." ++ rest)) =
      if (before ++ x ++ (after ++ "." ++ rest)).utf8ByteSize ≤ maxHostnameLen ∧
          (before.toList ++ after.toList).all (fun c => isAsciiAlphanumeric c || c == '-') ∧
          (split rest '.').all hostnameLabelOk then
        some (before ++ x ++ (after ++ "." ++ rest))
      else none := by
  have hend : (before ++ x ++ (after ++ "." ++ rest)).toList.getLast? ≠ some '.' := by
    have hcut : (before ++ x ++ (after ++ "." ++ rest)).toList =
        (before ++ x ++ after).toList ++ '.' :: rest.toList := by simp
    rw [hcut, List.getLast?_append_of_ne_nil _ (List.cons_ne_nil _ _)]
    exact hlast
  have hsplit : split (before ++ x ++ (after ++ "." ++ rest)) '.' =
      (before ++ x ++ after) :: split rest '.' := by
    have hlabel : '.' ∉ (before ++ x ++ after).toList := by
      simp [hdots, not_dot_of_alphanumeric hx]
    rw [← split_label hlabel]
    simp only [String.append_assoc]
  have hempty : before ++ x ++ (after ++ "." ++ rest) ≠ "" := by
    intro h
    have := congrArg String.toList h
    simp at this
  have hfirst : hostnameLabelOk (before ++ x ++ after) = true ↔
      (before.toList ++ after.toList).all fun c => isAsciiAlphanumeric c || c == '-' := by
    have hnonempty : before ++ x ++ after ≠ "" := by
      intro h
      have hnil := congrArg String.toList h
      simp only [String.toList_append, String.toList_empty, List.append_eq_nil_iff,
        String.toList_eq_nil_iff] at hnil
      exact hne hnil.1.2
    simp only [hostnameLabelOk, bne_iff_ne.mpr hnonempty, Bool.true_and, List.all_eq_true,
      String.toList_append, List.mem_append]
    constructor
    · intro hall c hc
      rcases hc with hc | hc
      · exact hall c (.inl (.inl hc))
      · exact hall c (.inr hc)
    · rintro hall c ((hc | hc) | hc)
      · exact hall c (.inl hc)
      · simp [hx c hc]
      · exact hall c (.inr hc)
  rw [normalizeHostnameBind_of_plain (plainText_filled hplain hx) (lower_filled hlower hxlower)
    hend, hsplit, List.all_cons]
  simp only [hempty, false_or, Bool.and_eq_true, hfirst]
  by_cases hsize : maxHostnameLen < (before ++ x ++ (after ++ "." ++ rest)).utf8ByteSize
  · rw [if_pos hsize, if_neg fun h => not_le.mpr hsize h.1]
  · rw [if_neg hsize]
    simp only [not_lt.mp hsize, true_and]

theorem hostMatches_filled (hplain : PlainText (before ++ x ++ (after ++ "." ++ rest)))
    (hlower : ∀ c ∈ (before ++ x ++ (after ++ "." ++ rest)).toList, c.toLower = c)
    (hstar : '*' ∉ before.toList) (hdots : '.' ∉ before.toList ∧ '.' ∉ after.toList)
    (hlabel : '.' ∉ x.toList) (hsize : 0 < x.utf8ByteSize) :
    hostMatchesRandomPattern (before ++ x ++ (after ++ "." ++ rest))
      (before ++ "*" ++ (after ++ "." ++ rest)) = true := by
  have hhost : splitOnce (before ++ x ++ (after ++ "." ++ rest)) '.' =
      some (before ++ x ++ after, rest) := by
    rw [splitOnce_eq_some]
    exact ⟨by simp, by simp [hdots, hlabel]⟩
  have hpattern : splitOnce (before ++ "*" ++ (after ++ "." ++ rest)) '.' =
      some (before ++ "*" ++ after, rest) := by
    rw [splitOnce_eq_some]
    exact ⟨by simp, by simp [hdots]⟩
  have hparts : splitOnce (before ++ "*" ++ after) '*' = some (before, after) := by
    rw [splitOnce_eq_some]
    exact ⟨by simp, hstar⟩
  have hport := split_eq_singleton fun hc => (hplain ':' hc).1 rfl
  unfold hostMatchesRandomPattern
  rw [hport, List.headD_cons, toAsciiLowercase_eq_self hlower]
  simp only [hhost, hpattern, hparts]
  have hends : endsWith (before ++ x ++ after) after = true := by
    rw [endsWith, List.isSuffixOf_iff_suffix]
    exact ⟨(before ++ x).toList, by simp⟩
  have hstarts : startsWith (before ++ x ++ after) before = true := by
    rw [String.append_assoc]
    exact startsWith_append before _
  rw [hends, hstarts, String.utf8ByteSize_append, String.utf8ByteSize_append]
  simp
  omega

end

theorem RandomLabel.alphanumeric (label : RandomLabel) :
    ∀ c ∈ label.text.toList, isAsciiAlphanumeric c = true := by
  intro c hc
  rcases label.hex c hc with hdigit | ⟨ha, hf⟩
  · simp [isAsciiAlphanumeric, hdigit]
  · have hz : c ≤ 'z' := Char.le_trans hf (by decide)
    simp [isAsciiAlphanumeric, ha, hz]

/-- **Which random names are routable**: those of a pattern without a port or a
blank, with room for the label. -/
theorem routable_iff {raw pattern : String}
    (h : normalizeRandomSubdomainPattern raw = some pattern) {label : RandomLabel}
    (hlabel : label.text.utf8ByteSize = 10) :
    Routable pattern (randomSubdomainHostname pattern label) ↔
      PlainText pattern ∧ pattern.utf8ByteSize ≤ 244 := by
  obtain ⟨hlower, before, after, rest, hsplit, hstar, hlast, hdots, hfilled⟩ :=
    normalizeRandomSubdomainPattern_eq_some h
  obtain ⟨htext, hbefore⟩ := splitOnce_eq_some.mp hsplit
  obtain rfl : pattern = before ++ "*" ++ (after ++ "." ++ rest) :=
    String.toList_inj.mp (by simp [htext])
  have hname : randomSubdomainHostname (before ++ "*" ++ (after ++ "." ++ rest)) label =
      before ++ label.text ++ (after ++ "." ++ rest) := by
    rw [randomSubdomainHostname, replacenOnce, hsplit]
  rw [hname]
  have hroom {x : String} : (before ++ x ++ (after ++ "." ++ rest)).utf8ByteSize =
      before.utf8ByteSize + x.utf8ByteSize + (after ++ "." ++ rest).utf8ByteSize := by
    rw [String.utf8ByteSize_append, String.utf8ByteSize_append]
  have hstarsize : "*".utf8ByteSize = 1 := rfl
  have hne : label.text ≠ "" := by
    intro hempty
    rw [hempty] at hlabel
    cases hlabel
  constructor
  · rintro ⟨hnormal, -, -⟩
    have hsize := (normalizeHostnameBind_size hnormal).2
    have hplain := normalizeHostnameBind_plainText hnormal
    rw [hroom, hlabel, maxHostnameLen] at hsize
    rw [plainText_append, plainText_append] at hplain ⊢
    have hstarplain : PlainText "*" := plainText_of_all (by decide)
    refine ⟨⟨⟨hplain.1.1, hstarplain⟩, hplain.2⟩, ?_⟩
    rw [hroom, hstarsize]
    omega
  · rintro ⟨hplain, hsize⟩
    have hsample : normalizeHostnameBind (before ++ "abc123" ++ (after ++ "." ++ rest)) = _ :=
      normalizeHostnameBind_filled hplain hlower hdots hlast (by decide)
        (List.all_eq_true.mp (by decide)) (lower_of_all (by decide))
    have hnormal : normalizeHostnameBind (before ++ label.text ++ (after ++ "." ++ rest)) = _ :=
      normalizeHostnameBind_filled hplain hlower hdots hlast hne label.alphanumeric label.lower
    rw [hsample] at hfilled
    split at hfilled
    · rename_i hok
      rw [hroom, hstarsize] at hsize
      have hfits : (before ++ label.text ++ (after ++ "." ++ rest)).utf8ByteSize ≤
          maxHostnameLen := by
        rw [hroom, hlabel, maxHostnameLen]
        omega
      rw [if_pos ⟨hfits, hok.2⟩] at hnormal
      refine ⟨hnormal, ?_, extractRequestHost_normal hnormal⟩
      exact hostMatches_filled (plainText_filled hplain label.alphanumeric)
        (lower_filled hlower label.lower) hbefore hdots
        (not_dot_of_alphanumeric label.alphanumeric) (by omega)
    · cases hfilled

/-! ## Organizations' patterns -/

/-- Some hostname a client can bind is one the pattern matches. -/
def Bindable (pattern : String) : Prop :=
  ∃ raw host, normalizeHostnameBind raw = some host ∧ patternMatchesHost pattern host = true

/-- A text spelled with bytes of an ASCII one is made of its characters. -/
theorem mem_of_bytes {host s : String} (hascii : ∀ d ∈ host.toList, d.toNat < 0x80)
    (hsub : ∀ b ∈ utf8Bytes s, b ∈ utf8Bytes host) : ∀ c ∈ s.toList, c ∈ host.toList := by
  intro c hc
  obtain ⟨b, hb⟩ := List.exists_mem_of_ne_nil _ (String.utf8EncodeChar_ne_nil (c := c))
  obtain ⟨d, hd, hbd⟩ := List.mem_flatMap.mp (hsub b (List.mem_flatMap.mpr ⟨c, hc, hb⟩))
  have hone : String.utf8EncodeChar d = [UInt8.ofNat d.toNat] :=
    if_pos (Nat.le_of_lt_succ (hascii d hd))
  rw [hone, List.mem_singleton] at hbd
  have hbyte : b.toNat = d.toNat := by
    rw [hbd, UInt8.toNat_ofNat']
    exact Nat.mod_eq_of_lt ((hascii d hd).trans (by decide))
  have hsame : c.toNat = d.toNat :=
    (toNat_of_mem_utf8EncodeChar (by rw [hbyte]; exact hascii d hd) hb).trans hbyte
  rwa [← Char.ofNat_toNat c, hsame, Char.ofNat_toNat]

theorem hostname_ascii {raw host : String} (hh : normalizeHostnameBind raw = some host) :
    ∀ c ∈ host.toList, c.toNat < 0x80 := by
  intro c hc
  rcases hostname_char (normalizeHostnameBind_eq_some hh).2 hc with rfl | rfl | halnum
  · decide
  · decide
  · simp only [isAsciiAlphanumeric, isAsciiDigit, Bool.or_eq_true, Bool.and_eq_true,
      decide_eq_true_eq, Char.le_def, UInt32.le_iff_toNat_le] at halnum
    change c.val.toNat < 0x80
    have hdigit : '9'.val.toNat = 0x39 := rfl
    have hsmall : 'z'.val.toNat = 0x7A := rfl
    have hcapital : 'Z'.val.toNat = 0x5A := rfl
    omega

theorem not_dot_bytes {s : String} (h : '.' ∉ s.toList) : 0x2E ∉ utf8Bytes s := by
  intro hmem
  obtain ⟨c, hc, hdot⟩ := List.mem_flatMap.mp hmem
  rw [mem_utf8EncodeChar_dot] at hdot
  exact h (hdot ▸ hc)

/-- What a bindable pattern has to be. -/
theorem plain_of_bindable {P : HostPattern} (hne : P.text ≠ "*") (h : Bindable P.text) :
    PlainText P.text ∧ P.text.utf8ByteSize ≤ maxHostnameLen := by
  obtain ⟨raw, host, hhost, hmatch⟩ := h
  obtain ⟨n, rfl⟩ := normalizeHostnameBind_plain hhost
  have hmem := (P.matches_plain n).mp hmatch
  have hsize := (normalizeHostnameBind_size hhost).2
  have hplain {s : String} (hsub : ∀ b ∈ utf8Bytes s, b ∈ utf8Bytes n.text) : PlainText s :=
    fun c hc => normalizeHostnameBind_plainText hhost c
      (mem_of_bytes (hostname_ascii hhost) hsub c hc)
  rw [HostPattern.utf8ByteSize_eq] at hsize ⊢
  cases P with
  | any => exact absurd rfl hne
  | subtree suffix =>
      obtain ⟨pre, hpre, heq⟩ := hmem
      have hpos := List.length_pos_iff.mpr hpre
      rw [heq] at hsize
      constructor
      · rw [HostPattern.text, plainText_append]
        refine ⟨plainText_of_all (by decide), hplain fun b hb => ?_⟩
        rw [heq]
        exact List.mem_append_right _ (List.mem_cons_of_mem _ hb)
      · rw [HostPattern.text, utf8Bytes_append, List.length_append]
        rw [List.length_append, List.length_cons] at hsize
        have htwo : (utf8Bytes "*.").length = 2 := rfl
        omega
  | label parts =>
      obtain ⟨mid, hmid, -, heq⟩ := hmem
      have hpos := List.length_pos_iff.mpr hmid
      rw [heq] at hsize
      have hpart {s : String} (hs : ∀ b ∈ utf8Bytes s, b ∈ utf8Bytes parts.before ∨
          b ∈ utf8Bytes parts.after ∨ b ∈ utf8Bytes parts.rest) : PlainText s := by
        refine hplain fun b hb => ?_
        rw [heq]
        rcases hs b hb with hb | hb | hb
        · exact List.mem_append_left _ (List.mem_append_left _ (List.mem_append_left _ hb))
        · exact List.mem_append_left _ (List.mem_append_right _ hb)
        · exact List.mem_append_right _ (List.mem_cons_of_mem _ hb)
      constructor
      · simp only [HostPattern.text, LabelPattern.text, plainText_append]
        exact ⟨⟨⟨⟨hpart fun b hb => .inl hb, plainText_of_all (by decide)⟩,
          hpart fun b hb => .inr (.inl hb)⟩, plainText_of_all (by decide)⟩,
          hpart fun b hb => .inr (.inr hb)⟩
      · have hone : (utf8Bytes "*").length = 1 ∧ (utf8Bytes ".").length = 1 := ⟨rfl, rfl⟩
        simp only [HostPattern.text, LabelPattern.text, utf8Bytes_append, List.length_append]
        simp only [List.length_append, List.length_cons] at hsize
        omega
  | exact name =>
      have hname : n.text = name.text := utf8Bytes_injective hmem
      rw [HostPattern.text, ← hname]
      exact ⟨normalizeHostnameBind_plainText hhost, hsize⟩

/-- A host is enough whose bytes the pattern stands for. -/
theorem bindable_of_mem {P : HostPattern} {host : String}
    (hhost : normalizeHostnameBind host = some host)
    (hmem : utf8Bytes host ∈ P.shape.names 0x2E) : Bindable P.text := by
  obtain ⟨n, hn⟩ := normalizeHostnameBind_plain hhost
  refine ⟨host, host, hhost, ?_⟩
  rw [← hn] at hmem ⊢
  exact (P.matches_plain n).mpr hmem

/-- Under a hostname that leaves two bytes: a label of one letter. -/
theorem bindable_subtree {suffix : PlainName} {raw : String}
    (hraw : normalizeHostnameBind raw = some suffix.text)
    (hsize : ("*." ++ suffix.text).utf8ByteSize ≤ maxHostnameLen) :
    Bindable (HostPattern.subtree suffix).text := by
  have hlast : ("a" ++ "." ++ suffix.text).toList.getLast? ≠ some '.' := by
    have hsuffix : suffix.text.toList ≠ [] := fun hnil =>
      (normalizeHostnameBind_size hraw).1 (String.toList_eq_nil_iff.mp hnil)
    rw [String.toList_append, List.getLast?_append_of_ne_nil _ hsuffix]
    exact trimEndMatches_eq_self_iff.mp suffix.noTrailingDot
  have hlower : ∀ c ∈ ("a" ++ "." ++ suffix.text).toList, c.toLower = c := by
    intro c hc
    rw [String.toList_append, List.mem_append] at hc
    rcases hc with hc | hc
    · exact lower_of_all (by decide) c hc
    · exact suffix.lower c hc
  have hplain : PlainText ("a" ++ "." ++ suffix.text) :=
    plainText_append.mpr ⟨plainText_of_all (by decide), normalizeHostnameBind_plainText hraw⟩
  have hlong : ¬maxHostnameLen < ("a" ++ "." ++ suffix.text).utf8ByteSize := by
    rw [not_lt]
    rw [String.utf8ByteSize_append] at hsize ⊢
    exact hsize
  have hlabels : (split ("a" ++ "." ++ suffix.text) '.').all hostnameLabelOk = true := by
    rw [split_label (by decide), List.all_cons, Bool.and_eq_true, List.all_eq_true]
    exact ⟨by decide, (normalizeHostnameBind_eq_some hraw).2⟩
  have hempty : "a" ++ "." ++ suffix.text ≠ "" := by
    intro h
    have := congrArg String.toList h
    simp at this
  have hhost := normalizeHostnameBind_of_plain hplain hlower hlast
  rw [if_neg (not_or.mpr ⟨hempty, hlong⟩), if_pos hlabels] at hhost
  refine bindable_of_mem hhost ⟨utf8Bytes "a", by decide, ?_⟩
  rw [utf8Bytes_append, utf8Bytes_append, List.append_assoc]
  rfl

theorem LabelPattern.text_eq (parts : LabelPattern) :
    parts.text = parts.before ++ "*" ++ (parts.after ++ "." ++ parts.rest) := by
  rw [LabelPattern.text]
  simp only [String.append_assoc]

/-- A placeholder filled with one letter, where the sample filled it. -/
theorem bindable_label {parts : LabelPattern} (hP : (HostPattern.label parts).Accepted)
    (hplain : PlainText parts.text) (hsize : parts.text.utf8ByteSize ≤ maxHostnameLen) :
    Bindable (HostPattern.label parts).text := by
  obtain ⟨⟨text, htext⟩, hfilled⟩ := hP
  have hlast : ('.' :: parts.rest.toList).getLast? ≠ some '.' := by
    have hend : parts.text.toList.getLast? ≠ some '.' := by
      rw [htext]
      exact getLast?_toAsciiLowercase (getLast?_trimEndMatches text '.')
    have hcut : parts.text.toList =
        (parts.before.toList ++ '*' :: parts.after.toList) ++ '.' :: parts.rest.toList := by
      simp [LabelPattern.text]
    rw [hcut, List.getLast?_append_of_ne_nil _ (List.cons_ne_nil _ _)] at hend
    exact hend
  have hlower := parts.lower
  rw [parts.text_eq] at hplain hsize hlower
  have hdots := And.intro parts.beforeOk.2 parts.afterOk.2
  have hsample : normalizeHostnameBind
      (parts.before ++ "abc123" ++ (parts.after ++ "." ++ parts.rest)) = _ :=
    normalizeHostnameBind_filled hplain hlower hdots hlast (by decide)
      (List.all_eq_true.mp (by decide)) (lower_of_all (by decide))
  have hhost : normalizeHostnameBind
      (parts.before ++ "a" ++ (parts.after ++ "." ++ parts.rest)) = _ :=
    normalizeHostnameBind_filled hplain hlower hdots hlast (by decide)
      (List.all_eq_true.mp (by decide)) (lower_of_all (by decide))
  rw [hsample] at hfilled
  split at hfilled
  · rename_i hok
    have hfits : (parts.before ++ "a" ++ (parts.after ++ "." ++ parts.rest)).utf8ByteSize ≤
        maxHostnameLen := by
      rw [String.utf8ByteSize_append, String.utf8ByteSize_append] at hsize ⊢
      exact hsize
    rw [if_pos ⟨hfits, hok.2⟩] at hhost
    refine bindable_of_mem hhost ⟨utf8Bytes "a", by decide, ?_, ?_⟩
    · rw [← utf8Bytes_append, ← utf8Bytes_append]
      refine not_dot_bytes ?_
      simp [hdots]
    · rw [← utf8Bytes_append, ← utf8Bytes_append]
      simp only [utf8Bytes_append, List.append_assoc]
      rfl
  · cases hfilled

/-- A hostname for a pattern that was accepted. -/
theorem bindable_of_plain {P : HostPattern} (hP : P.Accepted) (hne : P.text ≠ "*")
    (hplain : PlainText P.text) (hsize : P.text.utf8ByteSize ≤ maxHostnameLen) :
    Bindable P.text := by
  cases P with
  | any => exact absurd rfl hne
  | subtree suffix =>
      obtain ⟨raw, hraw⟩ := hP
      exact bindable_subtree hraw hsize
  | label parts => exact bindable_label hP hplain hsize
  | exact name =>
      obtain ⟨raw, hraw⟩ := hP
      exact ⟨raw, name.text, hraw, (HostPattern.matches_plain (.exact name) name).mpr rfl⟩

/-- **Random hostnames are routable, and allowlists bindable**, for the patterns
without a port or a blank that leave the room. -/
theorem random_hostnames_routable (raw pattern : String) :
    (normalizeRandomSubdomainPattern raw = some pattern →
      (∀ sha256 seed, Routable pattern (randomSubdomainHostnameSeeded sha256 pattern seed) ↔
        PlainText pattern ∧ pattern.utf8ByteSize ≤ 244) ∧
      ∀ uuid, Routable pattern (randomSubdomainHostname pattern (uuidLabel uuid)) ↔
        PlainText pattern ∧ pattern.utf8ByteSize ≤ 244) ∧
    (normalizeOrgHostnamePattern raw = some pattern → pattern ≠ "*" →
      (Bindable pattern ↔ PlainText pattern ∧ pattern.utf8ByteSize ≤ 253)) := by
  refine ⟨fun h => ⟨fun sha256 seed => ?_, fun uuid => ?_⟩, fun h hne => ?_⟩
  · exact routable_iff h (size_seededLabel sha256 seed)
  · exact routable_iff h (size_uuidLabel uuid)
  · obtain ⟨P, rfl, hP⟩ := normalizeOrgHostnamePattern_accepted h
    exact ⟨plain_of_bindable hne, fun hplain => bindable_of_plain hP hne hplain.1 hplain.2⟩

/-- The digest of the empty seed. -/
def emptySeedDigest : Vector UInt8 32 :=
  #v[0xe3, 0xb0, 0xc4, 0x42, 0x98, 0xfc, 0x1c, 0x14, 0x9a, 0xfb, 0xf4, 0xc8, 0x99, 0x6f, 0xb9, 0x24,
      0x27, 0xae, 0x41, 0xe4, 0x64, 0x9b, 0x93, 0x4c, 0xa4, 0x95, 0x99, 0x1b, 0x78, 0x52, 0xb8, 0x55]

theorem random_hostnames_routable_preview :
    randomSubdomainHostnameSeeded (fun _ => emptySeedDigest) "*.example.com" "" =
        "e3b0c44298.example.com" ∧
      (Routable "*.example.com"
          (randomSubdomainHostnameSeeded (fun _ => emptySeedDigest) "*.example.com" "") ↔
        PlainText "*.example.com" ∧ "*.example.com".utf8ByteSize ≤ 244) ∧
      (Bindable "*-pi.acme.com" ↔
        PlainText "*-pi.acme.com" ∧ "*-pi.acme.com".utf8ByteSize ≤ 253) := by
  refine ⟨by decide +kernel, ?_, ?_⟩
  · exact ((random_hostnames_routable "Example.com" _).1 (by decide +kernel)).1 _ _
  · exact (random_hostnames_routable "*-pi.acme.com" _).2 (by decide +kernel) (by decide)

/-- A pattern that kept its port: the hostname told is none, and no client can
bind what the other stands for. -/
theorem random_hostname_port :
    normalizeRandomSubdomainPattern "example.com:8080" = some "*.example.com:8080" ∧
      ¬Routable "*.example.com:8080"
        (randomSubdomainHostnameSeeded (fun _ => emptySeedDigest) "*.example.com:8080" "") ∧
      normalizeOrgHostnamePattern "*-pi.acme.com:80" = some "*-pi.acme.com:80" ∧
      ¬Bindable "*-pi.acme.com:80" := by
  have haccepted : normalizeOrgHostnamePattern "*-pi.acme.com:80" = some "*-pi.acme.com:80" := by
    decide +kernel
  refine ⟨by decide +kernel, ?_, haccepted, ?_⟩
  · rintro ⟨hnormal, -, -⟩
    revert hnormal
    decide +kernel
  · obtain ⟨P, hP, -⟩ := normalizeOrgHostnamePattern_accepted haccepted
    intro hbind
    have hne : P.text ≠ "*" := by
      rw [hP]
      decide
    have hplain := (plain_of_bindable hne (hP ▸ hbind)).1
    rw [hP] at hplain
    exact (hplain ':' (by decide)).1 rfl

end Aperio
