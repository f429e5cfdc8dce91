import Aperio.NamePatterns
import Aperio.Orgs

/-!
# What an allowlist entry stands for

`store/orgs.rs`: the entries an organization's allowlist may hold
(`normalize_org_hostname_pattern`), and how the three tests over them line
up: which hosts an entry matches, which entries it covers, and which it
overlaps.

`HostPattern` is an entry the normalizer lets through, with what it knows of
it. Matching is membership in the names its shape stands for, and the other
two tests decide the relations of `NamePattern` on the shapes. Whatever is
refused or granted on them then follows from there, for hosts of any depth.
-/

namespace Aperio

/-! ## The entries -/

/-- `str::replacen` of one character, once. -/
def replacenOnce (s : String) (c : Char) (t : String) : String :=
  match splitOnce s c with
  | some (before, after) => before ++ t ++ after
  | none => s

/-- Normalizes one entry of an organization's hostname allowlist: `*`, a
subdomain wildcard, a partial leftmost label, or an exact hostname. A
partial label is checked with its placeholder filled in and kept as it was
written. -/
def normalizeOrgHostnamePattern (raw : String) : Option String :=
  let trimmed := toAsciiLowercase (trimEndMatches (trim raw) '.')
  if trimmed = "" then none
  else if trimmed = "*" then some "*"
  else
    match stripPrefix trimmed "*." with
    | some rest =>
      (normalizeHostnameBind rest).bind fun normalized =>
        if normalized.toList.contains '.' then some ("*." ++ normalized) else none
    | none =>
      if trimmed.toList.contains '*' then
        if trimmed.toList.count '*' ≠ 1 then none
        else
          (splitOnce trimmed '.').bind fun (head, tail) =>
            if !head.toList.contains '*' || tail.toList.contains '*' || !tail.toList.contains '.' then
              none
            else
              (normalizeHostnameBind (replacenOnce trimmed '*' "abc123")).map fun _ => trimmed
      else normalizeHostnameBind trimmed

example : normalizeOrgHostnamePattern " *.Acme.com. " = some "*.acme.com" ∧
    normalizeOrgHostnamePattern "*-pi.com" = none := by decide +kernel

/-- A hostname without a placeholder, in the one spelling the tests compare
in: lower case and no trailing dot. -/
structure PlainName where
  text : String
  lower : ∀ c ∈ text.toList, c.toLower = c
  noStar : '*' ∉ text.toList
  noTrailingDot : trimEndMatches text '.' = text

/-- The three texts around the placeholder and the first dot of a partial
label. -/
structure LabelPattern where
  before : String
  after : String
  rest : String
  lowerBefore : ∀ c ∈ before.toList, c.toLower = c
  lowerAfter : ∀ c ∈ after.toList, c.toLower = c
  lowerRest : ∀ c ∈ rest.toList, c.toLower = c
  beforeOk : '*' ∉ before.toList ∧ '.' ∉ before.toList
  afterOk : '*' ∉ after.toList ∧ '.' ∉ after.toList
  partly : before ≠ "" ∨ after ≠ ""

def LabelPattern.text (l : LabelPattern) : String :=
  l.before ++ "*" ++ l.after ++ "." ++ l.rest

inductive HostPattern where
  | any
  | subtree (suffix : PlainName)
  | label (parts : LabelPattern)
  | exact (name : PlainName)

namespace HostPattern

def text : HostPattern → String
  | any => "*"
  | subtree suffix => "*." ++ suffix.text
  | label parts => parts.text
  | exact name => name.text

/-- The pattern over bytes an entry spells. -/
def shape : HostPattern → NamePattern UInt8
  | any => .any
  | subtree suffix => .subtree (utf8Bytes suffix.text)
  | label parts =>
      .label (utf8Bytes parts.before) (utf8Bytes parts.after) (utf8Bytes parts.rest)
  | exact name => .exact (utf8Bytes name.text)

/-- What the normalizer saw of an entry it kept: a hostname, or one once the
placeholder is filled. -/
def Accepted : HostPattern → Prop
  | any => True
  | subtree suffix => ∃ raw, normalizeHostnameBind raw = some suffix.text
  | label parts =>
      (∃ text, parts.text = toAsciiLowercase (trimEndMatches text '.')) ∧
        (normalizeHostnameBind (parts.before ++ "abc123" ++ (parts.after ++ "." ++ parts.rest))).isSome
  | exact name => ∃ raw, normalizeHostnameBind raw = some name.text

end HostPattern

/-! ## What the normalizers let through -/

theorem normalizeHostnameBind_eq_some {raw h : String} (hh : normalizeHostnameBind raw = some h) :
    (∀ c ∈ h.toList, c.toLower = c) ∧ ∀ label ∈ split h '.', hostnameLabelOk label = true := by
  unfold normalizeHostnameBind at hh
  extract_lets trimmed withoutPort at hh
  have htrimmed : ∀ c ∈ trimmed.toList, c.toLower = c :=
    fun c hc => toLower_of_mem_toAsciiLowercase hc
  have hlower : ∀ c ∈ withoutPort.toList, c.toLower = c := by
    simp only [withoutPort]
    split
    · rename_i host port hsplit
      split
      · intro c hc
        refine htrimmed c ?_
        rw [(splitOnce_eq_some.mp hsplit).1]
        exact List.mem_append_left _ hc
      · exact htrimmed
    · exact htrimmed
  split at hh
  · cases hh
  · split at hh
    · rename_i hlabels
      rw [← Option.some_inj.mp hh]
      exact ⟨hlower, List.all_eq_true.mp hlabels⟩
    · cases hh

/-- Labels that are not empty and hold no placeholder make a plain name. -/
theorem PlainName.of_labels {h : String} (hlower : ∀ c ∈ h.toList, c.toLower = c)
    (hlabels : ∀ label ∈ split h '.', hostnameLabelOk label = true) :
    ∃ n : PlainName, n.text = h := by
  have hstar : '*' ∉ h.toList := by
    intro hmem
    obtain ⟨part, hpart, hin⟩ := @exists_mem_splitOnP _ (· == '.') _ _ hmem (by decide)
    have hok := hlabels (String.ofList part) (List.mem_map_of_mem hpart)
    simp only [hostnameLabelOk, Bool.and_eq_true, String.toList_ofList, List.all_eq_true] at hok
    exact absurd (hok.2 '*' hin) (by decide)
  have hdot : trimEndMatches h '.' = h := by
    rw [trimEndMatches]
    conv_rhs => rw [← String.ofList_toList (s := h)]
    refine congrArg String.ofList (List.rdropWhile_eq_self_iff.mpr ?_)
    intro hne hlast
    -- behind a trailing dot stands an empty label
    have hend := List.dropLast_append_getLast hne
    rw [beq_iff_eq.mp hlast] at hend
    have hempty : "" ∈ split h '.' := by
      rw [split, splitBy, ← hend, List.splitOnP_append_cons _ _ (by decide)]
      simp
    exact absurd (hlabels "" hempty) (by decide)
  exact ⟨⟨h, hlower, hstar, hdot⟩, rfl⟩

theorem normalizeHostnameBind_plain {raw h : String} (hh : normalizeHostnameBind raw = some h) :
    ∃ n : PlainName, n.text = h := by
  obtain ⟨hlower, hlabels⟩ := normalizeHostnameBind_eq_some hh
  exact PlainName.of_labels hlower hlabels

/-- A text with one placeholder, inside its first label, falls into what
stands before it, what follows it in the label, and the rest. -/
theorem placeholder_parts {text head tail : String} (hone : text.toList.count '*' = 1)
    (hsplit : splitOnce text '.' = some (head, tail)) (hstar : '*' ∈ head.toList) :
    ∃ before after : String,
      text.toList = before.toList ++ '*' :: (after.toList ++ '.' :: tail.toList) ∧
      ('*' ∉ before.toList ∧ '.' ∉ before.toList) ∧ ('*' ∉ after.toList ∧ '.' ∉ after.toList) ∧
      '*' ∉ tail.toList := by
  obtain ⟨htext, hdot⟩ := splitOnce_eq_some.mp hsplit
  obtain ⟨⟨before, after⟩, hparts⟩ : ∃ parts, splitOnce head '*' = some parts := ⟨_, if_pos hstar⟩
  obtain ⟨hhead, hbefore⟩ := splitOnce_eq_some.mp hparts
  rw [hhead] at hdot htext
  simp only [List.mem_append, List.mem_cons, not_or] at hdot
  rw [htext] at hone
  simp only [List.count_append, List.count_cons_self,
    List.count_cons_of_ne (show '.' ≠ '*' by decide)] at hone
  refine ⟨before, after, by simp [htext], ⟨hbefore, hdot.1⟩, ⟨?_, hdot.2.2⟩, ?_⟩
  · exact List.count_eq_zero.mp (by omega)
  · exact List.count_eq_zero.mp (by omega)

theorem LabelPattern.of_split {text head tail : String} (hlower : ∀ c ∈ text.toList, c.toLower = c)
    (hstrip : stripPrefix text "*." = none) (hone : text.toList.count '*' = 1)
    (hsplit : splitOnce text '.' = some (head, tail)) (hstar : '*' ∈ head.toList) :
    ∃ l : LabelPattern, l.text = text := by
  obtain ⟨before, after, htext, hbefore, hafter, -⟩ := placeholder_parts hone hsplit hstar
  have hmem : ∀ c, c ∈ before.toList ∨ c ∈ after.toList ∨ c ∈ tail.toList → c ∈ text.toList := by
    intro c hc
    rw [htext]
    simp only [List.mem_append, List.mem_cons]
    tauto
  have hpartly : before ≠ "" ∨ after ≠ "" := by
    by_contra hnone
    simp only [not_or, not_not] at hnone
    have hsome : stripPrefix text "*." = some tail := by
      rw [stripPrefix_eq_some, htext, hnone.1, hnone.2]
      rfl
    rw [hsome] at hstrip
    cases hstrip
  refine ⟨⟨before, after, tail, fun c hc => hlower c (hmem c (.inl hc)),
    fun c hc => hlower c (hmem c (.inr (.inl hc))), fun c hc => hlower c (hmem c (.inr (.inr hc))),
    hbefore, hafter, hpartly⟩, String.toList_inj.mp ?_⟩
  simp [LabelPattern.text, htext]

namespace LabelPattern

variable (l : LabelPattern)

theorem toList_text : l.text.toList =
    l.before.toList ++ '*' :: (l.after.toList ++ '.' :: l.rest.toList) := by
  simp [text]

theorem splitOnce_star : splitOnce l.text '*' = some (l.before, l.after ++ "." ++ l.rest) := by
  rw [splitOnce_eq_some, toList_text]
  exact ⟨by simp, l.beforeOk.1⟩

end LabelPattern

/-- Every entry the normalizer lets through has one of the four shapes. -/
theorem normalizeOrgHostnamePattern_accepted {raw p : String}
    (h : normalizeOrgHostnamePattern raw = some p) :
    ∃ P : HostPattern, P.text = p ∧ P.Accepted := by
  simp only [normalizeOrgHostnamePattern] at h
  generalize htrimmed : toAsciiLowercase (trimEndMatches (trim raw) '.') = trimmed at h
  have hlower : ∀ c ∈ trimmed.toList, c.toLower = c := by
    rw [← htrimmed]
    exact fun c hc => toLower_of_mem_toAsciiLowercase hc
  split at h
  · cases h
  · split at h
    · cases h
      exact ⟨.any, rfl, trivial⟩
    · split at h
      · rename_i rest hrest
        obtain ⟨normalized, hnorm, h⟩ := Option.bind_eq_some_iff.mp h
        split at h
        · cases h
          obtain ⟨n, rfl⟩ := normalizeHostnameBind_plain hnorm
          exact ⟨.subtree n, rfl, rest, hnorm⟩
        · cases h
      · rename_i hstrip
        split at h
        · split at h
          · cases h
          · rename_i hone
            obtain ⟨⟨head, tail⟩, hsplit, h⟩ := Option.bind_eq_some_iff.mp h
            simp only at h
            split at h
            · cases h
            · rename_i hparts
              obtain ⟨filled, hfilled, rfl⟩ := Option.map_eq_some_iff.mp h
              simp only [Bool.or_eq_true, not_or, Bool.not_eq_true', Bool.not_eq_false,
                List.contains_iff_mem] at hparts
              obtain ⟨l, hl⟩ := LabelPattern.of_split hlower hstrip (not_not.mp hone) hsplit
                hparts.1.1
              refine ⟨.label l, hl, ⟨trim raw, hl.trans htrimmed.symm⟩, ?_⟩
              rw [replacenOnce, ← hl, l.splitOnce_star] at hfilled
              exact Option.isSome_iff_exists.mpr ⟨filled, hfilled⟩
        · obtain ⟨n, rfl⟩ := normalizeHostnameBind_plain h
          exact ⟨.exact n, rfl, trimmed, h⟩

theorem normalizeOrgHostnamePattern_eq_some {raw p : String}
    (h : normalizeOrgHostnamePattern raw = some p) : ∃ P : HostPattern, P.text = p :=
  (normalizeOrgHostnamePattern_accepted h).imp fun _ hP => hP.1

/-! ## The bytes compared -/

theorem lowerByte_eq_dot {b : UInt8} : lowerByte b = 0x2E ↔ b = 0x2E := by
  unfold lowerByte
  split
  · rename_i hupper
    simp only [UInt8.le_iff_toNat_le, UInt8.toNat_ofNat] at hupper
    constructor
    · intro h
      have := congrArg UInt8.toNat h
      simp only [UInt8.toNat_add, UInt8.toNat_ofNat] at this
      omega
    · rintro rfl
      simp at hupper
  · rfl

/-- What is no upper-case letter spells no upper-case byte. -/
theorem map_lowerByte_utf8EncodeChar {c : Char} (h : c.toLower = c) :
    (String.utf8EncodeChar c).map lowerByte = String.utf8EncodeChar c := by
  have hfix : ∀ b ∈ String.utf8EncodeChar c, lowerByte b = b := by
    intro b hb
    refine if_neg ?_
    rintro ⟨hA, hZ⟩
    simp only [UInt8.le_iff_toNat_le, UInt8.toNat_ofNat] at hA hZ
    have hc := toNat_of_mem_utf8EncodeChar (by omega) hb
    rcases toLower_cases c with ⟨-, -, hlow⟩ | ⟨hupper, -⟩
    · rw [h] at hlow
      omega
    · omega
  rw [List.map_congr_left hfix, List.map_id']

theorem map_lowerByte_utf8Bytes {s : String} (h : ∀ c ∈ s.toList, c.toLower = c) :
    (utf8Bytes s).map lowerByte = utf8Bytes s := by
  rw [utf8Bytes, List.map_flatMap]
  exact List.flatMap_congr fun c hc => map_lowerByte_utf8EncodeChar (h c hc)

theorem bytesEqIgnoreCase_iff {xs : List UInt8} {s : String} (h : ∀ c ∈ s.toList, c.toLower = c) :
    bytesEqIgnoreCase xs (utf8Bytes s) = true ↔ xs.map lowerByte = utf8Bytes s := by
  rw [bytesEqIgnoreCase, map_lowerByte_utf8Bytes h, beq_iff_eq]

theorem eqIgnoreAsciiCase_iff {s t : String} (hs : ∀ c ∈ s.toList, c.toLower = c)
    (ht : ∀ c ∈ t.toList, c.toLower = c) : eqIgnoreAsciiCase s t = true ↔ s = t := by
  rw [eqIgnoreAsciiCase, toAsciiLowercase_eq_self hs, toAsciiLowercase_eq_self ht, beq_iff_eq]

/-- A host as the tests read it: no trailing dots, lower-case bytes. -/
def hostName (host : String) : List UInt8 :=
  (utf8Bytes (trimEndMatches host '.')).map lowerByte

theorem hostName_plain (n : PlainName) : hostName n.text = utf8Bytes n.text := by
  rw [hostName, n.noTrailingDot, map_lowerByte_utf8Bytes n.lower]

/-! ## How an entry reads -/

theorem PlainName.wildcardSuffix_eq (n : PlainName) : wildcardSuffix n.text = none := by
  rw [← Option.not_isSome_iff_eq_none]
  intro hsome
  obtain ⟨rest, hrest⟩ := Option.isSome_iff_exists.mp hsome
  refine n.noStar ?_
  rw [stripPrefix_eq_some.mp hrest]
  exact List.mem_append_left _ (by decide)

theorem PlainName.ne_star (n : PlainName) : n.text ≠ "*" := by
  intro h
  refine n.noStar ?_
  rw [h]
  decide

theorem PlainName.isPartialPattern_eq (n : PlainName) : isPartialPattern n.text = false := by
  simp [isPartialPattern, n.noStar]

theorem PlainName.splitOnce_star (n : PlainName) : splitOnce n.text '*' = none :=
  if_neg n.noStar

theorem wildcardSuffix_append (s : String) : wildcardSuffix ("*." ++ s) = some s := by
  rw [wildcardSuffix, stripPrefix_eq_some, String.toList_append]

theorem subtree_ne_star (s : String) : "*." ++ s ≠ "*" := by
  intro h
  have := congrArg (fun t => t.toList.length) h
  simp [String.toList_append] at this

theorem isPartialPattern_subtree (s : String) : isPartialPattern ("*." ++ s) = false := by
  simp [isPartialPattern, wildcardSuffix_append]

namespace LabelPattern

variable (l : LabelPattern)

theorem splitOnce_after : splitOnce (l.after ++ "." ++ l.rest) '.' = some (l.after, l.rest) := by
  rw [splitOnce_eq_some]
  exact ⟨by simp, l.afterOk.2⟩

theorem splitOnce_dot : splitOnce l.text '.' = some (l.before ++ "*" ++ l.after, l.rest) := by
  rw [splitOnce_eq_some, toList_text]
  refine ⟨by simp, ?_⟩
  simp [l.beforeOk.2, l.afterOk.2]

/-- The placeholder is not the whole first label. -/
theorem wildcardSuffix_eq : wildcardSuffix l.text = none := by
  rw [← Option.not_isSome_iff_eq_none]
  intro hsome
  obtain ⟨rest, hrest⟩ := Option.isSome_iff_exists.mp hsome
  have htext := stripPrefix_eq_some.mp hrest
  have hdot : splitOnce l.text '.' = some ("*", rest) := by
    rw [splitOnce_eq_some, htext]
    exact ⟨rfl, by decide⟩
  rw [l.splitOnce_dot, Option.some_inj, Prod.mk.injEq] at hdot
  have hlen := congrArg (fun t => t.toList.length) hdot.1
  simp only [String.toList_append, List.length_append] at hlen
  change _ + 1 + _ = 1 at hlen
  rcases l.partly with h | h
  · exact h (String.toList_eq_nil_iff.mp (List.length_eq_zero_iff.mp (by omega)))
  · exact h (String.toList_eq_nil_iff.mp (List.length_eq_zero_iff.mp (by omega)))

theorem ne_star : l.text ≠ "*" := by
  intro h
  have hdot : '.' ∈ l.text.toList := by
    rw [toList_text]
    simp
  rw [h] at hdot
  exact absurd hdot (by decide)

theorem isPartialPattern_eq : isPartialPattern l.text = true := by
  have hstar : '*' ∈ l.text.toList := by
    rw [toList_text]
    simp
  simp [isPartialPattern, l.wildcardSuffix_eq, hstar]

theorem lower : ∀ c ∈ l.text.toList, c.toLower = c := by
  intro c hc
  rw [toList_text, List.mem_append, List.mem_cons, List.mem_append, List.mem_cons] at hc
  rcases hc with hc | rfl | hc | rfl | hc
  · exact l.lowerBefore c hc
  · decide
  · exact l.lowerAfter c hc
  · decide
  · exact l.lowerRest c hc

/-- The text of a partial label tells its parts. -/
theorem text_inj {l m : LabelPattern} :
    l.text = m.text ↔ l.before = m.before ∧ l.after = m.after ∧ l.rest = m.rest := by
  constructor
  · intro h
    have hstar := l.splitOnce_star
    rw [h, m.splitOnce_star, Option.some_inj, Prod.mk.injEq] at hstar
    have hafter := l.splitOnce_after
    rw [← hstar.2, m.splitOnce_after, Option.some_inj, Prod.mk.injEq] at hafter
    exact ⟨hstar.1.symm, hafter.1.symm, hafter.2.symm⟩
  · rintro ⟨hb, ha, hr⟩
    rw [text, text, hb, ha, hr]

end LabelPattern

/-! ## Matching is membership -/

namespace HostPattern

theorem matches_subtree {suffix : PlainName} {host : String} :
    patternMatchesHost (subtree suffix).text host = true ↔
      hostName host ∈ (subtree suffix).shape.names 0x2E := by
  have hstrip := wildcardSuffix_append suffix.text
  rw [wildcardSuffix] at hstrip
  rw [shape, NamePattern.mem_subtree_iff, hostName, text, patternMatchesHost,
    if_neg (subtree_ne_star suffix.text), hstrip]
  simp only [Bool.and_eq_true, decide_eq_true_eq, beq_iff_eq, bytesEqIgnoreCase_iff suffix.lower,
    List.length_map, List.getElem?_map, List.map_drop, Option.map_eq_some_iff, lowerByte_eq_dot,
    exists_eq_right, and_assoc]

theorem matches_label {parts : LabelPattern} {host : String} :
    patternMatchesHost (label parts).text host = true ↔
      hostName host ∈ (label parts).shape.names 0x2E := by
  have hstrip := parts.wildcardSuffix_eq
  rw [wildcardSuffix] at hstrip
  rw [shape, hostName, text, patternMatchesHost, if_neg parts.ne_star, hstrip,
    parts.splitOnce_star]
  simp only [parts.splitOnce_after]
  generalize utf8Bytes (trimEndMatches host '.') = bytes
  have hcut := List.takeWhile_append_dropWhile (p := (· != (0x2E : UInt8))) (l := bytes)
  have hfirst : 0x2E ∉ (bytes.takeWhile (· != 0x2E)).map lowerByte := by
    intro hmem
    obtain ⟨b, hb, hlow⟩ := List.mem_map.mp hmem
    have := List.mem_takeWhile_imp hb
    rw [lowerByte_eq_dot.mp hlow] at this
    exact absurd this (by decide)
  cases hrest : bytes.dropWhile (· != 0x2E) with
  | nil =>
      -- no dot at all: a host of one label fills no partial pattern
      rw [hrest, List.append_nil] at hcut
      rw [hcut] at hfirst
      simp only [Bool.false_eq_true, false_iff]
      rintro ⟨mid, -, -, heq⟩
      rw [heq] at hfirst
      simp at hfirst
  | cons b rest =>
      have hb : b = 0x2E := by
        have hhead := List.head?_dropWhile_not (· != (0x2E : UInt8)) bytes
        rw [hrest] at hhead
        simpa using hhead
      rw [hrest, hb] at hcut
      have hname : bytes.map lowerByte =
          (bytes.takeWhile (· != 0x2E)).map lowerByte ++ 0x2E :: rest.map lowerByte := by
        conv_lhs => rw [← hcut]
        rw [List.map_append, List.map_cons]
        rfl
      rw [hname, NamePattern.mem_label_iff hfirst]
      simp only [Bool.and_eq_true, decide_eq_true_eq, bytesEqIgnoreCase_iff parts.lowerBefore,
        bytesEqIgnoreCase_iff parts.lowerAfter, bytesEqIgnoreCase_iff parts.lowerRest,
        List.length_map, List.map_take, List.map_drop, and_assoc]

theorem matches_exact {name : PlainName} {host : String} :
    patternMatchesHost (exact name).text host = true ↔
      hostName host ∈ (exact name).shape.names 0x2E := by
  have hstrip := name.wildcardSuffix_eq
  rw [wildcardSuffix] at hstrip
  rw [shape, text, patternMatchesHost, if_neg name.ne_star, hstrip, name.splitOnce_star]
  exact bytesEqIgnoreCase_iff name.lower

/-- An entry matches the hosts whose names its shape stands for. -/
theorem matches_iff (P : HostPattern) (host : String) :
    patternMatchesHost P.text host = true ↔ hostName host ∈ P.shape.names 0x2E := by
  cases P with
  | any => exact iff_of_true rfl trivial
  | subtree suffix => exact matches_subtree
  | label parts => exact matches_label
  | exact name => exact matches_exact

theorem matches_plain (P : HostPattern) (n : PlainName) :
    patternMatchesHost P.text n.text = true ↔ utf8Bytes n.text ∈ P.shape.names 0x2E := by
  rw [matches_iff, hostName_plain]

/-! ## Covering and overlapping are decided on the shapes -/

/-- A dot byte in a text is a dot of it. -/
theorem exists_of_utf8Bytes_eq {pre : List UInt8} {s t : String}
    (h : utf8Bytes s = pre ++ 0x2E :: utf8Bytes t) : ∃ p, s.toList = p ++ '.' :: t.toList := by
  rw [utf8Bytes] at h
  generalize s.toList = cs at h ⊢
  induction cs generalizing pre with
  | nil => simp at h
  | cons c cs ih =>
      rw [List.flatMap_cons] at h
      rcases List.append_eq_append_iff.mp h with ⟨mid, -, hmid⟩ | ⟨mid, hc, hmid⟩
      -- the dot is in a later character
      · obtain ⟨p, hp⟩ := ih hmid
        exact ⟨c :: p, by rw [hp, List.cons_append]⟩
      · cases mid with
        | nil =>
            obtain ⟨p, hp⟩ := @ih [] hmid.symm
            exact ⟨c :: p, by rw [hp, List.cons_append]⟩
        | cons b mid =>
            obtain ⟨rfl, hrest⟩ := List.cons.inj hmid
            have hdot : c = '.' := by
              rw [← mem_utf8EncodeChar_dot, hc]
              exact List.mem_append_right _ List.mem_cons_self
            subst hdot
            have hlen := congrArg List.length hc
            simp only [List.length_append, List.length_cons] at hlen
            change 1 = _ at hlen
            obtain rfl := List.length_eq_zero_iff.mp (show mid.length = 0 by omega)
            have ht : t = String.ofList cs := by
              apply utf8Bytes_injective
              change _ = (String.ofList cs).toList.flatMap String.utf8EncodeChar
              rw [String.toList_ofList]
              exact hrest
            exact ⟨[], by rw [ht, String.toList_ofList, List.nil_append]⟩

theorem atOrUnder_iff {outer inner : String} :
    (inner == outer || endsWith inner ("." ++ outer)) = true ↔
      NamePattern.AtOrUnder 0x2E (utf8Bytes outer) (utf8Bytes inner) := by
  simp only [Bool.or_eq_true, beq_iff_eq, endsWith, List.isSuffixOf_iff_suffix]
  constructor
  · rintro (rfl | ⟨pre, hpre⟩)
    · exact Or.inl rfl
    · refine Or.inr ⟨utf8Bytes (String.ofList pre), ?_⟩
      have hinner : inner = String.ofList pre ++ "." ++ outer := by
        rw [← String.toList_inj, ← hpre]
        simp
      rw [hinner, utf8Bytes_append, utf8Bytes_append, List.append_assoc]
      rfl
  · rintro (h | ⟨pre, hpre⟩)
    · exact Or.inl (utf8Bytes_injective h)
    · obtain ⟨p, hp⟩ := exists_of_utf8Bytes_eq hpre.symm
      exact Or.inr ⟨p, by rw [hp, String.toList_append]; rfl⟩

/-- The code's covering test decides covering on the shapes. -/
theorem covers_iff (P Q : HostPattern) :
    patternCoversPattern P.text Q.text = true ↔ NamePattern.Covers 0x2E P.shape Q.shape := by
  unfold patternCoversPattern
  cases P with
  | any => exact iff_of_true rfl trivial
  | subtree outer =>
      rw [text, if_neg (subtree_ne_star _), isPartialPattern_subtree, wildcardSuffix_append]
      cases Q with
      | any => exact iff_of_false (by simp [text]) id
      | subtree inner =>
          rw [text, if_neg (subtree_ne_star _), isPartialPattern_subtree, wildcardSuffix_append]
          exact atOrUnder_iff
      | label parts =>
          rw [text, if_neg parts.ne_star, parts.isPartialPattern_eq, parts.splitOnce_dot]
          exact atOrUnder_iff
      | exact name =>
          rw [text, if_neg name.ne_star, name.isPartialPattern_eq, name.wildcardSuffix_eq]
          simp only [Bool.false_eq_true, if_false, hostnameInOrgAllowlist, List.isEmpty_cons,
            Bool.false_or, List.any_cons, List.any_nil, Bool.or_false]
          exact (subtree outer).matches_plain name
  | label parts =>
      rw [text, if_neg parts.ne_star, parts.isPartialPattern_eq]
      cases Q with
      | any => exact iff_of_false (by simp [text]) id
      | subtree inner =>
          rw [text, if_neg (subtree_ne_star _), isPartialPattern_subtree, wildcardSuffix_append]
          exact iff_of_false (by simp) id
      | label parts' =>
          rw [text, if_neg parts'.ne_star, parts'.isPartialPattern_eq, if_pos rfl, if_pos rfl,
            eqIgnoreAsciiCase_iff parts.lower parts'.lower, LabelPattern.text_inj]
          exact and_congr utf8Bytes_injective.eq_iff.symm
            (and_congr utf8Bytes_injective.eq_iff.symm utf8Bytes_injective.eq_iff.symm)
      | exact name =>
          rw [text, if_neg name.ne_star, name.isPartialPattern_eq, name.wildcardSuffix_eq]
          exact (label parts).matches_plain name
  | exact name =>
      rw [text, if_neg name.ne_star, name.isPartialPattern_eq, name.wildcardSuffix_eq]
      cases Q with
      | any => exact iff_of_false (by simp [text]) id
      | subtree inner =>
          rw [text, if_neg (subtree_ne_star _), isPartialPattern_subtree, wildcardSuffix_append]
          exact iff_of_false (by simp) id
      | label parts =>
          rw [text, if_neg parts.ne_star, parts.isPartialPattern_eq]
          exact iff_of_false (by simp) id
      | exact name' =>
          rw [text, if_neg name'.ne_star, name'.isPartialPattern_eq, name'.wildcardSuffix_eq]
          simp only [Bool.false_eq_true, if_false, eqIgnoreAsciiCase_iff name.lower name'.lower]
          constructor
          · intro h
            exact congrArg utf8Bytes h.symm
          · intro h
            exact (utf8Bytes_injective h).symm

/-- The overlap test is true wherever the shapes meet. -/
theorem overlap_of_meets {P Q : HostPattern} (h : NamePattern.Meets 0x2E P.shape Q.shape) :
    patternsOverlap P.text Q.text = true := by
  unfold patternsOverlap
  rcases h with h | h | ⟨before, after, before', after', rest, hP, hQ⟩
  · rw [(covers_iff P Q).mpr h]
    rfl
  · rw [(covers_iff Q P).mpr h, Bool.or_true]
    rfl
  · split
    · rfl
    · cases P with
      | label parts =>
          cases Q with
          | label parts' =>
              simp only [shape, NamePattern.label.injEq] at hP hQ
              have hrest : parts.rest = parts'.rest := by
                apply utf8Bytes_injective
                rw [hP.2.2, hQ.2.2]
              simp only [text, parts.isPartialPattern_eq, parts'.isPartialPattern_eq,
                parts.splitOnce_dot, parts'.splitOnce_dot, Bool.and_true, if_true, Option.map_some,
                hrest, beq_self_eq_true]
          | any => cases hQ
          | subtree suffix => cases hQ
          | exact name => cases hQ
      | any => cases hP
      | subtree suffix => cases hP
      | exact name => cases hP

/-- Two entries that match one host overlap. -/
theorem overlap_of_matches {P Q : HostPattern} {host : String}
    (hP : patternMatchesHost P.text host = true) (hQ : patternMatchesHost Q.text host = true) :
    patternsOverlap P.text Q.text = true :=
  overlap_of_meets (NamePattern.meets_of_mem ((matches_iff P host).mp hP) ((matches_iff Q host).mp hQ))

/-- On a plain name, to match it is to cover it. -/
theorem covers_of_matches {P : HostPattern} {n : PlainName}
    (h : patternMatchesHost P.text n.text = true) : patternCoversPattern P.text n.text = true :=
  (covers_iff P (exact n)).mpr (NamePattern.covers_exact ((matches_plain P n).mp h))

end HostPattern

/-- **The hostname fence.** Over the entries an allowlist may hold: what an
entry covers matches nothing outside it, so a name granted on it stays
inside; and two entries that match one host overlap, so an action refused on
overlap is refused wherever they share a name. -/
theorem hostname_fence {ra rb a b : String} (ha : normalizeOrgHostnamePattern ra = some a)
    (hb : normalizeOrgHostnamePattern rb = some b) (host : String) :
    (patternCoversPattern a b = true → patternMatchesHost b host = true →
      patternMatchesHost a host = true) ∧
    (patternMatchesHost a host = true → patternMatchesHost b host = true →
      patternsOverlap a b = true) := by
  obtain ⟨P, rfl⟩ := normalizeOrgHostnamePattern_eq_some ha
  obtain ⟨Q, rfl⟩ := normalizeOrgHostnamePattern_eq_some hb
  refine ⟨?_, HostPattern.overlap_of_matches⟩
  rw [HostPattern.covers_iff, HostPattern.matches_iff, HostPattern.matches_iff]
  intro hcovers hmem
  exact hcovers.subset hmem

/-- A subtree and a partial label under it, and two partial labels that
share a name without either covering the other. -/
theorem hostname_fence_fleet :
    (patternMatchesHost "*-pi.e.a.io" "x-pi.e.a.io" = true ∧
      patternMatchesHost "*.a.io" "x-pi.e.a.io" = true) ∧
    (patternCoversPattern "d-*.a.io" "*-pi.a.io" = false ∧
      patternsOverlap "d-*.a.io" "*-pi.a.io" = true) := by
  have htree : normalizeOrgHostnamePattern "*.A.io." = some "*.a.io" := by decide +kernel
  have hdeep : normalizeOrgHostnamePattern "*-PI.e.a.io" = some "*-pi.e.a.io" := by decide +kernel
  have hdev : normalizeOrgHostnamePattern "d-*.a.io" = some "d-*.a.io" := by decide +kernel
  have hpi : normalizeOrgHostnamePattern "*-pi.a.io" = some "*-pi.a.io" := by decide +kernel
  have hmatch : patternMatchesHost "*-pi.e.a.io" "x-pi.e.a.io" = true := by decide
  refine ⟨⟨hmatch, ?_⟩, by decide, ?_⟩
  · exact (hostname_fence htree hdeep "x-pi.e.a.io").1 (by decide) hmatch
  · exact (hostname_fence hdev hpi "d-7-pi.a.io").2 (by decide) (by decide)

end Aperio
