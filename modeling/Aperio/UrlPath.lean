import Aperio.Text

/-!
# Paths of URLs

The path state of a URL parser: tabs and line breaks are dropped, a
separator ends a segment, a segment is percent-encoded, `.` and `..` in any
spelling are taken out as they come, and a `..` with nothing above it goes
nowhere. What is left is a list of segments that parse to themselves
(`NormalSegment`).

Read from an unknown directory, a list of segments goes so many levels up and
then down some names (`relative`). Read from a directory, it drops that many
of its segments and adds those names (`pushSegments_relative`), which says when
it stays under the directory (`prefix_pushSegments_iff`).
-/

namespace Aperio

abbrev Segment := List Char

/-! ## Segments -/

/-- What ends a segment: a slash, and in special schemes a backslash. -/
def isSlash (special : Bool) (c : Char) : Bool :=
  c == '/' || special && c == '\\'

def isTabOrNewline (c : Char) : Bool :=
  c == '\t' || c == '\n' || c == '\r'

/-- The path percent-encode set. -/
def inPathSet (c : Char) : Bool :=
  decide (c.toNat < 0x20) || decide (0x7F ≤ c.toNat) ||
    [' ', '"', '<', '>', '`', '#', '?', '{', '}'].contains c

def upperHexDigit (n : Nat) : Char :=
  if n < 10 then Char.ofNat (0x30 + n) else Char.ofNat (0x41 + (n - 10))

/-- A byte as `%XX`. -/
def percentByte (b : UInt8) : List Char :=
  ['%', upperHexDigit (b.toNat / 16), upperHexDigit (b.toNat % 16)]

def encodeChar (c : Char) : List Char :=
  if inPathSet c then (String.utf8EncodeChar c).flatMap percentByte else [c]

def encodeSegment (seg : Segment) : Segment :=
  seg.flatMap encodeChar

def isSingleDot (seg : Segment) : Bool :=
  String.ofList (seg.map Char.toLower) ∈ [".", "%2e"]

def isDoubleDot (seg : Segment) : Bool :=
  String.ofList (seg.map Char.toLower) ∈ ["..", ".%2e", "%2e.", "%2e%2e"]

/-- The segments of a text, encoded. -/
def pathSegments (special : Bool) (text : List Char) : List Segment :=
  ((text.filter fun c => !isTabOrNewline c).splitOnP (isSlash special)).map encodeSegment

/-- One segment after those before it; the last of them leaves a final slash
behind when it is a dot segment. -/
def pushSegment (path : List Segment) (seg : Segment) (last : Bool) : List Segment :=
  if isDoubleDot seg then path.dropLast ++ if last then [[]] else []
  else if isSingleDot seg then path ++ if last then [[]] else []
  else path ++ [seg]

def pushSegments : List Segment → List Segment → List Segment
  | path, [] => path
  | path, seg :: rest => pushSegments (pushSegment path seg rest.isEmpty) rest

/-- The path of a text that starts with a separator. -/
def parsePath (special : Bool) (text : List Char) : List Segment :=
  pushSegments [] (pathSegments special (text.drop 1))

def serializePath (path : List Segment) : List Char :=
  path.flatMap ('/' :: ·)

/-- A segment as it stands in a text: encoded, without a separator. -/
structure PlainSegment (special : Bool) (seg : Segment) : Prop where
  noSlash : ∀ c ∈ seg, isSlash special c = false
  noTab : ∀ c ∈ seg, isTabOrNewline c = false
  encoded : encodeSegment seg = seg

/-- A segment that parses to itself. -/
structure NormalSegment (special : Bool) (seg : Segment) : Prop extends
    PlainSegment special seg where
  notSingle : isSingleDot seg = false
  notDouble : isDoubleDot seg = false

/-- The path of a parsed URL. -/
structure UrlPath (special : Bool) where
  segments : List Segment
  normal : ∀ seg ∈ segments, NormalSegment special seg

/-! ## Encoding -/

theorem upperHexDigit_spec {n : Nat} (h : n < 16) :
    inPathSet (upperHexDigit n) = false ∧ isSlash true (upperHexDigit n) = false ∧
      isTabOrNewline (upperHexDigit n) = false := by
  revert n
  decide

/-- A character of an encoded segment is of the segment, or harmless. -/
theorem mem_encodeSegment {seg : Segment} {c : Char} (h : c ∈ encodeSegment seg) :
    inPathSet c = false ∧
      (c ∈ seg ∨ isSlash true c = false ∧ isTabOrNewline c = false) := by
  obtain ⟨d, hd, hc⟩ := List.mem_flatMap.mp h
  unfold encodeChar at hc
  split at hc
  · obtain ⟨b, -, hb⟩ := List.mem_flatMap.mp hc
    have hlt := b.toNat_lt
    rcases List.mem_cons.mp hb with rfl | hb
    · exact ⟨by decide, Or.inr (by decide)⟩
    rcases List.mem_cons.mp hb with rfl | hb
    · obtain ⟨hset, hharmless⟩ := upperHexDigit_spec (show b.toNat / 16 < 16 by omega)
      exact ⟨hset, Or.inr hharmless⟩
    · rw [List.mem_singleton.mp hb]
      obtain ⟨hset, hharmless⟩ := upperHexDigit_spec (show b.toNat % 16 < 16 by omega)
      exact ⟨hset, Or.inr hharmless⟩
  · rename_i hset
    rw [List.mem_singleton.mp hc]
    exact ⟨by simpa using hset, Or.inl hd⟩

theorem encodeSegment_of_not_mem {seg : Segment} (h : ∀ c ∈ seg, inPathSet c = false) :
    encodeSegment seg = seg := by
  induction seg with
  | nil => rfl
  | cons c rest ih =>
      obtain ⟨hc, hrest⟩ := List.forall_mem_cons.mp h
      rw [encodeSegment, List.flatMap_cons, encodeChar, hc]
      exact congrArg (c :: ·) (ih hrest)

theorem encodeSegment_idem (seg : Segment) :
    encodeSegment (encodeSegment seg) = encodeSegment seg :=
  encodeSegment_of_not_mem fun _ hc => (mem_encodeSegment hc).1

/-! ## What is left is normal -/

theorem isSlash_of_special {special : Bool} {c : Char} (h : isSlash true c = false) :
    isSlash special c = false := by
  cases special with
  | true => exact h
  | false =>
      simp only [isSlash, Bool.or_eq_false_iff] at h ⊢
      exact ⟨h.1, rfl⟩

theorem pathSegments_plain {special : Bool} {text : List Char} :
    ∀ seg ∈ pathSegments special text, PlainSegment special seg := by
  intro seg hseg
  obtain ⟨part, hpart, rfl⟩ := List.mem_map.mp hseg
  have hin {c : Char} (hc : c ∈ part) : isSlash special c = false ∧ isTabOrNewline c = false := by
    obtain ⟨hmem, hslash⟩ := mem_of_mem_splitOnP hpart hc
    exact ⟨hslash, by simpa using (List.mem_filter.mp hmem).2⟩
  refine ⟨?_, ?_, encodeSegment_idem part⟩
  · intro c hc
    rcases (mem_encodeSegment hc).2 with hold | ⟨hslash, -⟩
    · exact (hin hold).1
    · exact isSlash_of_special hslash
  · intro c hc
    rcases (mem_encodeSegment hc).2 with hold | ⟨-, htab⟩
    · exact (hin hold).2
    · exact htab

theorem NormalSegment.nil {special : Bool} : NormalSegment special [] where
  noSlash _ hc := absurd hc List.not_mem_nil
  noTab _ hc := absurd hc List.not_mem_nil
  encoded := rfl
  notSingle := by decide
  notDouble := by decide

theorem pushSegment_normal {special last : Bool} {path : List Segment} {seg : Segment}
    (hpath : ∀ s ∈ path, NormalSegment special s) (hseg : PlainSegment special seg) :
    ∀ s ∈ pushSegment path seg last, NormalSegment special s := by
  have hslash : ∀ s ∈ (if last then [[]] else [] : List Segment), NormalSegment special s := by
    intro s hs
    cases last with
    | true =>
        rw [List.mem_singleton.mp hs]
        exact NormalSegment.nil
    | false => exact absurd hs List.not_mem_nil
  intro s hs
  unfold pushSegment at hs
  split at hs
  · rcases List.mem_append.mp hs with hold | hnew
    · exact hpath s (List.dropLast_subset _ hold)
    · exact hslash s hnew
  · rename_i hdouble
    split at hs
    · rcases List.mem_append.mp hs with hold | hnew
      · exact hpath s hold
      · exact hslash s hnew
    · rename_i hsingle
      rcases List.mem_append.mp hs with hold | hnew
      · exact hpath s hold
      · rw [List.mem_singleton.mp hnew]
        exact ⟨hseg, by simpa using hsingle, by simpa using hdouble⟩

theorem pushSegments_normal {special : Bool} {path segs : List Segment}
    (hpath : ∀ s ∈ path, NormalSegment special s) (hsegs : ∀ s ∈ segs, PlainSegment special s) :
    ∀ s ∈ pushSegments path segs, NormalSegment special s := by
  induction segs generalizing path with
  | nil => exact hpath
  | cons seg rest ih =>
      obtain ⟨hseg, hrest⟩ := List.forall_mem_cons.mp hsegs
      exact ih (pushSegment_normal hpath hseg) hrest

/-- What a text is parsed to. -/
def UrlPath.parse (special : Bool) (text : List Char) : UrlPath special where
  segments := parsePath special text
  normal := pushSegments_normal (fun _ hs => absurd hs List.not_mem_nil) pathSegments_plain

/-! ## Up and down -/

/-- Where segments lead from a directory nothing is known of: so many levels
up, then down these names. -/
def relativeFrom (up : Nat) (names : List Segment) : List Segment → Nat × List Segment
  | [] => (up, names)
  | seg :: rest =>
    relativeFrom (if isDoubleDot seg ∧ names = [] then up + 1 else up)
      (pushSegment names seg rest.isEmpty) rest

def relative (segs : List Segment) : Nat × List Segment :=
  relativeFrom 0 [] segs

/-- **From a directory**, that many of its segments are dropped and the names
added. -/
theorem pushSegments_relative {dir names segs : List Segment} {up : Nat} :
    pushSegments (dir.take (dir.length - up) ++ names) segs =
      dir.take (dir.length - (relativeFrom up names segs).1) ++ (relativeFrom up names segs).2 := by
  induction segs generalizing up names with
  | nil => rfl
  | cons seg rest ih =>
      rw [pushSegments, relativeFrom, ← ih]
      congr 1
      unfold pushSegment
      by_cases hdouble : isDoubleDot seg = true
      · simp only [hdouble, if_true, true_and]
        by_cases hnames : names = []
        · subst hnames
          have hup : (dir.take (dir.length - up)).dropLast =
              dir.take (dir.length - (up + 1)) := by
            rw [List.dropLast_eq_take, List.take_take, List.length_take]
            congr 1
            omega
          rw [if_pos rfl, List.append_nil, List.dropLast_nil, List.nil_append, hup]
        · rw [if_neg hnames, List.dropLast_append_of_ne_nil hnames, List.append_assoc]
      · simp only [hdouble, Bool.false_eq_true, if_false, false_and]
        split
        · rw [List.append_assoc]
        · rw [List.append_assoc]

/-- A directory is a prefix of where segments lead from it exactly when they
come down again by the names they went up from. -/
theorem prefix_pushSegments_iff {dir segs : List Segment} :
    dir <+: pushSegments dir segs ↔
      dir.drop (dir.length - (relative segs).1) <+: (relative segs).2 := by
  have hfrom := @pushSegments_relative dir [] segs 0
  rw [Nat.sub_zero, List.take_length, List.append_nil] at hfrom
  rw [hfrom]
  change dir <+: dir.take (dir.length - (relative segs).1) ++ (relative segs).2 ↔ _
  have hdown : dir.take (dir.length - (relative segs).1) ++ dir.drop (dir.length - (relative segs).1)
      <+: dir.take (dir.length - (relative segs).1) ++ (relative segs).2 ↔ _ :=
    List.prefix_append_right_inj _
  rw [List.take_append_drop] at hdown
  exact hdown

theorem pushSegments_of_normal {path segs : List Segment}
    (h : ∀ seg ∈ segs, isSingleDot seg = false ∧ isDoubleDot seg = false) :
    pushSegments path segs = path ++ segs := by
  induction segs generalizing path with
  | nil => exact (List.append_nil path).symm
  | cons seg rest ih =>
      obtain ⟨⟨hsingle, hdouble⟩, hrest⟩ := List.forall_mem_cons.mp h
      rw [pushSegments, ih hrest, pushSegment, hsingle, hdouble]
      simp

theorem pushSegments_append {path segs more : List Segment}
    (h : ∀ seg ∈ segs, isSingleDot seg = false ∧ isDoubleDot seg = false) :
    pushSegments path (segs ++ more) = pushSegments (path ++ segs) more := by
  induction segs generalizing path with
  | nil => simp
  | cons seg rest ih =>
      obtain ⟨⟨hsingle, hdouble⟩, hrest⟩ := List.forall_mem_cons.mp h
      rw [List.cons_append, pushSegments, ih hrest, pushSegment, hsingle, hdouble]
      simp

/-! ## Texts of segments -/

theorem pathSegments_append_slash {special : Bool} (front rest : List Char) :
    pathSegments special (front ++ '/' :: rest) =
      pathSegments special front ++ pathSegments special rest := by
  have hslash : isSlash special '/' = true := rfl
  have htab : (!isTabOrNewline '/') = true := by decide
  rw [pathSegments, List.filter_append, List.filter_cons, if_pos htab,
    List.splitOnP_append_cons _ _ hslash, List.map_append]
  rfl

theorem pathSegments_of_plain {special : Bool} {seg : Segment} (h : PlainSegment special seg) :
    pathSegments special seg = [seg] := by
  have hfilter : (seg.filter fun c => !isTabOrNewline c) = seg := by
    rw [List.filter_eq_self]
    intro c hc
    rw [h.noTab c hc]
    rfl
  rw [pathSegments, hfilter, List.splitOnP_eq_singleton h.noSlash, List.map_singleton, h.encoded]

/-- A text of segments and a rest has those segments, and the rest's. -/
theorem pathSegments_serialize {special : Bool} {path : List Segment} {rest : List Char}
    (h : ∀ seg ∈ path, PlainSegment special seg) :
    pathSegments special ((serializePath path ++ '/' :: rest).drop 1) =
      path ++ pathSegments special rest := by
  induction path with
  | nil => rfl
  | cons seg path ih =>
      obtain ⟨hseg, hpath⟩ := List.forall_mem_cons.mp h
      have hnext : (serializePath (seg :: path) ++ '/' :: rest).drop 1 =
          seg ++ '/' :: (serializePath path ++ '/' :: rest).drop 1 := by
        cases path <;> simp [serializePath]
      rw [hnext, pathSegments_append_slash, pathSegments_of_plain hseg, ih hpath]
      rfl

/-- **Parsing under a directory** starts from it. -/
theorem parsePath_serialize {special : Bool} {path : List Segment} {rest : List Char}
    (h : ∀ seg ∈ path, NormalSegment special seg) :
    parsePath special (serializePath path ++ '/' :: rest) =
      pushSegments path (pathSegments special rest) := by
  rw [parsePath, pathSegments_serialize fun seg hseg => (h seg hseg).toPlainSegment,
    pushSegments_append fun seg hseg => ⟨(h seg hseg).notSingle, (h seg hseg).notDouble⟩,
    List.nil_append]

end Aperio
