import Aperio.Gate

/-!
# What a share link opens

A share link is for a hostname and perhaps a path of it, and it is asked
about the path as it was sent (`share_claims_cover`). A backend serves that
path with its escapes decoded and its dot segments resolved, reading a
backslash as a slash if it likes.

`cover_sound` says that these two do not come apart: a path that is covered
has no dot segment, sent or decoded, and decoding leaves the claimed prefix
as it is, since a normalized bind has no percent sign in it.
-/

namespace Aperio

/-! ## The path a backend serves -/

def isPathSeparator (c : Char) : Bool :=
  c == '/' || c == '\\'

/-- A path cut before each of its separators. -/
def pathPieces : List Char → List (List Char)
  | [] => [[]]
  | c :: cs =>
    if isPathSeparator c then [] :: (pathPieces cs).modifyHead (c :: ·)
    else (pathPieces cs).modifyHead (c :: ·)

/-- The segment of a piece, without the separator before it. -/
def pieceSegment : List Char → List Char
  | [] => []
  | c :: cs => if isPathSeparator c then cs else c :: cs

/-- One piece after those that are kept: `.` adds nothing, `..` takes the
last one back. -/
def resolvePiece (kept : List (List Char)) (piece : List Char) : List (List Char) :=
  if pieceSegment piece = ['.'] then kept
  else if pieceSegment piece = ['.', '.'] then kept.dropLast
  else kept ++ [piece]

/-- A path without its `.` and `..` segments. -/
def removeDotSegments (path : String) : String :=
  String.ofList ((pathPieces path.toList).foldl resolvePiece []).flatten

example : removeDotSegments "/public/./a\\..\\b" = "/public\\b" := by decide

/-- What a backend makes of a request path. -/
def servedPath (path : String) : String :=
  removeDotSegments (percentDecodeOnce path)

/-! ## Without dot segments -/

theorem pathPieces_ne_nil (cs : List Char) : pathPieces cs ≠ [] := by
  cases cs with
  | nil => exact List.cons_ne_nil _ _
  | cons c cs =>
      obtain ⟨p, ps, hp⟩ := List.exists_cons_of_ne_nil (pathPieces_ne_nil cs)
      rw [pathPieces, hp]
      split
      · exact List.cons_ne_nil _ _
      · exact List.cons_ne_nil _ _

theorem flatten_pathPieces (cs : List Char) : (pathPieces cs).flatten = cs := by
  induction cs with
  | nil => rfl
  | cons c cs ih =>
      obtain ⟨p, ps, hp⟩ := List.exists_cons_of_ne_nil (pathPieces_ne_nil cs)
      rw [hp] at ih
      rw [pathPieces, hp]
      split
      · simpa using ih
      · simpa using ih

/-- The pieces hold the segments the traversal check looks at. -/
theorem map_pieceSegment (cs : List Char) :
    (pathPieces cs).tail.map pieceSegment = (cs.splitOnP isPathSeparator).tail ∧
      (pathPieces cs).head? = (cs.splitOnP isPathSeparator).head? := by
  induction cs with
  | nil => simp [pathPieces]
  | cons c cs ih =>
      obtain ⟨p, ps, hp⟩ := List.exists_cons_of_ne_nil (pathPieces_ne_nil cs)
      obtain ⟨q, qs, hq⟩ := List.exists_cons_of_ne_nil (List.splitOnP_ne_nil isPathSeparator cs)
      rw [hp, hq] at ih
      obtain ⟨htail, hhead⟩ := ih
      obtain rfl : p = q := by simpa using hhead
      rw [pathPieces, List.splitOnP_cons_eq_if_modifyHead, hp, hq]
      by_cases hc : isPathSeparator c = true
      · simpa [hc, pieceSegment] using htail
      · simpa [hc, pieceSegment] using htail

theorem pieceSegment_mem {cs piece : List Char} (h : piece ∈ pathPieces cs) :
    pieceSegment piece ∈ cs.splitOnP isPathSeparator := by
  obtain ⟨p, ps, hp⟩ := List.exists_cons_of_ne_nil (pathPieces_ne_nil cs)
  obtain ⟨q, qs, hq⟩ := List.exists_cons_of_ne_nil (List.splitOnP_ne_nil isPathSeparator cs)
  obtain ⟨htail, hhead⟩ := map_pieceSegment cs
  rw [hp] at h htail hhead
  rw [hq] at htail hhead ⊢
  rcases List.mem_cons.mp h with rfl | hmem
  · -- the first piece has no separator before it
    obtain rfl : piece = q := by simpa using hhead
    cases piece with
    | nil => exact List.mem_cons_self
    | cons c cs' =>
        have hsep : isPathSeparator c = false :=
          (mem_of_mem_splitOnP (hq ▸ List.mem_cons_self) List.mem_cons_self).2
        simp [pieceSegment, hsep]
  · refine List.mem_cons_of_mem _ ?_
    rw [← @List.tail_cons _ q qs, ← htail]
    exact List.mem_map_of_mem hmem

theorem foldl_resolvePiece {pieces kept : List (List Char)}
    (h : ∀ p ∈ pieces, pieceSegment p ≠ ['.'] ∧ pieceSegment p ≠ ['.', '.']) :
    pieces.foldl resolvePiece kept = kept ++ pieces := by
  induction pieces generalizing kept with
  | nil => simp
  | cons p ps ih =>
      obtain ⟨hone, htwo⟩ := h p List.mem_cons_self
      rw [List.foldl_cons, ih fun q hq => h q (List.mem_cons_of_mem _ hq), resolvePiece,
        if_neg hone, if_neg htwo, List.append_assoc, List.singleton_append]

/-- Where there is no dot segment, nothing is removed. -/
theorem removeDotSegments_eq {path : String} (h : hasDotSegment path = false) :
    removeDotSegments path = path := by
  have hnone : ∀ p ∈ pathPieces path.toList,
      pieceSegment p ≠ ['.'] ∧ pieceSegment p ≠ ['.', '.'] := by
    intro p hp
    have hmem : String.ofList (pieceSegment p) ∈ splitBy isPathSeparator path :=
      List.mem_map_of_mem (pieceSegment_mem hp)
    have hno := List.any_eq_false.mp h _ hmem
    simp only [Bool.or_eq_true, beq_iff_eq, not_or] at hno
    refine ⟨fun hdot => hno.2 ?_, fun hdots => hno.1 ?_⟩
    · rw [hdot]
    · rw [hdots]
  rw [removeDotSegments, foldl_resolvePiece hnone, List.nil_append, flatten_pathPieces,
    String.ofList_toList]

/-! ## Decoding a prefix without escapes -/

theorem percentDecodeBytes_cons {b : UInt8} (hb : b ≠ 0x25) (bs : Bytes) :
    percentDecodeBytes (b :: bs) = b :: percentDecodeBytes bs := by
  match bs with
  | [] => rfl
  | [_] => rfl
  | _ :: _ :: _ => rw [percentDecodeBytes, if_neg hb]

theorem fromUtf8Lossy_cons {b : UInt8} (hb : b < 0x80) (bs : Bytes) :
    (fromUtf8Lossy (b :: bs)).toList = Char.ofNat b.toNat :: (fromUtf8Lossy bs).toList := by
  simp only [fromUtf8Lossy, String.toList_ofList, List.length_cons, utf8LossyLoop, utf8Head, hb,
    if_true]

/-- A plain character is its own one byte. -/
theorem percentDecodeOnce_cons {c : Char} (hascii : c.toNat < 0x80) (hc : c ≠ '%')
    (cs : List Char) :
    (percentDecodeOnce (String.ofList (c :: cs))).toList =
      c :: (percentDecodeOnce (String.ofList cs)).toList := by
  have hbyte : String.utf8EncodeChar c = [UInt8.ofNat c.toNat] := by
    have hle : c.val.toNat ≤ 127 := Nat.le_of_lt_succ hascii
    simp only [String.utf8EncodeChar, hle, if_true]
    rfl
  have hsmall : UInt8.ofNat c.toNat < 0x80 := by
    rw [UInt8.lt_iff_toNat_lt, UInt8.toNat_ofNat']
    exact (Nat.mod_le _ _).trans_lt hascii
  have hback : Char.ofNat (UInt8.ofNat c.toNat).toNat = c := by
    rw [UInt8.toNat_ofNat', Nat.mod_eq_of_lt (by omega), Char.ofNat_toNat]
  have hplain : UInt8.ofNat c.toNat ≠ 0x25 := by
    intro heq
    rw [heq] at hback
    exact hc hback.symm
  have hbytes : utf8Bytes (String.ofList (c :: cs)) =
      UInt8.ofNat c.toNat :: utf8Bytes (String.ofList cs) := by
    simp only [utf8Bytes, String.toList_ofList, List.flatMap_cons, hbyte, List.singleton_append]
  rw [percentDecodeOnce, hbytes, percentDecodeBytes_cons hplain, fromUtf8Lossy_cons hsmall, hback,
    percentDecodeOnce]

theorem percentDecodeOnce_append {p : String}
    (hp : ∀ c ∈ p.toList, c.toNat < 0x80 ∧ c ≠ '%') (s : String) :
    (percentDecodeOnce (p ++ s)).toList = p.toList ++ (percentDecodeOnce s).toList := by
  have hlist : ∀ cs : List Char, (∀ c ∈ cs, c.toNat < 0x80 ∧ c ≠ '%') →
      (percentDecodeOnce (String.ofList (cs ++ s.toList))).toList =
        cs ++ (percentDecodeOnce s).toList := by
    intro cs hcs
    induction cs with
    | nil => rw [List.nil_append, List.nil_append, String.ofList_toList]
    | cons c cs ih =>
        obtain ⟨hascii, hc⟩ := hcs c List.mem_cons_self
        rw [List.cons_append, percentDecodeOnce_cons hascii hc,
          ih fun x hx => hcs x (List.mem_cons_of_mem _ hx), List.cons_append]
  rw [← hlist p.toList hp, ← String.toList_append, String.ofList_toList]

/-! ## The scope -/

theorem isPathBindChar_plain {c : Char} (h : isPathBindChar c = true ∨ c = '/') :
    c.toNat < 0x80 ∧ c ≠ '%' := by
  have hrange : ∀ {a b : Char}, a ≤ c → c ≤ b → b.toNat < 0x80 → '%'.toNat < a.toNat →
      c.toNat < 0x80 ∧ c ≠ '%' := by
    intro a b hac hcb hb ha
    refine ⟨lt_of_le_of_lt hcb hb, ?_⟩
    rintro rfl
    exact absurd hac (Nat.not_le_of_gt ha)
  simp only [isPathBindChar, isAsciiAlphanumeric, isAsciiDigit, Bool.or_eq_true, Bool.and_eq_true,
    decide_eq_true_eq, beq_iff_eq] at h
  rcases h with ((((((⟨ha, hb⟩ | ⟨ha, hb⟩) | ⟨ha, hb⟩) | rfl) | rfl) | rfl) | rfl) | rfl
  · exact hrange ha hb (by decide) (by decide)
  · exact hrange ha hb (by decide) (by decide)
  · exact hrange ha hb (by decide) (by decide)
  all_goals decide

theorem normalizePathBind_chars {raw p : String} (h : normalizePathBind raw = some p) :
    ∀ c ∈ p.toList, isPathBindChar c = true ∨ c = '/' := by
  simp only [normalizePathBind] at h
  split at h
  · cases h
  · split at h
    · cases h
    · split at h
      · rename_i hall
        have htrimmed : ∀ c ∈ (trimEndMatches (trim raw) '/').toList,
            isPathBindChar c = true ∨ c = '/' := by
          intro c hc
          by_cases hslash : c = '/'
          · exact Or.inr hslash
          · obtain ⟨part, hpart, hin⟩ := exists_mem_splitOnP (p := (· == '/')) hc (by simpa using hslash)
            have hok := List.all_eq_true.mp hall _ (List.mem_map_of_mem hpart)
            simp only [pathBindSegmentOk, Bool.or_eq_true, Bool.and_eq_true, beq_iff_eq] at hok
            rcases hok with hempty | ⟨-, hchars⟩
            · rw [String.ofList_eq_empty_iff] at hempty
              rw [hempty] at hin
              cases hin
            · rw [String.toList_ofList] at hchars
              exact Or.inl (List.all_eq_true.mp hchars c hin)
        obtain rfl := Option.some.inj h
        intro c hc
        split at hc
        · exact htrimmed c hc
        · rw [String.toList_append] at hc
          rcases List.mem_append.mp hc with hslash | hin
          · exact Or.inr (List.mem_singleton.mp hslash)
          · exact htrimmed c hin
      · cases h

/-- **A share link opens what it was made for.** Whatever path is covered,
what is served for it is the claimed path or lies under it. -/
theorem cover_sound {claims : ShareClaims} {host : Option String} {path : String}
    (hclaims : ∀ p ∈ claims.path, ∃ raw, normalizePathBind raw = some p)
    (h : claims.cover host path = true) :
    host = some claims.host ∧ ∀ p ∈ claims.path, servedPath path = p ∨
      ∃ c, isPathSeparator c = true ∧ startsWith (servedPath path) (p.push c) = true := by
  simp only [ShareClaims.cover, Bool.and_eq_true, Bool.not_eq_true', beq_iff_eq] at h
  obtain ⟨⟨htraversal, hhost⟩, hpath⟩ := h
  refine ⟨hhost, ?_⟩
  intro p hp
  obtain ⟨raw, hraw⟩ := hclaims p hp
  have hplain : ∀ c ∈ p.toList, c.toNat < 0x80 ∧ c ≠ '%' :=
    fun c hc => isPathBindChar_plain (normalizePathBind_chars hraw c hc)
  have hdots : hasDotSegment (percentDecodeOnce path) = false := by
    rw [requestPathHasTraversal, Bool.or_eq_false_iff] at htraversal
    exact htraversal.2
  rw [servedPath, removeDotSegments_eq hdots]
  have hunder : pathMatchesBind path p = true := by
    rw [Option.mem_def.mp hp] at hpath
    exact hpath
  simp only [pathMatchesBind, Bool.or_eq_true, beq_iff_eq] at hunder
  rcases hunder with rfl | hstart
  · left
    have hdecoded := percentDecodeOnce_append hplain ""
    rw [String.append_empty] at hdecoded
    rw [← String.toList_inj, hdecoded]
    simp [percentDecodeOnce, fromUtf8Lossy, utf8Bytes, percentDecodeBytes, utf8LossyLoop]
  · refine Or.inr ⟨'/', rfl, ?_⟩
    obtain ⟨rest, hrest⟩ := startsWith_iff.mp hstart
    have hpath : path = (p ++ "/") ++ String.ofList rest := by
      rw [← String.toList_inj, String.toList_append, String.toList_ofList, hrest]
    have hslash : ∀ c ∈ (p ++ "/").toList, c.toNat < 0x80 ∧ c ≠ '%' := by
      intro c hc
      rw [String.toList_append] at hc
      rcases List.mem_append.mp hc with hin | hlast
      · exact hplain c hin
      · exact isPathBindChar_plain (Or.inr (List.mem_singleton.mp hlast))
    rw [startsWith_iff, hpath, percentDecodeOnce_append hslash, String.toList_append,
      String.toList_push]
    exact List.prefix_append _ _

/-- A page under a shared path. -/
theorem cover_sound_docs :
    servedPath "/docs/a%20b" = "/docs/a b" ∧
      (servedPath "/docs/a%20b" = "/docs" ∨
        ∃ c, isPathSeparator c = true ∧
          startsWith (servedPath "/docs/a%20b") ("/docs".push c) = true) := by
  have hclaims : ∀ p ∈ (some "/docs"), ∃ raw, normalizePathBind raw = some p := by
    rintro p ⟨⟩
    exact ⟨"/docs", by decide⟩
  have hcover : (ShareClaims.mk "app.test" (some "/docs")).cover (some "app.test")
      "/docs/a%20b" = true := by decide
  exact ⟨by decide, (cover_sound hclaims hcover).2 "/docs" rfl⟩

end Aperio
