import Aperio.Text

/-!
# What a service binds on

Path binds and their segment boundaries, hostname binds, and the traversal
check that decides a request path cannot be trusted to mean what it looks
like (`routing/binds.rs`), with the hostname patterns of an organization's
allowlist (`store/orgs.rs`).
-/

namespace Aperio

/-! ## Path binds -/

def maxPathBindLen : Nat := 256

/-- The characters a segment of a path bind may hold. -/
def isPathBindChar (c : Char) : Bool :=
  isAsciiAlphanumeric c || c == '-' || c == '_' || c == '.' || c == '~'

def pathBindSegmentOk (segment : String) : Bool :=
  segment == "" ||
    (segment != ".." && segment != "." && segment.toList.all isPathBindChar)

/-- Normalizes a path bind: it starts with `/` and has no trailing slash.
`none` for the root and for values that fail validation. -/
def normalizePathBind (bind : String) : Option String :=
  let trimmed := trimEndMatches (trim bind) '/'
  if trimmed = "" ∨ trimmed = "/" then none
  else if maxPathBindLen < trimmed.utf8ByteSize then none
  else if (split trimmed '/').all pathBindSegmentOk then
    some (if startsWith trimmed "/" then trimmed else "/" ++ trimmed)
  else none

/-- A normalized bind is the text it was trimmed to, perhaps with a slash
put before it; that text is never empty and never the root alone. -/
theorem normalizePathBind_eq_some {raw p : String} (h : normalizePathBind raw = some p) :
    ∃ t, t ≠ "" ∧ t ≠ "/" ∧ (p = t ∨ p = "/" ++ t) := by
  simp only [normalizePathBind] at h
  split at h
  · cases h
  · rename_i hne
    rw [not_or] at hne
    split at h
    · cases h
    · split at h
      · simp only [Option.some.injEq] at h
        refine ⟨_, hne.1, hne.2, ?_⟩
        rw [← h]
        split
        · exact Or.inl rfl
        · exact Or.inr rfl
      · cases h

/-- Whether `uriPath` falls under `bind` on a segment boundary. -/
def pathMatchesBind (uriPath bind : String) : Bool :=
  uriPath == bind || startsWith uriPath (bind ++ "/")

/-- What falls under `b` falls under everything `b` falls under. -/
theorem pathMatchesBind_trans {p b c : String} (hpb : pathMatchesBind p b = true)
    (hbc : pathMatchesBind b c = true) : pathMatchesBind p c = true := by
  simp only [pathMatchesBind, Bool.or_eq_true, beq_iff_eq] at *
  rcases hpb with rfl | hpb
  · exact hbc
  · rcases hbc with rfl | hbc
    · exact Or.inr hpb
    · refine Or.inr (startsWith_trans hpb ?_)
      exact startsWith_trans (startsWith_append b "/") hbc

/-- The root path falls under no normalized bind. -/
theorem root_not_under {raw p : String} (h : normalizePathBind raw = some p) :
    pathMatchesBind "/" p = false := by
  obtain ⟨t, ht, ht', hp⟩ := normalizePathBind_eq_some h
  have hlen : 0 < t.toList.length := by
    rw [List.length_pos_iff]
    simpa using ht
  simp only [pathMatchesBind, Bool.or_eq_false_iff, beq_eq_false_iff_ne]
  constructor
  · rintro rfl
    rcases hp with hp | hp
    · exact ht' hp.symm
    · have := congrArg (fun s => s.toList.length) hp
      simp only [String.toList_append, List.length_append] at this
      have h1 : "/".toList.length = 1 := by decide
      omega
  · rw [Bool.eq_false_iff, ne_eq, startsWith_iff]
    intro hpre
    have hle := hpre.length_le
    have h1 : "/".toList.length = 1 := by decide
    rcases hp with rfl | rfl <;> simp only [String.toList_append, List.length_append] at hle <;>
      omega

/-! ## Traversal -/

/-- The one decode a backend performs: `%XX` becomes its byte, everything
else stays. A `%` among the last two bytes is never read as an escape. -/
def percentDecodeBytes : List UInt8 → List UInt8
  | [] => []
  | b :: h :: l :: rest =>
    if b = 0x25 then
      match hexDigit h, hexDigit l with
      | some hi, some lo => UInt8.ofNat (hi * 16 + lo) :: percentDecodeBytes rest
      | _, _ => b :: percentDecodeBytes (h :: l :: rest)
    else b :: percentDecodeBytes (h :: l :: rest)
  | b :: rest => b :: percentDecodeBytes rest

def percentDecodeOnce (s : String) : String :=
  fromUtf8Lossy (percentDecodeBytes (utf8Bytes s))

/-- Whether a candidate path has a `.` or `..` segment, with `/` and `\`
both read as separators. -/
def hasDotSegment (path : String) : Bool :=
  (splitBy (fun c => c == '/' || c == '\\') path).any fun seg => seg == ".." || seg == "."

/-- Whether a request path has a traversal segment, literally or behind one
level of percent-encoding. -/
def requestPathHasTraversal (path : String) : Bool :=
  hasDotSegment path || hasDotSegment (percentDecodeOnce path)

example : requestPathHasTraversal "/public/%2e%2e/admin" = true := by decide

example : requestPathHasTraversal "/%61dmin" = false ∧
    percentDecodeOnce "/%61dmin" = "/admin" := by decide

/-! ## Hostname binds -/

def maxHostnameLen : Nat := 253

def hostnameLabelOk (label : String) : Bool :=
  label != "" && label.toList.all fun c => isAsciiAlphanumeric c || c == '-'

/-- Normalizes a hostname bind: lowercase, no surrounding space, no trailing
dot, no port. -/
def normalizeHostnameBind (host : String) : Option String :=
  let trimmed := toAsciiLowercase (trimEndMatches (trim host) '.')
  let withoutPort :=
    match splitOnce trimmed ':' with
    | some (h, port) => if h != "" && port.toList.all isAsciiDigit then h else trimmed
    | none => trimmed
  if withoutPort = "" ∨ maxHostnameLen < withoutPort.utf8ByteSize then none
  else if (split withoutPort '.').all hostnameLabelOk then some withoutPort
  else none

/-! ## Hostname patterns -/

def lowerByte (b : UInt8) : UInt8 :=
  if 0x41 ≤ b ∧ b ≤ 0x5A then b + 0x20 else b

/-- `<[u8]>::eq_ignore_ascii_case`. -/
def bytesEqIgnoreCase (a b : List UInt8) : Bool :=
  a.map lowerByte == b.map lowerByte

/-- Whether one allowlist pattern covers `host`: `*`, a subdomain wildcard
`*.acme.com` (never the apex), a partial leftmost label `dev-*.acme.com`
(one label), or an exact hostname. Compared as bytes, without case. -/
def patternMatchesHost (pattern host : String) : Bool :=
  if pattern = "*" then true
  else
    let host := utf8Bytes (trimEndMatches host '.')
    match stripPrefix pattern "*." with
    | some suffix =>
      let suffix := utf8Bytes suffix
      let n := host.length
      let m := suffix.length
      m + 1 < n && host[n - m - 1]? == some 0x2E &&
        bytesEqIgnoreCase (host.drop (n - m)) suffix
    | none =>
      match splitOnce pattern '*' with
      | some (patHead, patTail) =>
        let label := host.takeWhile (· != 0x2E)
        let rest := host.dropWhile (· != 0x2E)
        match rest, splitOnce patTail '.' with
        | _ :: rest', some (patLabelTail, patRest) =>
          let patHead := utf8Bytes patHead
          let patLabelTail := utf8Bytes patLabelTail
          patHead.length + patLabelTail.length < label.length &&
            bytesEqIgnoreCase (label.take patHead.length) patHead &&
            bytesEqIgnoreCase (label.drop (label.length - patLabelTail.length)) patLabelTail &&
            bytesEqIgnoreCase rest' (utf8Bytes patRest)
        | _, _ => false
      | none => bytesEqIgnoreCase host (utf8Bytes pattern)

/-- Whether `host` is covered by an organization's allowlist. An empty list
is unrestricted. -/
def hostnameInOrgAllowlist (host : String) (patterns : List String) : Bool :=
  patterns.isEmpty || patterns.any (patternMatchesHost · host)

example : patternMatchesHost "*.acme.com" "eu.acme.com" = true ∧
    patternMatchesHost "*.acme.com" "acme.com" = false ∧
    patternMatchesHost "dev-*.acme.com" "DEV-1.acme.com" = true := by decide

end Aperio
