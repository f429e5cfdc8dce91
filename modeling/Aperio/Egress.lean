import Aperio.TunnelNames

/-!
# The proxy in front of a binary

`EgressProxy` of `aperio_config::egress`: a proxy's value is cut at `://`, at
its last slash, at the last `@` and at colons, and everything that is printed
of it is put together from the pieces. `ProxyFrame` is a value with its
password left open, read the way it is written: a scheme and a user name have
no colon, a host has no `@`, and what starts with `://` after the first colon
has a scheme.

`parse_value` follows one value through the cuts. Whether two passwords are
told apart by what is printed is then a question about where the texts are
cut (`printed_eq_iff`).
-/

namespace Aperio

/-! ## The value -/

/-- `str::split_once` with a text, over characters. -/
def cutAt (sep : List Char) : List Char → Option (List Char × List Char)
  | [] => none
  | c :: cs =>
    if sep.isPrefixOf (c :: cs) then some ([], (c :: cs).drop sep.length)
    else (cutAt sep cs).map fun (before, after) => (c :: before, after)

def splitOnceText (s sep : String) : Option (String × String) :=
  (cutAt sep.toList s.toList).map fun (before, after) => (String.ofList before, String.ofList after)

structure EgressProxy where
  host : String
  port : Nat
  credentials : Option (String × String)
  redacted : String
deriving Repr, DecidableEq

namespace EgressProxy

/-- `fmt::Debug`, written by hand. -/
def debug (e : EgressProxy) : String :=
  "EgressProxy(" ++ e.redacted ++ ")"

/-- The proxy as a URL. Colons without a bracket mean an IPv6 literal. -/
def url (e : EgressProxy) : String :=
  if e.host.toList.contains ':' then "http://[" ++ e.host ++ "]:" ++ toString e.port
  else "http://" ++ e.host ++ ":" ++ toString e.port

end EgressProxy

def parsePort (raw whole : String) : Except String Nat :=
  match parseU16 raw with
  | some port => .ok port
  | none => .error ("egress proxy '" ++ whole ++ "' has no usable port")

/-- Splits `host:port`, including the `[v6]:port` form. No port at all is the
scheme's default. -/
def splitHostPort (raw : String) : Except String (String × Nat) :=
  match stripPrefix raw "[" with
  | some rest =>
    match splitOnce rest ']' with
    | none => .error ("egress proxy '" ++ raw ++ "' opens a bracket it never closes")
    | some (addr, tail) =>
      match stripPrefix tail ":" with
      | none => .error ("egress proxy '" ++ raw ++ "' needs a port after the address")
      | some port => (parsePort port raw).map fun port => (addr, port)
  | none =>
    match rsplitOnce raw ':' with
    | some (host, port) =>
      if host = "" then .error ("egress proxy '" ++ raw ++ "' names a port but no host")
      else (parsePort port raw).map fun port => (host, port)
    | none => .ok (raw, 80)

/-- Hides a credential in a value that failed to parse. -/
def redactRaw (raw : String) : String :=
  match rsplitOnce raw '@' with
  | some (_, tail) => "***@" ++ tail
  | none => raw

/-- What follows the scheme. A path would be dropped silently, and a `@` with
nothing in front of it is no credential. -/
def EgressProxy.parseRest (raw rest : String) : Except String EgressProxy :=
  let rest := trimEndMatches rest '/'
  if rest.toList.contains '/' then
    .error ("egress proxy '" ++ redactRaw raw ++ "' has a path; a proxy is a host and a port")
  else
    let (credential, hostport) :=
      match rsplitOnce rest '@' with
      | some (credential, hostport) => (some credential, hostport)
      | none => (none, rest)
    if hostport = "" then .error "egress proxy names no host"
    else
      match splitHostPort hostport with
      | .error e => .error e
      | .ok (host, port) =>
        if credential = some "" then
          .error ("egress proxy '" ++ redactRaw raw ++
            "' has a '@' with no credential in front of it")
        else
          .ok { redacted := host ++ ":" ++ toString port, host, port,
                credentials := credential.map fun c => (splitOnce c ':').getD (c, "") }

/-- Parses `[scheme://][user:password@]host[:port]`. -/
def EgressProxy.parse (raw : String) : Except String EgressProxy :=
  let raw := trim raw
  if raw = "" then .error "egress proxy is empty"
  else
    let (scheme, rest) :=
      match splitOnceText raw "://" with
      | some (scheme, rest) => (toAsciiLowercase scheme, rest)
      | none => ("http", raw)
    if scheme = "http" then parseRest raw rest
    else if scheme = "https" then
      .error ("the egress proxy is an https:// proxy, which is TLS to the proxy itself and " ++
        "not supported. Use the http:// form; what travels inside it is still TLS end to end.")
    else
      .error ("egress proxy scheme '" ++ scheme ++
        "' is not supported (write http:// or host:port)")

/-- Everything a value makes available for printing. -/
def EgressProxy.printed (raw : String) : Except String (String × String × String) :=
  (parse raw).map fun e => (e.redacted, e.debug, e.url)

/-! ## A value with its password left open -/

structure ProxyFrame where
  scheme : Option String
  user : String
  hostport : String
  scheme_plain : ∀ s ∈ scheme, ':' ∉ s.toList
  user_plain : ':' ∉ user.toList
  host_plain : '@' ∉ hostport.toList

namespace ProxyFrame

/-- A password that leaves the value without a scheme where none is written. -/
def Reads (f : ProxyFrame) (password : String) : Prop :=
  f.scheme = none → startsWith password "//" = false

def value (f : ProxyFrame) (password : String) : String :=
  (f.scheme.map (· ++ "://")).getD "" ++ f.user ++ ":" ++ password ++ "@" ++ f.hostport

/-- The user as it is read: in front of the value there is no blank. -/
def userText (f : ProxyFrame) : String :=
  if f.scheme.isSome then f.user else String.ofList (f.user.toList.dropWhile isWhiteSpace)

def hostText (f : ProxyFrame) : String :=
  String.ofList (f.hostport.toList.rdropWhile isWhiteSpace)

/-- The host and port as they are read, without slashes behind them. -/
def hostPlain (f : ProxyFrame) : String :=
  trimEndMatches f.hostText '/'

/-- What stands in front of the value's first `://`, in lower case. -/
def schemeOf (f : ProxyFrame) (password : String) : Option String :=
  match f.scheme with
  | some s => some (toAsciiLowercase (String.ofList (s.toList.dropWhile isWhiteSpace)))
  | none =>
    (splitOnceText (password ++ "@" ++ f.hostText) "://").map fun (before, _) =>
      toAsciiLowercase (f.userText ++ ":" ++ before)

/-- A slash is left in what is read as user, password and host. -/
def Slashed (f : ProxyFrame) (password : String) : Prop :=
  '/' ∈ f.userText.toList ∨ '/' ∈ password.toList ∨ '/' ∈ f.hostPlain.toList

instance (f : ProxyFrame) (password : String) : Decidable (f.Slashed password) :=
  inferInstanceAs (Decidable (_ ∨ _ ∨ _))

/-- The two passwords leave the value with one scheme, and, where that is
`http`, both with a slash or both without. -/
def Alike (f : ProxyFrame) (p q : String) : Prop :=
  f.schemeOf p = f.schemeOf q ∧
    ((f.schemeOf p).getD "http" = "http" → (f.Slashed p ↔ f.Slashed q))

instance (f : ProxyFrame) (p q : String) : Decidable (f.Alike p q) :=
  inferInstanceAs (Decidable (_ ∧ _))

end ProxyFrame

/-! ## Cutting texts -/

theorem dropWhile_append_cons {α : Type} {w : α → Bool} {c : α} (hc : w c = false)
    (a b : List α) : (a ++ c :: b).dropWhile w = a.dropWhile w ++ c :: b := by
  induction a with
  | nil => simp [hc]
  | cons x a ih =>
      rw [List.cons_append, List.dropWhile_cons, List.dropWhile_cons]
      split
      · exact ih
      · rfl

theorem rdropWhile_append_cons {α : Type} {w : α → Bool} {c : α} (hc : w c = false)
    (a b : List α) : (a ++ c :: b).rdropWhile w = a ++ c :: b.rdropWhile w := by
  have hreverse : (a ++ c :: b).reverse = b.reverse ++ c :: a.reverse := by simp
  rw [List.rdropWhile, hreverse, dropWhile_append_cons hc, List.rdropWhile]
  simp

theorem rsplitOnce_of {s k v : String} {c : Char} (hs : s.toList = k.toList ++ c :: v.toList)
    (hv : c ∉ v.toList) : rsplitOnce s c = some (k, v) := by
  have hall : ∀ x ∈ v.toList, (x != c) = true := by
    intro x hx
    rw [bne_iff_ne]
    rintro rfl
    exact hv hx
  have hdrop : s.toList.rdropWhile (· != c) = k.toList ++ [c] := by
    rw [hs, rdropWhile_append_cons (by simp), List.rdropWhile_eq_nil_iff.mpr hall]
  have htake : s.toList.rtakeWhile (· != c) = v.toList := by
    have hreverse : s.toList.reverse = v.toList.reverse ++ c :: k.toList.reverse := by
      rw [hs]
      simp
    rw [List.rtakeWhile, hreverse, List.takeWhile_append_of_pos (by simpa using hall),
      List.takeWhile_cons_of_neg (by simp), List.append_nil, List.reverse_reverse]
  have hmem : c ∈ s.toList := by
    rw [hs]
    simp
  rw [rsplitOnce, if_pos hmem, hdrop, htake, List.dropLast_concat, String.ofList_toList,
    String.ofList_toList]

theorem cutAt_cons {sep : List Char} {c : Char} {cs : List Char}
    (h : sep.isPrefixOf (c :: cs) = false) :
    cutAt sep (c :: cs) = (cutAt sep cs).map fun (before, after) => (c :: before, after) :=
  if_neg (Bool.eq_false_iff.mp h)

/-- Nothing is cut before the first colon. -/
theorem cutAt_append {a b : List Char} (ha : ':' ∉ a) :
    cutAt [':', '/', '/'] (a ++ b) =
      (cutAt [':', '/', '/'] b).map fun (before, after) => (a ++ before, after) := by
  induction a with
  | nil => simp
  | cons c a ih =>
      have hc : ':' ≠ c := fun h => ha (h ▸ List.mem_cons_self)
      rw [List.cons_append, cutAt_cons (by simp [List.isPrefixOf, hc]),
        ih fun h => ha (List.mem_cons_of_mem c h), Option.map_map]
      rfl

theorem cutAt_scheme {a b : List Char} (ha : ':' ∉ a) :
    cutAt [':', '/', '/'] (a ++ ':' :: '/' :: '/' :: b) = some (a, b) := by
  rw [cutAt_append ha]
  simp [cutAt, List.isPrefixOf]

/-- A colon without two slashes behind it is passed over. -/
theorem cutAt_colon {a b : List Char} (ha : ':' ∉ a) (hb : ['/', '/'].isPrefixOf b = false) :
    cutAt [':', '/', '/'] (a ++ ':' :: b) =
      (cutAt [':', '/', '/'] b).map fun (before, after) => (a ++ ':' :: before, after) := by
  have hcolon : [':', '/', '/'].isPrefixOf (':' :: b) = false := by
    rw [List.isPrefixOf, hb]
    simp
  rw [cutAt_append ha, cutAt_cons hcolon, Option.map_map]
  rfl

/-! ## One value through the cuts -/

namespace ProxyFrame

variable {f : ProxyFrame} {p q : String}

def rest (f : ProxyFrame) (password : String) : String :=
  f.userText ++ ":" ++ password ++ "@" ++ f.hostText

theorem userText_plain : ':' ∉ f.userText.toList := by
  unfold userText
  split
  · exact f.user_plain
  · rw [String.toList_ofList]
    exact fun h => f.user_plain ((List.dropWhile_sublist _).mem h)

theorem hostText_plain : '@' ∉ f.hostText.toList := by
  rw [hostText, String.toList_ofList]
  exact fun h => f.host_plain ((List.rdropWhile_prefix _ _).mem h)

theorem hostPlain_plain : '@' ∉ f.hostPlain.toList := by
  rw [hostPlain, trimEndMatches, String.toList_ofList]
  exact fun h => f.hostText_plain ((List.rdropWhile_prefix _ _).mem h)

theorem trim_value : (trim (f.value p)).toList =
    ((f.scheme.map fun s => s.toList.dropWhile isWhiteSpace ++ [':', '/', '/']).getD []) ++
      (f.rest p).toList := by
  have hat : isWhiteSpace '@' = false := by decide
  have hcolon : isWhiteSpace ':' = false := by decide
  have hend : ∀ a : List Char, (a ++ '@' :: f.hostport.toList).rdropWhile isWhiteSpace =
      a ++ '@' :: f.hostText.toList := by
    intro a
    rw [rdropWhile_append_cons hat, hostText, String.toList_ofList]
  rw [trim, String.toList_ofList]
  cases hscheme : f.scheme with
  | none =>
      have hvalue : (f.value p).toList =
          f.user.toList ++ ':' :: (p.toList ++ '@' :: f.hostport.toList) := by
        simp [value, hscheme]
      have hstart := hend (f.user.toList.dropWhile isWhiteSpace ++ ':' :: p.toList)
      rw [List.append_assoc, List.cons_append] at hstart
      rw [hvalue, dropWhile_append_cons hcolon, hstart]
      simp [rest, userText, hscheme]
  | some s =>
      have hvalue : (f.value p).toList = s.toList ++ ':' :: ('/' :: '/' ::
          (f.user.toList ++ ':' :: (p.toList ++ '@' :: f.hostport.toList))) := by
        simp [value, hscheme]
      have hstart := hend (s.toList.dropWhile isWhiteSpace ++
        ':' :: '/' :: '/' :: (f.user.toList ++ ':' :: p.toList))
      simp only [List.append_assoc, List.cons_append] at hstart
      rw [hvalue, dropWhile_append_cons hcolon, hstart]
      simp [rest, userText, hscheme]

theorem redactRaw_value : redactRaw (trim (f.value p)) = "***@" ++ f.hostText := by
  have hsplit : rsplitOnce (trim (f.value p)) '@' = some (String.ofList
      (((f.scheme.map fun s => s.toList.dropWhile isWhiteSpace ++ [':', '/', '/']).getD []) ++
        (f.userText ++ ":" ++ p).toList), f.hostText) := by
    refine rsplitOnce_of ?_ f.hostText_plain
    rw [trim_value]
    simp [rest]
  rw [redactRaw, hsplit]

def pathError (f : ProxyFrame) : String :=
  "egress proxy '" ++ ("***@" ++ f.hostText) ++ "' has a path; a proxy is a host and a port"

theorem pathError_eq : f.pathError =
    "egress proxy '" ++ ("***@" ++ f.hostText) ++ "' has a path; a proxy is a host and a port" :=
  rfl

/-- What becomes of a value without a path. -/
def plain (f : ProxyFrame) (password : String) : Except String EgressProxy :=
  if f.hostPlain = "" then .error "egress proxy names no host"
  else
    match splitHostPort f.hostPlain with
    | .error e => .error e
    | .ok (host, port) =>
      .ok { redacted := host ++ ":" ++ toString port, host, port,
            credentials := some (f.userText, password) }

theorem parseRest_value : EgressProxy.parseRest (trim (f.value p)) (f.rest p) =
    if f.Slashed p then .error f.pathError else f.plain p := by
  have hat : (fun x : Char => x == '/') '@' = false := by decide
  have htrim : (trimEndMatches (f.rest p) '/').toList =
      (f.userText ++ ":" ++ p).toList ++ '@' :: f.hostPlain.toList := by
    have hrest : (f.rest p).toList =
        (f.userText ++ ":" ++ p).toList ++ '@' :: f.hostText.toList := by simp [rest]
    rw [trimEndMatches, String.toList_ofList, hrest,
      @rdropWhile_append_cons Char (· == '/') '@' hat, hostPlain, trimEndMatches,
      String.toList_ofList]
  have hslash : (trimEndMatches (f.rest p) '/').toList.contains '/' = true ↔ f.Slashed p := by
    rw [htrim, List.contains_iff_mem]
    simp [Slashed]
  unfold EgressProxy.parseRest
  dsimp only
  by_cases h : f.Slashed p
  · rw [if_pos (hslash.mpr h), if_pos h, redactRaw_value, pathError_eq]
  · have hcredential : f.userText ++ ":" ++ p ≠ "" := by
      intro hempty
      have hlist := congrArg String.toList hempty
      simp at hlist
    have hsplit : splitOnce (f.userText ++ ":" ++ p) ':' = some (f.userText, p) :=
      splitOnce_eq_some.mpr ⟨by simp, f.userText_plain⟩
    rw [if_neg (fun hc => h (hslash.mp hc)), if_neg h, rsplitOnce_of htrim f.hostPlain_plain]
    simp only [plain, Option.some.injEq, if_neg hcredential, Option.map_some, hsplit,
      Option.getD_some]

theorem splitOnceText_some {scheme : String} (h : f.scheme = some scheme) :
    splitOnceText (trim (f.value p)) "://" =
      some (String.ofList (scheme.toList.dropWhile isWhiteSpace), f.rest p) := by
  have hplain : ':' ∉ scheme.toList.dropWhile isWhiteSpace :=
    fun hmem => f.scheme_plain scheme h ((List.dropWhile_sublist _).mem hmem)
  have hcut := @cutAt_scheme _ (f.rest p).toList hplain
  rw [splitOnceText, trim_value, h]
  simp only [Option.map_some, Option.getD_some, List.append_assoc, List.cons_append,
    List.nil_append]
  change (cutAt [':', '/', '/'] _).map _ = _
  rw [hcut, Option.map_some, String.ofList_toList]

theorem trim_value_none (h : f.scheme = none) : trim (f.value p) = f.rest p := by
  rw [← String.toList_inj, trim_value, h]
  rfl

theorem splitOnceText_none (h : f.scheme = none) (hp : f.Reads p) :
    splitOnceText (f.rest p) "://" =
      (splitOnceText (p ++ "@" ++ f.hostText) "://").map fun (before, after) =>
        (f.userText ++ ":" ++ before, after) := by
  have hslashes : ['/', '/'].isPrefixOf (p ++ "@" ++ f.hostText).toList = false := by
    have hnone := hp h
    rw [String.toList_append, String.toList_append]
    rw [startsWith] at hnone
    change ['/', '/'].isPrefixOf p.toList = false at hnone
    change ['/', '/'].isPrefixOf (p.toList ++ ['@'] ++ f.hostText.toList) = false
    cases hlist : p.toList with
    | nil => simp [List.isPrefixOf]
    | cons c cs =>
        rw [hlist] at hnone
        cases cs with
        | nil => simp [List.isPrefixOf]
        | cons d ds => simpa [List.isPrefixOf] using hnone
  have hcut := cutAt_colon f.userText_plain hslashes
  have hrest : (f.rest p).toList = f.userText.toList ++ ':' :: (p ++ "@" ++ f.hostText).toList := by
    simp [rest]
  unfold splitOnceText
  rw [hrest]
  change (cutAt [':', '/', '/'] _).map _ = ((cutAt [':', '/', '/'] _).map _).map _
  rw [hcut, Option.map_map, Option.map_map]
  congr 1
  funext cut
  simp [← String.toList_inj]

def httpsError : String :=
  "the egress proxy is an https:// proxy, which is TLS to the proxy itself and " ++
    "not supported. Use the http:// form; what travels inside it is still TLS end to end."

def schemeError (scheme : String) : String :=
  "egress proxy scheme '" ++ scheme ++ "' is not supported (write http:// or host:port)"

theorem schemeError_eq (scheme : String) : schemeError scheme =
    "egress proxy scheme '" ++ scheme ++ "' is not supported (write http:// or host:port)" :=
  rfl

/-- A text with a colon is neither of the known schemes. -/
theorem lower_colon (a b : String) :
    toAsciiLowercase (a ++ ":" ++ b) ≠ "http" ∧ toAsciiLowercase (a ++ ":" ++ b) ≠ "https" := by
  have hmem : ':' ∈ (toAsciiLowercase (a ++ ":" ++ b)).toList := by
    rw [toAsciiLowercase, String.toList_ofList, List.mem_map]
    exact ⟨':', by simp, by decide⟩
  constructor
  · intro h
    rw [h] at hmem
    exact absurd hmem (by decide)
  · intro h
    rw [h] at hmem
    exact absurd hmem (by decide)

/-- What becomes of a value, by the text in front of its first `://`. -/
theorem parse_value (hp : f.Reads p) : EgressProxy.parse (f.value p) =
    if (f.schemeOf p).getD "http" = "http" then
      if f.Slashed p then .error f.pathError else f.plain p
    else if (f.schemeOf p).getD "http" = "https" then .error httpsError
    else .error (schemeError ((f.schemeOf p).getD "http")) := by
  have hne : trim (f.value p) ≠ "" := by
    intro hempty
    have hlist := congrArg String.toList hempty
    rw [trim_value] at hlist
    simp [rest] at hlist
  unfold EgressProxy.parse
  dsimp only
  rw [if_neg hne]
  cases hscheme : f.scheme with
  | some scheme =>
      have hof : f.schemeOf p =
          some (toAsciiLowercase (String.ofList (scheme.toList.dropWhile isWhiteSpace))) := by
        rw [schemeOf, hscheme]
      simp only [splitOnceText_some hscheme, hof, Option.getD_some, parseRest_value]
      rfl
  | none =>
      have hof : f.schemeOf p =
          (splitOnceText (p ++ "@" ++ f.hostText) "://").map fun (before, _) =>
            toAsciiLowercase (f.userText ++ ":" ++ before) := by
        rw [schemeOf, hscheme]
      have hparse := @parseRest_value f p
      rw [trim_value_none hscheme] at hparse ⊢
      rw [splitOnceText_none hscheme hp, hof]
      cases splitOnceText (p ++ "@" ++ f.hostText) "://" with
      | none =>
          simp only [Option.map_none, Option.getD_none, if_true]
          exact hparse
      | some cut =>
          obtain ⟨hhttp, hhttps⟩ := lower_colon f.userText cut.1
          simp only [Option.map_some, Option.getD_some, if_neg hhttp, if_neg hhttps]
          rfl

/-! ## What the messages tell apart -/

theorem append_toList_get {a b : String} {n : Nat} (h : n < a.toList.length) :
    (a ++ b).toList[n]? = a.toList[n]? := by
  rw [String.toList_append, List.getElem?_append_left h]

/-- Every refusal of a host quotes the host alone. -/
theorem splitHostPort_error {raw message : String} (h : splitHostPort raw = .error message) :
    ∃ tail, message = "egress proxy '" ++ raw ++ tail ∧ '@' ∉ tail.toList := by
  have hport : ∀ {digits} {host : String},
      (parsePort digits raw).map (fun port => (host, port)) = .error message →
        ∃ tail, message = "egress proxy '" ++ raw ++ tail ∧ '@' ∉ tail.toList := by
    intro digits host hparse
    unfold parsePort at hparse
    split at hparse
    · cases hparse
    · injection hparse with hmessage
      exact ⟨"' has no usable port", hmessage.symm, by decide⟩
  unfold splitHostPort at h
  split at h
  · split at h
    · injection h with hmessage
      exact ⟨"' opens a bracket it never closes", hmessage.symm, by decide +kernel⟩
    · split at h
      · injection h with hmessage
        exact ⟨"' needs a port after the address", hmessage.symm, by decide +kernel⟩
      · exact hport h
  · split at h
    · split at h
      · injection h with hmessage
        exact ⟨"' names a port but no host", hmessage.symm, by decide +kernel⟩
      · exact hport h
    · cases h

theorem plain_error {message : String} (h : f.plain p = .error message) :
    '@' ∉ message.toList ∧ message.toList[13]? ≠ some 's' := by
  unfold plain at h
  split at h
  · injection h with hmessage
    subst hmessage
    exact ⟨by decide, by decide⟩
  · split at h
    · rename_i error hsplit
      injection h with hmessage
      subst hmessage
      obtain ⟨tail, htext, htail⟩ := splitHostPort_error hsplit
      subst htext
      constructor
      · have hquote : '@' ∉ "egress proxy '".toList := by decide
        simp only [String.toList_append, List.mem_append, not_or]
        exact ⟨⟨hquote, f.hostPlain_plain⟩, htail⟩
      · have hlength : 13 < "egress proxy '".toList.length := by decide
        rw [String.append_assoc, append_toList_get hlength]
        decide
    · cases h

theorem pathError_at : '@' ∈ f.pathError.toList := by
  rw [pathError_eq]
  simp

theorem pathError_get : f.pathError.toList[13]? ≠ some 's' := by
  have hlength : 13 < "egress proxy '".toList.length := by decide
  rw [pathError_eq, String.append_assoc, append_toList_get hlength]
  decide

theorem schemeError_get (scheme : String) : (schemeError scheme).toList[13]? = some 's' := by
  have hlength : 13 < "egress proxy scheme '".toList.length := by decide +kernel
  rw [schemeError_eq, String.append_assoc, append_toList_get hlength]
  decide +kernel

theorem append_cancel {a b s t : String} (h : a ++ s ++ b = a ++ t ++ b) : s = t := by
  have hlist := congrArg String.toList h
  simp only [String.toList_append] at hlist
  exact String.toList_inj.mp (List.append_cancel_left (List.append_cancel_right hlist))

theorem schemeError_inj {s t : String} (h : schemeError s = schemeError t) : s = t := by
  rw [schemeError_eq, schemeError_eq] at h
  exact append_cancel h

/-- The password is kept, and not printed. -/
theorem plain_printed : (f.plain p).map (fun e => (e.redacted, e.debug, e.url)) =
    (f.plain q).map (fun e => (e.redacted, e.debug, e.url)) := by
  unfold plain
  split
  · rfl
  · split <;> rfl

theorem printed_value (hp : f.Reads p) : EgressProxy.printed (f.value p) =
    if (f.schemeOf p).getD "http" = "http" then
      if f.Slashed p then .error f.pathError
      else (f.plain p).map fun e => (e.redacted, e.debug, e.url)
    else if (f.schemeOf p).getD "http" = "https" then .error httpsError
    else .error (schemeError ((f.schemeOf p).getD "http")) := by
  rw [EgressProxy.printed, parse_value hp]
  split
  · split <;> rfl
  · split <;> rfl

theorem pathError_ne_plain :
    (.error f.pathError : Except String (String × String × String)) ≠
      (f.plain p).map fun e => (e.redacted, e.debug, e.url) := by
  intro h
  cases hplain : f.plain p with
  | ok e =>
      rw [hplain] at h
      cases h
  | error message =>
      rw [hplain] at h
      injection h with hmessage
      exact (plain_error hplain).1 (hmessage ▸ f.pathError_at)

/-- Where no scheme is written, one that is read contains a colon. -/
theorem schemeOf_unwritten {scheme : String} (hnone : f.scheme = none)
    (h : f.schemeOf p = some scheme) : scheme ≠ "http" ∧ scheme ≠ "https" := by
  rw [schemeOf, hnone] at h
  obtain ⟨cut, -, hcut⟩ := Option.map_eq_some_iff.mp h
  rw [← hcut]
  exact lower_colon f.userText cut.1

theorem schemeOf_written (hsome : f.scheme ≠ none) : f.schemeOf p = f.schemeOf q := by
  unfold schemeOf
  split
  · rfl
  · rename_i hnone
    exact absurd hnone hsome

/-- A value read without a scheme is not answered with a scheme's message. -/
theorem printed_schemeless {scheme : String} (hp : f.Reads p) (hnone : f.schemeOf p = none) :
    EgressProxy.printed (f.value p) ≠ .error (schemeError scheme) := by
  have hhttp : (f.schemeOf p).getD "http" = "http" := by rw [hnone, Option.getD_none]
  rw [printed_value hp, if_pos hhttp]
  split
  · intro h
    injection h with hmessage
    exact f.pathError_get (hmessage ▸ schemeError_get scheme)
  · intro h
    cases hplain : f.plain p with
    | ok e =>
        rw [hplain] at h
        cases h
    | error message =>
        rw [hplain] at h
        injection h with hmessage
        exact (plain_error hplain).2 (hmessage ▸ schemeError_get scheme)

theorem printed_scheme {scheme : String} (hp : f.Reads p) (hnone : f.scheme = none)
    (h : f.schemeOf p = some scheme) :
    EgressProxy.printed (f.value p) = .error (schemeError scheme) := by
  obtain ⟨hhttp, hhttps⟩ := schemeOf_unwritten hnone h
  rw [printed_value hp, h, Option.getD_some, if_neg hhttp, if_neg hhttps]

theorem schemeOf_of_printed (hp : f.Reads p) (hq : f.Reads q)
    (h : EgressProxy.printed (f.value p) = EgressProxy.printed (f.value q)) :
    f.schemeOf p = f.schemeOf q := by
  by_cases hnone : f.scheme = none
  · cases hschemeP : f.schemeOf p with
    | none =>
        cases hschemeQ : f.schemeOf q with
        | none => rfl
        | some t =>
            exact absurd (h.trans (printed_scheme hq hnone hschemeQ))
              (printed_schemeless hp hschemeP)
    | some s =>
        have hs := printed_scheme hp hnone hschemeP
        cases hschemeQ : f.schemeOf q with
        | none => exact absurd (h.symm.trans hs) (printed_schemeless hq hschemeQ)
        | some t =>
            have ht := printed_scheme hq hnone hschemeQ
            rw [h, ht] at hs
            have hmessage : schemeError t = schemeError s := Except.error.inj hs
            rw [schemeError_inj hmessage]
  · exact schemeOf_written hnone

/-- Two passwords print alike only where the texts are cut alike. -/
theorem printed_eq_iff (hp : f.Reads p) (hq : f.Reads q) :
    EgressProxy.printed (f.value p) = EgressProxy.printed (f.value q) ↔ f.Alike p q := by
  constructor
  · intro h
    have hscheme := schemeOf_of_printed hp hq h
    refine ⟨hscheme, fun hhttp => ?_⟩
    rw [printed_value hp, printed_value hq, ← hscheme, if_pos hhttp, if_pos hhttp] at h
    by_cases hslashP : f.Slashed p <;> by_cases hslashQ : f.Slashed q
    · exact iff_of_true hslashP hslashQ
    · rw [if_pos hslashP, if_neg hslashQ] at h
      exact absurd h pathError_ne_plain
    · rw [if_neg hslashP, if_pos hslashQ] at h
      exact absurd h.symm pathError_ne_plain
    · exact iff_of_false hslashP hslashQ
  · rintro ⟨hscheme, hslash⟩
    rw [printed_value hp, printed_value hq, ← hscheme]
    by_cases hhttp : (f.schemeOf p).getD "http" = "http"
    · rw [if_pos hhttp, if_pos hhttp]
      by_cases hslashP : f.Slashed p
      · rw [if_pos hslashP, if_pos ((hslash hhttp).mp hslashP)]
      · rw [if_neg hslashP, if_neg (fun hq => hslashP ((hslash hhttp).mpr hq))]
        exact plain_printed
    · rw [if_neg hhttp, if_neg hhttp]

end ProxyFrame

/-! ## What is read where it parses -/

/-- A host and a port as they stand in a value. -/
inductive HostPortWritten : String → String → Nat → Prop
  | bare {host : String} : ':' ∉ host.toList → startsWith host "[" = false →
      HostPortWritten host host 80
  | port {host digits : String} {port : Nat} : host ≠ "" → ':' ∉ digits.toList →
      parseU16 digits = some port → HostPortWritten (host ++ ":" ++ digits) host port
  | bracket {addr digits : String} {port : Nat} : ']' ∉ addr.toList →
      parseU16 digits = some port → HostPortWritten ("[" ++ addr ++ "]:" ++ digits) addr port

theorem rsplitOnce_spec {s k v : String} {c : Char} (h : rsplitOnce s c = some (k, v)) :
    s.toList = k.toList ++ c :: v.toList ∧ c ∉ v.toList := by
  have hmem : c ∈ s.toList := by
    by_contra hmem
    rw [rsplitOnce, if_neg hmem] at h
    cases h
  obtain ⟨a, b, hreverse, ha⟩ :=
    List.eq_append_cons_of_mem (List.mem_reverse.mpr hmem)
  have hs : s.toList =
      (String.ofList b.reverse).toList ++ c :: (String.ofList a.reverse).toList := by
    rw [← List.reverse_reverse s.toList, hreverse]
    simp
  have hv : c ∉ (String.ofList a.reverse).toList := by simpa using ha
  have hsplit := rsplitOnce_of hs hv
  rw [h] at hsplit
  obtain ⟨rfl, rfl⟩ := Prod.mk.inj (Option.some.inj hsplit)
  exact ⟨hs, hv⟩

theorem parsePort_ok {digits raw : String} {port : Nat} (h : parsePort digits raw = .ok port) :
    parseU16 digits = some port := by
  unfold parsePort at h
  split at h
  · injection h with hport
    rwa [← hport]
  · cases h

theorem map_pair_ok {result : Except String Nat} {host host' : String} {port : Nat}
    (h : result.map (fun port => (host, port)) = .ok (host', port)) :
    host = host' ∧ result = .ok port := by
  cases result with
  | error message => cases h
  | ok n =>
      injection h with hpair
      obtain ⟨hhost, hport⟩ := Prod.mk.inj hpair
      exact ⟨hhost, congrArg _ hport⟩

theorem splitHostPort_ok {raw host : String} {port : Nat}
    (h : splitHostPort raw = .ok (host, port)) : HostPortWritten raw host port := by
  unfold splitHostPort at h
  split at h
  · rename_i rest hbracket
    split at h
    · cases h
    · rename_i addr tail hclose
      split at h
      · cases h
      · rename_i digits hcolon
        obtain ⟨rfl, hport⟩ := map_pair_ok h
        obtain ⟨hrest, haddr⟩ := splitOnce_eq_some.mp hclose
        have hraw : raw = "[" ++ addr ++ "]:" ++ digits := by
          rw [← String.toList_inj, stripPrefix_eq_some.mp hbracket, hrest,
            stripPrefix_eq_some.mp hcolon]
          simp
        rw [hraw]
        exact .bracket haddr (parsePort_ok hport)
  · rename_i hbracket
    split at h
    · rename_i before digits hcolon
      split at h
      · cases h
      · rename_i hhost
        obtain ⟨rfl, hport⟩ := map_pair_ok h
        obtain ⟨hsplit, hdigits⟩ := rsplitOnce_spec hcolon
        have hraw : raw = before ++ ":" ++ digits := by
          rw [← String.toList_inj, hsplit]
          simp
        rw [hraw]
        exact .port hhost hdigits (parsePort_ok hport)
    · rename_i hcolon
      injection h with hpair
      obtain ⟨rfl, rfl⟩ := Prod.mk.inj hpair
      refine .bare ?_ ?_
      · intro hmem
        rw [rsplitOnce, if_pos hmem] at hcolon
        cases hcolon
      · unfold stripPrefix at hbracket
        split at hbracket
        · cases hbracket
        · rename_i hstart
          exact Bool.eq_false_iff.mpr hstart

namespace ProxyFrame

variable {f : ProxyFrame} {p q : String}

theorem parse_ok {e : EgressProxy} (hp : f.Reads p)
    (h : EgressProxy.parse (f.value p) = .ok e) :
    e.credentials = some (f.userText, p) ∧ HostPortWritten f.hostPlain e.host e.port := by
  have hplain : f.plain p = .ok e := by
    rw [parse_value hp] at h
    split at h
    · split at h
      · cases h
      · exact h
    · split at h <;> cases h
  unfold plain at hplain
  split at hplain
  · cases hplain
  · split at hplain
    · cases hplain
    · rename_i host port hsplit
      injection hplain with he
      rw [← he]
      exact ⟨rfl, splitHostPort_ok hsplit⟩

/-- Two passwords of one value are told apart by nothing that is printed if and
only if both leave it with one scheme and, for an `http` proxy, both with a
slash or both without. What parses is the host, the port and the credential
that were written. -/
theorem proxy_password_iff (f : ProxyFrame) (p q : String) (hp : f.Reads p) (hq : f.Reads q) :
    (EgressProxy.printed (f.value p) = EgressProxy.printed (f.value q) ∧
      (∀ e, EgressProxy.parse (f.value p) = .ok e →
        e.credentials = some (f.userText, p) ∧ HostPortWritten f.hostPlain e.host e.port) ∧
      ∀ e, EgressProxy.parse (f.value q) = .ok e →
        e.credentials = some (f.userText, q) ∧ HostPortWritten f.hostPlain e.host e.port) ↔
    f.Alike p q :=
  ⟨fun h => (printed_eq_iff hp hq).mp h.1,
    fun h => ⟨(printed_eq_iff hp hq).mpr h, fun _ => parse_ok hp, fun _ => parse_ok hq⟩⟩

def corporate : ProxyFrame where
  scheme := none
  user := "u"
  hostport := "proxy:3128"
  scheme_plain := fun _ h => absurd h (by simp)
  user_plain := by decide
  host_plain := by decide

theorem proxy_password_corporate :
    EgressProxy.printed (corporate.value "s3:c@ret") =
        .ok ("proxy:3128", "EgressProxy(proxy:3128)", "http://proxy:3128") ∧
      EgressProxy.printed (corporate.value "s3:c@ret") =
        EgressProxy.printed (corporate.value "other") :=
  ⟨by decide +kernel,
    ((proxy_password_iff corporate "s3:c@ret" "other" (fun _ => by decide)
      (fun _ => by decide)).mpr (by decide +kernel)).1⟩

/-- The part of a password in front of its `://` is taken for a scheme and printed. -/
theorem password_in_scheme :
    EgressProxy.printed (corporate.value "hush://x") = .error (schemeError "u:hush") ∧
      EgressProxy.printed (corporate.value "x") =
        .ok ("proxy:3128", "EgressProxy(proxy:3128)", "http://proxy:3128") := by
  decide +kernel

end ProxyFrame

end Aperio
