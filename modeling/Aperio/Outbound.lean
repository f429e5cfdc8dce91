import Aperio.Declare

/-!
# Where the server may call out

`outbound.rs`: the operator's policy over callbacks (`OutboundPolicy::check`)
and the list of targets a client may ask the server to reach
(`server_side_allows`, here `serverSideRefusal`). Both match a host against
the same kinds of entry, each in a loop of its own. `Url::parse` and the
resolver are parameters; a name is dialed at any of the addresses it resolves
to.

`OutboundFence` says what the policy is for. With an allowlist the check asks
for one address inside a range where the private-address gate asks every one
of them, so a name with addresses on both sides of the list gets through.
-/

namespace Aperio

/-! ## Addresses of the deployment -/

/-- `Ipv4Addr::octets`. -/
def octet (a : BitVec 32) (i : Nat) : Nat :=
  (a >>> (24 - 8 * i)).toNat % 256

def isInternalV4 (a : BitVec 32) : Bool :=
  let o := octet a
  -- loopback, private
  o 0 == 127 ||
    (o 0 == 10 || o 0 == 172 && (decide (16 ≤ o 1) && decide (o 1 ≤ 31)) ||
      o 0 == 192 && o 1 == 168) ||
    -- link-local, broadcast
    (o 0 == 169 && o 1 == 254) || a == BitVec.allOnes 32 ||
    -- documentation, unspecified
    (o 0 == 192 && o 1 == 0 && o 2 == 2 || o 0 == 198 && o 1 == 51 && o 2 == 100 ||
      o 0 == 203 && o 1 == 0 && o 2 == 113) || a == 0 ||
    (o 0 == 100 && (decide (64 ≤ o 1) && decide (o 1 < 128)))

def isInternal : IpAddr → Bool
  | .v4 a => isInternalV4 a
  | .v6 a =>
    let segment := a >>> 112
    a == 1 || a == 0 || segment &&& 0xfe00 == 0xfc00 || segment &&& 0xffc0 == 0xfe80 ||
      (toIpv4Mapped a).any isInternalV4

example : isInternal (.v4 0xa9fea9fe#32) = true ∧ isInternal (.v6 0xffff7f000001#128) = true ∧
    isInternal (.v4 0x08080808#32) = false := by
  decide

/-! ## Entries -/

/-- `*.suffix`: something, the byte of a dot, and the suffix. -/
def underSuffix (host suffix : String) : Bool :=
  let hb := utf8Bytes host
  let sb := utf8Bytes suffix
  sb.length + 1 < hb.length && endsWith host suffix && hb[hb.length - sb.length - 1]? == some 0x2E

/-- A host without its final dots, in lower case. -/
def plainHost (host : String) : String :=
  toAsciiLowercase (trimEndMatches host '.')

/-- A bracketed address without its brackets. -/
def bareHost (host : String) : String :=
  trimEndMatches (trimStartMatches host '[') ']'

/-- Why a destination is refused. -/
inductive OutboundError where
  | invalidUrl (e : String)
  | noHost
  | notAllowed (host : String)
  | internalHost (host : String)
  | unresolved (host e : String)
  | internalAddress (host : String) (ip : IpAddr)
  | noAddress (host : String)
deriving Repr, DecidableEq

/-- The texts; `display` writes an address. -/
def OutboundError.text (display : IpAddr → String) : OutboundError → String
  | .invalidUrl e => "invalid url: " ++ e
  | .noHost => "no host in the URL"
  | .notAllowed host =>
    "destination " ++ host ++ " is not on the outbound allowlist (outbound.allowlist)"
  | .internalHost host =>
    "destination " ++ host ++ " is an internal address (refused by outbound.block_private)"
  | .unresolved host e => "cannot resolve " ++ host ++ ": " ++ e
  | .internalAddress host ip =>
    host ++ " resolves to the internal address " ++ display ip ++
      " (refused by outbound.block_private)"
  | .noAddress host => host ++ " resolves to no address"

section

variable (env : Env) (portOf : String → Option Nat)
  (lookup : String → Nat → Except String (List IpAddr))

/-! ## What the server calls itself -/

/-- The first loop of `matches_patterns`. -/
def matchesWritten (host : String) (literalIp : Option IpAddr) : List OutboundPattern → Bool
  | [] => false
  | .host h :: rest => if h = host then true else matchesWritten host literalIp rest
  | .suffix s :: rest => if underSuffix host s then true else matchesWritten host literalIp rest
  | .cidr base bits :: rest =>
    if literalIp.any (cidrContains base bits) then true
    else matchesWritten host literalIp rest

def OutboundPattern.isCidr : OutboundPattern → Bool
  | .cidr .. => true
  | _ => false

def OutboundPattern.covers (ip : IpAddr) : OutboundPattern → Bool
  | .cidr base bits => cidrContains base bits ip
  | _ => false

def matchesPatterns (patterns : List OutboundPattern) (host bare : String)
    (literalIp : Option IpAddr) (port : Nat) (resolvesHere : Bool) :
    Except OutboundError Bool :=
  if matchesWritten host literalIp patterns then .ok true
  else if literalIp.isNone && patterns.any OutboundPattern.isCidr && resolvesHere then
    match lookup bare port with
    | .error e => .error (.unresolved host e)
    | .ok addrs => .ok (addrs.any fun ip => patterns.any (·.covers ip))
  else .ok false

/-- An entry of `outbound.no_proxy`. -/
inductive BypassEntry where
  | host (name : String)
  | suffix (name : String)
deriving Repr, DecidableEq

def BypassEntry.covers (host : String) : BypassEntry → Bool
  | .host name => name == host
  | .suffix name => host == name || endsWith host ("." ++ name)

/-- Whether there is a proxy, and who skips it. -/
structure Egress where
  proxied : Bool := false
  bypass : List BypassEntry := []
deriving Repr, DecidableEq

namespace Egress

def bypasses (egress : Egress) (host : String) : Bool :=
  let host := plainHost host
  host == "localhost" || host == "127.0.0.1" || host == "::1" || host == "[::1]" ||
    egress.bypass.any (·.covers host)

def directTo (egress : Egress) (host : String) : Bool :=
  !egress.proxied || egress.bypasses host

end Egress

structure OutboundPolicy where
  allowlist : List OutboundPattern := []
  blockPrivate : Bool := false
  egress : Egress := {}
deriving DecidableEq

namespace OutboundPolicy

def restricted (policy : OutboundPolicy) : Bool :=
  !policy.allowlist.isEmpty || policy.blockPrivate

/-- The private-address gate over the addresses of a name. -/
def checkAddresses (host : String) : List IpAddr → Except OutboundError Unit
  | [] => .ok ()
  | ip :: rest =>
    if isInternal ip then .error (.internalAddress host ip) else checkAddresses host rest

/-- The policy over a host, already in its plain spelling. -/
def checkHost (policy : OutboundPolicy) (host : String) (port : Nat) :
    Except OutboundError Unit :=
  let bare := bareHost host
  let literalIp := parseIpAddr bare
  let resolvesHere := policy.egress.directTo host
  if !policy.allowlist.isEmpty then
    match matchesPatterns lookup policy.allowlist host bare literalIp port resolvesHere with
    | .error e => .error e
    | .ok true => .ok ()
    | .ok false => .error (.notAllowed host)
  else
    match literalIp with
    | some ip => if isInternal ip then .error (.internalHost host) else .ok ()
    | none =>
      if !resolvesHere then .ok ()
      else
        match lookup bare port with
        | .error e => .error (.unresolved host e)
        | .ok addrs =>
          match checkAddresses host addrs with
          | .error e => .error e
          | .ok () => if addrs.isEmpty then .error (.noAddress host) else .ok ()

/-- `portOf` is `port_or_known_default`. -/
def check (policy : OutboundPolicy) (urlStr : String) : Except OutboundError Unit :=
  if !policy.restricted then .ok ()
  else
    match env.urlParse urlStr with
    | .error e => .error (.invalidUrl e)
    | .ok none => .error .noHost
    | .ok (some host) => policy.checkHost lookup (plainHost host) ((portOf urlStr).getD 443)

end OutboundPolicy

/-! ## What the fence is for -/

/-- A name entry matches: the exact name, or a suffix of it. -/
def OutboundPattern.Names (host : String) : OutboundPattern → Prop
  | .host name => name = host
  | .suffix name => underSuffix host name = true
  | .cidr .. => False

/-- The addresses a connection to the host may be made to. -/
def dialed (host : String) (port : Nat) : List IpAddr :=
  (parseIpAddr (bareHost host)).elim ((lookup (bareHost host) port).toOption.getD []) ([·])

/-- What the policy leaves inside its fence. -/
def OutboundPolicy.Fences (policy : OutboundPolicy) (ip : IpAddr) : Prop :=
  if policy.allowlist.isEmpty then isInternal ip = false
  else ∃ p ∈ policy.allowlist, p.covers ip = true

/-- Every address that is dialed without a name entry for it is inside the
fence, and the two matchers agree on what is written. -/
structure OutboundFence (policy : OutboundPolicy) (urlStr : String) : Prop where
  inside : ∀ host, env.urlParse urlStr = .ok (some host) →
    policy.restricted = true → policy.egress.directTo (plainHost host) = true →
    policy.check env portOf lookup urlStr = .ok () →
    (∀ p ∈ policy.allowlist, ¬p.Names (plainHost host)) →
    ∀ ip ∈ dialed lookup (plainHost host) ((portOf urlStr).getD 443), policy.Fences ip
  agree : serverSideRefusal env urlStr = none ↔
    ∃ host, env.urlParse urlStr = .ok (some host) ∧
      matchesPatterns lookup env.cfg.serverSideTargets (plainHost host)
        (bareHost (plainHost host)) (parseIpAddr (bareHost (plainHost host)))
        ((portOf urlStr).getD 443) false = .ok true
  suffix : ∀ host name bare literalIp port,
    matchesPatterns lookup [.suffix name] host bare literalIp port false = .ok true ↔
      ∃ label, label ≠ "" ∧ host = label ++ "." ++ name

/-- A name without an entry of its own whose addresses the list divides. -/
def OutboundPolicy.Straddled (policy : OutboundPolicy) (urlStr : String) : Prop :=
  ∃ host addrs, env.urlParse urlStr = .ok (some host) ∧
    policy.egress.directTo (plainHost host) = true ∧ policy.allowlist.isEmpty = false ∧
    (∀ p ∈ policy.allowlist, ¬p.Names (plainHost host)) ∧
    parseIpAddr (bareHost (plainHost host)) = none ∧
    lookup (bareHost (plainHost host)) ((portOf urlStr).getD 443) = .ok addrs ∧
    (∃ ip ∈ addrs, policy.Fences ip) ∧ ∃ ip ∈ addrs, ¬policy.Fences ip

end

/-! ## The matchers -/

variable {env : Env} {portOf : String → Option Nat}
  {lookup : String → Nat → Except String (List IpAddr)} {patterns : List OutboundPattern}
  {policy : OutboundPolicy} {host bare urlStr : String} {literalIp : Option IpAddr} {port : Nat}
  {resolvesHere : Bool}

/-- Only a dot ends in the byte of a dot. -/
theorem getLast?_utf8EncodeChar {c : Char} :
    (String.utf8EncodeChar c).getLast? = some 0x2E ↔ c = '.' := by
  constructor
  · intro h
    exact mem_utf8EncodeChar_dot.mp (List.mem_of_getLast? h)
  · rintro rfl
    decide

theorem utf8EncodeChar_ne_nil (c : Char) : String.utf8EncodeChar c ≠ [] := by
  rw [← List.length_pos_iff, String.length_utf8EncodeChar]
  exact c.utf8Size_pos

theorem utf8Bytes_ne_nil {s : String} (h : s ≠ "") : utf8Bytes s ≠ [] := by
  obtain ⟨c, rest, hs⟩ : ∃ c rest, s.toList = c :: rest :=
    List.exists_cons_of_ne_nil (mt String.toList_eq_nil_iff.mp h)
  rw [utf8Bytes, hs, List.flatMap_cons]
  exact List.append_ne_nil_of_left_ne_nil (utf8EncodeChar_ne_nil c) _

/-- A text ends in the byte of a dot when it ends in a dot. -/
theorem getLast?_utf8Bytes {s : String} :
    (utf8Bytes s).getLast? = some 0x2E ↔ ∃ label, s = label ++ "." := by
  constructor
  · intro h
    rcases List.eq_nil_or_concat s.toList with hnil | ⟨label, c, hconcat⟩
    · rw [utf8Bytes, hnil] at h
      cases h
    · rw [utf8Bytes, hconcat, List.concat_eq_append, List.flatMap_append, List.flatMap_singleton,
        List.getLast?_append_of_ne_nil _ (utf8EncodeChar_ne_nil c), getLast?_utf8EncodeChar] at h
      refine ⟨String.ofList label, ?_⟩
      rw [← String.toList_inj, hconcat, h]
      simp
  · rintro ⟨label, rfl⟩
    rw [utf8Bytes_append, show utf8Bytes "." = [0x2E] from by decide]
    exact List.getLast?_concat

/-- The byte in front of a suffix is the last of what is in front of it. -/
theorem getElem?_before {pre suffix : List UInt8} (h : pre ≠ []) :
    (pre ++ suffix)[(pre ++ suffix).length - suffix.length - 1]? = pre.getLast? := by
  have hpos := List.length_pos_iff.mpr h
  rw [List.length_append, Nat.add_sub_cancel, List.getElem?_append_left (by omega),
    List.getLast?_eq_getElem?]

theorem underSuffix_iff {name : String} :
    underSuffix host name = true ↔ ∃ label, label ≠ "" ∧ host = label ++ "." ++ name := by
  simp only [underSuffix, Bool.and_eq_true, decide_eq_true_eq, beq_iff_eq]
  constructor
  · rintro ⟨⟨hlen, hends⟩, hdot⟩
    obtain ⟨pre, hpre⟩ := List.isSuffixOf_iff_suffix.mp hends
    obtain rfl : host = String.ofList pre ++ name := by
      rw [← String.toList_inj, ← hpre]
      simp
    rw [utf8Bytes_append] at hlen hdot
    rw [List.length_append] at hlen
    have hfront : utf8Bytes (String.ofList pre) ≠ [] := by
      rw [← List.length_pos_iff]
      omega
    rw [getElem?_before hfront, getLast?_utf8Bytes] at hdot
    obtain ⟨label, hlabel⟩ := hdot
    refine ⟨label, ?_, by rw [hlabel]⟩
    rintro rfl
    rw [hlabel, show utf8Bytes ("" ++ ".") = [0x2E] from by decide, List.length_singleton] at hlen
    omega
  · rintro ⟨label, hlabel, rfl⟩
    have hne : utf8Bytes label ≠ [] := utf8Bytes_ne_nil hlabel
    have hfront : utf8Bytes (label ++ ".") ≠ [] := by
      rw [utf8Bytes_append]
      exact List.append_ne_nil_of_left_ne_nil hne _
    refine ⟨⟨?_, ?_⟩, ?_⟩
    · rw [utf8Bytes_append, utf8Bytes_append, List.length_append, List.length_append,
        show utf8Bytes "." = [0x2E] from by decide, List.length_singleton]
      have hpos := List.length_pos_iff.mpr hne
      omega
    · rw [endsWith, List.isSuffixOf_iff_suffix, String.toList_append]
      exact List.suffix_append _ _
    · rw [utf8Bytes_append, getElem?_before hfront, getLast?_utf8Bytes]
      exact ⟨label, rfl⟩

/-- The two matchers compare a host and an entry alike. -/
theorem matchesWritten_eq_any : matchesWritten host literalIp patterns =
    patterns.any (outboundPatternAdmits host literalIp) := by
  induction patterns with
  | nil => rfl
  | cons p rest ih =>
      cases p with
      | host name =>
          rw [List.any_cons, ← ih, matchesWritten, outboundPatternAdmits]
          cases h : name == host <;> simp_all
      | suffix name =>
          rw [List.any_cons, ← ih, matchesWritten]
          change (if underSuffix host name then true else _) = (underSuffix host name || _)
          cases underSuffix host name <;> rfl
      | cidr base bits =>
          rw [List.any_cons, ← ih, matchesWritten, outboundPatternAdmits]
          cases literalIp.any (cidrContains base bits) <;> rfl

/-- What a loop accepts: a name entry, or a range around the address that is
written. -/
theorem matchesWritten_iff : matchesWritten host literalIp patterns = true ↔
    ∃ p ∈ patterns, p.Names host ∨ ∃ ip, literalIp = some ip ∧ p.covers ip = true := by
  induction patterns with
  | nil => simp [matchesWritten]
  | cons p rest ih =>
      rw [List.exists_mem_cons_iff, ← ih]
      cases p with
      | host name => simp [matchesWritten, OutboundPattern.Names, OutboundPattern.covers]
      | suffix name => simp [matchesWritten, OutboundPattern.Names, OutboundPattern.covers]
      | cidr base bits =>
          simp [matchesWritten, OutboundPattern.Names, OutboundPattern.covers,
            Option.any_eq_true]

/-- Without resolving, only what is written counts. -/
theorem matchesPatterns_written :
    matchesPatterns lookup patterns host bare literalIp port false = .ok true ↔
      matchesWritten host literalIp patterns = true := by
  cases hwritten : matchesWritten host literalIp patterns <;> simp [matchesPatterns, hwritten]

/-- An address without a name entry matches by the ranges around it. -/
theorem matchesPatterns_literal {ip : IpAddr} (hnames : ∀ p ∈ patterns, ¬p.Names host) :
    matchesPatterns lookup patterns host bare (some ip) port resolvesHere = .ok true ↔
      ∃ p ∈ patterns, p.covers ip = true := by
  have hwritten : matchesWritten host (some ip) patterns = true ↔
      ∃ p ∈ patterns, p.covers ip = true := by
    rw [matchesWritten_iff]
    constructor
    · rintro ⟨p, hp, hname | ⟨ip', hip, hcovers⟩⟩
      · exact absurd hname (hnames p hp)
      · cases hip
        exact ⟨p, hp, hcovers⟩
    · rintro ⟨p, hp, hcovers⟩
      exact ⟨p, hp, Or.inr ⟨ip, rfl, hcovers⟩⟩
  rw [← hwritten]
  cases hw : matchesWritten host (some ip) patterns <;> simp [matchesPatterns, hw]

/-- Resolving, a name without an entry matches by any one of its
addresses. -/
theorem matchesPatterns_resolved (hnames : ∀ p ∈ patterns, ¬p.Names host) :
    matchesPatterns lookup patterns host bare none port true = .ok true ↔
      ∃ addrs, lookup bare port = .ok addrs ∧ ∃ ip ∈ addrs, ∃ p ∈ patterns, p.covers ip = true := by
  have hwritten : matchesWritten host none patterns = false := by
    rw [← Bool.not_eq_true, matchesWritten_iff]
    rintro ⟨p, hp, hname | ⟨ip, hip, -⟩⟩
    · exact hnames p hp hname
    · cases hip
  have hcidr {ip : IpAddr} {p : OutboundPattern} (hcovers : p.covers ip = true) :
      p.isCidr = true := by
    cases p with
    | cidr base bits => rfl
    | host name => cases hcovers
    | suffix name => cases hcovers
  cases hany : patterns.any OutboundPattern.isCidr with
  | false =>
      simp only [matchesPatterns, hwritten, hany]
      simp only [List.any_eq_false] at hany
      constructor
      · intro h
        simp at h
      · rintro ⟨addrs, -, ip, -, p, hp, hcovers⟩
        exact absurd (hcidr hcovers) (hany p hp)
  | true =>
      cases hlook : lookup bare port with
      | error e => simp [matchesPatterns, hwritten, hany, hlook]
      | ok addrs => simp [matchesPatterns, hwritten, hany, hlook]

theorem checkAddresses_ok {addrs : List IpAddr} :
    OutboundPolicy.checkAddresses host addrs = .ok () ↔ ∀ ip ∈ addrs, isInternal ip = false := by
  induction addrs with
  | nil => simp [OutboundPolicy.checkAddresses]
  | cons ip rest ih =>
      rw [List.forall_mem_cons, ← ih, OutboundPolicy.checkAddresses]
      cases isInternal ip <;> simp

/-! ## The fence -/

namespace OutboundPolicy

theorem fences_of_allowlist (h : policy.allowlist.isEmpty = false) {ip : IpAddr} :
    policy.Fences ip ↔ ∃ p ∈ policy.allowlist, p.covers ip = true := by
  rw [Fences, h]
  simp

theorem checkHost_allowlist (h : policy.allowlist.isEmpty = false) :
    policy.checkHost lookup host port = .ok () ↔
      matchesPatterns lookup policy.allowlist host (bareHost host) (parseIpAddr (bareHost host))
        port (policy.egress.directTo host) = .ok true := by
  simp only [checkHost, h, Bool.not_false, if_true]
  split
  · rename_i e he
    simp [he]
  · rename_i hok
    simp [hok]
  · rename_i hok
    simp [hok]

/-- An address is let through when it is inside the fence. -/
theorem checkHost_literal {ip : IpAddr} (hnames : ∀ p ∈ policy.allowlist, ¬p.Names host)
    (hip : parseIpAddr (bareHost host) = some ip) :
    policy.checkHost lookup host port = .ok () ↔ policy.Fences ip := by
  cases h : policy.allowlist.isEmpty with
  | false => rw [checkHost_allowlist h, hip, matchesPatterns_literal hnames, fences_of_allowlist h]
  | true =>
      rw [Fences, h, if_pos rfl]
      simp only [checkHost, h, hip]
      cases isInternal ip <;> simp

/-- With an allowlist, a name is let through when one of its addresses is
inside the fence. -/
theorem checkHost_name (h : policy.allowlist.isEmpty = false)
    (hdirect : policy.egress.directTo host = true)
    (hnames : ∀ p ∈ policy.allowlist, ¬p.Names host) (hip : parseIpAddr (bareHost host) = none) :
    policy.checkHost lookup host port = .ok () ↔
      ∃ addrs, lookup (bareHost host) port = .ok addrs ∧ ∃ ip ∈ addrs, policy.Fences ip := by
  rw [checkHost_allowlist h, hip, hdirect, matchesPatterns_resolved hnames]
  simp only [fences_of_allowlist h]

/-- Without one, when all of them are. -/
theorem checkHost_public (h : policy.allowlist.isEmpty = true)
    (hdirect : policy.egress.directTo host = true) (hip : parseIpAddr (bareHost host) = none)
    (hok : policy.checkHost lookup host port = .ok ()) :
    ∃ addrs, lookup (bareHost host) port = .ok addrs ∧ ∀ ip ∈ addrs, policy.Fences ip := by
  simp only [checkHost, h, hip, hdirect, Bool.not_true, Bool.false_eq_true, if_false] at hok
  split at hok
  · cases hok
  · rename_i addrs hlook
    split at hok
    · cases hok
    · rename_i hchecked
      refine ⟨addrs, hlook, ?_⟩
      intro ip hmem
      rw [Fences, h, if_pos rfl]
      exact checkAddresses_ok.mp hchecked ip hmem

theorem check_eq {written : String} (hrestricted : policy.restricted = true)
    (hparse : env.urlParse urlStr = .ok (some written)) :
    policy.check env portOf lookup urlStr =
      policy.checkHost lookup (plainHost written) ((portOf urlStr).getD 443) := by
  simp only [check, hrestricted, hparse, Bool.not_true, Bool.false_eq_true, if_false]

/-- What the check lets through is inside the fence, unless the list divides
a name's addresses. -/
theorem fences_dialed (hstraddled : ¬policy.Straddled env portOf lookup urlStr)
    {written : String} (hparse : env.urlParse urlStr = .ok (some written))
    (hrestricted : policy.restricted = true)
    (hdirect : policy.egress.directTo (plainHost written) = true)
    (hok : policy.check env portOf lookup urlStr = .ok ())
    (hnames : ∀ p ∈ policy.allowlist, ¬p.Names (plainHost written)) :
    ∀ ip ∈ dialed lookup (plainHost written) ((portOf urlStr).getD 443), policy.Fences ip := by
  rw [check_eq hrestricted hparse] at hok
  intro ip hmem
  cases hname : parseIpAddr (bareHost (plainHost written)) with
  | some literal =>
      rw [dialed, hname] at hmem
      rw [List.mem_singleton.mp hmem]
      exact (checkHost_literal hnames hname).mp hok
  | none =>
      cases h : policy.allowlist.isEmpty with
      | true =>
          obtain ⟨addrs, hlook, hall⟩ := checkHost_public h hdirect hname hok
          rw [dialed, hname, hlook] at hmem
          exact hall ip hmem
      | false =>
          obtain ⟨addrs, hlook, hsome⟩ := (checkHost_name h hdirect hnames hname).mp hok
          rw [dialed, hname, hlook] at hmem
          by_contra hout
          exact hstraddled ⟨written, addrs, hparse, hdirect, h, hnames, hname, hlook, hsome, ip,
            hmem, hout⟩

end OutboundPolicy

/-- The targets a client may ask for are the patterns as written. -/
theorem serverSideRefusal_eq_none : serverSideRefusal env urlStr = none ↔
    ∃ host, env.urlParse urlStr = .ok (some host) ∧
      matchesWritten (plainHost host) (parseIpAddr (bareHost (plainHost host)))
        env.cfg.serverSideTargets = true := by
  simp only [matchesWritten_eq_any]
  constructor
  · intro h
    unfold serverSideRefusal at h
    split at h
    · cases h
    · split at h
      · cases h
      · cases h
      · rename_i written hwritten
        refine ⟨written, hwritten, ?_⟩
        by_contra hno
        exact absurd (h.symm.trans (if_neg hno)) nofun
  · rintro ⟨written, hwritten, hadmits⟩
    have hne : env.cfg.serverSideTargets ≠ [] := by
      intro hnil
      rw [hnil] at hadmits
      cases hadmits
    simp only [serverSideRefusal, if_neg hne, hwritten]
    exact if_pos hadmits

/-- **The outbound fence**, for every policy, list, URL, parser and resolver:
every address dialed is inside exactly when the allowlist does not divide the
addresses of a name it has no entry for. -/
theorem outbound_fence_iff : OutboundFence env portOf lookup policy urlStr ↔
    ¬policy.Straddled env portOf lookup urlStr := by
  constructor
  · rintro h ⟨written, addrs, hparse, hdirect, hallow, hnames, hname, hlook, hsome, ip, hmem,
      hout⟩
    have hrestricted : policy.restricted = true := by
      rw [OutboundPolicy.restricted, hallow]
      rfl
    have hok : policy.check env portOf lookup urlStr = .ok () := by
      rw [OutboundPolicy.check_eq hrestricted hparse,
        OutboundPolicy.checkHost_name hallow hdirect hnames hname]
      exact ⟨addrs, hlook, hsome⟩
    refine hout (h.inside written hparse hrestricted hdirect hok hnames ip ?_)
    rw [dialed, hname, hlook]
    exact hmem
  · intro h
    refine ⟨?_, ?_, ?_⟩
    · intro written hparse hrestricted hdirect hok hnames
      exact OutboundPolicy.fences_dialed h hparse hrestricted hdirect hok hnames
    · simp only [matchesPatterns_written]
      exact serverSideRefusal_eq_none
    · intro host name bare literalIp port
      rw [matchesPatterns_written, ← underSuffix_iff, matchesWritten]
      simp [matchesWritten]

/-! ## A name on both sides of the list -/

/-- A parser for one URL. -/
def hookEnv : Env where
  urlParse urlStr :=
    if urlStr = "https://hook.test/" then .ok (some "hook.test")
    else .error "relative URL without a base"

/-- One address inside `203.0.113.0/24`, and the metadata service. -/
def hookAddrs (_ : String) (_ : Nat) : Except String (List IpAddr) :=
  .ok [.v4 0xcb007107#32, .v4 0xa9fea9fe#32]

def hookPolicy : OutboundPolicy where
  allowlist := [.cidr (.v4 0xcb007100#32) 24]

/-- The check lets the name through, and one of the addresses it may dial is
outside every range of the list. -/
theorem hook_dials_outside :
    hookPolicy.check hookEnv (fun _ => none) hookAddrs "https://hook.test/" = .ok () ∧
    .v4 0xa9fea9fe#32 ∈ dialed hookAddrs "hook.test" 443 ∧
    ¬OutboundFence hookEnv (fun _ => none) hookAddrs hookPolicy "https://hook.test/" := by
  refine ⟨by decide, by decide, ?_⟩
  intro h
  have hin := h.inside "hook.test" rfl rfl rfl (by decide)
    (fun p hp => (by cases List.mem_singleton.mp hp; exact id)) (.v4 0xa9fea9fe#32) (by decide)
  obtain ⟨p, hp, hcovers⟩ := (OutboundPolicy.fences_of_allowlist rfl).mp hin
  cases List.mem_singleton.mp hp
  exact absurd hcovers (by decide)

end Aperio
