import Aperio.Headers

/-!
# Who the visitor is, behind proxies

`routing/client_ip.rs`: the address a request is counted, logged and
allowlisted under. Behind trusted proxies it is read off the
`X-Forwarded-For` chain, walked from the nearest hop backwards.

A proxy adds its hop to the chain by appending to the line that is there or
by writing a line of its own. The walk reads the first line only, so what it
finds is the answer of the whole chain exactly when that line decides it
(`extractClientIp_chain_iff`); where a proxy wrote a second line, the first
one is the visitor's own.
-/

namespace Aperio

/-! ## Reading an address -/

/-- An entry of a header as an address. -/
def parseEntry (entry : String) : Option IpAddr :=
  parseIpAddr (trim entry)

def realIpHeaderValue (headers : InboundHeaders) (realIpHeader : Option String) : Option IpAddr :=
  realIpHeader.bind fun name => (headers.get (toAsciiLowercase name)).bind parseEntry

def ipInRanges (ip : IpAddr) (ranges : List (IpAddr × Nat)) : Bool :=
  ranges.any fun range => cidrContains range.1 range.2 ip

def isTrustedProxy (ip : IpAddr) (trusted : List (IpAddr × Nat)) : Bool :=
  ipInRanges ip trusted

/-- The last address that is no trusted proxy. -/
def nearestUntrusted (trusted : List (IpAddr × Nat)) (chain : List IpAddr) : Option IpAddr :=
  chain.reverse.find? fun ip => !isTrustedProxy ip trusted

/-- The addresses of the one line `headers.get` finds. -/
def forwardedChain (headers : InboundHeaders) : List IpAddr :=
  ((headers.get "x-forwarded-for").map fun s => (split s ',').filterMap parseEntry).getD []

def extractViaTrustedChain (headers : InboundHeaders) (peer : IpAddr)
    (realIpHeader : Option String) (trusted : List (IpAddr × Nat)) : IpAddr :=
  if !isTrustedProxy peer trusted then peer
  else
    match realIpHeaderValue headers realIpHeader with
    | some parsed => parsed
    | none =>
      match nearestUntrusted trusted (forwardedChain headers) with
      | some ip => ip
      | none => (forwardedChain headers).head?.getD peer

def resolveClientIp (headers : InboundHeaders) (fallback : IpAddr) (trustProxy : Bool)
    (realIpHeader : Option String) (trustedProxies : List (IpAddr × Nat)) : IpAddr :=
  if !trustProxy then fallback
  else if !trustedProxies.isEmpty then
    extractViaTrustedChain headers fallback realIpHeader trustedProxies
  else
    match realIpHeaderValue headers realIpHeader with
    | some parsed => parsed
    | none =>
      match ((headers.get "x-forwarded-for").bind fun s => (split s ',').head?).bind parseEntry with
      | some parsed => parsed
      | none => ((headers.get "x-real-ip").bind parseEntry).getD fallback

def extractClientIp (headers : InboundHeaders) (fallback : IpAddr) (trustProxy : Bool)
    (realIpHeader : Option String) (trustedProxies : List (IpAddr × Nat)) : IpAddr :=
  (resolveClientIp headers fallback trustProxy realIpHeader trustedProxies).toCanonical

/-! ## The chain as the proxies wrote it -/

/-- The entries of a line, without the empty ones. -/
def lineEntries (line : String) : List String :=
  (split line ',').filter fun entry => trim entry != ""

/-- A line that holds these addresses and nothing else. -/
def LineHolds (header : InboundHeader) (addrs : List IpAddr) : Prop :=
  ∃ line, header.value = some line ∧ (lineEntries line).map parseEntry = addrs.map some

/-- The `X-Forwarded-For` lines of a request in arrival order, each with the
addresses it holds. -/
def ForwardedFor (headers : InboundHeaders) (lines : List (List IpAddr)) : Prop :=
  List.Forall₂ LineHolds (headers.filter fun h => h.name == "x-forwarded-for") lines

/-- What a chain of addresses says of the visitor, `result` being the
address they are known by. Farther hops may be anything at all, so nothing
on the left of the nearest untrusted address has a say. -/
structure ChainHonoured (trusted : List (IpAddr × Nat)) (peer : IpAddr) (chain : List IpAddr)
    (result : IpAddr) : Prop where
  outside : isTrustedProxy peer trusted = false → result = peer.toCanonical
  nearest : isTrustedProxy peer trusted = true → ∀ farther e nearer,
    chain = farther ++ e :: nearer → isTrustedProxy e trusted = false →
      (∀ a ∈ nearer, isTrustedProxy a trusted = true) → result = e.toCanonical
  origin : isTrustedProxy peer trusted = true → (∀ a ∈ chain, isTrustedProxy a trusted = true) →
    ∀ e, chain.head? = some e → result = e.toCanonical
  direct : isTrustedProxy peer trusted = true → chain = [] → result = peer.toCanonical

/-- The address a chain points to, seen from a trusted peer. -/
def chainAnswer (trusted : List (IpAddr × Nat)) (peer : IpAddr) (chain : List IpAddr) : IpAddr :=
  (nearestUntrusted trusted chain).getD (chain.head?.getD peer)

/-- The lines after the first change nothing: they name no untrusted
address, or one that stands for the visitor the first line has anyway. -/
def FirstLineDecides (trusted : List (IpAddr × Nat)) (peer : IpAddr) (first later : List IpAddr) :
    Prop :=
  match nearestUntrusted trusted later with
  | some e => e.toCanonical = (chainAnswer trusted peer first).toCanonical
  | none => first = [] → ∀ e, later.head? = some e → e.toCanonical = peer.toCanonical

/-! ## The walk -/

section Walk

variable {trusted : List (IpAddr × Nat)} {peer : IpAddr}

theorem nearestUntrusted_eq_some {chain : List IpAddr} {e : IpAddr} :
    nearestUntrusted trusted chain = some e ↔
      ∃ farther nearer, chain = farther ++ e :: nearer ∧ isTrustedProxy e trusted = false ∧
        ∀ a ∈ nearer, isTrustedProxy a trusted = true := by
  rw [nearestUntrusted, List.find?_eq_some_iff_append]
  constructor
  · rintro ⟨he, as, bs, hchain, has⟩
    refine ⟨bs.reverse, as.reverse, ?_, by simpa using he, ?_⟩
    · rw [← List.reverse_reverse chain, hchain]
      simp
    · intro a ha
      simpa using has a (List.mem_reverse.mp ha)
  · rintro ⟨farther, nearer, rfl, he, hnear⟩
    refine ⟨by simpa using he, nearer.reverse, farther.reverse, by simp, ?_⟩
    intro a ha
    simpa using hnear a (List.mem_reverse.mp ha)

theorem nearestUntrusted_eq_none {chain : List IpAddr} :
    nearestUntrusted trusted chain = none ↔ ∀ a ∈ chain, isTrustedProxy a trusted = true := by
  simp [nearestUntrusted, List.find?_eq_none]

/-- The nearest hops are asked first. -/
theorem nearestUntrusted_append (first later : List IpAddr) :
    nearestUntrusted trusted (first ++ later) =
      (nearestUntrusted trusted later).or (nearestUntrusted trusted first) := by
  rw [nearestUntrusted, List.reverse_append, List.find?_append]
  rfl

/-- The chain is honoured by the one address it points to. -/
theorem chainHonoured_iff {chain : List IpAddr} {result : IpAddr} :
    ChainHonoured trusted peer chain result ↔
      result = (if isTrustedProxy peer trusted then chainAnswer trusted peer chain
        else peer).toCanonical := by
  cases hpeer : isTrustedProxy peer trusted with
  | false =>
      refine ⟨fun h => h.outside hpeer, fun h => ⟨fun _ => h, ?_, ?_, ?_⟩⟩
      all_goals
        intro htrue
        rw [hpeer] at htrue
        cases htrue
  | true =>
      rw [if_pos rfl, chainAnswer]
      have hout : isTrustedProxy peer trusted = false → result = peer.toCanonical := by
        intro hfalse
        rw [hpeer] at hfalse
        cases hfalse
      cases hnear : nearestUntrusted trusted chain with
      | some e =>
          obtain ⟨farther, nearer, hchain, he, hnearer⟩ := nearestUntrusted_eq_some.mp hnear
          refine ⟨fun h => h.nearest hpeer farther e nearer hchain he hnearer, fun h => ⟨hout, ?_, ?_, ?_⟩⟩
          · intro _ farther' e' nearer' hchain' he' hnearer'
            have hsome := nearestUntrusted_eq_some.mpr ⟨farther', nearer', hchain', he', hnearer'⟩
            obtain rfl : e = e' := Option.some.inj (hnear.symm.trans hsome)
            exact h
          · intro _ hall
            rw [nearestUntrusted_eq_none.mpr hall] at hnear
            cases hnear
          · intro _ hnil
            rw [hnil] at hchain
            simp at hchain
      | none =>
          have hall := nearestUntrusted_eq_none.mp hnear
          constructor
          · intro h
            cases hhead : chain.head? with
            | some e => exact h.origin hpeer hall e hhead
            | none => exact h.direct hpeer (List.head?_eq_none_iff.mp hhead)
          · intro h
            refine ⟨hout, ?_, ?_, ?_⟩
            · intro _ farther e nearer hchain he _
              rw [hall e (by rw [hchain]; simp)] at he
              cases he
            · intro _ _ e hhead
              rw [hhead] at h
              exact h
            · rintro - rfl
              exact h

/-- What the lines after the first add to the answer. -/
theorem chainAnswer_append {first later : List IpAddr} :
    (chainAnswer trusted peer first).toCanonical =
        (chainAnswer trusted peer (first ++ later)).toCanonical ↔
      FirstLineDecides trusted peer first later := by
  unfold FirstLineDecides
  cases hlater : nearestUntrusted trusted later with
  | some e =>
      have hwhole : chainAnswer trusted peer (first ++ later) = e := by
        rw [chainAnswer, nearestUntrusted_append, hlater]
        rfl
      rw [hwhole]
      exact eq_comm
  | none =>
      have hwhole : chainAnswer trusted peer (first ++ later) =
          (nearestUntrusted trusted first).getD ((first ++ later).head?.getD peer) := by
        rw [chainAnswer, nearestUntrusted_append, hlater]
        rfl
      rw [hwhole]
      cases first with
      | cons a as => simp [chainAnswer]
      | nil =>
          have hnone : nearestUntrusted trusted [] = none := rfl
          cases later with
          | nil => simp [chainAnswer, hnone]
          | cons b bs => simp [chainAnswer, hnone, eq_comm]

end Walk

/-! ## The lines of a request -/

theorem parseEntry_blank {entry : String} (h : trim entry = "") : parseEntry entry = none := by
  rw [parseEntry, h]
  decide

theorem filterMap_parseEntry {line : String} {addrs : List IpAddr}
    (h : (lineEntries line).map parseEntry = addrs.map some) :
    (split line ',').filterMap parseEntry = addrs := by
  have hblank : (split line ',').filterMap parseEntry = (lineEntries line).filterMap parseEntry := by
    rw [lineEntries, List.filterMap_filter]
    refine List.filterMap_congr fun entry _ => ?_
    by_cases hb : trim entry = ""
    · simp [hb, parseEntry_blank hb]
    · simp [hb]
  calc (split line ',').filterMap parseEntry
      = ((lineEntries line).map parseEntry).filterMap id := by
        rw [hblank, List.filterMap_map, Function.id_comp]
    _ = addrs := by rw [h, List.filterMap_map, Function.id_comp, List.filterMap_some]

/-- `headers.get` finds the first line. -/
theorem forwardedChain_eq {headers : InboundHeaders} {lines : List (List IpAddr)}
    (h : ForwardedFor headers lines) : forwardedChain headers = lines.head?.getD [] := by
  unfold ForwardedFor at h
  rw [forwardedChain, InboundHeaders.get, ← List.head?_filter]
  generalize headers.filter (fun h => h.name == "x-forwarded-for") = forwarded at h
  cases h with
  | nil => rfl
  | cons hfirst _ =>
      obtain ⟨line, hvalue, hentries⟩ := hfirst
      simp [hvalue, filterMap_parseEntry hentries]

theorem extractClientIp_chain {headers : InboundHeaders} {lines : List (List IpAddr)}
    {trusted : List (IpAddr × Nat)} (h : ForwardedFor headers lines) (hne : trusted ≠ [])
    (peer : IpAddr) :
    extractClientIp headers peer true none trusted =
      (if isTrustedProxy peer trusted then chainAnswer trusted peer (lines.head?.getD [])
        else peer).toCanonical := by
  have hset : trusted.isEmpty = false := by simpa using hne
  rw [extractClientIp, resolveClientIp, extractViaTrustedChain, forwardedChain_eq h, hset]
  cases hpeer : isTrustedProxy peer trusted with
  | false => rfl
  | true =>
      simp only [Bool.not_true, Bool.false_eq_true, if_false, Bool.not_false, if_true,
        realIpHeaderValue, Option.bind_none, chainAnswer]
      cases nearestUntrusted trusted (lines.head?.getD []) with
      | none => rfl
      | some e => rfl

/-! ## Headline: the chain is honoured as far as its first line decides -/

/-- Behind trusted proxies the whole `X-Forwarded-For` chain is honoured
exactly when the peer is not one of them (and the headers are ignored) or
the first line decides. -/
theorem extractClientIp_chain_iff (headers : InboundHeaders) (lines : List (List IpAddr))
    (trusted : List (IpAddr × Nat)) (peer : IpAddr) (hlines : ForwardedFor headers lines)
    (hne : trusted ≠ []) :
    ChainHonoured trusted peer lines.flatten (extractClientIp headers peer true none trusted) ↔
      isTrustedProxy peer trusted = false ∨
        ∀ first later, lines = first :: later → FirstLineDecides trusted peer first later.flatten := by
  rw [chainHonoured_iff, extractClientIp_chain hlines hne]
  cases hpeer : isTrustedProxy peer trusted with
  | false => simp
  | true =>
      simp only [if_true, reduceCtorEq, false_or]
      cases lines with
      | nil => simp
      | cons first later =>
          rw [List.head?_cons, Option.getD_some, List.flatten_cons, chainAnswer_append]
          simp

/-- Two `X-Forwarded-For` lines: what the visitor sent, and what the proxy in
front of the server added. -/
def forwardedLines (sent added : String) : InboundHeaders :=
  [⟨"x-forwarded-for", some sent, by decide⟩, ⟨"x-forwarded-for", some added, by decide⟩]

/-- The added line names a trusted hop only, so the first line decides. -/
theorem extractClientIp_chain_iff_hop :
    ForwardedFor (forwardedLines "203.0.113.9, 10.0.0.2" "10.0.0.3")
        [[.v4 0xcb007109#32, .v4 0x0a000002#32], [.v4 0x0a000003#32]] ∧
      ChainHonoured [(.v4 0x0a000000#32, 8)] (.v4 0x0a000001#32)
        [.v4 0xcb007109#32, .v4 0x0a000002#32, .v4 0x0a000003#32] (.v4 0xcb007109#32) := by
  have hlines : ForwardedFor (forwardedLines "203.0.113.9, 10.0.0.2" "10.0.0.3")
      [[.v4 0xcb007109#32, .v4 0x0a000002#32], [.v4 0x0a000003#32]] :=
    .cons ⟨_, rfl, by decide⟩ (.cons ⟨_, rfl, by decide⟩ .nil)
  have hiff := extractClientIp_chain_iff _ _ [(.v4 0x0a000000#32, 8)] (.v4 0x0a000001#32) hlines
    (by decide)
  have hgot : extractClientIp (forwardedLines "203.0.113.9, 10.0.0.2" "10.0.0.3")
      (.v4 0x0a000001#32) true none [(.v4 0x0a000000#32, 8)] = .v4 0xcb007109#32 := by decide
  rw [hgot] at hiff
  refine ⟨hlines, hiff.mpr (.inr ?_)⟩
  intro first later hcons
  obtain ⟨rfl, rfl⟩ := List.cons.inj hcons
  intro hnil
  cases hnil

/-- A visitor writes an address of their choice, the proxy adds a line with
the address it saw, and the server takes the visitor's word. -/
theorem extractClientIp_chain_spoofed :
    ForwardedFor (forwardedLines "1.2.3.4" "203.0.113.9")
        [[.v4 0x01020304#32], [.v4 0xcb007109#32]] ∧
      ¬ ChainHonoured [(.v4 0x0a000000#32, 8)] (.v4 0x0a000001#32)
        [.v4 0x01020304#32, .v4 0xcb007109#32]
        (extractClientIp (forwardedLines "1.2.3.4" "203.0.113.9") (.v4 0x0a000001#32) true none
          [(.v4 0x0a000000#32, 8)]) := by
  refine ⟨.cons ⟨_, rfl, by decide⟩ (.cons ⟨_, rfl, by decide⟩ .nil), fun h => ?_⟩
  have hnearest := h.nearest (by decide) [.v4 0x01020304#32] (.v4 0xcb007109#32) [] rfl (by decide)
    (by simp)
  exact absurd hnearest (by decide)

end Aperio
