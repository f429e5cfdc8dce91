import Mathlib.Algebra.Group.Nat.Defs
import Aperio.Exposes

/-!
# Ranges of addresses

Who falls inside a range: `cidr_contains` and `ip_allowed` of `auth/ip.rs`, and
`network_contains` of `expose_policy.rs`, which the listener allowlists use. All
three come down to the first bits of two addresses of one family. An IPv4
address has two spellings, and which of them is compared is where the families
are decided: a range inside the IPv4-mapped block is an IPv4 range, a wider
IPv6 one is compared with the address as it was written.
-/

namespace Aperio

/-! ## First bits -/

/-- The first `n` bits are the same. -/
def SameBits {w : Nat} (n : Nat) (a b : BitVec w) : Prop :=
  ∀ i < n, a.getMsbD i = b.getMsbD i

section

variable {w n : Nat} {a b : BitVec w}

theorem sameBits_zero : SameBits 0 a b :=
  fun _ h => absurd h (Nat.not_lt_zero _)

theorem sameBits_width : SameBits w a b ↔ a = b := by
  constructor
  · intro h
    exact BitVec.eq_of_getMsbD_eq h
  · rintro rfl
    exact fun _ _ => rfl

theorem shifted_eq_iff (hn : n ≤ w) : a >>> (w - n) = b >>> (w - n) ↔ SameBits n a b := by
  constructor
  · intro h i hi
    have hbit := congrArg (fun x => x.getLsbD (n - 1 - i)) h
    simp only [BitVec.getLsbD_ushiftRight] at hbit
    have hplace : w - n + (n - 1 - i) = w - 1 - i := by omega
    rw [hplace] at hbit
    rw [BitVec.getMsbD_eq_getLsbD, BitVec.getMsbD_eq_getLsbD, hbit]
  · intro h
    refine BitVec.eq_of_getLsbD_eq fun i hi => ?_
    rw [BitVec.getLsbD_ushiftRight, BitVec.getLsbD_ushiftRight]
    by_cases hin : w - n + i < w
    · have hbit := h (w - 1 - (w - n + i)) (by omega)
      rw [BitVec.getMsbD_eq_getLsbD, BitVec.getMsbD_eq_getLsbD] at hbit
      have hplace : w - 1 - (w - 1 - (w - n + i)) = w - n + i := by omega
      have hlt : w - 1 - (w - n + i) < w := by omega
      simpa only [hplace, hlt, decide_true, Bool.true_and] using hbit
    · rw [BitVec.getLsbD_of_ge _ _ (by omega), BitVec.getLsbD_of_ge _ _ (by omega)]

theorem masked_eq_iff (hn : n ≤ w) :
    a &&& BitVec.allOnes w <<< (w - n) = b &&& BitVec.allOnes w <<< (w - n) ↔ SameBits n a b := by
  rw [← shifted_eq_iff hn]
  constructor
  · intro h
    refine BitVec.eq_of_getLsbD_eq fun i hi => ?_
    have hbit := congrArg (fun x => x.getLsbD (w - n + i)) h
    rw [BitVec.getLsbD_ushiftRight, BitVec.getLsbD_ushiftRight]
    by_cases hin : w - n + i < w
    · have hmask : ¬w - n + i < w - n := by omega
      simpa [hin, hmask, show i < w by omega] using hbit
    · rw [BitVec.getLsbD_of_ge _ _ (by omega), BitVec.getLsbD_of_ge _ _ (by omega)]
  · intro h
    refine BitVec.eq_of_getLsbD_eq fun i hi => ?_
    by_cases hin : i < w - n
    · simp [hin]
    · have hbit := congrArg (fun x => x.getLsbD (i - (w - n))) h
      simp only [BitVec.getLsbD_ushiftRight] at hbit
      have hplace : w - n + (i - (w - n)) = i := by omega
      rw [hplace] at hbit
      simp [hbit]

/-- The test `cidr_contains` makes at one width. -/
theorem maskedTest_iff : (if w < n then false
    else if n = 0 then true
    else a &&& BitVec.allOnes w <<< (w - n) == b &&& BitVec.allOnes w <<< (w - n)) = true ↔
      n ≤ w ∧ SameBits n a b := by
  by_cases hn : n ≤ w
  · rw [if_neg (not_lt.mpr hn), and_iff_right hn]
    by_cases hzero : n = 0
    · subst hzero
      exact iff_of_true rfl sameBits_zero
    · rw [if_neg hzero, beq_iff_eq, masked_eq_iff hn]
  · rw [if_pos (not_le.mp hn)]
    exact iff_of_false Bool.false_ne_true fun h => hn h.1

/-- The test `network_contains` makes, on a range within its width. -/
theorem shiftedTest_iff (hn : n ≤ w) :
    (n == 0 || a >>> (w - n) == b >>> (w - n)) = true ↔ n ≤ w ∧ SameBits n a b := by
  rw [and_iff_right hn]
  by_cases hzero : n = 0
  · subst hzero
    exact iff_of_true rfl sameBits_zero
  · rw [beq_eq_false_iff_ne.mpr hzero, Bool.false_or, beq_iff_eq, shifted_eq_iff hn]

end

/-! ## Listener allowlists -/

/-- Whether `peer` falls inside the network `raw` names. The source writes out
here what `canonical_network` does. -/
def networkContains (raw : String) (peer : IpAddr) : Bool :=
  match parseNetwork raw with
  | none => false
  | some (network, bits) =>
    let (network, bits) := canonicalNetwork network bits
    let peer :=
      match network with
      | .v4 _ => peer.toCanonical
      | .v6 _ => peer
    match network, peer with
    | .v4 a, .v4 b => bits == 0 || a >>> (32 - bits) == b >>> (32 - bits)
    | .v6 a, .v6 b => bits == 0 || a >>> (128 - bits) == b >>> (128 - bits)
    | _, _ => false

/-! ## What a range holds -/

/-- The IPv4-mapped spelling of an IPv4 address. -/
def mapped (a : BitVec 32) : BitVec 128 :=
  0xffff#96 ++ a

theorem toNat_mapped (a : BitVec 32) : (mapped a).toNat = 0xffff * 2 ^ 32 + a.toNat := by
  rw [mapped, BitVec.toNat_append, ← Nat.shiftLeft_add_eq_or_of_lt a.isLt, Nat.shiftLeft_eq]
  rfl

theorem toIpv4Mapped_iff {x : BitVec 128} {a : BitVec 32} :
    toIpv4Mapped x = some a ↔ x = mapped a := by
  have hblock : x >>> 32 = 0xffff#128 ↔ x.toNat / 2 ^ 32 = 0xffff := by
    rw [← BitVec.toNat_inj, BitVec.toNat_ushiftRight, Nat.shiftRight_eq_div_pow]
    rfl
  rw [toIpv4Mapped, ← BitVec.toNat_inj (x := x), toNat_mapped]
  have ha := a.isLt
  by_cases h : x >>> 32 = 0xffff#128
  · rw [if_pos h, Option.some_inj, ← BitVec.toNat_inj, BitVec.truncate, BitVec.toNat_setWidth]
    have := hblock.mp h
    omega
  · rw [if_neg h]
    refine iff_of_false (by simp) fun heq => h (hblock.mpr ?_)
    omega

@[simp] theorem toIpv4Mapped_mapped (a : BitVec 32) : toIpv4Mapped (mapped a) = some a :=
  toIpv4Mapped_iff.mpr rfl

/-- The address is the IPv4 address `a`, in one of its spellings. -/
theorem toCanonical_eq_v4 {ip : IpAddr} {a : BitVec 32} :
    ip.toCanonical = .v4 a ↔ ip = .v4 a ∨ ip = .v6 (mapped a) := by
  cases ip with
  | v4 b => simp [IpAddr.toCanonical]
  | v6 x =>
      rw [IpAddr.toCanonical]
      cases h : toIpv4Mapped x with
      | some b =>
          rw [toIpv4Mapped_iff.mp h]
          simp only [reduceCtorEq, false_or, IpAddr.v4.injEq, IpAddr.v6.injEq]
          constructor
          · rintro rfl
            rfl
          · intro heq
            exact Option.some.inj ((toIpv4Mapped_mapped b).symm.trans
              (heq ▸ toIpv4Mapped_mapped a))
      | none =>
          simp only [reduceCtorEq, false_or, false_iff, IpAddr.v6.injEq]
          rintro rfl
          cases h.symm.trans (toIpv4Mapped_mapped a)

@[simp] theorem toCanonical_v4 (a : BitVec 32) : (IpAddr.v4 a).toCanonical = .v4 a :=
  rfl

@[simp] theorem toCanonical_mapped (a : BitVec 32) : (IpAddr.v6 (mapped a)).toCanonical = .v4 a :=
  toCanonical_eq_v4.mpr (Or.inr rfl)

/-- The first bits of an address that is in a range. -/
def InRange (base : IpAddr) (bits : Nat) (ip : IpAddr) : Prop :=
  match base with
  | .v4 b => ∃ i, ip.toCanonical = .v4 i ∧ bits ≤ 32 ∧ SameBits bits b i
  | .v6 b => ∃ i, ip = .v6 i ∧ bits ≤ 128 ∧ SameBits bits b i

/-- The range is the IPv4 range `b/n`, in one of its spellings. -/
def ReadsAsV4 (base : IpAddr) (bits : Nat) (b : BitVec 32) (n : Nat) : Prop :=
  base = .v4 b ∧ bits = n ∨ base = .v6 (mapped b) ∧ bits = 96 + n

/-- The range is an IPv6 one, and no IPv4 range in another spelling. -/
def KeepsV6 (base : IpAddr) (bits : Nat) (b : BitVec 128) : Prop :=
  base = .v6 b ∧ ∀ c, b = mapped c → bits < 96

/-- `canonical_network`: inside the mapped block, and nowhere else. -/
theorem canonicalNetwork_mapped (b : BitVec 32) {bits : Nat} (h : 96 ≤ bits) :
    canonicalNetwork (.v6 (mapped b)) bits = (.v4 b, bits - 96) := by
  rw [canonicalNetwork, toIpv4Mapped_mapped]
  exact if_pos h

theorem canonicalNetwork_eq_v4 {base : IpAddr} {bits n : Nat} {b : BitVec 32} :
    canonicalNetwork base bits = (.v4 b, n) ↔ ReadsAsV4 base bits b n := by
  constructor
  · intro h
    unfold canonicalNetwork at h
    split at h
    · split at h
      · rename_i hb
        split at h
        · rename_i hbits
          cases h
          exact Or.inr ⟨by rw [toIpv4Mapped_iff.mp hb], by omega⟩
        · cases h
      · cases h
    · cases h
      exact Or.inl ⟨rfl, rfl⟩
  · rintro (⟨rfl, rfl⟩ | ⟨rfl, rfl⟩)
    · rfl
    · rw [canonicalNetwork_mapped b (Nat.le_add_right 96 n), Nat.add_sub_cancel_left]

theorem canonicalNetwork_eq_v6 {base : IpAddr} {bits n : Nat} {x : BitVec 128} :
    canonicalNetwork base bits = (.v6 x, n) ↔ KeepsV6 base bits x ∧ n = bits := by
  constructor
  · intro h
    unfold canonicalNetwork at h
    split at h
    · split at h
      · split at h
        · cases h
        · rename_i hlow
          cases h
          exact ⟨⟨rfl, fun _ _ => not_le.mp hlow⟩, rfl⟩
      · rename_i hnone
        cases h
        refine ⟨⟨rfl, ?_⟩, rfl⟩
        rintro b rfl
        cases hnone.symm.trans (toIpv4Mapped_mapped b)
    · cases h
  · rintro ⟨⟨rfl, hlow⟩, rfl⟩
    rw [canonicalNetwork]
    cases hx : toIpv4Mapped x with
    | none => rfl
    | some c => exact if_neg (not_le.mpr (hlow c (toIpv4Mapped_iff.mp hx)))

theorem cidrContains_iff_inRange {base : IpAddr} {bits : Nat} {ip : IpAddr} :
    cidrContains base bits ip = true ↔
      InRange (canonicalNetwork base bits).1 (canonicalNetwork base bits).2 ip := by
  rw [cidrContains]
  rcases canonicalNetwork base bits with ⟨base, bits⟩
  cases base with
  | v4 b =>
      simp only [InRange]
      cases ip.toCanonical with
      | v6 i => simp
      | v4 i => simpa only [IpAddr.v4.injEq, exists_eq_left'] using maskedTest_iff
  | v6 b =>
      simp only [InRange]
      cases ip with
      | v4 i => simp
      | v6 i => simpa only [IpAddr.v6.injEq, exists_eq_left'] using maskedTest_iff

theorem not_keepsV6 {base : IpAddr} {bits n : Nat} {b : BitVec 32}
    (h : canonicalNetwork base bits = (.v4 b, n)) (x : BitVec 128) : ¬KeepsV6 base bits x := by
  intro hx
  cases h.symm.trans (canonicalNetwork_eq_v6.mpr ⟨hx, rfl⟩)

/-- Two addresses of one family, once mapped spellings of an IPv4 range are
read as one, agree in their first bits. -/
theorem cidrContains_iff {base : IpAddr} {bits : Nat} {ip : IpAddr} :
    cidrContains base bits ip = true ↔
      (∃ b n i, ReadsAsV4 base bits b n ∧ (ip = .v4 i ∨ ip = .v6 (mapped i)) ∧
        n ≤ 32 ∧ SameBits n b i) ∨
      ∃ b i, KeepsV6 base bits b ∧ ip = .v6 i ∧ bits ≤ 128 ∧ SameBits bits b i := by
  rw [cidrContains_iff_inRange]
  simp only [← canonicalNetwork_eq_v4, ← toCanonical_eq_v4]
  rcases hnet : canonicalNetwork base bits with ⟨network, n⟩
  cases network with
  | v4 b => simp [InRange, not_keepsV6 hnet]
  | v6 x =>
      obtain ⟨⟨rfl, hlow⟩, rfl⟩ := canonicalNetwork_eq_v6.mp hnet
      simp only [InRange, Prod.mk.injEq, reduceCtorEq, false_and, exists_false, false_or, KeepsV6,
        IpAddr.v6.injEq]
      constructor
      · rintro ⟨i, rfl, hfits, hsame⟩
        exact ⟨x, i, ⟨rfl, hlow⟩, rfl, hfits, hsame⟩
      · rintro ⟨_, i, ⟨rfl, -⟩, rfl, hfits, hsame⟩
        exact ⟨i, rfl, hfits, hsame⟩

/-! ## Two spellings of one address -/

/-- The range is an IPv6 one, and the mapped spelling of the address falls
inside it: its other spelling does not. -/
def Wide (base : IpAddr) (bits : Nat) (a : BitVec 32) : Prop :=
  ∃ b, KeepsV6 base bits b ∧ bits ≤ 128 ∧ SameBits bits b (mapped a)

theorem cidrContains_mapped {base : IpAddr} {bits : Nat} {a : BitVec 32} :
    cidrContains base bits (.v6 (mapped a)) = true ↔
      cidrContains base bits (.v4 a) = true ∨ Wide base bits a := by
  rw [cidrContains_iff_inRange, cidrContains_iff_inRange, Wide]
  rcases hnet : canonicalNetwork base bits with ⟨network, n⟩
  cases network with
  | v4 b => simp [InRange, not_keepsV6 hnet]
  | v6 x =>
      obtain ⟨⟨rfl, hlow⟩, rfl⟩ := canonicalNetwork_eq_v6.mp hnet
      simp only [InRange, KeepsV6, IpAddr.v6.injEq, exists_eq_left', reduceCtorEq, false_and,
        exists_false, false_or]
      constructor
      · exact fun hin => ⟨x, ⟨rfl, hlow⟩, hin⟩
      · rintro ⟨_, ⟨rfl, -⟩, hin⟩
        exact hin

/-- Outside a wide range the spelling does not matter; inside one it does. -/
theorem cidrContains_spelling {base : IpAddr} {bits : Nat} {a : BitVec 32} :
    cidrContains base bits (.v4 a) = cidrContains base bits (.v6 (mapped a)) ↔
      ¬Wide base bits a := by
  rw [Bool.eq_iff_iff, cidrContains_mapped]
  have hnot : Wide base bits a → ¬cidrContains base bits (.v4 a) = true := by
    rintro ⟨b, hkeeps, -⟩ hin
    rw [cidrContains_iff_inRange, canonicalNetwork_eq_v6.mpr ⟨hkeeps, rfl⟩] at hin
    obtain ⟨i, hi, -⟩ := hin
    cases hi
  tauto

/-- The range an entry of an allowlist names. -/
def entryRange (entry : String) : Option (IpAddr × Nat) :=
  (splitOnce (trim entry) '/').bind fun (base, bits) =>
    (parseIpAddr base).bind fun base => (parseU32 bits).map fun bits => (base, bits)

theorem ipEntryAllows_mapped {entry : String} {a : BitVec 32} :
    ipEntryAllows (.v6 (mapped a)) entry = true ↔ ipEntryAllows (.v4 a) entry = true ∨
      ∃ base bits, entryRange entry = some (base, bits) ∧ Wide base bits a := by
  simp only [ipEntryAllows, entryRange]
  split
  · simp
  · cases splitOnce (trim entry) '/' with
    | none => simp
    | some parts =>
        obtain ⟨base, bits⟩ := parts
        simp only [Option.bind_some]
        cases parseIpAddr base with
        | none => simp
        | some base =>
            cases parseU32 bits with
            | none => simp
            | some bits => simpa [and_assoc] using cidrContains_mapped

theorem ipAllowed_mapped {allowed : List String} {a : BitVec 32} :
    ipAllowed (.v6 (mapped a)) allowed = true ↔ ipAllowed (.v4 a) allowed = true ∨
      ∃ entry ∈ allowed, ∃ base bits, entryRange entry = some (base, bits) ∧ Wide base bits a := by
  simp only [ipAllowed, Bool.or_eq_true, List.any_eq_true, ipEntryAllows_mapped, and_or_left,
    exists_or, or_assoc]

/-! ## Texts of ranges hold no blanks -/

/-- What stands between two rests of a text is no white space. -/
def Passed (cs rest : List Char) : Prop :=
  ∃ read, cs = read ++ rest ∧ ∀ c ∈ read, isWhiteSpace c = false

theorem Passed.refl (cs : List Char) : Passed cs cs :=
  ⟨[], rfl, fun _ h => absurd h List.not_mem_nil⟩

theorem Passed.trans {cs mid rest : List Char} (h : Passed cs mid) (h' : Passed mid rest) :
    Passed cs rest := by
  obtain ⟨read, rfl, hread⟩ := h
  obtain ⟨read', rfl, hread'⟩ := h'
  refine ⟨read ++ read', (List.append_assoc _ _ _).symm, fun c hc => ?_⟩
  rcases List.mem_append.mp hc with hc | hc
  · exact hread c hc
  · exact hread' c hc

theorem Passed.cons {c : Char} {cs rest : List Char} (hc : isWhiteSpace c = false)
    (h : Passed cs rest) : Passed (c :: cs) rest := by
  obtain ⟨read, rfl, hread⟩ := h
  refine ⟨c :: read, rfl, fun d hd => ?_⟩
  rcases List.mem_cons.mp hd with rfl | hd
  · exact hc
  · exact hread d hd

theorem notBlank_of_toDigit {radix d : Nat} {c : Char} (h : toDigit radix c = some d) :
    isWhiteSpace c = false := by
  have hrange : (0x30 ≤ c.toNat ∧ c.toNat ≤ 0x39) ∨ (0x61 ≤ c.toNat ∧ c.toNat ≤ 0x7A) ∨
      (0x41 ≤ c.toNat ∧ c.toNat ≤ 0x5A) := by
    simp only [toDigit, Option.filter_eq_some_iff] at h
    obtain ⟨h, -⟩ := h
    split at h
    · rename_i hdigit
      exact Or.inl hdigit
    · split at h
      · rename_i hsmall
        exact Or.inr (Or.inl hsmall)
      · split at h
        · rename_i hcapital
          exact Or.inr (Or.inr hcapital)
        · cases h
  simp only [isWhiteSpace, Bool.or_eq_false_iff, Bool.and_eq_false_iff, decide_eq_false_iff_not]
  omega

theorem readDigits_passed (radix : Nat) :
    ∀ (cs : List Char) (acc n : Nat), Passed cs (readDigits radix (toDigit radix) cs acc n).2.2
  | [], _, _ => Passed.refl []
  | c :: cs, acc, n => by
      rw [readDigits]
      cases h : toDigit radix c with
      | none => exact Passed.refl _
      | some d => exact (readDigits_passed radix cs _ _).cons (notBlank_of_toDigit h)

theorem readNumber_passed {radix maxDigits bound v : Nat} {zero : Bool} {cs rest : List Char}
    (h : readNumber radix maxDigits bound zero cs = some (v, rest)) : Passed cs rest := by
  have hdigits := readDigits_passed radix cs 0 0
  simp only [readNumber] at h
  split at h
  · cases h
  · split at h
    · cases h
    · cases h
      exact hdigits

theorem readSeparator_passed {α : Type} {sep : Char} {index : Nat}
    {inner : List Char → Option (α × List Char)} {cs rest : List Char} {v : α}
    (hsep : isWhiteSpace sep = false)
    (hinner : ∀ {cs rest v}, inner cs = some (v, rest) → Passed cs rest)
    (h : readSeparator sep index inner cs = some (v, rest)) : Passed cs rest := by
  unfold readSeparator at h
  split at h
  · exact hinner h
  · cases cs with
    | nil => cases h
    | cons c cs =>
        dsimp only at h
        split at h
        · rename_i hc
          exact (hinner h).cons (hc ▸ hsep)
        · cases h

theorem readIpv4Addr_passed {cs rest : List Char} {a : BitVec 32}
    (h : readIpv4Addr cs = some (a, rest)) : Passed cs rest := by
  have octet {i v : Nat} {cs rest : List Char}
      (h : readSeparator '.' i (readNumber 10 3 256 false) cs = some (v, rest)) : Passed cs rest :=
    readSeparator_passed (by decide) readNumber_passed h
  simp only [readIpv4Addr, Option.bind_eq_bind, Option.bind_eq_some_iff, Prod.exists] at h
  obtain ⟨_, _, h0, _, _, h1, _, _, h2, _, _, h3, h⟩ := h
  cases h
  exact (octet h0).trans ((octet h1).trans ((octet h2).trans (octet h3)))

theorem readGroups_passed : ∀ (slots i : Nat) (cs : List Char), Passed cs (readGroups slots i cs).2.2
  | 0, _, cs => Passed.refl cs
  | slots + 1, i, cs => by
      rw [readGroups]
      dsimp only
      split
      · rename_i a rest hv4
        split at hv4
        · cases hv4
        · exact readSeparator_passed (by decide) readIpv4Addr_passed hv4
      · split
        · rename_i g rest hgroup
          have hfirst := readSeparator_passed (by decide) readNumber_passed hgroup
          exact hfirst.trans (readGroups_passed slots (i + 1) rest)
        · exact Passed.refl cs

theorem readIpv6Addr_passed {cs rest : List Char} {a : BitVec 128}
    (h : readIpv6Addr cs = some (a, rest)) : Passed cs rest := by
  have hhead := readGroups_passed 8 0 cs
  simp only [readIpv6Addr] at h
  split at h
  · cases h
    exact hhead
  · split at h
    · cases h
    · split at h
      · rename_i rest' hrest
        cases h
        rw [hrest] at hhead
        refine hhead.trans (Passed.cons (by decide) (Passed.cons (by decide) ?_))
        exact readGroups_passed _ 0 rest'
      · cases h

theorem Passed.all {cs : List Char} (h : Passed cs []) : ∀ c ∈ cs, isWhiteSpace c = false := by
  obtain ⟨read, rfl, hread⟩ := h
  simpa using hread

theorem notBlank_of_parseIpAddr {s : String} {ip : IpAddr} (h : parseIpAddr s = some ip) :
    ∀ c ∈ s.toList, isWhiteSpace c = false := by
  unfold parseIpAddr at h
  split at h
  · rename_i hv4
    split at h
    · rename_i hrest
      subst hrest
      exact (readIpv4Addr_passed hv4).all
    · cases h
  · split at h
    · rename_i hv6
      split at h
      · rename_i hrest
        subst hrest
        exact (readIpv6Addr_passed hv6).all
      · cases h
    · cases h

/-- Digits that make a number of one type make it of a wider one. -/
theorem readDigits_widened {digits : List Char} {n small big : Nat} (hle : small ≤ big)
    (h : (match readDigits 10 (toDigit 10) digits 0 0 with
      | (v, n, []) => if n = 0 ∨ small ≤ v then none else some v
      | _ => none) = some n) :
    (match readDigits 10 (toDigit 10) digits 0 0 with
      | (v, n, []) => if n = 0 ∨ big ≤ v then none else some v
      | _ => none) = some n ∧ ∀ c ∈ digits, isWhiteSpace c = false := by
  have hpassed := readDigits_passed 10 digits 0 0
  split at h
  · rename_i v k heq
    rw [heq] at hpassed
    split at h
    · cases h
    · rename_i hfits
      obtain rfl := Option.some.inj h
      rw [not_or] at hfits
      exact ⟨if_neg (by omega), hpassed.all⟩
  · cases h

/-- A number a byte holds is read the same into a wider type. -/
theorem parseU8_spec {s : String} {n : Nat} (h : parseU8 s = some n) :
    parseU32 s = some n ∧ ∀ c ∈ s.toList, isWhiteSpace c = false := by
  obtain ⟨h32, hblank⟩ := readDigits_widened (show 256 ≤ 4294967296 by decide) h
  refine ⟨h32, fun c hc => ?_⟩
  split at hblank
  · rename_i rest hplus
    rw [hplus] at hc
    rcases List.mem_cons.mp hc with rfl | hc
    · decide
    · exact hblank c hc
  · exact hblank c hc

/-- The two ways to write a network. -/
theorem parseNetwork_cases {raw : String} {network : IpAddr} {bits : Nat}
    (h : parseNetwork raw = some (network, bits)) :
    (∃ ip n, splitOnce raw '/' = some (ip, n) ∧ parseIpAddr ip = some network ∧
      parseU8 n = some bits ∧ bits ≤ network.width) ∨
    (splitOnce raw '/' = none ∧ parseIpAddr raw = some network ∧ bits = network.width) := by
  unfold parseNetwork at h
  split at h
  · rename_i ip n hsplit
    simp only [Option.bind_eq_bind, Option.bind_eq_some_iff] at h
    obtain ⟨address, haddress, bits', hbits, h⟩ := h
    split at h
    · rename_i hfits
      cases h
      exact Or.inl ⟨ip, n, hsplit, haddress, hbits, hfits⟩
    · cases h
  · rename_i hsplit
    simp only [Option.bind_eq_bind, Option.bind_eq_some_iff] at h
    obtain ⟨address, haddress, h⟩ := h
    cases h
    exact Or.inr ⟨hsplit, haddress, rfl⟩

theorem notBlank_of_parseNetwork {raw : String} {network : IpAddr} {bits : Nat}
    (h : parseNetwork raw = some (network, bits)) : ∀ c ∈ raw.toList, isWhiteSpace c = false := by
  rcases parseNetwork_cases h with ⟨ip, n, hsplit, hip, hn, -⟩ | ⟨-, hip, -⟩
  · intro c hc
    rw [(splitOnce_eq_some.mp hsplit).1, List.mem_append, List.mem_cons] at hc
    rcases hc with hc | rfl | hc
    · exact notBlank_of_parseIpAddr hip c hc
    · decide
    · exact (parseU8_spec hn).2 c hc
  · exact notBlank_of_parseIpAddr hip

theorem parseNetwork_width {raw : String} {network : IpAddr} {bits : Nat}
    (h : parseNetwork raw = some (network, bits)) : bits ≤ network.width := by
  rcases parseNetwork_cases h with ⟨-, -, -, -, -, hfits⟩ | ⟨-, -, rfl⟩
  · exact hfits
  · exact le_rfl

/-! ## The two allowlists -/

/-- The texts of a list that `ip_allowed` reads as everyone. -/
def everyone : List String :=
  ["*", "0.0.0.0/0", "::/0", "0.0.0.0"]

theorem canonicalNetwork_width {network : IpAddr} {bits : Nat} (h : bits ≤ network.width) :
    (canonicalNetwork network bits).2 ≤ (canonicalNetwork network bits).1.width := by
  unfold canonicalNetwork
  split
  · split
    · split
      · exact Nat.sub_le_sub_right h 96
      · exact h
    · exact h
  · exact h

/-- A range within its width holds the same addresses by shifts as by
masks. -/
theorem networkContains_eq {raw : String} {network : IpAddr} {bits : Nat} (ip : IpAddr)
    (h : parseNetwork raw = some (network, bits)) :
    networkContains raw ip = cidrContains network bits ip := by
  have hwidth := canonicalNetwork_width (parseNetwork_width h)
  rw [networkContains, h, cidrContains]
  dsimp only
  generalize canonicalNetwork network bits = canonical at hwidth ⊢
  obtain ⟨network, bits⟩ := canonical
  cases network with
  | v4 a =>
      dsimp only
      cases ip.toCanonical with
      | v4 b => exact Bool.eq_iff_iff.mpr ((shiftedTest_iff hwidth).trans maskedTest_iff.symm)
      | v6 b => rfl
  | v6 x =>
      cases ip with
      | v4 b => rfl
      | v6 b => exact Bool.eq_iff_iff.mpr ((shiftedTest_iff hwidth).trans maskedTest_iff.symm)

/-- One address is the range of its full width. -/
theorem cidrContains_width (address ip : IpAddr) :
    cidrContains address address.width ip = (address.toCanonical == ip.toCanonical) := by
  rw [Bool.eq_iff_iff, cidrContains_iff_inRange, beq_iff_eq]
  cases address with
  | v4 a =>
      simp only [canonicalNetwork, IpAddr.width, InRange, le_refl, true_and, sameBits_width,
        exists_eq_right', toCanonical_v4]
      exact eq_comm
  | v6 x =>
      cases hx : toIpv4Mapped x with
      | some a =>
          obtain rfl := toIpv4Mapped_iff.mp hx
          have hbits : 96 ≤ 128 := by decide
          simp only [canonicalNetwork_mapped a hbits, IpAddr.width, InRange, toCanonical_mapped,
            Nat.reduceSub, le_refl, true_and, sameBits_width, exists_eq_right']
          exact eq_comm
      | none =>
          simp only [canonicalNetwork, hx, IpAddr.width, InRange, le_refl, true_and,
            sameBits_width, exists_eq_right']
          have hself : (IpAddr.v6 x).toCanonical = .v6 x := by
            rw [IpAddr.toCanonical, hx]
          rw [hself]
          cases ip with
          | v4 i => simp
          | v6 y =>
              cases hy : toIpv4Mapped y with
              | none => rw [IpAddr.toCanonical, hy, eq_comm]
              | some i =>
                  rw [IpAddr.toCanonical, hy]
                  refine iff_of_false ?_ (by simp)
                  rintro heq
                  cases heq
                  cases hx.symm.trans hy

@[simp] theorem ipEntryAllows_everyone {raw : String} (ip : IpAddr) (h : raw ∈ everyone) :
    ipEntryAllows ip raw = true := by
  have htrim : trim raw = raw := by
    revert raw
    decide
  rw [ipEntryAllows, htrim]
  exact if_pos (by simpa [everyone] using h)

/-- An entry that names a range, and not everyone, is that range. -/
theorem ipAllowed_range {raw : String} {network : IpAddr} {bits : Nat} (ip : IpAddr)
    (h : parseNetwork raw = some (network, bits)) (hraw : raw ∉ everyone) :
    ipAllowed ip [raw] = cidrContains network bits ip := by
  have htrim : trim raw = raw := trim_eq_self (notBlank_of_parseNetwork h)
  have hone : ipAllowed ip [raw] = ipEntryAllows ip raw := by simp [ipAllowed]
  have hnot : ¬(raw = "*" ∨ raw = "0.0.0.0/0" ∨ raw = "::/0" ∨ raw = "0.0.0.0") := by
    simpa [everyone] using hraw
  simp only [hone, ipEntryAllows, htrim, if_neg hnot]
  rcases parseNetwork_cases h with ⟨base, n, hsplit, hbase, hn, -⟩ | ⟨hsplit, hip, rfl⟩
  · simp only [hsplit, hbase, (parseU8_spec hn).1]
  · simp only [hsplit, hip, cidrContains_width]

/-- The allowlist of listeners against the one of addresses, on a text both
read: they part where the latter reads everyone. -/
theorem ipAllowed_eq_networkContains {raw : String} {network : IpAddr × Nat} (ip : IpAddr)
    (h : parseNetwork raw = some network) :
    ipAllowed ip [raw] = (decide (raw ∈ everyone) || networkContains raw ip) := by
  obtain ⟨network, bits⟩ := network
  by_cases hraw : raw ∈ everyone
  · simp [ipAllowed, hraw]
  · rw [ipAllowed_range ip h hraw, networkContains_eq ip h, decide_eq_false hraw, Bool.false_or]

/-- Who falls inside a range, with which spelling of the address, and of which
list. -/
theorem address_ranges :
    (∀ base bits ip, cidrContains base bits ip = true ↔
      (∃ b n i, ReadsAsV4 base bits b n ∧ (ip = .v4 i ∨ ip = .v6 (mapped i)) ∧
        n ≤ 32 ∧ SameBits n b i) ∨
      ∃ b i, KeepsV6 base bits b ∧ ip = .v6 i ∧ bits ≤ 128 ∧ SameBits bits b i) ∧
    (∀ base bits a, cidrContains base bits (.v4 a) = cidrContains base bits (.v6 (mapped a)) ↔
      ¬Wide base bits a) ∧
    (∀ allowed a, ipAllowed (.v6 (mapped a)) allowed = true ↔ ipAllowed (.v4 a) allowed = true ∨
      ∃ entry ∈ allowed, ∃ base bits, entryRange entry = some (base, bits) ∧ Wide base bits a) ∧
    ∀ raw network ip, parseNetwork raw = some network →
      ipAllowed ip [raw] = (decide (raw ∈ everyone) || networkContains raw ip) := by
  refine ⟨?_, ?_, ?_, ?_⟩
  · exact fun _ _ _ => cidrContains_iff
  · exact fun _ _ _ => cidrContains_spelling
  · exact fun _ _ => ipAllowed_mapped
  · exact fun _ _ ip h => ipAllowed_eq_networkContains ip h

theorem address_ranges_private : ipAllowed (.v6 (mapped 0x0a010203)) ["10.0.0.0/8"] =
    (decide ("10.0.0.0/8" ∈ everyone) || networkContains "10.0.0.0/8" (.v6 (mapped 0x0a010203))) :=
  address_ranges.2.2.2 "10.0.0.0/8" (.v4 0x0a000000, 8) _ (by decide +kernel)

/-- `::/0` holds `10.0.0.1` in one spelling only, and only one of the two
allowlists. -/
theorem wide_range_spelling :
    cidrContains (.v6 0) 0 (.v4 0x0a000001) = false ∧
    cidrContains (.v6 0) 0 (.v6 (mapped 0x0a000001)) = true ∧
    parseNetwork "::/0" = some (.v6 0, 0) ∧
    networkContains "::/0" (.v4 0x0a000001) = false ∧
    ipAllowed (.v4 0x0a000001) ["::/0"] = true := by
  decide +kernel

end Aperio
