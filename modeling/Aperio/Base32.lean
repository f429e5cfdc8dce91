import Aperio.BitStrings
import Aperio.SecondFactor

/-!
# The base32 of a TOTP secret

`base32_encode` of `totp.rs`, and that `base32_decode` reads what it writes. The
encoder cuts the bytes into groups of five and a group into symbols of five
bits; the decoder shifts symbols into a 64-bit word and takes a byte out
whenever eight bits have come. The high bits of that word are lost on a longer
text, and nothing reads them: what the decoder still has to give out is the
string of its lowest `nbits` bits, which is what `base32Decode_foldlM` carries
from symbol to symbol.
-/

namespace Aperio

/-! ## Encoding -/

/-- `data.chunks(5)`. -/
def base32Chunks : List UInt8 → List (List UInt8)
  | a :: b :: c :: d :: e :: rest => [a, b, c, d, e] :: base32Chunks rest
  | [] => []
  | chunk => [chunk]

/-- The bits of a chunk, behind it zeros up to five bytes. -/
def base32Bits (chunk : List UInt8) : Nat :=
  let buf (i : Nat) : Nat := (chunk[i]?.getD 0).toNat
  buf 0 <<< 32 ||| buf 1 <<< 24 ||| buf 2 <<< 16 ||| buf 3 <<< 8 ||| buf 4

/-- `(chunk.len() * 8).div_ceil(5)`. -/
def base32OutChars (chunk : List UInt8) : Nat :=
  (chunk.length * 8 + 4) / 5

def base32Symbols (chunk : List UInt8) : List Nat :=
  (List.range (base32OutChars chunk)).map fun i => (base32Bits chunk >>> (35 - 5 * i)) &&& 0x1f

def base32Char (v : Nat) : Char :=
  base32Alphabet.getD v '='

def base32Encode (data : List UInt8) : String :=
  String.ofList ((base32Chunks data).flatMap fun chunk => (base32Symbols chunk).map base32Char)

example : base32Encode (utf8Bytes "foobar") = "MZXW6YTBOI" ∧
    base32Decode "mzxw6ytboi======" = some (utf8Bytes "foobar") := by decide

/-! ## Symbols as bits -/

open BitString

/-- The bits of a string of bytes. -/
def byteBits (data : List UInt8) : List Bool :=
  (data.map UInt8.toNat).flatMap (ofNat 8)

theorem groups_byteBits (data : List UInt8) {m : List Bool} (hm : m.length < 8) :
    (groups 8 (byteBits data ++ m)).map UInt8.ofNat = data := by
  rw [byteBits, groups_flatMap (by decide) ?_ hm, List.map_map]
  · exact (List.map_congr_left fun b _ => UInt8.ofNat_toNat).trans (List.map_id data)
  · intro x hx
    obtain ⟨b, -, rfl⟩ := List.mem_map.mp hx
    exact b.toNat_lt

theorem length_byteBits (data : List UInt8) : (byteBits data).length = 8 * data.length := by
  induction data with
  | nil => rfl
  | cons b data ih =>
      rw [byteBits, List.map_cons, List.flatMap_cons, List.length_append, length_ofNat,
        ← byteBits, ih, List.length_cons]
      omega

/-- Five bits from the middle of a string. -/
theorem ofNat_middle {l : List Bool} {i : Nat} (h : l.length = 40) (hi : i < 8) :
    ofNat 5 ((value l >>> (35 - 5 * i)) &&& 0x1f) = (l.drop (5 * i)).take 5 := by
  have hfront : value l / 2 ^ (35 - 5 * i) = value (l.take (5 * i + 5)) :=
    value_div (by omega)
  have htake : (l.take (5 * i + 5)).length = 5 * i + 5 := by
    rw [List.length_take]
    omega
  have hlow : value (l.take (5 * i + 5)) % 2 ^ 5 = value ((l.take (5 * i + 5)).drop (5 * i)) :=
    value_mod htake
  have hmask : ∀ n : Nat, n &&& 0x1f = n % 2 ^ 5 := fun n => Nat.and_two_pow_sub_one_eq_mod n 5
  rw [Nat.shiftRight_eq_div_pow, hfront, hmask, hlow, List.drop_take, Nat.add_sub_cancel_left]
  refine ofNat_value ?_
  rw [List.length_take, List.length_drop]
  omega

/-- The first groups of five, one after the other. -/
theorem flatMap_range_take (l : List Bool) (n : Nat) :
    (List.range n).flatMap (fun i => (l.drop (5 * i)).take 5) = l.take (5 * n) := by
  induction n with
  | zero => simp
  | succ n ih =>
      rw [List.range_succ, List.flatMap_append, ih, List.flatMap_singleton, Nat.mul_succ,
        List.take_add]

/-- Bytes shifted beside each other make one number. -/
theorem word_eq (a : Nat) {b c d e : Nat} (hb : b < 256) (hc : c < 256) (hd : d < 256)
    (he : e < 256) :
    a <<< 32 ||| b <<< 24 ||| c <<< 16 ||| d <<< 8 ||| e =
      a * 2 ^ 32 + (b * 2 ^ 24 + (c * 2 ^ 16 + (d * 2 ^ 8 + e))) := by
  have beside : ∀ {x y : Nat} (i : Nat), y < 256 →
      x <<< (i + 8) ||| y <<< i = (x * 256 + y) <<< i := by
    intro x y i hy
    have hlt : y <<< i < 2 ^ (i + 8) := by
      rw [Nat.shiftLeft_eq, pow_add, Nat.mul_comm]
      exact Nat.mul_lt_mul_of_pos_left hy (Nat.two_pow_pos i)
    rw [← Nat.shiftLeft_add_eq_or_of_lt hlt, Nat.shiftLeft_eq, Nat.shiftLeft_eq, Nat.shiftLeft_eq,
      pow_add]
    ring
  rw [beside 24 hb, beside 16 hc, beside 8 hd, ← Nat.shiftLeft_zero (n := e), beside 0 he]
  simp only [Nat.shiftLeft_zero]
  ring

theorem value_byteBits_cons (b : UInt8) (data : List UInt8) (m : List Bool) :
    value (byteBits (b :: data) ++ m) =
      b.toNat * 2 ^ (8 * data.length + m.length) + value (byteBits data ++ m) := by
  have hcons : byteBits (b :: data) ++ m = ofNat 8 b.toNat ++ (byteBits data ++ m) := by
    rw [byteBits, List.map_cons, List.flatMap_cons, List.append_assoc, ← byteBits]
  rw [hcons, value_append, value_ofNat_of_lt b.toNat_lt, List.length_append, length_byteBits]

/-- The word of a chunk spells its bits, then zeros. -/
theorem base32Bits_eq {chunk : List UInt8} (h : chunk.length ≤ 5) :
    base32Bits chunk = value (byteBits chunk ++ List.replicate (40 - 8 * chunk.length) false) := by
  simp only [base32Bits]
  rw [word_eq _ (UInt8.toNat_lt _) (UInt8.toNat_lt _) (UInt8.toNat_lt _) (UInt8.toNat_lt _)]
  have hzero (k : Nat) : value (byteBits [] ++ List.replicate k false) = 0 :=
    value_replicate_false
  match chunk, h with
  | [], _ => simp [hzero, -List.reduceReplicate]
  | [a], _ => simp [value_byteBits_cons, hzero, -List.reduceReplicate]
  | [a, b], _ => simp [value_byteBits_cons, hzero, -List.reduceReplicate]
  | [a, b, c], _ => simp [value_byteBits_cons, hzero, -List.reduceReplicate]
  | [a, b, c, d], _ => simp [value_byteBits_cons, hzero, -List.reduceReplicate]
  | [a, b, c, d, e], _ =>
      have hnil : value (byteBits []) = 0 := rfl
      simp only [List.length_cons, List.length_nil, value_byteBits_cons]
      simp [hnil]
  | _ :: _ :: _ :: _ :: _ :: _ :: rest, h =>
      simp only [List.length_cons] at h
      omega

/-- The symbols of a chunk are its bits, then less than a byte of zeros. -/
theorem symbols_bits {chunk : List UInt8} (h : chunk.length ≤ 5) :
    (base32Symbols chunk).flatMap (ofNat 5) =
      byteBits chunk ++ List.replicate (5 * base32OutChars chunk - 8 * chunk.length) false := by
  have hlen : (byteBits chunk ++ List.replicate (40 - 8 * chunk.length) false).length = 40 := by
    rw [List.length_append, length_byteBits, List.length_replicate]
    omega
  have hout : base32OutChars chunk ≤ 8 ∧ 8 * chunk.length ≤ 5 * base32OutChars chunk := by
    unfold base32OutChars
    omega
  rw [base32Symbols, List.flatMap_map, base32Bits_eq h]
  have hmiddle : ∀ i ∈ List.range (base32OutChars chunk),
      ofNat 5 ((value (byteBits chunk ++ List.replicate (40 - 8 * chunk.length) false) >>>
        (35 - 5 * i)) &&& 0x1f) =
      ((byteBits chunk ++ List.replicate (40 - 8 * chunk.length) false).drop (5 * i)).take 5 := by
    intro i hi
    exact ofNat_middle hlen (by have := List.mem_range.mp hi; omega)
  rw [List.flatMap_congr hmiddle, flatMap_range_take, List.take_append, List.take_of_length_le,
    length_byteBits, List.take_replicate, Nat.min_eq_left]
  · omega
  · rw [length_byteBits]
    exact hout.2

/-- The symbols of a text of bytes. -/
def symbolsOf (data : List UInt8) : List Nat :=
  (base32Chunks data).flatMap base32Symbols

/-- All symbols are the bits of the bytes, then less than a byte of zeros:
only the last chunk may be short. -/
theorem symbolsOf_bits (data : List UInt8) :
    ∃ k < 8, (symbolsOf data).flatMap (ofNat 5) = byteBits data ++ List.replicate k false := by
  have hlast : ∀ chunk : List UInt8, chunk.length < 5 →
      ∃ k < 8, ([chunk].flatMap base32Symbols).flatMap (ofNat 5) =
        byteBits chunk ++ List.replicate k false := by
    intro chunk h
    refine ⟨_, ?_, by rw [List.flatMap_singleton, symbols_bits h.le]⟩
    unfold base32OutChars
    omega
  induction data using base32Chunks.induct with
  | case1 a b c d e rest ih =>
      obtain ⟨k, hk, hrest⟩ := ih
      refine ⟨k, hk, ?_⟩
      have hfive : [a, b, c, d, e].length ≤ 5 := le_rfl
      have hfull : (base32Symbols [a, b, c, d, e]).flatMap (ofNat 5) =
          byteBits [a, b, c, d, e] := by
        simpa [base32OutChars] using symbols_bits hfive
      rw [symbolsOf] at hrest
      rw [symbolsOf, base32Chunks, List.flatMap_cons, List.flatMap_append, hfull, hrest,
        ← List.append_assoc]
      simp [byteBits]
  | case2 => exact ⟨0, by decide, rfl⟩
  | case3 chunk hfive hnil =>
      have hshort : chunk.length < 5 := by
        match chunk, hfive with
        | [], _ | [_], _ | [_, _], _ | [_, _, _], _ | [_, _, _, _], _ => simp
        | a :: b :: c :: d :: e :: rest, hfive => exact (hfive a b c d e rest rfl).elim
      rw [symbolsOf, base32Chunks]
      · exact hlast chunk hshort
      · exact hfive
      · exact hnil

/-! ## The decoder's word -/

/-- What a symbol makes of the lowest bits of the word. -/
theorem shifted_mod {bits v nbits : Nat} (hv : v < 32) (hn : nbits + 5 ≤ 64) :
    (bits * 32 + v) % 2 ^ 64 % 2 ^ (nbits + 5) = bits % 2 ^ nbits * 32 + v := by
  have hlow : (bits * 32 + v) % 2 ^ 5 = v := by omega
  have hhigh : (bits * 32 + v) / 2 ^ 5 = bits := by omega
  rw [Nat.mod_mod_of_dvd _ (Nat.pow_dvd_pow 2 hn), pow_add, Nat.mul_comm (2 ^ nbits), Nat.mod_mul,
    hlow, hhigh]
  omega

/-- The place of a character in the alphabet. -/
def base32Value (c : Char) : Option Nat :=
  base32Alphabet.findIdx? (· == c.toUpper)

theorem base32Step_eq {bits nbits v : Nat} {out : Bytes} {c : Char} (h : base32Value c = some v) :
    base32Step (bits, nbits, out) c =
      if 8 ≤ nbits + 5 then
        some ((bits * 32 + v) % 2 ^ 64, nbits + 5 - 8,
          out ++ [UInt8.ofNat (((bits * 32 + v) % 2 ^ 64) >>> (nbits + 5 - 8))])
      else some ((bits * 32 + v) % 2 ^ 64, nbits + 5, out) := by
  rw [base32Value] at h
  simp only [base32Step, h, Option.map_some]
  split <;> rfl

/-- **What is still to come out is the string of the lowest bits**, and the
symbols to come behind it. -/
theorem base32Decode_foldlM {cs : List Char} {vs : List Nat} {bits nbits : Nat} {out : Bytes}
    {pending : List Bool} (hcs : cs.map base32Value = vs.map some) (hvs : ∀ v ∈ vs, v < 32)
    (hlen : pending.length = nbits) (hshort : nbits < 8)
    (hbits : bits % 2 ^ nbits = value pending) :
    (cs.foldlM base32Step (bits, nbits, out)).map (·.2.2) =
      some (out ++ (groups 8 (pending ++ vs.flatMap (ofNat 5))).map UInt8.ofNat) := by
  induction cs generalizing vs bits nbits out pending with
  | nil =>
      obtain rfl : vs = [] := by simpa using hcs.symm
      rw [List.flatMap_nil, List.append_nil, groups_of_lt (hlen.trans_lt hshort), List.map_nil,
        List.append_nil]
      rfl
  | cons c cs ih =>
      cases vs with
      | nil => simp at hcs
      | cons v vs =>
          rw [List.map_cons, List.map_cons, List.cons.injEq] at hcs
          have hv := hvs v List.mem_cons_self
          have hrest : ∀ v ∈ vs, v < 32 := fun w hw => hvs w (List.mem_cons_of_mem _ hw)
          have hlonger : (pending ++ ofNat 5 v).length = nbits + 5 := by
            rw [List.length_append, length_ofNat, hlen]
          have hvalue : (bits * 32 + v) % 2 ^ 64 % 2 ^ (nbits + 5) = value (pending ++ ofNat 5 v) := by
            rw [shifted_mod hv (by omega), hbits, value_append, length_ofNat, value_ofNat_of_lt hv]
            rfl
          rw [List.foldlM_cons, base32Step_eq hcs.1, List.flatMap_cons, ← List.append_assoc]
          split
          · rename_i hfull
            have hcut : nbits + 5 = nbits + 5 - 8 + 8 := by omega
            have hsplit : (pending ++ ofNat 5 v).length = 8 + (nbits + 5 - 8) := by omega
            have hfront : ((pending ++ ofNat 5 v).take 8).length = 8 := by
              rw [List.length_take, hlonger]
              omega
            -- the byte that comes out, and the string that stays
            have hbyte : UInt8.ofNat (((bits * 32 + v) % 2 ^ 64) >>> (nbits + 5 - 8)) =
                UInt8.ofNat (value ((pending ++ ofNat 5 v).take 8)) := by
              rw [← UInt8.toNat_inj, UInt8.toNat_ofNat', UInt8.toNat_ofNat', Nat.shiftRight_eq_div_pow,
                ← Nat.mod_mul_right_div_self _ _ (2 ^ 8), ← pow_add, ← hcut, hvalue,
                value_div hsplit]
              have hlt : value ((pending ++ ofNat 5 v).take 8) < 2 ^ 8 := value_lt.trans_eq (by rw [hfront])
              exact (Nat.mod_eq_of_lt hlt).symm
            have hstay : (bits * 32 + v) % 2 ^ 64 % 2 ^ (nbits + 5 - 8) =
                value ((pending ++ ofNat 5 v).drop 8) := by
              rw [← value_mod hsplit, ← hvalue,
                Nat.mod_mod_of_dvd _ (Nat.pow_dvd_pow 2 (Nat.sub_le _ _))]
            have hleft : ((pending ++ ofNat 5 v).drop 8).length = nbits + 5 - 8 := by
              rw [List.length_drop, hlonger]
            conv_rhs => rw [← List.take_append_drop 8 (pending ++ ofNat 5 v), List.append_assoc]
            rw [groups_append (by decide) hfront, List.map_cons, ← hbyte]
            exact (ih hcs.2 hrest hleft (by omega) hstay).trans (by rw [List.append_assoc]; rfl)
          · rename_i hfew
            exact ih hcs.2 hrest hlonger (by omega) hvalue

/-! ## The round trip -/

/-- A letter has its place in either case. -/
theorem base32Value_toLower (c : Char) : base32Value c.toLower = base32Value c := by
  rcases toLower_cases c with ⟨hA, hZ, hlow⟩ | ⟨-, hsame⟩
  · have hall : ∀ n : Fin 26, base32Value (Char.ofNat (0x41 + n.val)).toLower =
        base32Value (Char.ofNat (0x41 + n.val)) := by decide +kernel
    have hn := hall ⟨c.toNat - 0x41, by omega⟩
    have hc : Char.ofNat (0x41 + (c.toNat - 0x41)) = c := by
      rw [Nat.add_sub_cancel' hA, Char.ofNat_toNat]
    rwa [hc] at hn
  · rw [hsame]

theorem map_base32Value_lowercase (s : String) :
    (toAsciiLowercase s).toList.map base32Value = s.toList.map base32Value := by
  rw [toAsciiLowercase, String.toList_ofList, List.map_map]
  exact List.map_congr_left fun c _ => base32Value_toLower c

theorem symbol_lt {chunk : List UInt8} {v : Nat} (h : v ∈ base32Symbols chunk) : v < 32 := by
  obtain ⟨i, -, rfl⟩ := List.mem_map.mp h
  exact Nat.lt_of_le_of_lt Nat.and_le_right (by decide)

theorem symbolsOf_lt {data : List UInt8} {v : Nat} (h : v ∈ symbolsOf data) : v < 32 := by
  obtain ⟨chunk, -, hv⟩ := List.mem_flatMap.mp h
  exact symbol_lt hv

theorem base32Encode_eq (data : List UInt8) :
    base32Encode data = String.ofList ((symbolsOf data).map base32Char) := by
  rw [base32Encode, symbolsOf, List.map_flatMap]

/-- Each symbol is found at its place, and none is the padding. -/
theorem base32Char_spec {v : Nat} (h : v < 32) :
    base32Value (base32Char v) = some v ∧ (base32Char v).toLower ≠ '=' := by
  have hall : ∀ v : Fin 32, base32Value (base32Char v) = some v.val ∧
      (base32Char v).toLower ≠ '=' := by decide +kernel
  exact hall ⟨v, h⟩

theorem base32Encode_values (data : List UInt8) :
    (base32Encode data).toList.map base32Value = (symbolsOf data).map some := by
  rw [base32Encode_eq, String.toList_ofList, List.map_map]
  exact List.map_congr_left fun v hv => (base32Char_spec (symbolsOf_lt hv)).1

/-- Padding goes, where the text in front of it ends without one. -/
theorem trimEndMatches_padded {s : String} {c : Char} (pad : Nat) (h : ∀ d ∈ s.toList, d ≠ c) :
    trimEndMatches (s ++ String.ofList (List.replicate pad c)) c = s := by
  have hstays : s.toList.rdropWhile (· == c) = s.toList := by
    rw [List.rdropWhile_eq_self_iff]
    intro hne
    simpa using h _ (List.getLast_mem hne)
  rw [trimEndMatches, String.toList_append, String.toList_ofList]
  induction pad with
  | zero => rw [List.replicate_zero, List.append_nil, hstays, String.ofList_toList]
  | succ pad ih =>
      rw [List.replicate_succ', ← List.append_assoc, List.rdropWhile_concat_pos _ _ _ (by simp)]
      exact ih

/-- **Base32 round trip**: with padding behind it and in any case, the text of
some bytes is read back as those bytes. -/
theorem base32_round_trip (data : List UInt8) :
    base32Decode (base32Encode data) = some data ∧
      ∀ (s : String) (pad : Nat), eqIgnoreAsciiCase s (base32Encode data) = true →
        base32Decode (s ++ String.ofList (List.replicate pad '=')) = some data := by
  have hany : ∀ (s : String) (pad : Nat), eqIgnoreAsciiCase s (base32Encode data) = true →
      base32Decode (s ++ String.ofList (List.replicate pad '=')) = some data := by
    intro s pad hcase
    have hlower : toAsciiLowercase s = toAsciiLowercase (base32Encode data) := by
      simpa [eqIgnoreAsciiCase] using hcase
    have hnopad : ∀ c ∈ s.toList, c ≠ '=' := by
      rintro c hc rfl
      have hmem : '=' ∈ (toAsciiLowercase s).toList := by
        rw [toAsciiLowercase, String.toList_ofList]
        exact List.mem_map.mpr ⟨'=', hc, by decide⟩
      rw [hlower, toAsciiLowercase, String.toList_ofList, base32Encode_eq, String.toList_ofList,
        List.map_map] at hmem
      obtain ⟨v, hv, heq⟩ := List.mem_map.mp hmem
      exact (base32Char_spec (symbolsOf_lt hv)).2 heq
    have htrim := trimEndMatches_padded pad hnopad
    have hvalues : s.toList.map base32Value = (symbolsOf data).map some := by
      rw [← map_base32Value_lowercase, hlower, map_base32Value_lowercase, base32Encode_values]
    obtain ⟨k, hk, hbits⟩ := symbolsOf_bits data
    have hdecode : (s.toList.foldlM base32Step (0, 0, [])).map (·.2.2) =
        some ([] ++ (groups 8 ([] ++ (symbolsOf data).flatMap (ofNat 5))).map UInt8.ofNat) :=
      base32Decode_foldlM hvalues (fun v => symbolsOf_lt) rfl (by decide) rfl
    have hpadding : (List.replicate k false).length < 8 := by
      rw [List.length_replicate]
      exact hk
    rw [base32Decode, htrim, hdecode, List.nil_append, List.nil_append, hbits,
      groups_byteBits data hpadding]
  have hplain := hany (base32Encode data) 0 (eqIgnoreAsciiCase_refl _)
  exact ⟨by simpa using hplain, hany⟩

/-- A secret as an authenticator shows it, in small letters and padded. -/
theorem base32_round_trip_foobar :
    eqIgnoreAsciiCase "mzxw6ytboi" (base32Encode (utf8Bytes "foobar")) = true ∧
      base32Decode ("mzxw6ytboi" ++ String.ofList (List.replicate 6 '=')) =
        some (utf8Bytes "foobar") := by
  have hcase : eqIgnoreAsciiCase "mzxw6ytboi" (base32Encode (utf8Bytes "foobar")) = true := by
    decide
  exact ⟨hcase, (base32_round_trip _).2 _ 6 hcase⟩

end Aperio
