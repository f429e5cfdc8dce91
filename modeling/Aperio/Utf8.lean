import Aperio.Text

/-!
# Reading back UTF-8

`from_utf8_lossy` and `from_utf8` read the bytes of a text as that text. The
lemmas follow `utf8Head`: one for each length of an encoding, then one
character off the front, then the loop.
-/

namespace Aperio

/-! ## One character -/

theorem toNat_uint8_ofNat {n : Nat} (h : n < 256) : (UInt8.ofNat n).toNat = n := by
  rw [UInt8.toNat_ofNat']
  omega

theorem isContinuation_iff {b : UInt8} :
    isContinuation b = true ↔ 0x80 ≤ b.toNat ∧ b.toNat ≤ 0xBF := by
  simp [isContinuation, UInt8.le_iff_toNat_le]

theorem secondByteOk_iff {b0 b1 : UInt8} :
    secondByteOk b0 b1 = true ↔
      0x80 ≤ b1.toNat ∧ b1.toNat ≤ 0xBF ∧ (b0.toNat = 0xE0 → 0xA0 ≤ b1.toNat) ∧
        (b0.toNat = 0xED → b1.toNat ≤ 0x9F) ∧ (b0.toNat = 0xF0 → 0x90 ≤ b1.toNat) ∧
        (b0.toNat = 0xF4 → b1.toNat ≤ 0x8F) := by
  simp only [secondByteOk, ← UInt8.toNat_inj, UInt8.reduceToNat]
  repeat' split
  all_goals
    simp only [isContinuation_iff, Bool.and_eq_true, decide_eq_true_eq, UInt8.le_iff_toNat_le,
      UInt8.reduceToNat]
    omega

section

variable {b0 b1 b2 b3 : UInt8} {rest : List UInt8}

theorem utf8Head_two (h0 : 0xC2 ≤ b0.toNat ∧ b0.toNat ≤ 0xDF) (h1 : isContinuation b1 = true) :
    utf8Head b0 (b1 :: rest) =
      (Char.ofNat (b0.toNat % 0x20 * 0x40 + b1.toNat % 0x40), rest) := by
  simp only [utf8Head, UInt8.lt_iff_toNat_lt, UInt8.le_iff_toNat_le, UInt8.reduceToNat]
  rw [if_neg (by omega), if_pos h0, if_pos h1]

theorem utf8Head_three (h0 : 0xE0 ≤ b0.toNat ∧ b0.toNat ≤ 0xEF)
    (h1 : secondByteOk b0 b1 = true) (h2 : isContinuation b2 = true) :
    utf8Head b0 (b1 :: b2 :: rest) =
      (Char.ofNat ((b0.toNat % 0x10 * 0x40 + b1.toNat % 0x40) * 0x40 + b2.toNat % 0x40), rest) := by
  simp only [utf8Head, UInt8.lt_iff_toNat_lt, UInt8.le_iff_toNat_le, UInt8.reduceToNat]
  rw [if_neg (by omega), if_neg (by omega), if_pos h0, if_pos h1, if_pos h2]

theorem utf8Head_four (h0 : 0xF0 ≤ b0.toNat ∧ b0.toNat ≤ 0xF4)
    (h1 : secondByteOk b0 b1 = true) (h2 : isContinuation b2 = true)
    (h3 : isContinuation b3 = true) :
    utf8Head b0 (b1 :: b2 :: b3 :: rest) =
      (Char.ofNat (((b0.toNat % 0x8 * 0x40 + b1.toNat % 0x40) * 0x40 + b2.toNat % 0x40) * 0x40
        + b3.toNat % 0x40), rest) := by
  simp only [utf8Head, UInt8.lt_iff_toNat_lt, UInt8.le_iff_toNat_le, UInt8.reduceToNat]
  rw [if_neg (by omega), if_neg (by omega), if_neg (by omega), if_pos h0, if_pos h1, if_pos h2,
    if_pos h3]

end

/-- The encoding of a character is read off the front as that character. -/
theorem utf8Head_utf8EncodeChar (c : Char) (tail : List UInt8) :
    ∃ b rest, String.utf8EncodeChar c ++ tail = b :: rest ∧ utf8Head b rest = (c, tail) := by
  have hvalid : c.val.toNat < 0xD800 ∨ 0xDFFF < c.val.toNat ∧ c.val.toNat < 0x110000 := c.valid
  have hback : ∀ n, n = c.val.toNat → Char.ofNat n = c := by
    rintro _ rfl
    exact Char.ofNat_toNat c
  simp only [String.utf8EncodeChar]
  generalize c.val.toNat = v at hvalid hback ⊢
  have hb (n : Nat) : (UInt8.ofNat (n % 64 + 128)).toNat = n % 64 + 128 :=
    toNat_uint8_ofNat (by omega)
  have hcont (n : Nat) : isContinuation (UInt8.ofNat (n % 64 + 128)) = true := by
    rw [isContinuation_iff, hb]
    omega
  split
  · have h0 := @toNat_uint8_ofNat v (by omega)
    refine ⟨_, _, rfl, ?_⟩
    simp only [utf8Head, UInt8.lt_iff_toNat_lt, h0, UInt8.reduceToNat]
    rw [if_pos (by omega)]
    exact Prod.ext (hback _ rfl) rfl
  · split
    · have h0 := @toNat_uint8_ofNat (v / 64 % 32 + 192) (by omega)
      refine ⟨_, _, rfl, (utf8Head_two (by omega) (hcont v)).trans ?_⟩
      rw [h0, hb]
      exact Prod.ext (hback _ (by omega)) rfl
    · split
      · have h0 := @toNat_uint8_ofNat (v / 4096 % 16 + 224) (by omega)
        refine ⟨_, _, rfl, (utf8Head_three (by omega) ?_ (hcont v)).trans ?_⟩
        · rw [secondByteOk_iff, h0, hb]
          omega
        · rw [h0, hb, hb]
          exact Prod.ext (hback _ (by omega)) rfl
      · have h0 := @toNat_uint8_ofNat (v / 262144 % 8 + 240) (by omega)
        refine ⟨_, _, rfl, (utf8Head_four (by omega) ?_ (hcont _) (hcont v)).trans ?_⟩
        · rw [secondByteOk_iff, h0, hb]
          omega
        · rw [h0, hb, hb, hb]
          exact Prod.ext (hback _ (by omega)) rfl

/-! ## The whole text -/

theorem utf8LossyLoop_flatMap (cs : List Char) :
    ∀ fuel, (cs.flatMap String.utf8EncodeChar).length ≤ fuel →
      utf8LossyLoop fuel (cs.flatMap String.utf8EncodeChar) = cs := by
  induction cs with
  | nil =>
      intro fuel _
      cases fuel <;> rfl
  | cons c cs ih =>
      intro fuel hfuel
      rw [List.flatMap_cons] at hfuel ⊢
      obtain ⟨b, rest, hsplit, hhead⟩ :=
        utf8Head_utf8EncodeChar c (cs.flatMap String.utf8EncodeChar)
      rw [hsplit] at hfuel ⊢
      cases fuel with
      | zero => simp at hfuel
      | succ fuel =>
          simp only [utf8LossyLoop, hhead]
          rw [ih fuel]
          have hpos : 0 < (String.utf8EncodeChar c).length := by
            rw [String.length_utf8EncodeChar]
            exact c.utf8Size_pos
          have hlen := congrArg List.length hsplit
          simp only [List.length_append, List.length_cons] at hlen hfuel
          omega

/-- What is valid is read as it was written. -/
theorem fromUtf8Lossy_utf8Bytes (s : String) : fromUtf8Lossy (utf8Bytes s) = s := by
  rw [fromUtf8Lossy, utf8Bytes, utf8LossyLoop_flatMap _ _ le_rfl, String.ofList_toList]

/-- What `from_utf8` accepts is what it spells. -/
theorem fromUtf8_eq_some {bytes : Bytes} {s : String} :
    fromUtf8 bytes = some s ↔ utf8Bytes s = bytes := by
  unfold fromUtf8
  constructor
  · intro h
    simp only at h
    split at h
    · rename_i hspells
      obtain rfl := Option.some.inj h
      exact hspells
    · cases h
  · rintro rfl
    simp only [fromUtf8Lossy_utf8Bytes, if_true]

@[simp] theorem fromUtf8_utf8Bytes (s : String) : fromUtf8 (utf8Bytes s) = some s :=
  fromUtf8_eq_some.mpr rfl

end Aperio
