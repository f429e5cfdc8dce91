import Mathlib.Algebra.Order.Ring.Nat
import Mathlib.Data.Option.Basic

/-!
# Protocol buffers on the wire

A reader of messages, as the encoding is documented: varints of seven bits a
byte with the low bits first, tags of a field number and a wire type, and the
last value of a field the one that counts. What a reader takes from the front
is as long as what it gives back says, which bounds what a message can hold by
its length.
-/

namespace Aperio.Protobuf

/-! ## Varints -/

/-- At most `n` bytes of seven bits, the low bits first; the high bit says that
more follow. -/
def readVarint : Nat → List UInt8 → Option (Nat × List UInt8)
  | 0, _ | _, [] => none
  | n + 1, b :: rest =>
    if b < 0x80 then some (b.toNat, rest)
    else (readVarint n rest).map fun (v, rest) => (b.toNat % 128 + 128 * v, rest)

theorem readVarint_small {n : Nat} {b : UInt8} {rest : List UInt8} (h : b < 0x80) :
    readVarint (n + 1) (b :: rest) = some (b.toNat, rest) :=
  if_pos h

theorem readVarint_more {n : Nat} {b : UInt8} {rest : List UInt8} (h : ¬b < 0x80) :
    readVarint (n + 1) (b :: rest) =
      (readVarint n rest).map fun (v, rest) => (b.toNat % 128 + 128 * v, rest) :=
  if_neg h

/-- What a varint took, and what it can say. -/
theorem readVarint_spec {n v : Nat} {bytes rest : List UInt8}
    (h : readVarint n bytes = some (v, rest)) :
    ∃ taken, bytes = taken ++ rest ∧ taken ≠ [] ∧ v < 128 ^ taken.length := by
  induction n generalizing bytes v with
  | zero => cases h
  | succ n ih =>
      cases bytes with
      | nil => cases h
      | cons b bytes =>
          by_cases hb : b < 0x80
          · rw [readVarint_small hb] at h
            cases h
            have hlt : b.toNat < 128 := UInt8.lt_iff_toNat_lt.mp hb
            exact ⟨[b], rfl, List.cons_ne_nil _ _, by simpa using hlt⟩
          · rw [readVarint_more hb] at h
            obtain ⟨⟨w, rest'⟩, hrest, heq⟩ := Option.map_eq_some_iff.mp h
            cases heq
            obtain ⟨taken, rfl, -, hw⟩ := ih hrest
            refine ⟨b :: taken, rfl, List.cons_ne_nil _ _, ?_⟩
            rw [List.length_cons, Nat.pow_succ]
            omega

/-- Where there is a varint: a byte that ends it. -/
theorem readVarint_isSome {n : Nat} {bytes : List UInt8} :
    (readVarint n bytes).isSome ↔ ∃ b ∈ bytes.take n, b < 0x80 := by
  induction n generalizing bytes with
  | zero => simp [readVarint]
  | succ n ih =>
      cases bytes with
      | nil => simp [readVarint]
      | cons b bytes =>
          by_cases hb : b < 0x80
          · rw [readVarint_small hb]
            exact iff_of_true rfl ⟨b, List.mem_cons_self, hb⟩
          · rw [readVarint_more hb, Option.isSome_map, ih, List.take_succ_cons]
            simp [hb]

/-- Bytes behind a varint do not change it. -/
theorem readVarint_append {n v : Nat} {bytes rest : List UInt8} (more : List UInt8)
    (h : readVarint n bytes = some (v, rest)) :
    readVarint n (bytes ++ more) = some (v, rest ++ more) := by
  induction n generalizing bytes v with
  | zero => cases h
  | succ n ih =>
      cases bytes with
      | nil => cases h
      | cons b bytes =>
          rw [List.cons_append]
          by_cases hb : b < 0x80
          · rw [readVarint_small hb] at h ⊢
            cases h
            rfl
          · rw [readVarint_more hb] at h ⊢
            obtain ⟨⟨w, rest'⟩, hrest, heq⟩ := Option.map_eq_some_iff.mp h
            cases heq
            rw [ih hrest]
            rfl

/-- Bytes behind a varint that is too long neither. -/
theorem readVarint_eq_none_append {n : Nat} {bytes : List UInt8} (more : List UInt8)
    (h : readVarint n bytes = none) (hlen : n ≤ bytes.length) :
    readVarint n (bytes ++ more) = none := by
  rw [← Option.not_isSome_iff_eq_none, readVarint_isSome] at h ⊢
  rwa [List.take_append_of_le_length hlen]

/-! ## Fields -/

inductive WireValue where
  | varint (v : Nat)
  | fixed64 (bytes : List UInt8)
  | lengthDelimited (bytes : List UInt8)
  | fixed32 (bytes : List UInt8)
deriving DecidableEq

/-- A number of bytes, all of which are there. -/
def readBytes (n : Nat) (bytes : List UInt8) : Option (List UInt8 × List UInt8) :=
  if n ≤ bytes.length then some (bytes.take n, bytes.drop n) else none

def readValue (wireType : Nat) (bytes : List UInt8) : Option (WireValue × List UInt8) :=
  match wireType with
  | 0 => (readVarint 10 bytes).map fun (v, rest) => (.varint (v % 2 ^ 64), rest)
  | 1 => (readBytes 8 bytes).map fun (data, rest) => (.fixed64 data, rest)
  | 2 => (readVarint 10 bytes).bind fun (n, rest) =>
    (readBytes n rest).map fun (data, rest) => (.lengthDelimited data, rest)
  | 5 => (readBytes 4 bytes).map fun (data, rest) => (.fixed32 data, rest)
  | _ => none

/-- A tag is a field number, from 1 on, and a wire type. -/
def readField (bytes : List UInt8) : Option ((Nat × WireValue) × List UInt8) :=
  (readVarint 10 bytes).bind fun (tag, rest) =>
    if tag / 8 = 0 then none
    else (readValue (tag % 8) rest).map fun (value, rest) => ((tag / 8, value), rest)

def readFields : Nat → List UInt8 → Option (List (Nat × WireValue))
  | _, [] => some []
  | 0, _ :: _ => none
  | fuel + 1, b :: bytes =>
    (readField (b :: bytes)).bind fun (field, rest) => (readFields fuel rest).map (field :: ·)

/-- The fields of a message. Each takes a byte at least. -/
def readMessage (bytes : List UInt8) : Option (List (Nat × WireValue)) :=
  readFields bytes.length bytes

/-- What a field of bytes is: the last of its values, or nothing. -/
def bytesField (number : Nat) (fields : List (Nat × WireValue)) : List UInt8 :=
  ((fields.filterMap fun
    | (n, .lengthDelimited data) => if n = number then some data else none
    | _ => none).getLast?).getD []

theorem mem_of_bytesField {number : Nat} {fields : List (Nat × WireValue)}
    (h : bytesField number fields ≠ []) :
    (number, .lengthDelimited (bytesField number fields)) ∈ fields := by
  unfold bytesField at h ⊢
  cases hlast : (fields.filterMap fun
    | (n, .lengthDelimited data) => if n = number then some data else none
    | _ => none).getLast? with
  | none => exact absurd (by rw [hlast]; rfl) h
  | some data =>
      obtain ⟨⟨n, value⟩, hmem, heq⟩ := List.mem_filterMap.mp (List.mem_of_getLast? hlast)
      cases value with
      | lengthDelimited data' =>
          dsimp only at heq
          split at heq
          · rename_i hn
            cases heq
            subst hn
            exact hmem
          · cases heq
      | varint v => cases heq
      | fixed64 data' => cases heq
      | fixed32 data' => cases heq

/-! ## What a message can hold -/

theorem readBytes_spec {n : Nat} {bytes data rest : List UInt8}
    (h : readBytes n bytes = some (data, rest)) : bytes = data ++ rest ∧ data.length = n := by
  unfold readBytes at h
  split at h
  · rename_i hn
    cases h
    exact ⟨(List.take_append_drop n bytes).symm, List.length_take_of_le hn⟩
  · cases h

/-- A field of bytes is longer than its bytes: there is a tag, and a length
that can say how many they are. -/
theorem readField_length {number : Nat} {bytes data rest : List UInt8}
    (h : readField bytes = some ((number, .lengthDelimited data), rest))
    (hlong : 128 ≤ data.length) : data.length + rest.length + 3 ≤ bytes.length := by
  obtain ⟨⟨tag, rest₁⟩, htag, hfield⟩ := Option.bind_eq_some_iff.mp h
  obtain ⟨taken, rfl, htaken, -⟩ := readVarint_spec htag
  have htag_pos := List.length_pos_iff.mpr htaken
  dsimp only at hfield
  split at hfield
  · cases hfield
  · obtain ⟨⟨value, rest₂⟩, hvalue, heq⟩ := Option.map_eq_some_iff.mp hfield
    cases heq
    unfold readValue at hvalue
    split at hvalue
    · obtain ⟨_, -, heq⟩ := Option.map_eq_some_iff.mp hvalue
      cases heq
    · obtain ⟨_, -, heq⟩ := Option.map_eq_some_iff.mp hvalue
      cases heq
    · obtain ⟨⟨n, rest₃⟩, hn, hdata⟩ := Option.bind_eq_some_iff.mp hvalue
      obtain ⟨⟨data', rest₄⟩, hbytes, heq⟩ := Option.map_eq_some_iff.mp hdata
      cases heq
      obtain ⟨size, rfl, hsize, hbound⟩ := readVarint_spec hn
      obtain ⟨rfl, rfl⟩ := readBytes_spec hbytes
      -- one byte says less than 128
      have htwo : 2 ≤ size.length := by
        by_contra hone
        have hle : size.length ≤ 1 := by omega
        have := Nat.pow_le_pow_right (n := 128) (by decide) hle
        omega
      simp only [List.length_append]
      omega
    · obtain ⟨_, -, heq⟩ := Option.map_eq_some_iff.mp hvalue
      cases heq
    · cases hvalue

theorem readField_rest {bytes rest : List UInt8} {field : Nat × WireValue}
    (h : readField bytes = some (field, rest)) : rest.length ≤ bytes.length := by
  have hvarint {n v : Nat} {bytes rest : List UInt8} (h : readVarint n bytes = some (v, rest)) :
      rest.length ≤ bytes.length := by
    obtain ⟨taken, rfl, -⟩ := readVarint_spec h
    simp
  have hbytes {n : Nat} {bytes data rest : List UInt8} (h : readBytes n bytes = some (data, rest)) :
      rest.length ≤ bytes.length := by
    rw [(readBytes_spec h).1]
    simp
  obtain ⟨⟨tag, rest₁⟩, htag, h⟩ := Option.bind_eq_some_iff.mp h
  refine le_trans ?_ (hvarint htag)
  dsimp only at h
  split at h
  · cases h
  · obtain ⟨⟨value, rest₂⟩, hvalue, heq⟩ := Option.map_eq_some_iff.mp h
    cases heq
    unfold readValue at hvalue
    split at hvalue
    · obtain ⟨_, hread, heq⟩ := Option.map_eq_some_iff.mp hvalue
      cases heq
      exact hvarint hread
    · obtain ⟨_, hread, heq⟩ := Option.map_eq_some_iff.mp hvalue
      cases heq
      exact hbytes hread
    · obtain ⟨_, hn, hdata⟩ := Option.bind_eq_some_iff.mp hvalue
      obtain ⟨_, hread, heq⟩ := Option.map_eq_some_iff.mp hdata
      cases heq
      exact (hbytes hread).trans (hvarint hn)
    · obtain ⟨_, hread, heq⟩ := Option.map_eq_some_iff.mp hvalue
      cases heq
      exact hbytes hread
    · cases hvalue

/-- **A message is longer than what it holds.** -/
theorem readFields_length {fuel number : Nat} {bytes data : List UInt8}
    {fields : List (Nat × WireValue)} (h : readFields fuel bytes = some fields)
    (hmem : (number, .lengthDelimited data) ∈ fields) (hlong : 128 ≤ data.length) :
    data.length + 3 ≤ bytes.length := by
  induction fuel generalizing bytes fields with
  | zero =>
      cases bytes with
      | nil =>
          cases h
          cases hmem
      | cons b bytes => cases h
  | succ fuel ih =>
      cases bytes with
      | nil =>
          cases h
          cases hmem
      | cons b bytes =>
          obtain ⟨⟨field, rest⟩, hfield, hrest⟩ := Option.bind_eq_some_iff.mp h
          obtain ⟨others, hothers, rfl⟩ := Option.map_eq_some_iff.mp hrest
          rcases List.mem_cons.mp hmem with rfl | hmem
          · have := readField_length hfield hlong
            omega
          · exact (ih hothers hmem).trans (readField_rest hfield)

end Aperio.Protobuf
