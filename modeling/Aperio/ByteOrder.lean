import Mathlib.Algebra.Group.Nat.Defs

/-!
# Numbers as bytes

Fixed-width encodings of a number, low byte first (`leBytes`) and high byte
first (`beBytes`), and the readers of both. A number that does not fit loses
its high bytes, as a cast does.
-/

namespace Aperio

/-- The low `width` bytes of a number, low byte first. -/
def leBytes : Nat → Nat → List UInt8
  | 0, _ => []
  | width + 1, n => UInt8.ofNat n :: leBytes width (n / 256)

/-- The number some bytes are, low byte first. -/
def ofLeBytes : List UInt8 → Nat
  | [] => 0
  | b :: rest => b.toNat + 256 * ofLeBytes rest

/-- The same, high byte first. -/
def beBytes (width n : Nat) : List UInt8 :=
  (leBytes width n).reverse

def ofBeBytes (bytes : List UInt8) : Nat :=
  ofLeBytes bytes.reverse

@[simp] theorem length_leBytes (width n : Nat) : (leBytes width n).length = width := by
  induction width generalizing n with
  | zero => rfl
  | succ width ih => rw [leBytes, List.length_cons, ih]

@[simp] theorem length_beBytes (width n : Nat) : (beBytes width n).length = width := by
  rw [beBytes, List.length_reverse, length_leBytes]

theorem ofLeBytes_leBytes (width n : Nat) : ofLeBytes (leBytes width n) = n % 256 ^ width := by
  induction width generalizing n with
  | zero => rw [Nat.pow_zero, Nat.mod_one, leBytes, ofLeBytes]
  | succ width ih =>
      have hlow : (UInt8.ofNat n).toNat = n % 256 := by simp
      rw [leBytes, ofLeBytes, ih, hlow, Nat.pow_succ', Nat.mod_mul]

/-- A number that fits is read back. -/
theorem ofLeBytes_leBytes_of_lt {width n : Nat} (h : n < 256 ^ width) :
    ofLeBytes (leBytes width n) = n := by
  rw [ofLeBytes_leBytes, Nat.mod_eq_of_lt h]

theorem ofBeBytes_beBytes_of_lt {width n : Nat} (h : n < 256 ^ width) :
    ofBeBytes (beBytes width n) = n := by
  rw [ofBeBytes, beBytes, List.reverse_reverse, ofLeBytes_leBytes_of_lt h]

/-- Two numbers that fit and have one encoding are one number. -/
theorem beBytes_inj {width m n : Nat} (hm : m < 256 ^ width) (hn : n < 256 ^ width)
    (h : beBytes width m = beBytes width n) : m = n := by
  rw [← ofBeBytes_beBytes_of_lt hm, h, ofBeBytes_beBytes_of_lt hn]

end Aperio
