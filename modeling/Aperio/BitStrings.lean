import Mathlib.Data.List.Induction
import Mathlib.Algebra.Order.Ring.Nat
import Mathlib.Tactic.Ring

/-!
# Numbers as strings of bits

The bits of a number, the highest first, and a string of bits cut into groups
of one width. What is written in groups of one width and read in groups of
another is the same string of bits on both sides, up to the padding of the
last group: a reader that drops an incomplete group does not see it.
-/

namespace Aperio

namespace BitString

/-- The number a string of bits spells. -/
def value (bits : List Bool) : Nat :=
  bits.foldl (fun n b => 2 * n + b.toNat) 0

/-- The lowest `w` bits of a number. -/
def ofNat : Nat → Nat → List Bool
  | 0, _ => []
  | w + 1, n => ofNat w (n / 2) ++ [n.testBit 0]

variable {l m : List Bool} {w k n : Nat} {b : Bool}

/-! ## Values -/

@[simp] theorem value_nil : value [] = 0 :=
  rfl

theorem value_concat : value (l ++ [b]) = 2 * value l + b.toNat := by
  simp [value]

theorem value_append : value (l ++ m) = value l * 2 ^ m.length + value m := by
  induction m using List.reverseRecOn with
  | nil => simp
  | append_singleton m b ih =>
      rw [← List.append_assoc, value_concat, ih, value_concat, List.length_append,
        List.length_singleton, pow_succ]
      ring

theorem value_lt : value l < 2 ^ l.length := by
  induction l using List.reverseRecOn with
  | nil => simp
  | append_singleton l b ih =>
      have hb := b.toNat_le
      rw [value_concat, List.length_append, List.length_singleton, pow_succ]
      omega

@[simp] theorem length_ofNat : (ofNat w n).length = w := by
  induction w generalizing n with
  | zero => rfl
  | succ w ih => rw [ofNat, List.length_append, ih, List.length_singleton]

theorem value_ofNat : value (ofNat w n) = n % 2 ^ w := by
  induction w generalizing n with
  | zero => simp [ofNat, Nat.mod_one]
  | succ w ih =>
      rw [ofNat, value_concat, ih, Nat.testBit_zero, pow_succ']
      have hbit : (decide (n % 2 = 1)).toNat = n % 2 := by
        rcases Nat.mod_two_eq_zero_or_one n with h | h
        · rw [h]
          rfl
        · rw [h]
          rfl
      rw [hbit, Nat.mod_mul, Nat.add_comm]

theorem value_ofNat_of_lt (h : n < 2 ^ w) : value (ofNat w n) = n := by
  rw [value_ofNat, Nat.mod_eq_of_lt h]

theorem ofNat_value (h : l.length = w) : ofNat w (value l) = l := by
  subst h
  induction l using List.reverseRecOn with
  | nil => rfl
  | append_singleton l b ih =>
      have hhalf : value (l ++ [b]) / 2 = value l := by
        have hb := b.toNat_le
        rw [value_concat]
        omega
      have hlow : (value (l ++ [b])).testBit 0 = b := by
        rw [value_concat, Nat.testBit_zero]
        cases b
        · simp
        · simp [Nat.add_mod]
      rw [List.length_append, List.length_singleton, ofNat, hhalf, hlow, ih]

@[simp] theorem value_replicate_false : value (List.replicate k false) = 0 := by
  induction k with
  | zero => rfl
  | succ k ih => rw [List.replicate_succ', value_concat, ih]; rfl

/-- The bits from the front of a string, and those behind them. -/
theorem value_div (h : l.length = k + w) : value l / 2 ^ w = value (l.take k) := by
  have hrest : (l.drop k).length = w := by
    rw [List.length_drop]
    omega
  have hlt := value_lt (l := l.drop k)
  conv_lhs => rw [← List.take_append_drop k l, value_append]
  rw [hrest] at hlt ⊢
  rw [Nat.mul_comm, Nat.mul_add_div (Nat.two_pow_pos w), Nat.div_eq_of_lt hlt, Nat.add_zero]

theorem value_mod (h : l.length = k + w) : value l % 2 ^ w = value (l.drop k) := by
  have hrest : (l.drop k).length = w := by
    rw [List.length_drop]
    omega
  have hlt := value_lt (l := l.drop k)
  conv_lhs => rw [← List.take_append_drop k l, value_append]
  rw [hrest] at hlt ⊢
  rw [Nat.mul_comm, Nat.mul_add_mod, Nat.mod_eq_of_lt hlt]

/-! ## Groups -/

/-- The complete groups of a string, each as its number. -/
def groups (w : Nat) (l : List Bool) : List Nat :=
  if _h : 0 < w ∧ w ≤ l.length then value (l.take w) :: groups w (l.drop w) else []
termination_by l.length
decreasing_by
  rw [List.length_drop]
  omega

/-- An incomplete group is dropped. -/
theorem groups_of_lt (h : l.length < w) : groups w l = [] := by
  rw [groups, dif_neg]
  omega

theorem groups_append (hw : 0 < w) (h : l.length = w) :
    groups w (l ++ m) = value l :: groups w m := by
  rw [groups, dif_pos, List.take_left' h, List.drop_left' h]
  rw [List.length_append]
  omega

/-- What was written in groups is read back from them, whatever padding
follows. -/
theorem groups_flatMap {xs : List Nat} (hw : 0 < w) (hxs : ∀ x ∈ xs, x < 2 ^ w)
    (hm : m.length < w) : groups w (xs.flatMap (ofNat w) ++ m) = xs := by
  induction xs with
  | nil => exact groups_of_lt hm
  | cons x xs ih =>
      rw [List.flatMap_cons, List.append_assoc, groups_append hw length_ofNat,
        value_ofNat_of_lt (hxs x List.mem_cons_self),
        ih fun y hy => hxs y (List.mem_cons_of_mem _ hy)]

end BitString

end Aperio
