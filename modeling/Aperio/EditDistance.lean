import Mathlib.Data.List.Basic

/-!
# Edit distance

An edit inserts, removes or replaces one element anywhere in a list. The
distance of two lists is the least number of edits from one to the other;
`editDistance` computes it from their heads (`editDistance_least`).

Edits do not know a front from a back, so the distance of two lists is that of
their reverses, and it follows the recurrence from their last elements as well
(`editDistance_concat`): the one a table by prefixes is filled with. Every
distance is at least the smallest entry of each earlier row
(`exists_take_le`).
-/

namespace Aperio

variable {α : Type*}

/-! ## Edits -/

/-- One edit. -/
inductive ListEdit : List α → List α → Prop
  | insert (l r : List α) (x : α) : ListEdit (l ++ r) (l ++ x :: r)
  | remove (l r : List α) (x : α) : ListEdit (l ++ x :: r) (l ++ r)
  | replace (l r : List α) (x y : α) : ListEdit (l ++ x :: r) (l ++ y :: r)

/-- `n` edits, one after the other. -/
inductive ListEdits : Nat → List α → List α → Prop
  | refl (l : List α) : ListEdits 0 l l
  | step {n : Nat} {l m r : List α} : ListEdits n l m → ListEdit m r → ListEdits (n + 1) l r

theorem ListEdit.cons {l r : List α} (x : α) (h : ListEdit l r) : ListEdit (x :: l) (x :: r) := by
  cases h with
  | insert l r y => exact .insert (x :: l) r y
  | remove l r y => exact .remove (x :: l) r y
  | replace l r y z => exact .replace (x :: l) r y z

theorem ListEdit.reverse {l r : List α} (h : ListEdit l r) : ListEdit l.reverse r.reverse := by
  cases h with
  | insert l r x =>
      rw [List.reverse_append, List.reverse_append, List.reverse_cons, List.append_assoc]
      exact .insert r.reverse l.reverse x
  | remove l r x =>
      rw [List.reverse_append, List.reverse_append, List.reverse_cons, List.append_assoc]
      exact .remove r.reverse l.reverse x
  | replace l r x y =>
      rw [List.reverse_append, List.reverse_append, List.reverse_cons, List.reverse_cons,
        List.append_assoc, List.append_assoc]
      exact .replace r.reverse l.reverse x y

namespace ListEdits

variable {n m : Nat} {a b c : List α}

theorem cons (x : α) (h : ListEdits n a b) : ListEdits n (x :: a) (x :: b) := by
  induction h with
  | refl l => exact .refl (x :: l)
  | step _ hedit ih => exact .step ih (hedit.cons x)

theorem reverse (h : ListEdits n a b) : ListEdits n a.reverse b.reverse := by
  induction h with
  | refl l => exact .refl l.reverse
  | step _ hedit ih => exact .step ih hedit.reverse

/-- An edit before the others. -/
theorem head (hedit : ListEdit a b) (h : ListEdits n b c) : ListEdits (n + 1) a c := by
  induction h with
  | refl l => exact .step (.refl a) hedit
  | step _ hlast ih => exact .step (ih hedit) hlast

theorem removeAll (a : List α) : ListEdits a.length a [] := by
  induction a with
  | nil => exact .refl []
  | cons x a ih => exact .head (.remove [] a x) ih

theorem insertAll (b : List α) : ListEdits b.length [] b := by
  induction b with
  | nil => exact .refl []
  | cons x b ih => exact .step ih (.insert [] b x)

end ListEdits

/-! ## The distance -/

variable [DecidableEq α]

/-- What it costs that `x` stands where `y` does. -/
def replaceCost (x y : α) : Nat :=
  if x = y then 0 else 1

theorem replaceCost_le (x y : α) : replaceCost x y ≤ 1 := by
  unfold replaceCost
  split
  · exact Nat.zero_le 1
  · exact Nat.le_refl 1

/-- The least number of edits from one list to the other
(`editDistance_least`). -/
def editDistance : List α → List α → Nat
  | [], b => b.length
  | a, [] => a.length
  | x :: a, y :: b =>
    min (min (editDistance a b + replaceCost x y) (editDistance a (y :: b) + 1))
      (editDistance (x :: a) b + 1)
termination_by a b => a.length + b.length

theorem editDistance_nil_left (b : List α) : editDistance [] b = b.length := by
  rw [editDistance]

theorem editDistance_nil_right (a : List α) : editDistance a [] = a.length := by
  cases a with
  | nil => rw [editDistance]
  | cons x a => rw [editDistance]; nofun

theorem editDistance_cons (x y : α) (a b : List α) :
    editDistance (x :: a) (y :: b) =
      min (min (editDistance a b + replaceCost x y) (editDistance a (y :: b) + 1))
        (editDistance (x :: a) b + 1) := by
  rw [editDistance]

theorem editDistance_cons_left_le (x : α) (a b : List α) :
    editDistance (x :: a) b ≤ editDistance a b + 1 := by
  cases b with
  | nil =>
      exact Nat.le_of_eq (by rw [editDistance_nil_right, editDistance_nil_right, List.length_cons])
  | cons y b =>
      rw [editDistance_cons]
      omega

theorem editDistance_cons_right_le (y : α) (a b : List α) :
    editDistance a (y :: b) ≤ editDistance a b + 1 := by
  cases a with
  | nil =>
      exact Nat.le_of_eq (by rw [editDistance_nil_left, editDistance_nil_left, List.length_cons])
  | cons x a =>
      rw [editDistance_cons]
      omega

theorem editDistance_cons_cons_le (x y : α) (a b : List α) :
    editDistance (x :: a) (y :: b) ≤ editDistance a b + replaceCost x y := by
  rw [editDistance_cons]
  omega

/-- The distance is reached. -/
theorem editDistance_edits (a b : List α) : ListEdits (editDistance a b) a b := by
  induction a, b using editDistance.induct with
  | case1 b =>
      rw [editDistance_nil_left]
      exact .insertAll b
  | case2 a =>
      rw [editDistance_nil_right]
      exact .removeAll a
  | case3 x a y b ihBoth ihLeft ihRight =>
      rw [editDistance_cons]
      have hboth : ListEdits (editDistance a b + replaceCost x y) (x :: a) (y :: b) := by
        unfold replaceCost
        split
        · rename_i heq
          exact heq ▸ ihBoth.cons x
        · exact .step (ihBoth.cons x) (.replace [] b x y)
      have hleft : ListEdits (editDistance a (y :: b) + 1) (x :: a) (y :: b) :=
        .head (.remove [] a x) ihLeft
      have hright : ListEdits (editDistance (x :: a) b + 1) (x :: a) (y :: b) :=
        .step ihRight (.insert [] b y)
      rcases Nat.le_total (editDistance a b + replaceCost x y)
        (editDistance a (y :: b) + 1) with h | h
      · rw [Nat.min_eq_left h]
        rcases Nat.le_total (editDistance a b + replaceCost x y)
          (editDistance (x :: a) b + 1) with h' | h'
        · rwa [Nat.min_eq_left h']
        · rwa [Nat.min_eq_right h']
      · rw [Nat.min_eq_right h]
        rcases Nat.le_total (editDistance a (y :: b) + 1)
          (editDistance (x :: a) b + 1) with h' | h'
        · rwa [Nat.min_eq_left h']
        · rwa [Nat.min_eq_right h']

/-- What is one edit further from every list is so behind one more element. -/
theorem cons_near {u v : List α} (h : ∀ a, editDistance a v ≤ editDistance a u + 1) (y : α)
    (a : List α) : editDistance a (y :: v) ≤ editDistance a (y :: u) + 1 := by
  induction a with
  | nil =>
      have := h []
      rw [editDistance_nil_left, editDistance_nil_left] at this ⊢
      rw [List.length_cons, List.length_cons]
      omega
  | cons x a ih =>
      have := h a
      have := h (x :: a)
      rw [editDistance_cons, editDistance_cons]
      omega

theorem ListEdit.near {u v : List α} (hedit : ListEdit u v) (a : List α) :
    editDistance a v ≤ editDistance a u + 1 := by
  cases hedit with
  | insert l r y =>
      induction l generalizing a with
      | nil => exact editDistance_cons_right_le y a r
      | cons z l ih => exact cons_near ih z a
  | remove l r y =>
      induction l generalizing a with
      | nil =>
          rw [List.nil_append, List.nil_append]
          induction a with
          | nil =>
              rw [editDistance_nil_left, editDistance_nil_left, List.length_cons]
              omega
          | cons x a ih =>
              have := editDistance_cons_left_le x a r
              rw [editDistance_cons]
              omega
      | cons z l ih => exact cons_near ih z a
  | replace l r y z =>
      induction l generalizing a with
      | nil =>
          rw [List.nil_append, List.nil_append]
          induction a with
          | nil =>
              rw [editDistance_nil_left, editDistance_nil_left, List.length_cons, List.length_cons]
              omega
          | cons x a ih =>
              have := replaceCost_le x z
              rw [editDistance_cons, editDistance_cons]
              omega
      | cons w l ih => exact cons_near ih w a

/-- **The distance is the least number of edits.** -/
theorem editDistance_least {n : Nat} {a b : List α} (h : ListEdits n a b) : editDistance a b ≤ n := by
  induction h with
  | refl l =>
      induction l with
      | nil =>
          rw [editDistance_nil_left]
          exact Nat.le_refl 0
      | cons x l ih =>
          have := editDistance_cons_cons_le x x l l
          rw [replaceCost, if_pos rfl] at this
          omega
  | step _ hedit ih => exact Nat.le_trans (hedit.near _) (Nat.succ_le_succ ih)

/-! ## From the end -/

theorem editDistance_reverse (a b : List α) :
    editDistance a.reverse b.reverse = editDistance a b := by
  refine Nat.le_antisymm (editDistance_least (editDistance_edits a b).reverse) ?_
  have := (editDistance_edits a.reverse b.reverse).reverse
  rw [List.reverse_reverse, List.reverse_reverse] at this
  exact editDistance_least this

/-- The recurrence from the last elements. -/
theorem editDistance_concat (a b : List α) (x y : α) :
    editDistance (a ++ [x]) (b ++ [y]) =
      min (min (editDistance a b + replaceCost x y) (editDistance a (b ++ [y]) + 1))
        (editDistance (a ++ [x]) b + 1) := by
  rw [← editDistance_reverse a b, ← editDistance_reverse a (b ++ [y]),
    ← editDistance_reverse (a ++ [x]) b, ← editDistance_reverse (a ++ [x]) (b ++ [y])]
  simp only [List.reverse_append, List.reverse_singleton, List.singleton_append]
  exact editDistance_cons x y a.reverse b.reverse

/-- A beginning of `a` is as near to some beginning of `b`. -/
theorem exists_take_le (p q b : List α) :
    ∃ k ≤ b.length, editDistance p (b.take k) ≤ editDistance (p ++ q) b := by
  induction p generalizing b with
  | nil => exact ⟨0, Nat.zero_le _, by rw [List.take_zero, editDistance_nil_left]; exact Nat.zero_le _⟩
  | cons x p ihLeft =>
      induction b with
      | nil =>
          refine ⟨0, Nat.le_refl 0, ?_⟩
          rw [List.take_nil, editDistance_nil_right, editDistance_nil_right, List.length_append]
          exact Nat.le_add_right _ _
      | cons y b ihRight =>
          obtain ⟨i, hi, hboth⟩ := ihLeft b
          obtain ⟨j, hj, hleft⟩ := ihLeft (y :: b)
          obtain ⟨k, hk, hright⟩ := ihRight
          rw [List.cons_append] at hright ⊢
          rw [editDistance_cons]
          have hboth' := editDistance_cons_cons_le x y p (b.take i)
          have hleft' := editDistance_cons_left_le x p ((y :: b).take j)
          have hright' := editDistance_cons_right_le y (x :: p) (b.take k)
          rcases Nat.le_total (editDistance (p ++ q) b + replaceCost x y)
            (editDistance (p ++ q) (y :: b) + 1) with h | h
          · rw [Nat.min_eq_left h]
            rcases Nat.le_total (editDistance (p ++ q) b + replaceCost x y)
              (editDistance (x :: (p ++ q)) b + 1) with h' | h'
            · rw [Nat.min_eq_left h']
              refine ⟨i + 1, Nat.succ_le_succ hi, ?_⟩
              rw [List.take_succ_cons]
              omega
            · rw [Nat.min_eq_right h']
              refine ⟨k + 1, Nat.succ_le_succ hk, ?_⟩
              rw [List.take_succ_cons]
              omega
          · rw [Nat.min_eq_right h]
            rcases Nat.le_total (editDistance (p ++ q) (y :: b) + 1)
              (editDistance (x :: (p ++ q)) b + 1) with h' | h'
            · rw [Nat.min_eq_left h']
              exact ⟨j, hj, by omega⟩
            · rw [Nat.min_eq_right h']
              refine ⟨k + 1, Nat.succ_le_succ hk, ?_⟩
              rw [List.take_succ_cons]
              omega

/-- Lists that differ in length are that far apart. -/
theorem length_sub_le_editDistance (a b : List α) :
    a.length - b.length ≤ editDistance a b ∧ b.length - a.length ≤ editDistance a b := by
  induction a, b using editDistance.induct with
  | case1 b =>
      rw [editDistance_nil_left, List.length_nil]
      omega
  | case2 a =>
      rw [editDistance_nil_right, List.length_nil]
      omega
  | case3 x a y b ihBoth ihLeft ihRight =>
      rw [editDistance_cons]
      simp only [List.length_cons] at ihBoth ihLeft ihRight ⊢
      omega

end Aperio
