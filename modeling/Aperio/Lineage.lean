import Mathlib.Data.List.Chain
import Mathlib.Data.List.Nodup

/-!
# Chains with one past

A relation in which an element names its predecessor, as a block names its
parent by hash. A list is a lineage of it when every element has the one
before it as its only predecessor and the first has none. What stands before
an element of a lineage is then fixed: every chain that ends in it is a
suffix of the lineage up to there, so no two of its elements are equal and
nothing can be put between two of them.
-/

namespace Aperio

variable {α : Type*} {r : α → α → Prop}

/-- `a` is the only predecessor of `b`. -/
def OnlyBefore (r : α → α → Prop) (a b : α) : Prop :=
  r a b ∧ ∀ a', r a' b → a' = a

structure Lineage (r : α → α → Prop) (l : List α) : Prop where
  chain : l.IsChain (OnlyBefore r)
  root : ∀ a ∈ l.head?, ∀ a', ¬ r a' a

namespace Lineage

variable {l xs ys : List α} {a b : α}

theorem isChain (h : Lineage r l) : l.IsChain r :=
  h.chain.imp fun _ _ hab => hab.1

theorem left (h : Lineage r (xs ++ ys)) : Lineage r xs := by
  refine ⟨h.chain.left_of_append, fun a ha => h.root a ?_⟩
  rw [Option.mem_def] at ha ⊢
  rw [List.head?_append, ha, Option.some_or]

/-- A chain into an element of a lineage repeats its past. -/
theorem suffix (h : Lineage r (ys ++ [a])) (hxs : (xs ++ [a]).IsChain r) : xs <:+ ys := by
  induction ys using List.reverseRecOn generalizing xs a with
  | nil =>
      cases xs using List.reverseRecOn with
      | nil => exact List.suffix_rfl
      | append_singleton xs x =>
          rw [List.append_assoc, List.singleton_append, List.isChain_append_cons_cons] at hxs
          exact absurd hxs.2.1 (h.root a rfl x)
  | append_singleton ys y ih =>
      cases xs using List.reverseRecOn with
      | nil => exact List.nil_suffix
      | append_singleton xs x =>
          rw [List.append_assoc, List.singleton_append, List.isChain_append_cons_cons] at hxs
          have hlast : OnlyBefore r y a := by
            have hchain := h.chain
            rw [List.append_assoc, List.singleton_append, List.isChain_append_cons_cons] at hchain
            exact hchain.2.1
          obtain rfl : x = y := hlast.2 x hxs.2.1
          obtain ⟨front, hfront⟩ := ih h.left hxs.1
          exact ⟨front, by rw [← hfront, List.append_assoc]⟩

theorem nodup (h : Lineage r l) : l.Nodup := by
  induction l using List.reverseRecOn with
  | nil => exact List.nodup_nil
  | append_singleton ys a ih =>
      refine List.nodup_append.mpr ⟨ih h.left, List.nodup_singleton a, ?_⟩
      intro x hx y hy
      obtain rfl : y = a := List.mem_singleton.mp hy
      rintro rfl
      -- the chain up to the second occurrence would be past to the first
      obtain ⟨front, back, rfl⟩ := List.append_of_mem hx
      have hfirst : Lineage r (front ++ [x]) := by
        have hl := h.left
        rw [← List.singleton_append, ← List.append_assoc] at hl
        exact hl.left
      have hlen := (hfirst.suffix h.isChain).length_le
      rw [List.length_append, List.length_cons] at hlen
      omega

/-- Between two elements of a lineage there is what was there. -/
theorem between (h : Lineage r (xs ++ a :: ys ++ [b])) {zs : List α}
    (hzs : (a :: zs ++ [b]).IsChain r) : zs = ys := by
  obtain ⟨front, hfront⟩ := h.suffix hzs
  have hnodup : (front ++ a :: zs).Nodup := by
    rw [hfront]
    exact h.left.nodup
  have hfree := List.nodup_middle.mp hnodup
  rw [List.nodup_cons, List.mem_append, not_or] at hfree
  exact ((List.append_cons_inj_of_notMem hfree.1.1 hfree.1.2).mp hfront).2.2

end Lineage

end Aperio
