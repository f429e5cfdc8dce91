import Mathlib.Data.List.AList
import Mathlib.Algebra.BigOperators.Group.List.Basic
import Mathlib.Algebra.GroupWithZero.Nat

/-!
# Sums over the entries of a map

A counter that a program keeps beside a map, and adjusts by hand with every
insertion and removal, is meant to be a sum over the map's entries. `sumOver`
is that sum. Insertions and removals are both reduced to `AList.erase`, so
that a step which moves one entry leaves one shared remainder and the rest is
arithmetic.
-/

namespace Aperio

section

variable {κ V : Type} [DecidableEq κ] {f g : κ → V → Nat} {m : AList fun _ : κ => V}
  {k : κ} {v : V}

def sumOver (f : κ → V → Nat) (m : AList fun _ : κ => V) : Nat :=
  (m.entries.map fun e => f e.1 e.2).sum

omit [DecidableEq κ] in
@[simp] theorem sumOver_empty : sumOver f (∅ : AList fun _ : κ => V) = 0 := rfl

theorem sumOver_insert (f : κ → V → Nat) (m : AList fun _ : κ => V) (k : κ) (v : V) :
    sumOver f (m.insert k v) = f k v + sumOver f (m.erase k) := by
  rw [sumOver, AList.entries_insert, List.map_cons, List.sum_cons]
  rfl

/-- An entry that is there is one summand; the others are the map without
it. -/
theorem sumOver_of_lookup (f : κ → V → Nat) (h : m.lookup k = some v) :
    sumOver f m = f k v + sumOver f (m.erase k) := by
  have hk : k ∈ m.entries.keys := by
    rw [← List.dlookup_isSome]
    exact Option.isSome_iff_exists.mpr ⟨v, h⟩
  obtain ⟨w, l₁, l₂, hnot, hentries, herase⟩ := List.exists_of_kerase hk
  have hw : w = v := by
    rw [AList.lookup, hentries, List.dlookup_append, List.dlookup_eq_none.mpr hnot] at h
    simpa using h
  subst hw
  have hsum : sumOver f (m.erase k) = ((l₁ ++ l₂).map fun e => f e.1 e.2).sum :=
    congrArg (fun l => (l.map fun e => f e.1 e.2).sum) herase
  rw [hsum, sumOver, hentries]
  simp only [List.map_append, List.map_cons, List.sum_append, List.sum_cons]
  omega

theorem erase_of_lookup_eq_none (h : m.lookup k = none) : m.erase k = m := by
  apply AList.ext
  exact List.kerase_of_notMem_keys (AList.lookup_eq_none.mp h)

theorem sumOver_erase_le (f : κ → V → Nat) (m : AList fun _ : κ => V) (k : κ) :
    sumOver f (m.erase k) ≤ sumOver f m := by
  cases h : m.lookup k with
  | none => rw [erase_of_lookup_eq_none h]
  | some v => exact (sumOver_of_lookup f h).symm ▸ Nat.le_add_left _ _

/-- A sum counts something when one of its summands does. -/
theorem sumOver_ne_zero_iff : sumOver f m ≠ 0 ↔ ∃ k v, m.lookup k = some v ∧ f k v ≠ 0 := by
  constructor
  · intro h
    by_contra hnone
    refine h (List.sum_eq_zero fun n hn => ?_)
    obtain ⟨e, he, rfl⟩ := List.mem_map.mp hn
    by_contra hne
    exact hnone ⟨e.1, e.2, AList.mem_lookup_iff.mpr he, hne⟩
  · rintro ⟨k, v, hlookup, hne⟩
    rw [sumOver_of_lookup f hlookup]
    omega

omit [DecidableEq κ] in
/-- The number of entries a predicate picks out, as a sum. -/
theorem length_filter_eq_sumOver (p : κ → V → Bool) (m : AList fun _ : κ => V) :
    (m.entries.filter fun e => p e.1 e.2).length = sumOver (fun k v => (p k v).toNat) m := by
  rw [sumOver]
  induction m.entries with
  | nil => rfl
  | cons e rest ih => cases h : p e.1 e.2 <;> simp [h, ih, Nat.add_comm]

end

end Aperio
