import Mathlib.Data.List.NodupEquivFin
import Mathlib.Order.Monotone.Basic

/-!
# A window that slides over a log

A queue keeps the instants of what was admitted, the oldest first. Who comes
drops from its front what is older than the window, is turned away when `n` are
left, and is put at its end otherwise. The queue forgets, so what it bounds is
said of the log of everything that was ever admitted: between an admission and
the `n`-th after it more than a window passes (`KeepsWindow.spaced`), and so no
window holds more than `n` of them (`KeepsWindow.length_le`).
-/

namespace Aperio

/-- What the queue holds once it has dropped what is older than `w`. -/
def evict (w now : Nat) (queue : List Nat) : List Nat :=
  queue.dropWhile fun t => decide (t + w < now)

/-- More than `w` lies between an entry and the `n`-th after it. -/
def Spaced (n w : Nat) (log : List Nat) : Prop :=
  ∀ i early late, log[i]? = some early → log[i + n]? = some late → early + w < late

/-- The queue is the end of a sorted log, and what is before it is older than
the window. -/
structure KeepsWindow (n w clock : Nat) (queue log : List Nat) : Prop where
  sorted : log.Pairwise (· ≤ ·)
  past : ∀ t ∈ log, t ≤ clock
  spaced : Spaced n w log
  suffix : ∃ old, log = old ++ queue ∧ ∀ t ∈ old, t + w < clock

namespace KeepsWindow

variable {n w clock clock' : Nat} {queue log : List Nat}

theorem start (n w clock : Nat) : KeepsWindow n w clock [] [] where
  sorted := .nil
  past := fun _ h => nomatch h
  spaced := fun _ _ _ h => nomatch h
  suffix := ⟨[], rfl, fun _ h => nomatch h⟩

theorem later (h : KeepsWindow n w clock queue log) (hle : clock ≤ clock') :
    KeepsWindow n w clock' queue log := by
  obtain ⟨old, hlog, hold⟩ := h.suffix
  exact ⟨h.sorted, fun t ht => (h.past t ht).trans hle, h.spaced, old, hlog,
    fun t ht => (hold t ht).trans_le hle⟩

theorem evict (h : KeepsWindow n w clock queue log) :
    KeepsWindow n w clock (evict w clock queue) log := by
  obtain ⟨old, hlog, hold⟩ := h.suffix
  refine ⟨h.sorted, h.past, h.spaced,
    old ++ queue.takeWhile fun t => decide (t + w < clock), ?_, ?_⟩
  · rw [Aperio.evict, List.append_assoc, List.takeWhile_append_dropWhile, hlog]
  · intro t ht
    rcases List.mem_append.mp ht with ht | ht
    · exact hold t ht
    · exact of_decide_eq_true (List.all_eq_true.mp List.all_takeWhile t ht)

/-- One more is admitted while fewer than `n` are left. -/
theorem push (h : KeepsWindow n w clock queue log) (hroom : queue.length < n) :
    KeepsWindow n w clock (queue ++ [clock]) (log ++ [clock]) := by
  obtain ⟨old, hlog, hold⟩ := h.suffix
  refine ⟨?_, ?_, ?_, old, ?_, hold⟩
  · refine List.pairwise_append.mpr ⟨h.sorted, List.pairwise_singleton _ _, ?_⟩
    intro t ht t' ht'
    rw [List.mem_singleton.mp ht']
    exact h.past t ht
  · intro t ht
    rcases List.mem_append.mp ht with ht | ht
    · exact h.past t ht
    · rw [List.mem_singleton.mp ht]
  · intro i early late hearly hlate
    have hlen := (List.getElem?_eq_some_iff.mp hlate).1
    rw [List.length_append, List.length_singleton] at hlen
    rw [List.getElem?_append_left (by omega)] at hearly
    by_cases hlast : i + n < log.length
    · rw [List.getElem?_append_left hlast] at hlate
      exact h.spaced i early late hearly hlate
    · -- The `n`-th before the one that comes has left the queue.
      rw [List.getElem?_append_right (by omega),
        show i + n - log.length = 0 by omega] at hlate
      obtain rfl := Option.some.inj hlate
      have hlogLen : log.length = old.length + queue.length := by rw [hlog, List.length_append]
      rw [hlog, List.getElem?_append_left (by omega)] at hearly
      exact hold early (List.mem_of_getElem? hearly)
  · rw [hlog, List.append_assoc]

/-- **No window holds more than `n`.** -/
theorem length_le (h : KeepsWindow n w clock queue log) (a : Nat) :
    (log.filter fun t => decide (a ≤ t ∧ t ≤ a + w)).length ≤ n := by
  by_contra hmore
  generalize hinside : (log.filter fun t => decide (a ≤ t ∧ t ≤ a + w)) = inside at hmore
  have hwithin : ∀ t ∈ inside, a ≤ t ∧ t ≤ a + w := by
    intro t ht
    rw [← hinside] at ht
    exact of_decide_eq_true (List.mem_filter.mp ht).2
  have hsub : inside.Sublist log := hinside ▸ List.filter_sublist
  obtain ⟨place, hplace⟩ := List.sublist_iff_exists_orderEmbedding_getElem?_eq.mp hsub
  obtain ⟨early, hearly⟩ : ∃ early, inside[0]? = some early :=
    ⟨_, List.getElem?_eq_getElem (by omega)⟩
  obtain ⟨late, hlate⟩ : ∃ late, inside[n]? = some late :=
    ⟨_, List.getElem?_eq_getElem (by omega)⟩
  have hlateLog : log[place n]? = some late := hplace n ▸ hlate
  -- Inside `log` the two are at least `n` places apart.
  have hfar : place 0 + n ≤ place n := by
    have := place.strictMono.add_le_nat n 0
    rw [Nat.add_zero] at this
    omega
  have hlast := (List.getElem?_eq_some_iff.mp hlateLog).1
  have hnext : log[place 0 + n]? = some log[place 0 + n] := List.getElem?_eq_getElem (by omega)
  have hgap := h.spaced (place 0) early _ (hplace 0 ▸ hearly) hnext
  have hle : log[place 0 + n] ≤ late := by
    rw [← (List.getElem?_eq_some_iff.mp hlateLog).2]
    rcases hfar.eq_or_lt with heq | hlt
    · exact le_of_eq (getElem_congr_idx heq)
    · exact List.pairwise_iff_getElem.mp h.sorted _ _ _ hlast hlt
  have := (hwithin early (List.mem_of_getElem? hearly)).1
  have := (hwithin late (List.mem_of_getElem? hlate)).2
  omega

end KeepsWindow

end Aperio
