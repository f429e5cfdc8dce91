import Mathlib.Data.List.Basic
import Mathlib.Data.Option.Basic

/-!
# Since-marks

Whether something has held for a while can be told without a history: keep the
instant it was first seen to hold, and drop it when it is seen not to. Such a
mark is *backed* when everything seen after it held. Observing keeps a mark
backed; what passes without being observed does so only where there is no mark,
or where it held too.
-/

namespace Aperio.SinceMark

variable {α : Type*} {P : α → Prop} {time : α → Nat} {mark : Option Nat} {seen : List α} {x : α}

/-- Everything seen after the mark held. -/
def Backed (P : α → Prop) (time : α → Nat) (mark : Option Nat) (seen : List α) : Prop :=
  ∀ t ∈ mark, ∀ x ∈ seen, t < time x → P x

/-- The mark after an observation. -/
def observe (holds : Bool) (now : Nat) (mark : Option Nat) : Option Nat :=
  if holds then some (mark.getD now) else none

@[simp] theorem observe_true (now : Nat) : observe true now mark = some (mark.getD now) :=
  rfl

@[simp] theorem observe_false (now : Nat) : observe false now mark = none :=
  rfl

theorem backed_none : Backed P time none seen :=
  fun _ h => absurd h (Option.not_mem_none _)

theorem backed_nil : Backed P time mark [] :=
  fun _ _ _ h => absurd h List.not_mem_nil

/-- What is not observed: it held, where there is a mark. -/
theorem Backed.skip (h : Backed P time mark seen) (hx : mark.isSome → P x) :
    Backed P time mark (seen ++ [x]) := by
  intro t ht y hy hlater
  rcases List.mem_append.mp hy with hy | hy
  · exact h t ht y hy hlater
  · obtain rfl := List.mem_singleton.mp hy
    exact hx (Option.isSome_of_mem ht)

theorem Backed.observe {holds : Bool} (h : Backed P time mark seen) (hx : holds = true → P x)
    (hlast : ∀ y ∈ seen, time y ≤ time x) :
    Backed P time (observe holds (time x) mark) (seen ++ [x]) := by
  cases holds with
  | false => exact backed_none
  | true =>
      cases mark with
      | some t => exact h.skip fun _ => hx rfl
      | none =>
          -- nothing is later than what was seen last
          intro t ht y hy hlater
          cases ht
          rcases List.mem_append.mp hy with hy | hy
          · exact absurd (hlast y hy) (Nat.not_le.mpr hlater)
          · obtain rfl := List.mem_singleton.mp hy
            exact hx rfl

/-- A mark that has stood for a window: everything in that window held. -/
theorem Backed.window {t now window : Nat} (h : Backed P time (some t) seen)
    (hlong : window ≤ now - t) {y : α} (hy : y ∈ seen) (hlast : time y ≤ now)
    (hrecent : now < time y + window) : P y :=
  h t rfl y hy (by omega)

end Aperio.SinceMark
