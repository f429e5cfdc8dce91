import Mathlib.Data.List.Sort
import Mathlib.Order.Lattice

/-!
# A stable sort, highest key first

What a search through a list sorted by descending key finds is read off the
list as it was before: the first of the highest key among those looked for
(`find?_byDescending`). Two lists that differ by exchanges of neighbours with
different keys are sorted alike (`Exchanged.byDescending`).
-/

namespace Aperio

section StableSort

variable {α β K : Type} [LinearOrder K] {key : α → K}

def byDescending (key : α → K) (l : List α) : List α :=
  l.insertionSort fun a b => key b ≤ key a

theorem byDescending_perm (key : α → K) (l : List α) : (byDescending key l).Perm l :=
  List.perm_insertionSort _ l

theorem byDescending_cons (x : α) (l : List α) :
    byDescending key (x :: l) = (byDescending key l).orderedInsert (fun a b => key b ≤ key a) x :=
  rfl

theorem byDescending_sorted (key : α → K) (l : List α) :
    (byDescending key l).Pairwise fun a b => key b ≤ key a := by
  have : Std.Total fun a b : α => key b ≤ key a := ⟨fun a b => le_total (key b) (key a)⟩
  have : IsTrans α fun a b => key b ≤ key a := ⟨fun a b c hab hbc => hbc.trans hab⟩
  exact List.pairwise_insertionSort _ l

/-- What is put in is found first, unless something of a higher key is. -/
theorem find?_orderedInsert {p : α → Bool} {x : α} {l : List α}
    (hl : l.Pairwise fun a b => key b ≤ key a) :
    (l.orderedInsert (fun a b => key b ≤ key a) x).find? p =
      if p x = true ∧ ∀ y ∈ l.find? p, key y ≤ key x then some x else l.find? p := by
  induction l with
  | nil => cases hx : p x <;> simp [hx]
  | cons b t ih =>
      obtain ⟨hb, ht⟩ := List.pairwise_cons.mp hl
      rw [List.orderedInsert_cons]
      by_cases hbx : key b ≤ key x
      · have hbelow : ∀ y ∈ (b :: t).find? p, key y ≤ key x := by
          intro y hy
          rcases List.mem_cons.mp (List.mem_of_find?_eq_some hy) with rfl | hy
          · exact hbx
          · exact (hb y hy).trans hbx
        rw [if_pos hbx, List.find?_cons]
        cases hx : p x with
        | true => rw [if_pos ⟨rfl, hbelow⟩]
        | false => rw [if_neg fun h => Bool.false_ne_true h.1]
      · rw [if_neg hbx, List.find?_cons, List.find?_cons]
        cases hpb : p b with
        | true => rw [if_neg fun h => hbx (h.2 b rfl)]
        | false => exact ih ht

/-- The first of the highest key among those looked for. -/
theorem find?_byDescending {p : α → Bool} {l : List α} {s : α}
    (h : (byDescending key l).find? p = some s) :
    ∃ before after, l = before ++ s :: after ∧ p s = true ∧
      (∀ x ∈ before, p x = true → key x < key s) ∧ ∀ x ∈ after, p x = true → key x ≤ key s := by
  induction l generalizing s with
  | nil => cases h
  | cons x l ih =>
      rw [byDescending_cons, find?_orderedInsert (byDescending_sorted key l)] at h
      split at h
      · next hx =>
          obtain rfl := Option.some.inj h
          refine ⟨[], l, rfl, hx.1, nofun, fun y hy hpy => ?_⟩
          cases hfind : (byDescending key l).find? p with
          | none =>
              have hmem := (byDescending_perm key l).mem_iff.mpr hy
              exact absurd hpy (List.find?_eq_none.mp hfind y hmem)
          | some s =>
              have hs : key s ≤ key x := hx.2 s hfind
              obtain ⟨before, after, rfl, -, hbefore, hafter⟩ := ih hfind
              rcases List.mem_append.mp hy with hy | hy
              · exact (hbefore y hy hpy).le.trans hs
              · rcases List.mem_cons.mp hy with rfl | hy
                · exact hs
                · exact (hafter y hy hpy).trans hs
      · next hx =>
          obtain ⟨before, after, rfl, hs, hbefore, hafter⟩ := ih h
          refine ⟨x :: before, after, rfl, hs, fun y hy hpy => ?_, hafter⟩
          rcases List.mem_cons.mp hy with rfl | hy
          · by_contra hle
            refine hx ⟨hpy, fun z hz => ?_⟩
            rw [h] at hz
            obtain rfl := Option.some.inj hz
            exact not_lt.mp hle
          · exact hbefore y hy hpy

theorem map_byDescending {key' : β → K} (f : α → β) (hkey : ∀ x, key' (f x) = key x)
    (l : List α) : (byDescending key l).map f = byDescending key' (l.map f) :=
  List.map_insertionSort _ _ f l fun a _ b _ => by rw [hkey, hkey]

/-! ## Exchanges -/

/-- One list is the other after exchanges of neighbours with different
keys. -/
inductive Exchanged (key : α → K) : List α → List α → Prop where
  | nil : Exchanged key [] []
  | cons (x : α) {l l' : List α} : Exchanged key l l' → Exchanged key (x :: l) (x :: l')
  | swap (x y : α) (l : List α) : key x ≠ key y → Exchanged key (x :: y :: l) (y :: x :: l)
  | trans {l l' l'' : List α} : Exchanged key l l' → Exchanged key l' l'' → Exchanged key l l''

omit [LinearOrder K] in
theorem Exchanged.refl (l : List α) : Exchanged key l l := by
  induction l with
  | nil => exact .nil
  | cons x _ ih => exact .cons x ih

omit [LinearOrder K] in
theorem Exchanged.perm {key : α → K} {l l' : List α} (h : Exchanged key l l') : l.Perm l' := by
  induction h with
  | nil => exact .nil
  | cons x _ ih => exact ih.cons x
  | swap x y l _ => exact .swap y x l
  | trans _ _ ih ih' => exact ih.trans ih'

omit [LinearOrder K] in
/-- Values of different keys that stay have different keys. -/
theorem Exchanged.filterMap {J : Type} {key' : β → J} {f : α → Option β}
    (hkey : ∀ {a b x y}, f a = some x → f b = some y → key a ≠ key b → key' x ≠ key' y)
    {l l' : List α} (h : Exchanged key l l') :
    Exchanged key' (l.filterMap f) (l'.filterMap f) := by
  induction h with
  | nil => exact .nil
  | cons a _ ih =>
      rw [List.filterMap_cons, List.filterMap_cons]
      cases f a with
      | none => exact ih
      | some x => exact .cons x ih
  | swap a b l hne =>
      simp only [List.filterMap_cons]
      cases ha : f a with
      | none => exact .refl _
      | some x =>
          cases hb : f b with
          | none => exact .refl _
          | some y => exact .swap x y _ (hkey ha hb hne)
  | trans _ _ ih ih' => exact ih.trans ih'

theorem orderedInsert_comm {x y : α} (hne : key x ≠ key y) (l : List α) :
    (l.orderedInsert (fun a b => key b ≤ key a) y).orderedInsert (fun a b => key b ≤ key a) x =
      (l.orderedInsert (fun a b => key b ≤ key a) x).orderedInsert
        (fun a b => key b ≤ key a) y := by
  induction l with
  | nil =>
      rcases lt_or_gt_of_ne hne with hlt | hlt
      · simp [List.orderedInsert, hlt.le, not_le.mpr hlt]
      · simp [List.orderedInsert, hlt.le, not_le.mpr hlt]
  | cons b t ih =>
      by_cases hx : key b ≤ key x
      · by_cases hy : key b ≤ key y
        · rcases lt_or_gt_of_ne hne with hlt | hlt
          · simp [List.orderedInsert, hx, hy, hlt.le, not_le.mpr hlt]
          · simp [List.orderedInsert, hx, hy, hlt.le, not_le.mpr hlt]
        · have hlt : key y < key x := (not_le.mp hy).trans_le hx
          simp [List.orderedInsert, hx, hy, not_le.mpr hlt]
      · by_cases hy : key b ≤ key y
        · have hlt : key x < key y := (not_le.mp hx).trans_le hy
          simp [List.orderedInsert, hx, hy, not_le.mpr hlt]
        · simp only [List.orderedInsert, if_neg hx, if_neg hy, ih]

/-- Such lists are sorted alike. -/
theorem Exchanged.byDescending {l l' : List α} (h : Exchanged key l l') :
    byDescending key l = byDescending key l' := by
  induction h with
  | nil => rfl
  | cons x _ ih => rw [byDescending_cons, byDescending_cons, ih]
  | swap x y l hne => exact orderedInsert_comm hne _
  | trans _ _ ih ih' => exact ih.trans ih'

end StableSort

end Aperio
