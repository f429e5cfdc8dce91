import Mathlib.Data.Set.Insert
import Mathlib.Data.List.Basic

/-!
# Patterns over names made of labels

A name is a list over some alphabet in which one letter, `dot`, ends a
label. Four shapes of pattern stand for a set of names each, and two
relations are decided on the shapes alone: `Covers`, a sufficient test for
inclusion, and `Meets`, a necessary one for a name in common. The results are
that the first never says too much and the second never too little.

Nothing here knows of the server.
-/

namespace Aperio

inductive NamePattern (α : Type*) where
  | any
  | subtree (suffix : List α)
  | label (before after rest : List α)
  | exact (name : List α)

namespace NamePattern

variable {α : Type*} {dot : α}

/-- The names a pattern stands for. A subtree never holds its own apex, and
a label pattern reaches one level: what fills it is not empty and has no
`dot`. -/
def names (dot : α) : NamePattern α → Set (List α)
  | any => Set.univ
  | subtree suffix => {n | ∃ pre, pre ≠ [] ∧ n = pre ++ dot :: suffix}
  | label before after rest =>
      {n | ∃ mid, mid ≠ [] ∧ dot ∉ before ++ mid ++ after ∧
        n = before ++ mid ++ after ++ dot :: rest}
  | exact name => {name}

/-- `inner` is `outer` or stands under it. -/
def AtOrUnder (dot : α) (outer inner : List α) : Prop :=
  inner = outer ∨ dot :: outer <:+ inner

/-- What one pattern is taken to include, read off the shapes. -/
def Covers (dot : α) : NamePattern α → NamePattern α → Prop
  | any, _ => True
  | p, exact n => n ∈ p.names dot
  | subtree outer, subtree inner => AtOrUnder dot outer inner
  | subtree outer, label _ _ rest => AtOrUnder dot outer rest
  | label before after rest, label before' after' rest' =>
      before = before' ∧ after = after' ∧ rest = rest'
  | _, _ => False

/-- What two patterns are taken to share: one covers the other, or both fill
a label in front of the same rest. -/
def Meets (dot : α) (p q : NamePattern α) : Prop :=
  Covers dot p q ∨ Covers dot q p ∨
    ∃ before after before' after' rest,
      p = label before after rest ∧ q = label before' after' rest

/-! ## Suffixes that start at a label -/

/-- Whatever stands in front of a name under `outer` still leaves it there. -/
theorem AtOrUnder.append {outer inner pre : List α} (h : AtOrUnder dot outer inner)
    (hpre : pre ≠ []) : ∃ pre', pre' ≠ [] ∧ pre ++ dot :: inner = pre' ++ dot :: outer := by
  rcases h with rfl | ⟨mid, rfl⟩
  · exact ⟨pre, hpre, rfl⟩
  · refine ⟨pre ++ dot :: mid, List.append_ne_nil_of_left_ne_nil hpre _, ?_⟩
    rw [List.append_assoc, List.cons_append]

theorem atOrUnder_of_cons {mid l s : List α} (h : dot :: l = mid ++ dot :: s) :
    AtOrUnder dot s l := by
  cases mid with
  | nil => exact Or.inl (List.cons.inj h).2
  | cons a mid => exact Or.inr ⟨mid, (List.cons.inj h).2.symm⟩

/-- Of two suffixes of one name, one stands under the other. -/
theorem atOrUnder_or {pre pre' s s' : List α} (h : pre ++ dot :: s = pre' ++ dot :: s') :
    AtOrUnder dot s' s ∨ AtOrUnder dot s s' := by
  rcases List.append_eq_append_iff.mp h with ⟨mid, -, hs⟩ | ⟨mid, -, hs⟩
  · exact Or.inl (atOrUnder_of_cons hs)
  · exact Or.inr (atOrUnder_of_cons hs)

/-- What follows the first label of a name is under every suffix of it. -/
theorem atOrUnder_of_label {first pre rest s : List α} (hfirst : dot ∉ first)
    (h : first ++ dot :: rest = pre ++ dot :: s) : AtOrUnder dot s rest := by
  rcases List.append_eq_append_iff.mp h with ⟨mid, -, hs⟩ | ⟨mid, rfl, hs⟩
  · exact atOrUnder_of_cons hs
  · cases mid with
    | nil => exact Or.inl (List.cons.inj hs).2.symm
    -- the suffix would have to start inside the label
    | cons a mid =>
        refine absurd ?_ hfirst
        rw [(List.cons.inj hs).1]
        exact List.mem_append_right _ List.mem_cons_self

/-- Two first labels of one name leave the same rest. -/
theorem rest_eq_of_labels {first first' rest rest' : List α} (hfirst : dot ∉ first)
    (hfirst' : dot ∉ first') (h : first ++ dot :: rest = first' ++ dot :: rest') :
    rest = rest' := by
  have hlen : rest.length = rest'.length := by
    have hle {l l' : List α} (hl : AtOrUnder dot l l') : l.length ≤ l'.length := by
      rcases hl with rfl | ⟨mid, rfl⟩
      · exact Nat.le_refl _
      · simp only [List.length_append, List.length_cons]
        omega
    exact Nat.le_antisymm (hle (atOrUnder_of_label hfirst' h.symm))
      (hle (atOrUnder_of_label hfirst h))
  exact (List.cons.inj (List.append_inj_right' h (by simp [hlen]))).2

/-! ## Reading a name from its ends -/

theorem mem_subtree_iff {n suffix : List α} : n ∈ (subtree suffix).names dot ↔
    suffix.length + 1 < n.length ∧ n[n.length - suffix.length - 1]? = some dot ∧
      n.drop (n.length - suffix.length) = suffix := by
  constructor
  · rintro ⟨pre, hpre, rfl⟩
    have hpos := List.length_pos_iff.mpr hpre
    have hat : (pre ++ dot :: suffix).length - suffix.length - 1 = pre.length := by
      simp only [List.length_append, List.length_cons]
      omega
    have hfrom : (pre ++ dot :: suffix).length - suffix.length = (pre ++ [dot]).length := by
      simp only [List.length_append, List.length_cons, List.length_nil]
      omega
    refine ⟨?_, ?_, ?_⟩
    · simp only [List.length_append, List.length_cons]
      omega
    · rw [hat, List.getElem?_append_right (Nat.le_refl _), Nat.sub_self, List.getElem?_cons_zero]
    · rw [hfrom, List.append_cons pre dot suffix, List.drop_left]
  · rintro ⟨hlen, hdot, hsuffix⟩
    obtain ⟨hlt, hget⟩ := List.getElem?_eq_some_iff.mp hdot
    refine ⟨n.take (n.length - suffix.length - 1), ?_, ?_⟩
    · rw [← List.length_pos_iff, List.length_take]
      omega
    · have hcut := List.take_append_drop (n.length - suffix.length - 1) n
      rw [List.drop_eq_getElem_cons hlt, hget,
        show n.length - suffix.length - 1 + 1 = n.length - suffix.length by omega, hsuffix] at hcut
      exact hcut.symm

theorem mem_label_iff {first before after rest rest' : List α} (hfirst : dot ∉ first) :
    first ++ dot :: rest' ∈ (label before after rest).names dot ↔
      before.length + after.length < first.length ∧ first.take before.length = before ∧
        first.drop (first.length - after.length) = after ∧ rest' = rest := by
  constructor
  · rintro ⟨mid, hmid, hdot, heq⟩
    obtain rfl := rest_eq_of_labels hfirst hdot heq
    obtain rfl := List.append_cancel_right heq
    have hpos := List.length_pos_iff.mpr hmid
    refine ⟨?_, ?_, ?_, rfl⟩
    · simp only [List.length_append]
      omega
    · rw [List.append_assoc, List.take_left]
    · have hlen : (before ++ mid ++ after).length - after.length = (before ++ mid).length := by
        simp only [List.length_append]
        omega
      rw [hlen, List.drop_left]
  · rintro ⟨hlen, hbefore, hafter, rfl⟩
    have hcut := (List.take_append_drop before.length first).trans
      (List.take_append_drop (first.length - after.length) first).symm
    rw [hbefore, hafter] at hcut
    rcases List.append_eq_append_iff.mp hcut with ⟨mid, hfront, hback⟩ | ⟨mid, hfront, -⟩
    · have hfill : first = before ++ mid ++ after := by
        rw [← List.take_append_drop (first.length - after.length) first, hfront, hafter]
      refine ⟨mid, ?_, ?_, ?_⟩
      · rintro rfl
        rw [hfill] at hlen
        simp at hlen
      · rw [← hfill]
        exact hfirst
      · rw [← hfill]
    -- the front part would have to end inside `before`
    · have := congrArg List.length hfront
      simp only [List.length_append, List.length_take] at this
      omega

/-! ## The two relations -/

/-- **Covering is sound.** Every name of the covered pattern is one of the
covering pattern's. -/
theorem Covers.subset {p q : NamePattern α} (h : Covers dot p q) : q.names dot ⊆ p.names dot := by
  intro n hn
  cases p with
  | any => trivial
  | subtree outer =>
      cases q with
      | any => exact False.elim h
      | subtree inner =>
          obtain ⟨pre, hpre, rfl⟩ := hn
          exact AtOrUnder.append h hpre
      | label before after rest =>
          obtain ⟨mid, hmid, -, rfl⟩ := hn
          refine AtOrUnder.append h ?_
          simp [hmid]
      | exact name =>
          rw [Set.mem_singleton_iff.mp hn]
          exact h
  | label before after rest =>
      cases q with
      | any => exact False.elim h
      | subtree inner => exact False.elim h
      | label before' after' rest' =>
          obtain ⟨rfl, rfl, rfl⟩ := h
          exact hn
      | exact name =>
          rw [Set.mem_singleton_iff.mp hn]
          exact h
  | exact outer =>
      cases q with
      | any => exact False.elim h
      | subtree inner => exact False.elim h
      | label before after rest => exact False.elim h
      | exact name =>
          rw [Set.mem_singleton_iff.mp hn]
          exact h

theorem covers_exact {p : NamePattern α} {n : List α} (h : n ∈ p.names dot) :
    Covers dot p (exact n) := by
  cases p with
  | any => trivial
  | subtree suffix => exact h
  | label before after rest => exact h
  | exact name => exact h

theorem Meets.symm {p q : NamePattern α} (h : Meets dot p q) : Meets dot q p := by
  rcases h with h | h | ⟨before, after, before', after', rest, hp, hq⟩
  · exact Or.inr (Or.inl h)
  · exact Or.inl h
  · exact Or.inr (Or.inr ⟨before', after', before, after, rest, hq, hp⟩)

/-- A pattern meets every exact name it stands for. -/
theorem meets_exact {p : NamePattern α} {n name : List α} (hp : n ∈ p.names dot)
    (hn : n ∈ (exact name).names dot) : Meets dot p (exact name) := by
  refine Or.inl (covers_exact ?_)
  rw [← Set.mem_singleton_iff.mp hn]
  exact hp

theorem meets_subtree_label {n suffix before after rest : List α}
    (hp : n ∈ (subtree suffix).names dot) (hq : n ∈ (label before after rest).names dot) :
    Meets dot (subtree suffix) (label before after rest) := by
  obtain ⟨pre, -, rfl⟩ := hp
  obtain ⟨mid, -, hdot, heq⟩ := hq
  exact Or.inl (atOrUnder_of_label hdot heq.symm)

/-- **Meeting is complete.** Two patterns with a name in common are taken to
share one. -/
theorem meets_of_mem {p q : NamePattern α} {n : List α} (hp : n ∈ p.names dot)
    (hq : n ∈ q.names dot) : Meets dot p q := by
  cases p with
  | any => exact Or.inl trivial
  | subtree suffix =>
      cases q with
      | any => exact Or.inr (Or.inl trivial)
      | subtree suffix' =>
          obtain ⟨pre, -, rfl⟩ := hp
          obtain ⟨pre', -, heq⟩ := hq
          rcases atOrUnder_or heq with h | h
          · exact Or.inr (Or.inl h)
          · exact Or.inl h
      | label before after rest => exact meets_subtree_label hp hq
      | exact name => exact meets_exact hp hq
  | label before after rest =>
      cases q with
      | any => exact Or.inr (Or.inl trivial)
      | subtree suffix => exact (meets_subtree_label hq hp).symm
      | label before' after' rest' =>
          obtain ⟨mid, -, hdot, rfl⟩ := hp
          obtain ⟨mid', -, hdot', heq⟩ := hq
          obtain rfl := rest_eq_of_labels hdot hdot' heq
          exact Or.inr (Or.inr ⟨before, after, before', after', rest, rfl, rfl⟩)
      | exact name => exact meets_exact hp hq
  | exact name => exact (meets_exact hq hp).symm

end NamePattern

end Aperio
