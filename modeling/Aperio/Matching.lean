import Aperio.Ping

/-!
# What reconciling keeps

`match_declarations` never gives one existing service to two declarations,
so taking the matched services out of the old list one slot at a time is
the same as looking each of them up. `reconcile_eq_map` states that: the
service a declaration is applied to depends on its own slot alone. The spec
lemmas of `onPing` below are what every result about heartbeats starts from.
-/

namespace Aperio

/-! ## Slots are distinct -/

theorem claimService_spec {existing : List ServiceState} {p : ServiceState → Bool}
    {taken : List Nat} {i : Nat} (h : claimService existing p taken = some i) :
    i ∉ taken ∧ ∃ s, existing[i]? = some s ∧ p s = true := by
  have hp := List.find?_some h
  simp only [Bool.and_eq_true, Bool.not_eq_eq_eq_not, Bool.not_true,
    List.contains_eq_mem, decide_eq_false_iff_not, Option.any_eq_true] at hp
  obtain ⟨hnt, s, hs, hps⟩ := hp
  exact ⟨hnt, s, hs, hps⟩

/-- What the named pass has claimed: its slots are distinct, none was taken
before, and all of them are taken after. -/
theorem matchNamed_spec (existing : List ServiceState) :
    ∀ (names : List (Option String)) (taken : List Nat),
      let r := matchNamed existing names taken
      (r.1.filterMap id).Nodup ∧ (∀ i ∈ r.1.filterMap id, i ∉ taken) ∧
        (∀ i ∈ r.1.filterMap id, i ∈ r.2) ∧ (∀ i ∈ taken, i ∈ r.2) ∧
        r.1.length = names.length := by
  intro names
  induction names with
  | nil =>
      intro taken
      simp [matchNamed]
  | cons name rest ih =>
      intro taken
      simp only [matchNamed]
      cases hf : name.bind fun n => claimService existing (·.serviceName == some n) taken with
      | none =>
          simpa using ih taken
      | some i =>
          obtain ⟨n, -, hn⟩ := Option.bind_eq_some_iff.mp hf
          have hit := (claimService_spec hn).1
          obtain ⟨hnd, hnt, hin, hsub, hlen⟩ := ih (i :: taken)
          simp only [Option.toList_some, List.singleton_append, List.filterMap_cons, id_eq,
            List.nodup_cons, List.mem_cons, List.length_cons] at hnd hnt hin hsub hlen ⊢
          refine ⟨⟨?_, hnd⟩, ?_, ?_, ?_, by rw [hlen]⟩
          · intro hmem
            exact hnt i hmem (Or.inl rfl)
          · rintro j (rfl | hj)
            · exact hit
            · exact fun hjt => hnt j hj (Or.inr hjt)
          · rintro j (rfl | hj)
            · exact hsub j (Or.inl rfl)
            · exact hin j hj
          · exact fun j hj => hsub j (Or.inr hj)

/-- Adoption keeps the slots distinct when those already filled count as
taken. -/
theorem adoptNameless_spec (existing : List ServiceState) :
    ∀ (slots : List (Option Nat)) (taken : List Nat),
      (slots.filterMap id).Nodup → (∀ i ∈ slots.filterMap id, i ∈ taken) →
      ((adoptNameless existing slots taken).filterMap id).Nodup ∧
        (∀ i ∈ (adoptNameless existing slots taken).filterMap id,
          i ∈ slots.filterMap id ∨ i ∉ taken) ∧
        (adoptNameless existing slots taken).length = slots.length := by
  intro slots
  induction slots with
  | nil =>
      intro taken _ _
      simp [adoptNameless]
  | cons slot rest ih =>
      intro taken hnd hin
      cases slot with
      | some i =>
          simp only [List.filterMap_cons, id_eq, List.nodup_cons, List.mem_cons] at hnd hin
          obtain ⟨hnd', hsub, hlen⟩ := ih taken hnd.2 fun j hj => hin j (Or.inr hj)
          simp only [adoptNameless, List.filterMap_cons, id_eq, List.nodup_cons, List.mem_cons,
            List.length_cons]
          refine ⟨⟨?_, hnd'⟩, ?_, by rw [hlen]⟩
          · intro hmem
            rcases hsub i hmem with h | h
            · exact hnd.1 h
            · exact h (hin i (Or.inl rfl))
          · rintro j (rfl | hj)
            · exact Or.inl (Or.inl rfl)
            · exact (hsub j hj).imp_left Or.inr
      | none =>
          simp only [List.filterMap_cons, id_eq] at hnd hin
          simp only [adoptNameless]
          cases hf : claimService existing (·.serviceName.isNone) taken with
          | none =>
              simpa using ih taken hnd hin
          | some i =>
              have hit := (claimService_spec hf).1
              obtain ⟨hnd', hsub, hlen⟩ := ih (i :: taken) hnd fun j hj =>
                List.mem_cons_of_mem _ (hin j hj)
              simp only [Option.toList_some, List.singleton_append, List.filterMap_cons, id_eq,
                List.nodup_cons, List.mem_cons, List.length_cons] at hnd' hsub hlen ⊢
              refine ⟨⟨?_, hnd'⟩, ?_, by rw [hlen]⟩
              · intro hmem
                rcases hsub i hmem with h | h
                · exact hit (hin i h)
                · exact h (Or.inl rfl)
              · rintro j (rfl | hj)
                · exact Or.inr hit
                · exact (hsub j hj).imp_right fun h hjt => h (Or.inr hjt)

variable {services : List ServiceState} {names : List (Option String)}
  {matched : List (Option Nat)}

theorem matchDeclarations_nodup (h : matchDeclarations services names = .ok matched) :
    (matched.filterMap id).Nodup ∧ matched.length = names.length := by
  simp only [matchDeclarations] at h
  cases hr : repeatedName names [] with
  | some n =>
      rw [hr] at h
      cases h
  | none =>
      rw [hr] at h
      simp only [Except.ok.injEq] at h
      obtain ⟨hnd, -, hin, -, hlen⟩ := matchNamed_spec services names []
      obtain ⟨hnd', -, hlen'⟩ := adoptNameless_spec services _ _ hnd hin
      rw [← h]
      exact ⟨hnd', hlen'.trans hlen⟩

/-- A filled slot points at a service the connection has. -/
theorem matchNamed_inRange (existing : List ServiceState) :
    ∀ (names : List (Option String)) (taken : List Nat) (i : Nat),
      some i ∈ (matchNamed existing names taken).1 → ∃ s, existing[i]? = some s := by
  intro names
  induction names with
  | nil =>
      intro taken i h
      simp [matchNamed] at h
  | cons name rest ih =>
      intro taken i h
      simp only [matchNamed, List.mem_cons] at h
      rcases h with h | h
      · obtain ⟨n, -, hn⟩ := Option.bind_eq_some_iff.mp h.symm
        obtain ⟨-, s, hs, -⟩ := claimService_spec hn
        exact ⟨s, hs⟩
      · exact ih _ i h

theorem adoptNameless_inRange (existing : List ServiceState) :
    ∀ (slots : List (Option Nat)) (taken : List Nat) (i : Nat),
      some i ∈ adoptNameless existing slots taken →
        some i ∈ slots ∨ ∃ s, existing[i]? = some s := by
  intro slots
  induction slots with
  | nil =>
      intro taken i h
      simp [adoptNameless] at h
  | cons slot rest ih =>
      intro taken i h
      cases slot with
      | some j =>
          simp only [adoptNameless, List.mem_cons] at h ⊢
          rcases h with h | h
          · exact Or.inl (Or.inl h)
          · exact (ih taken i h).imp_left Or.inr
      | none =>
          simp only [adoptNameless, List.mem_cons] at h ⊢
          rcases h with h | h
          · obtain ⟨-, s, hs, -⟩ := claimService_spec h.symm
            exact Or.inr ⟨s, hs⟩
          · exact (ih _ i h).imp_left Or.inr

theorem matchDeclarations_inRange (h : matchDeclarations services names = .ok matched) {i : Nat}
    (hi : some i ∈ matched) : ∃ s, services[i]? = some s := by
  simp only [matchDeclarations] at h
  cases hr : repeatedName names [] with
  | some n =>
      rw [hr] at h
      cases h
  | none =>
      rw [hr] at h
      simp only [Except.ok.injEq] at h
      rw [← h] at hi
      rcases adoptNameless_inRange services _ _ i hi with hi | hi
      · exact matchNamed_inRange services names [] i hi
      · exact hi

/-! ## The services a list is applied to -/

/-- The service one slot stands for: the matched one, or a fresh one. -/
def carriedService (services : List ServiceState) (slot : Option Nat) : ServiceState :=
  (slot.bind fun i => services[i]?).getD (gainedService services)

theorem takeMatched_eq_map (fresh : ServiceState) :
    ∀ (slots : List (Option Nat)) (old : List (Option ServiceState)),
      (slots.filterMap id).Nodup →
      takeMatched fresh slots old = slots.map fun m => (m.bind fun i => old[i]?.join).getD fresh := by
  intro slots
  induction slots with
  | nil =>
      intro old _
      rfl
  | cons slot rest ih =>
      intro old hnd
      cases slot with
      | none =>
          simp only [List.filterMap_cons, id_eq] at hnd
          simp [takeMatched, ih old hnd]
      | some i =>
          simp only [List.filterMap_cons, id_eq, List.nodup_cons] at hnd
          simp only [takeMatched, Option.bind_some, Option.map_some, Option.getD_some,
            List.map_cons, List.cons.injEq, true_and]
          rw [ih _ hnd.2]
          -- a later slot names another index, which clearing slot `i` left alone
          refine List.map_congr_left fun m hm => ?_
          cases m with
          | none =>
              rfl
          | some j =>
              have hij : i ≠ j := by
                rintro rfl
                exact hnd.1 (List.mem_filterMap.mpr ⟨some i, hm, rfl⟩)
              simp [List.getElem?_set_ne hij]

/-- **Reconciling looks each slot up.** -/
theorem reconcile_eq_map (h : matchDeclarations services names = .ok matched) :
    reconcile services matched = matched.map (carriedService services) := by
  rw [reconcile, takeMatched_eq_map _ _ _ (matchDeclarations_nodup h).1]
  refine List.map_congr_left fun m _ => ?_
  cases m with
  | none =>
      rfl
  | some i =>
      simp only [carriedService, Option.bind_some, List.getElem?_map]
      cases services[i]? <;> rfl

/-- What declaring makes of each entry: the declaration applied to the
service its slot stands for. -/
theorem declareHandle_services {env : Env} {now : Nat} {p : Ping} {h : ClientHandle}
    (hm : matchDeclarations h.services p.names = .ok matched) :
    (declareHandle env now p matched h).services =
      List.zipWith (fun d m => applyDeclaration env h.perms d (carriedService h.services m))
        p.services matched := by
  simp only [declareHandle, reconcile_eq_map hm, List.zipWith_map_right]

/-- One slot for each entry. -/
theorem length_matched {p : Ping} {h : ClientHandle}
    (hm : matchDeclarations h.services p.names = .ok matched) :
    matched.length = p.services.length := by
  rw [(matchDeclarations_nodup hm).2, Ping.names, List.length_map]

end Aperio
