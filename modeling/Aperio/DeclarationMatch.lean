import Aperio.Matching

/-!
# Which service a declaration updates

`match_declarations` of `state/client.rs` makes two passes over one `taken`
list. The named pass is in fact a map: names that are declared once never
compete, so each declaration finds the service of its name whatever stands
before it (`matchNamed_eq`). The adoption pass leaves those slots alone and
fills the rest with nameless services. Permuting a list of declarations can
then only move what the second pass does.
-/

namespace Aperio

variable {services : List ServiceState} {names : List (Option String)} {taken : List Nat}
  {slots : List (Option Nat)} {k i : Nat} {s : ServiceState}

/-! ## Repeated names -/

theorem declared_cons_some (n : String) (rest : List (Option String)) :
    (some n :: rest).filterMap id = n :: rest.filterMap id :=
  rfl

theorem repeatedName_eq_none {seen : List String} (hseen : seen.Nodup) :
    repeatedName names seen = none ↔ (seen ++ names.filterMap id).Nodup := by
  induction names generalizing seen with
  | nil => simpa [repeatedName] using hseen
  | cons name rest ih =>
      cases name with
      | none => simpa [repeatedName] using ih hseen
      | some n =>
          rw [repeatedName, declared_cons_some]
          by_cases hn : n ∈ seen
          · rw [if_pos hn]
            refine iff_of_false (by simp) fun hnodup => ?_
            exact List.nodup_append.mp hnodup |>.2.2 n hn n List.mem_cons_self rfl
          · have hlonger : (seen ++ [n]).Nodup := by
              rw [List.nodup_append]
              refine ⟨hseen, List.nodup_singleton n, ?_⟩
              rintro a ha b hb rfl
              exact hn (List.mem_singleton.mp hb ▸ ha)
            rw [if_neg hn, ih hlonger, List.append_assoc, List.singleton_append]

theorem matchDeclarations_error :
    (∃ n, matchDeclarations services names = .error n) ↔ ¬(names.filterMap id).Nodup := by
  have hrepeat := @repeatedName_eq_none names [] List.nodup_nil
  rw [List.nil_append] at hrepeat
  rw [← hrepeat]
  unfold matchDeclarations
  cases repeatedName names [] with
  | none => simp
  | some n => simp

theorem matchDeclarations_ok (h : (names.filterMap id).Nodup) :
    matchDeclarations services names = .ok
      (adoptNameless services (matchNamed services names []).1 (matchNamed services names []).2) := by
  have hrepeat := (@repeatedName_eq_none names [] List.nodup_nil).mpr (by simpa using h)
  rw [matchDeclarations, hrepeat]

/-! ## The named pass -/

/-- A service that is there and not taken is claimed, or one before it is. -/
theorem claimService_eq_none {p : ServiceState → Bool}
    (h : claimService services p taken = none) (hs : services[i]? = some s) (hp : p s = true) :
    i ∈ taken := by
  have hrange : i ∈ List.range services.length := by
    rw [List.mem_range]
    exact (List.getElem?_eq_some_iff.mp hs).1
  have hnone := List.find?_eq_none.mp h i hrange
  by_contra hfree
  exact hnone (by simp [hfree, hs, hp])

/-- Claims among other services do not matter. -/
theorem claimService_of_apart {p : ServiceState → Bool}
    (h : ∀ i ∈ taken, services[i]?.any p = false) :
    claimService services p taken = claimService services p [] := by
  unfold claimService
  congr 1
  funext i
  by_cases hi : i ∈ taken
  · simp [h i hi]
  · simp [hi]

/-- The service a declaration finds by its name. -/
def namedSlot (services : List ServiceState) (name : Option String) : Option Nat :=
  name.bind fun n => claimService services (·.serviceName == some n) []

theorem namedSlot_eq_some {name : Option String} (h : namedSlot services name = some i) :
    ∃ n s, name = some n ∧ services[i]? = some s ∧ s.serviceName = some n := by
  obtain ⟨n, hname, hn⟩ := Option.bind_eq_some_iff.mp h
  obtain ⟨-, s, hs, hp⟩ := claimService_spec hn
  exact ⟨n, s, hname, hs, by simpa using hp⟩

/-- **The named pass is a map**: with every name declared once, no claim is in
the way of another. -/
theorem matchNamed_eq (hnames : (names.filterMap id).Nodup)
    (htaken : ∀ i ∈ taken, ∀ n ∈ names.filterMap id,
      services[i]?.any (·.serviceName == some n) = false) :
    (matchNamed services names taken).1 = names.map (namedSlot services) := by
  induction names generalizing taken with
  | nil => rfl
  | cons name rest ih =>
      cases name with
      | none =>
          exact congrArg (none :: ·) (ih hnames htaken)
      | some n =>
          rw [declared_cons_some] at hnames htaken
          obtain ⟨hn, hrest⟩ := List.nodup_cons.mp hnames
          have hclaim := claimService_of_apart fun i hi => htaken i hi n List.mem_cons_self
          have hslot : namedSlot services (some n) =
              claimService services (·.serviceName == some n) [] := rfl
          simp only [matchNamed, Option.bind_some, hclaim, List.map_cons, hslot]
          refine congrArg (_ :: ·) (ih hrest fun i hi m hm => ?_)
          rcases List.mem_append.mp hi with hi | hi
          · -- the service just claimed is called `n`, which is not declared again
            obtain ⟨-, s, hs, hp⟩ := claimService_spec (Option.mem_toList.mp hi)
            have hsn : s.serviceName = some n := by simpa using hp
            rw [hs, Option.any_some, hsn, beq_eq_false_iff_ne, ne_eq, Option.some_inj]
            rintro rfl
            exact hn hm
          · exact htaken i hi m (List.mem_cons_of_mem _ hm)

theorem matchNamed_nil_eq (h : (names.filterMap id).Nodup) :
    (matchNamed services names []).1 = names.map (namedSlot services) :=
  matchNamed_eq h fun _ hi => absurd hi List.not_mem_nil

/-- What the named pass has taken it has given. -/
theorem mem_slots_of_taken (h : i ∈ (matchNamed services names taken).2) :
    i ∈ taken ∨ some i ∈ (matchNamed services names taken).1 := by
  induction names generalizing taken with
  | nil => exact Or.inl h
  | cons name rest ih =>
      simp only [matchNamed] at h ⊢
      rcases ih h with h | h
      · rcases List.mem_append.mp h with h | h
        · rw [Option.mem_toList.mp h]
          exact Or.inr List.mem_cons_self
        · exact Or.inl h
      · exact Or.inr (List.mem_cons_of_mem _ h)

/-! ## The adoption pass -/

theorem adoptNameless_kept (h : slots[k]? = some (some i)) :
    (adoptNameless services slots taken)[k]? = some (some i) := by
  induction slots generalizing k taken with
  | nil => simp at h
  | cons slot rest ih =>
      cases k with
      | zero =>
          obtain rfl := Option.some.inj h
          rfl
      | succ k =>
          cases slot with
          | some j => exact ih h
          | none => exact ih h

/-- A slot the pass has filled got a nameless service. -/
theorem adoptNameless_filled (h : (adoptNameless services slots taken)[k]? = some (some i)) :
    slots[k]? = some (some i) ∨ ∃ s, services[i]? = some s ∧ s.serviceName = none := by
  induction slots generalizing k taken with
  | nil => simp [adoptNameless] at h
  | cons slot rest ih =>
      cases slot with
      | some j =>
          cases k with
          | zero => exact Or.inl h
          | succ k => exact ih h
      | none =>
          cases k with
          | zero =>
              obtain ⟨-, s, hs, hp⟩ := claimService_spec (Option.some.inj h)
              exact Or.inr ⟨s, hs, by simpa using hp⟩
          | succ k => exact ih h

/-- A slot stays empty only when every nameless service is taken. -/
theorem adoptNameless_unmatched (h : none ∈ adoptNameless services slots taken)
    (hs : services[i]? = some s) (hnameless : s.serviceName = none) :
    i ∈ taken ∨ some i ∈ adoptNameless services slots taken := by
  induction slots generalizing taken with
  | nil => cases h
  | cons slot rest ih =>
      cases slot with
      | some j =>
          have hrest := (List.mem_cons.mp h).resolve_left (by simp)
          exact (ih hrest).imp_right (List.mem_cons_of_mem _)
      | none =>
          simp only [adoptNameless] at h ⊢
          cases hclaim : claimService services (·.serviceName.isNone) taken with
          | none => exact Or.inl (claimService_eq_none hclaim hs (by simp [hnameless]))
          | some j =>
              rw [hclaim] at h
              have hrest := (List.mem_cons.mp h).resolve_left (by simp)
              rcases ih hrest with hi | hi
              · rcases List.mem_append.mp hi with hi | hi
                · rw [Option.mem_toList, Option.some_inj] at hi
                  exact Or.inr (by rw [hi]; exact List.mem_cons_self)
                · exact Or.inl hi
              · exact Or.inr (List.mem_cons_of_mem _ hi)

/-- The slot points at a service with a name. -/
def pointsAtNamed (services : List ServiceState) (p : Option String × Option Nat) : Bool :=
  p.2.any fun i => services[i]?.any (·.serviceName.isSome)

/-- Of the pairs of a declaration and a named service, adoption makes none. -/
theorem filter_adoptNameless (hslots : ∀ slot ∈ slots, ∀ i ∈ slot,
      services[i]?.any (·.serviceName.isSome) = true) :
    (names.zip (adoptNameless services slots taken)).filter (pointsAtNamed services) =
      (names.zip slots).filter (·.2.isSome) := by
  induction slots generalizing names taken with
  | nil => cases names <;> rfl
  | cons slot rest ih =>
      have hrest : ∀ slot ∈ rest, ∀ i ∈ slot, services[i]?.any (·.serviceName.isSome) = true :=
        fun slot hslot => hslots slot (List.mem_cons_of_mem _ hslot)
      cases names with
      | nil => rfl
      | cons name names =>
          cases slot with
          | some j =>
              have hj := hslots (some j) List.mem_cons_self j rfl
              simp only [adoptNameless, List.zip_cons_cons]
              rw [List.filter_cons_of_pos (by simpa [pointsAtNamed] using hj),
                List.filter_cons_of_pos rfl, ih hrest]
          | none =>
              simp only [adoptNameless, List.zip_cons_cons]
              rw [List.filter_cons_of_neg ?_, List.filter_cons_of_neg (by simp), ih hrest]
              cases hclaim : claimService services (·.serviceName.isNone) taken with
              | none => simp [pointsAtNamed]
              | some j =>
                  obtain ⟨-, s, hs, hp⟩ := claimService_spec hclaim
                  simpa [pointsAtNamed, hs] using hp

/-! ## The slots -/

/-- No two of the services that have a name have the same one. -/
def NamesApart (services : List ServiceState) : Prop :=
  (services.filterMap (·.serviceName)).Nodup

theorem NamesApart.eq (h : NamesApart services) {j : Nat} {t : ServiceState} {n : String}
    (hs : services[i]? = some s) (ht : services[j]? = some t) (hsn : s.serviceName = some n)
    (htn : t.serviceName = some n) : i = j := by
  induction services generalizing i j with
  | nil => simp at hs
  | cons x rest ih =>
      have hrest : NamesApart rest := by
        rw [NamesApart, List.filterMap_cons] at h
        split at h
        · exact h
        · exact (List.nodup_cons.mp h).2
      -- the first service shares its name with no later one
      have hfirst : x.serviceName = some n → ∀ (l : Nat) (t : ServiceState),
          rest[l]? = some t → t.serviceName ≠ some n := by
        intro hx l t hl hn
        rw [NamesApart, List.filterMap_cons_some hx] at h
        exact (List.nodup_cons.mp h).1 (List.mem_filterMap.mpr ⟨t, List.mem_of_getElem? hl, hn⟩)
      cases i with
      | zero =>
          obtain rfl := Option.some.inj hs
          cases j with
          | zero => rfl
          | succ j => exact absurd htn (hfirst hsn j t ht)
      | succ i =>
          cases j with
          | zero =>
              obtain rfl := Option.some.inj ht
              exact absurd hsn (hfirst htn i s hs)
          | succ j => rw [ih hrest hs ht]

theorem namedSlot_of_carried (h : NamesApart services) {n : String} (hs : services[i]? = some s)
    (hn : s.serviceName = some n) : namedSlot services (some n) = some i := by
  cases hslot : namedSlot services (some n) with
  | none => exact absurd (claimService_eq_none hslot hs (by simp [hn])) List.not_mem_nil
  | some j =>
      obtain ⟨m, t, hm, ht, htm⟩ := namedSlot_eq_some hslot
      obtain rfl := Option.some.inj hm
      rw [h.eq hs ht hn htm]

/-- The pairs of a declaration and the named service it updates, in the order
of the declarations. -/
def namedMatches (services : List ServiceState) (names : List (Option String)) :
    List (Option String × Option Nat) :=
  (names.map fun name => (name, namedSlot services name)).filter (·.2.isSome)

theorem filter_matched {matched : List (Option Nat)}
    (hm : matchDeclarations services names = .ok matched) (h : (names.filterMap id).Nodup) :
    (names.zip matched).filter (pointsAtNamed services) = namedMatches services names := by
  rw [matchDeclarations_ok h, Except.ok.injEq] at hm
  rw [← hm, matchNamed_nil_eq h, filter_adoptNameless, ← List.map_prod_left_eq_zip, namedMatches]
  · intro slot hslot i hi
    obtain ⟨name, -, rfl⟩ := List.mem_map.mp hslot
    obtain ⟨n, s, -, hs, hn⟩ := namedSlot_eq_some hi
    simp [hs, hn]

/-- **Declaration matching.** -/
theorem declaration_matching (services : List ServiceState) (hapart : NamesApart services)
    (names : List (Option String)) :
    ((∃ n, matchDeclarations services names = .error n) ↔ ¬(names.filterMap id).Nodup) ∧
    ∀ matched, matchDeclarations services names = .ok matched →
      matched.length = names.length ∧
      (∀ i, some i ∈ matched → i < services.length) ∧
      (matched.filterMap id).Nodup ∧
      (∀ (k : Nat) (n : String) (i : Nat) (s : ServiceState), names[k]? = some (some n) →
        services[i]? = some s → s.serviceName = some n → matched[k]? = some (some i)) ∧
      (∀ (k i : Nat) (s : ServiceState) (n : String), matched[k]? = some (some i) →
        services[i]? = some s → s.serviceName = some n → names[k]? = some (some n)) ∧
      (none ∈ matched → ∀ (i : Nat) (s : ServiceState), services[i]? = some s →
        s.serviceName = none → some i ∈ matched) ∧
      ∀ names', names.Perm names' → ∃ matched', matchDeclarations services names' = .ok matched' ∧
        ((names.zip matched).filter (pointsAtNamed services)).Perm
          ((names'.zip matched').filter (pointsAtNamed services)) := by
  refine ⟨matchDeclarations_error, fun matched hm => ?_⟩
  have hnames : (names.filterMap id).Nodup := by
    by_contra hrepeat
    obtain ⟨n, hn⟩ : ∃ n, matchDeclarations services names = .error n :=
      matchDeclarations_error.mpr hrepeat
    cases hm.symm.trans hn
  have hslots : (matchNamed services names []).1 = names.map (namedSlot services) :=
    matchNamed_nil_eq hnames
  obtain ⟨hnodup, hlength⟩ := matchDeclarations_nodup hm
  have hfilled := filter_matched hm hnames
  have hinRange : ∀ i, some i ∈ matched → i < services.length := by
    intro i hi
    obtain ⟨s, hs⟩ := matchDeclarations_inRange hm hi
    exact (List.getElem?_eq_some_iff.mp hs).1
  rw [matchDeclarations_ok hnames, Except.ok.injEq] at hm
  subst hm
  refine ⟨hlength, hinRange, hnodup, ?_, ?_, ?_, ?_⟩
  · intro k n i s hk hs hn
    refine adoptNameless_kept ?_
    rw [hslots, List.getElem?_map, hk, Option.map_some, namedSlot_of_carried hapart hs hn]
  · intro k i s n hk hs hn
    rcases adoptNameless_filled hk with hk | ⟨t, ht, htn⟩
    · rw [hslots, List.getElem?_map, Option.map_eq_some_iff] at hk
      obtain ⟨name, hname, hslot⟩ := hk
      obtain ⟨m, t, rfl, ht, htm⟩ := namedSlot_eq_some hslot
      obtain rfl := Option.some.inj (hs.symm.trans ht)
      rw [hname, ← hn, htm]
    · obtain rfl := Option.some.inj (hs.symm.trans ht)
      cases hn.symm.trans htn
  · intro hnone i s hs hn
    rcases adoptNameless_unmatched hnone hs hn with htaken | hgiven
    · rcases mem_slots_of_taken htaken with hi | hi
      · cases hi
      · obtain ⟨k, hk⟩ := List.getElem?_of_mem hi
        exact List.mem_of_getElem? (adoptNameless_kept hk)
    · exact hgiven
  · intro names' hperm
    have hnames' : (names'.filterMap id).Nodup := (hperm.filterMap id).nodup_iff.mp hnames
    refine ⟨_, matchDeclarations_ok hnames', ?_⟩
    rw [hfilled, filter_matched (matchDeclarations_ok hnames') hnames']
    exact (hperm.map _).filter _

/-- Two services change places in the list, and the third declaration adopts
the nameless one. -/
theorem declaration_matching_reordered :
    let services : List ServiceState :=
      [{ serviceName := some "web" }, {}, { serviceName := some "api" }]
    matchDeclarations services [some "api", some "web", some "new"] =
        .ok [some 2, some 0, some 1] ∧
      ∃ matched', matchDeclarations services [some "new", some "api", some "web"] = .ok matched' ∧
        ([some "api", some "web", some "new"].zip [some 2, some 0, some 1] |>.filter
          (pointsAtNamed services)).Perm
          ([some "new", some "api", some "web"].zip matched' |>.filter (pointsAtNamed services)) := by
  intro services
  have hm : matchDeclarations services [some "api", some "web", some "new"] =
      .ok [some 2, some 0, some 1] := rfl
  have hperm : [some "api", some "web", some "new"].Perm [some "new", some "api", some "web"] := by
    decide
  have hapart : NamesApart services := by
    simp [NamesApart, services]
  exact ⟨hm, ((declaration_matching services hapart _).2 _ hm).2.2.2.2.2.2 _ hperm⟩

end Aperio
