import Mathlib.Data.List.Basic

/-!
# The filters of a process

`pubsub.rs` of the client: the topic filters a process asks the server for,
each with whether the configuration names it and how many local subscribers
hold it. Every operation goes by the first entry of a pattern. A
configuration may name one pattern twice, and then only the first entry is
ever held.
-/

namespace Aperio

structure TopicFilter where
  pattern : String
  fromConfig : Bool
  holders : Nat
deriving Repr, DecidableEq

/-- The patterns a process asks for. -/
def patterns (filters : List TopicFilter) : List String :=
  filters.map (·.pattern)

/-- The filters of a new bus. -/
def configured (topics : List String) : List TopicFilter :=
  topics.map fun pattern => ⟨pattern, true, 0⟩

/-- The holders of the first entry of a pattern, and what is left of the list
without it. -/
def takeHolders : List TopicFilter → String → Nat × List TopicFilter
  | [], _ => (0, [])
  | f :: rest, pattern =>
    if f.pattern = pattern then (f.holders, rest)
    else ((takeHolders rest pattern).1, f :: (takeHolders rest pattern).2)

/-- What the file names, with the holders each had, and then what it no longer
names, kept only while somebody holds it. -/
def nextFilters : List String → List TopicFilter → List TopicFilter
  | [], previous =>
    (previous.filter fun f => decide (0 < f.holders)).map fun f => { f with fromConfig := false }
  | pattern :: topics, previous =>
    ⟨pattern, true, (takeHolders previous pattern).1⟩ ::
      nextFilters topics (takeHolders previous pattern).2

def setFilters (filters : List TopicFilter) (topics : List String) : Bool × List TopicFilter :=
  if (filters.filter (·.fromConfig)).map (·.pattern) = topics then (false, filters)
  else (true, nextFilters topics filters)

def holdFilter : List TopicFilter → String → Bool × List TopicFilter
  | [], filter => (true, [⟨filter, false, 1⟩])
  | f :: rest, filter =>
    if f.pattern = filter then (false, { f with holders := f.holders + 1 } :: rest)
    else ((holdFilter rest filter).1, f :: (holdFilter rest filter).2)

def releaseFilter : List TopicFilter → String → Bool × List TopicFilter
  | [], _ => (false, [])
  | f :: rest, filter =>
    if f.pattern = filter then
      if 0 < f.holders - 1 || f.fromConfig then
        (false, { f with holders := f.holders - 1 } :: rest)
      else (true, rest)
    else ((releaseFilter rest filter).1, f :: (releaseFilter rest filter).2)

/-- The holders of a pattern. -/
def holdersOf : List TopicFilter → String → Nat
  | [], _ => 0
  | f :: rest, pattern => if f.pattern = pattern then f.holders else holdersOf rest pattern

/-- Of two entries of one pattern both are the file's, and only the first is
held. -/
def Tidy (filters : List TopicFilter) : Prop :=
  filters.Pairwise fun f g =>
    f.pattern = g.pattern → f.fromConfig = true ∧ g.fromConfig = true ∧ g.holders = 0

section

variable {filters : List TopicFilter} {f : TopicFilter} {filter pattern : String}
  {topics : List String}

@[simp] theorem mem_patterns : pattern ∈ patterns filters ↔ ∃ f ∈ filters, f.pattern = pattern :=
  List.mem_map

theorem patterns_cons : patterns (f :: filters) = f.pattern :: patterns filters := rfl

/-! ## Holding -/

theorem patterns_holdFilter :
    pattern ∈ patterns (holdFilter filters filter).2 ↔
      pattern ∈ patterns filters ∨ pattern = filter := by
  induction filters with
  | nil => simp [holdFilter, patterns]
  | cons f rest ih =>
      unfold holdFilter
      split
      · rename_i heq
        simp only [patterns_cons, List.mem_cons]
        constructor
        · exact Or.inl
        · rintro (h | rfl)
          · exact h
          · exact Or.inl heq.symm
      · simp only [patterns_cons, List.mem_cons, ih, or_assoc]

/-- The process starts asking for a filter it did not ask for. -/
theorem holdFilter_new : (holdFilter filters filter).1 = true ↔ filter ∉ patterns filters := by
  induction filters with
  | nil => simp [holdFilter, patterns]
  | cons f rest ih =>
      unfold holdFilter
      rw [patterns_cons, List.mem_cons, not_or]
      split
      · rename_i heq
        simp [heq]
      · rename_i hne
        simp [ih, Ne.symm hne]

theorem holdersOf_holdFilter :
    holdersOf (holdFilter filters filter).2 pattern =
      holdersOf filters pattern + if pattern = filter then 1 else 0 := by
  induction filters with
  | nil =>
      by_cases h : filter = pattern
      · simp [holdFilter, holdersOf, h]
      · simp [holdFilter, holdersOf, h, Ne.symm h]
  | cons f rest ih =>
      unfold holdFilter
      split
      · rename_i heq
        by_cases h : f.pattern = pattern
        · simp [holdersOf, h, ← heq]
        · have hne : ¬pattern = filter := fun he => h (heq.trans he.symm)
          simp [holdersOf, h, hne]
      · by_cases h : f.pattern = pattern
        · have hne : ¬pattern = filter := by
            rw [← h]
            assumption
          simp [holdersOf, h, hne]
        · simp [holdersOf, h, ih]

theorem mem_holdFilter (h : f ∈ (holdFilter filters filter).2) :
    f ∈ filters ∨ f.pattern = filter := by
  induction filters with
  | nil =>
      rw [holdFilter, List.mem_singleton] at h
      exact Or.inr (by rw [h])
  | cons g rest ih =>
      unfold holdFilter at h
      split at h
      · rename_i heq
        rcases List.mem_cons.mp h with rfl | h
        · exact Or.inr heq
        · exact Or.inl (List.mem_cons_of_mem _ h)
      · rcases List.mem_cons.mp h with rfl | h
        · exact Or.inl List.mem_cons_self
        · exact (ih h).imp_left (List.mem_cons_of_mem _)

theorem Tidy.holdFilter (h : Tidy filters) : Tidy (holdFilter filters filter).2 := by
  induction filters with
  | nil => exact List.pairwise_singleton _ _
  | cons g rest ih =>
      rw [Tidy, List.pairwise_cons] at h
      unfold Aperio.holdFilter
      split
      · exact List.pairwise_cons.mpr h
      · rename_i hne
        refine List.pairwise_cons.mpr ⟨?_, ih h.2⟩
        intro f hf heq
        rcases mem_holdFilter hf with hold | hpattern
        · exact h.1 f hold heq
        · exact absurd (heq.trans hpattern) hne

/-! ## Releasing -/

theorem Tidy.holdersOf_tail (h : Tidy (f :: filters)) : holdersOf filters f.pattern = 0 := by
  rw [Tidy, List.pairwise_cons] at h
  have hall := h.1
  clear h
  induction filters with
  | nil => rfl
  | cons g rest ih =>
      unfold holdersOf
      split
      · rename_i heq
        exact (hall g List.mem_cons_self heq.symm).2.2
      · exact ih fun g hg => hall g (List.mem_cons_of_mem _ hg)

theorem holdersOf_releaseFilter (h : Tidy filters) :
    holdersOf (releaseFilter filters filter).2 pattern =
      holdersOf filters pattern - if pattern = filter then 1 else 0 := by
  induction filters with
  | nil => simp [releaseFilter, holdersOf]
  | cons f rest ih =>
      have htail := h.holdersOf_tail
      unfold releaseFilter
      split
      · rename_i heq
        split
        · by_cases hp : f.pattern = pattern
          · simp [holdersOf, hp, ← heq]
          · have hne : ¬pattern = filter := fun he => hp (heq.trans he.symm)
            simp [holdersOf, hp, hne]
        · rename_i hlast
          simp only [Bool.or_eq_true, decide_eq_true_eq, not_or] at hlast
          by_cases hp : f.pattern = pattern
          · have heq' : pattern = filter := hp.symm.trans heq
            rw [hp] at htail
            rw [htail, holdersOf, if_pos hp, if_pos heq']
            omega
          · have hne : ¬pattern = filter := fun he => hp (heq.trans he.symm)
            simp [holdersOf, hp, hne]
      · rename_i hne
        rw [Tidy, List.pairwise_cons] at h
        by_cases hp : f.pattern = pattern
        · have hne' : ¬pattern = filter := fun he => hne (hp.trans he)
          simp [holdersOf, hp, hne']
        · simp [holdersOf, hp, ih h.2]

theorem mem_releaseFilter (h : f ∈ (releaseFilter filters filter).2) :
    f ∈ filters ∨ ∃ g ∈ filters, f = { g with holders := g.holders - 1 } := by
  induction filters with
  | nil => cases h
  | cons g rest ih =>
      unfold releaseFilter at h
      split at h
      · split at h
        · rcases List.mem_cons.mp h with rfl | h
          · exact Or.inr ⟨g, List.mem_cons_self, rfl⟩
          · exact Or.inl (List.mem_cons_of_mem _ h)
        · exact Or.inl (List.mem_cons_of_mem _ h)
      · rcases List.mem_cons.mp h with rfl | h
        · exact Or.inl List.mem_cons_self
        · rcases ih h with hold | ⟨k, hk, rfl⟩
          · exact Or.inl (List.mem_cons_of_mem _ hold)
          · exact Or.inr ⟨k, List.mem_cons_of_mem _ hk, rfl⟩

theorem Tidy.releaseFilter (h : Tidy filters) : Tidy (releaseFilter filters filter).2 := by
  induction filters with
  | nil => exact h
  | cons g rest ih =>
      rw [Tidy, List.pairwise_cons] at h
      unfold Aperio.releaseFilter
      split
      · split
        · exact List.pairwise_cons.mpr h
        · exact h.2
      · refine List.pairwise_cons.mpr ⟨?_, ih h.2⟩
        intro f hf heq
        rcases mem_releaseFilter hf with hold | ⟨k, hk, rfl⟩
        · exact h.1 f hold heq
        · obtain ⟨hg, hc, hzero⟩ := h.1 k hk heq
          exact ⟨hg, hc, by rw [hzero]⟩

/-- A filter is given up with its last entry, and otherwise the patterns are
what they were. -/
theorem patterns_releaseFilter (h : Tidy filters) :
    pattern ∈ patterns (releaseFilter filters filter).2 ↔
      pattern ∈ patterns filters ∧
        ((releaseFilter filters filter).1 = true → pattern ≠ filter) := by
  induction filters with
  | nil => simp [releaseFilter, patterns]
  | cons g rest ih =>
      rw [Tidy, List.pairwise_cons] at h
      unfold releaseFilter
      split
      · rename_i heq
        split
        · simp [patterns_cons]
        · rename_i hlast
          simp only [Bool.or_eq_true, not_or] at hlast
          rw [patterns_cons, List.mem_cons]
          constructor
          · intro hmem
            refine ⟨Or.inr hmem, fun _ he => ?_⟩
            obtain ⟨k, hk, hpattern⟩ := mem_patterns.mp hmem
            have hsame := h.1 k hk (by rw [heq, hpattern, he])
            exact hlast.2 hsame.1
          · rintro ⟨rfl | hmem, hne⟩
            · exact absurd heq (hne rfl)
            · exact hmem
      · rename_i hne
        rw [patterns_cons, patterns_cons, List.mem_cons, List.mem_cons, ih h.2]
        constructor
        · rintro (rfl | ⟨hmem, hgone⟩)
          · exact ⟨Or.inl rfl, fun _ => hne⟩
          · exact ⟨Or.inr hmem, hgone⟩
        · rintro ⟨rfl | hmem, hgone⟩
          · exact Or.inl rfl
          · exact Or.inr ⟨hmem, hgone⟩

/-! ## A new configuration -/

theorem takeHolders_fst (filters : List TopicFilter) (pattern : String) :
    (takeHolders filters pattern).1 = holdersOf filters pattern := by
  induction filters with
  | nil => rfl
  | cons f rest ih =>
      unfold takeHolders holdersOf
      split
      · rfl
      · exact ih

theorem takeHolders_sublist (filters : List TopicFilter) (pattern : String) :
    (takeHolders filters pattern).2.Sublist filters := by
  induction filters with
  | nil => exact .slnil
  | cons f rest ih =>
      unfold takeHolders
      split
      · exact List.sublist_cons_self f rest
      · exact ih.cons_cons f

theorem Tidy.takeHolders (h : Tidy filters) (pattern : String) :
    Tidy (takeHolders filters pattern).2 :=
  h.sublist (takeHolders_sublist filters pattern)

/-- Without its first entry a pattern has no holders left. -/
theorem holdersOf_takeHolders (h : Tidy filters) :
    holdersOf (takeHolders filters filter).2 pattern =
      if pattern = filter then 0 else holdersOf filters pattern := by
  induction filters with
  | nil => simp [takeHolders, holdersOf]
  | cons f rest ih =>
      have htail := h.holdersOf_tail
      rw [Tidy, List.pairwise_cons] at h
      unfold takeHolders
      split
      · rename_i heq
        by_cases hp : f.pattern = pattern
        · rw [hp] at htail
          rw [htail, if_pos (hp.symm.trans heq)]
        · have hne : ¬pattern = filter := fun he => hp (heq.trans he.symm)
          simp [holdersOf, hp, hne]
      · rename_i hne
        by_cases hp : f.pattern = pattern
        · have hne' : ¬pattern = filter := fun he => hne (hp.trans he)
          simp [holdersOf, hp, hne']
        · simp [holdersOf, hp, ih h.2]

/-- An entry has the holders of its pattern, or none. -/
theorem Tidy.holders_of_mem (h : Tidy filters) (hf : f ∈ filters) :
    f.holders = holdersOf filters f.pattern ∨ f.holders = 0 := by
  induction filters with
  | nil => cases hf
  | cons g rest ih =>
      rw [Tidy, List.pairwise_cons] at h
      unfold holdersOf
      rcases List.mem_cons.mp hf with rfl | hf
      · rw [if_pos rfl]
        exact Or.inl rfl
      · split
        · rename_i heq
          exact Or.inr (h.1 f hf heq).2.2
        · exact ih h.2 hf

/-- What only local subscribers ask for is held by one of them. -/
theorem mem_nextFilters {previous : List TopicFilter} (hf : f ∈ nextFilters topics previous) :
    f.fromConfig = true ∨ 0 < f.holders := by
  induction topics generalizing previous with
  | nil =>
      rw [nextFilters, List.mem_map] at hf
      obtain ⟨g, hg, rfl⟩ := hf
      exact Or.inr (by simpa using (List.mem_filter.mp hg).2)
  | cons pattern topics ih =>
      rw [nextFilters] at hf
      rcases List.mem_cons.mp hf with rfl | hf
      · exact Or.inl rfl
      · exact ih hf

/-- A new configuration changes no pattern's holders. -/
theorem holdersOf_nextFilters {previous : List TopicFilter} (h : Tidy previous) :
    holdersOf (nextFilters topics previous) pattern = holdersOf previous pattern := by
  induction topics generalizing previous with
  | nil =>
      rw [nextFilters]
      induction previous with
      | nil => rfl
      | cons g rest ih =>
          have htail := h.holdersOf_tail
          rw [Tidy, List.pairwise_cons] at h
          by_cases hg : 0 < g.holders
          · rw [List.filter_cons_of_pos (by simpa using hg), List.map_cons, holdersOf, holdersOf,
              ih h.2]
          · rw [List.filter_cons_of_neg (by simpa using hg), ih h.2, holdersOf]
            split
            · rename_i heq
              rw [← heq, htail]
              omega
            · rfl
  | cons p topics ih =>
      rw [nextFilters, holdersOf]
      split
      · rename_i heq
        rw [takeHolders_fst, ← heq]
      · rename_i hne
        rw [ih (h.takeHolders p), holdersOf_takeHolders h, if_neg (Ne.symm hne)]

theorem Tidy.nextFilters {previous : List TopicFilter} (h : Tidy previous)
    (topics : List String) : Tidy (nextFilters topics previous) := by
  induction topics generalizing previous with
  | nil =>
      rw [Aperio.nextFilters, Tidy, List.pairwise_map]
      refine List.Pairwise.imp_of_mem ?_ (List.Pairwise.filter _ h)
      intro f g _ hg hsame heq
      have hheld : 0 < g.holders := by simpa using (List.mem_filter.mp hg).2
      have hzero := (hsame heq).2.2
      omega
  | cons p topics ih =>
      have hrest := ih (h.takeHolders p)
      refine List.pairwise_cons.mpr ⟨?_, hrest⟩
      intro g hg heq
      have hzero : g.holders = 0 := by
        rcases hrest.holders_of_mem hg with hheld | hzero
        · rw [hheld, ← heq, holdersOf_nextFilters (h.takeHolders p), holdersOf_takeHolders h,
            if_pos rfl]
        · exact hzero
      refine ⟨rfl, ?_, hzero⟩
      rcases mem_nextFilters hg with hconfig | hheld
      · exact hconfig
      · omega

theorem Tidy.setFilters (h : Tidy filters) (topics : List String) :
    Tidy (setFilters filters topics).2 := by
  unfold Aperio.setFilters
  split
  · exact h
  · exact h.nextFilters topics

theorem holdersOf_setFilters (h : Tidy filters) :
    holdersOf (setFilters filters topics).2 pattern = holdersOf filters pattern := by
  unfold setFilters
  split
  · rfl
  · exact holdersOf_nextFilters h

/-- Where the configuration did not change, nothing did. -/
theorem setFilters_unchanged (h : (setFilters filters topics).1 = false) :
    (setFilters filters topics).2 = filters := by
  unfold setFilters at h ⊢
  split
  · rfl
  · rename_i hne
    rw [if_neg hne] at h
    cases h

theorem tidy_configured (topics : List String) : Tidy (configured topics) := by
  rw [Tidy, configured, List.pairwise_map]
  exact List.pairwise_of_forall fun _ _ _ => ⟨rfl, rfl, rfl⟩

theorem holdersOf_configured (topics : List String) (pattern : String) :
    holdersOf (configured topics) pattern = 0 := by
  induction topics with
  | nil => rfl
  | cons p topics ih =>
      rw [configured, List.map_cons, holdersOf]
      split
      · rfl
      · exact ih

end

end Aperio
