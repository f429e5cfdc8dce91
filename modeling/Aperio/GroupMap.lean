import Mathlib.Order.Bounds.Defs
import Aperio.Grants

/-!
# What a login's groups leave of the grants

`apply_group_map` of `store/grants.rs`, with what it reports for the audit
log. The list is built again from this login's groups at every login, so what
the lemmas follow is one merge: every grant it is given is answered by one of
the same organization and no lower role, and nothing else comes in.
-/

namespace Aperio

namespace Grants

variable {l current mapped : List Grant} {m g : Grant} {provider : Option String}

/-- `apply_group_map`: the next list, what was added and what was removed. -/
def groupMapChange (current mapped : List Grant) (provider : Option String) :
    List Grant × List Grant × List Grant :=
  let next := applyGroupMap current mapped provider
  (next, diff current next)

/-- The grant was mapped earlier by this provider. -/
def MappedBy (provider : Option String) (g : Grant) : Prop :=
  g.source.isSome = true ∧ g.sourceOrg = provider

/-- The roles the map gives in an organization, by rank. -/
def ranksIn (mapped : List Grant) (org : GrantOrg) : Set Nat :=
  {n | ∃ m ∈ mapped, m.org = org ∧ m.role.rank = n}

/-! ## One merge -/

/-- Nothing a merge is given is lost: its organization is there, at that role
or a higher one. -/
theorem mergeMapped_answers (h : g ∈ l ∨ g = m) :
    ∃ x ∈ mergeMapped l m, x.org = g.org ∧ g.role.rank ≤ x.role.rank := by
  induction l with
  | nil =>
      rcases h with h | rfl
      · cases h
      · exact ⟨g, List.mem_singleton_self g, rfl, le_rfl⟩
  | cons y rest ih =>
      rw [mergeMapped]
      split
      · rename_i hsame
        have hsame : y.org = m.org := by simpa using hsame
        by_cases hrest : g ∈ rest
        · exact ⟨g, List.mem_cons_of_mem _ hrest, rfl, le_rfl⟩
        · have hg : g = y ∨ g = m :=
            h.imp_left fun hmem => (List.mem_cons.mp hmem).resolve_right hrest
          refine ⟨_, List.mem_cons_self, ?_⟩
          split
          · rename_i hlow
            rcases hg with rfl | rfl
            · exact ⟨hsame.symm, hlow.le⟩
            · exact ⟨rfl, le_rfl⟩
          · rename_i hhigh
            rcases hg with rfl | rfl
            · exact ⟨rfl, le_rfl⟩
            · exact ⟨hsame, not_lt.mp hhigh⟩
      · by_cases hy : g = y
        · exact ⟨y, List.mem_cons_self, by rw [hy], by rw [hy]⟩
        · have hrest : g ∈ rest ∨ g = m :=
            h.imp_left fun hmem => (List.mem_cons.mp hmem).resolve_left hy
          obtain ⟨x, hx, hxg⟩ := ih hrest
          exact ⟨x, List.mem_cons_of_mem _ hx, hxg⟩

theorem foldl_mergeMapped_answers (h : g ∈ l ∨ g ∈ mapped) :
    ∃ x ∈ mapped.foldl mergeMapped l, x.org = g.org ∧ g.role.rank ≤ x.role.rank := by
  induction mapped generalizing l g with
  | nil => exact ⟨g, h.resolve_right List.not_mem_nil, rfl, le_rfl⟩
  | cons m rest ih =>
      rw [List.mem_cons, ← or_assoc] at h
      rcases h with h | h
      · obtain ⟨y, hy, horg, hrank⟩ := mergeMapped_answers h
        obtain ⟨x, hx, hxy, hyx⟩ := ih (Or.inl hy)
        exact ⟨x, hx, hxy.trans horg, hrank.trans hyx⟩
      · exact ih (Or.inr h)

/-- A merge changes nothing outside the organization it names. -/
theorem filter_mergeMapped {p : Grant → Bool} (hp : ∀ x : Grant, x.org = m.org → p x = false) :
    (mergeMapped l m).filter p = l.filter p := by
  induction l with
  | nil => simp [mergeMapped, hp m rfl]
  | cons y rest ih =>
      rw [mergeMapped]
      split
      · rename_i hsame
        have hy : p y = false := hp y (by simpa using hsame)
        have hwritten : p (if y.role.rank < m.role.rank then m else y) = false := by
          split
          · exact hp m rfl
          · exact hy
        rw [List.filter_cons_of_neg (by simp [hwritten]), List.filter_cons_of_neg (by simp [hy])]
      · rw [List.filter_cons, List.filter_cons, ih]

theorem filter_foldl_mergeMapped {p : Grant → Bool}
    (hp : ∀ m ∈ mapped, ∀ x : Grant, x.org = m.org → p x = false) :
    (mapped.foldl mergeMapped l).filter p = l.filter p := by
  induction mapped generalizing l with
  | nil => rfl
  | cons m rest ih =>
      rw [List.foldl_cons, ih fun m' hm' => hp m' (List.mem_cons_of_mem _ hm'),
        filter_mergeMapped (hp m List.mem_cons_self)]

/-! ## The new list -/

/-- What the map keeps of a list. -/
def keeps (mapped : List Grant) (provider : Option String) (g : Grant) : Bool :=
  !(g.source.isSome && g.sourceOrg == provider) &&
    !(mapped.map fun m => { m with sourceOrg := provider }).any (·.org == g.org)

theorem keeps_iff : keeps mapped provider g = true ↔
    ¬MappedBy provider g ∧ ∀ m ∈ mapped, m.org ≠ g.org := by
  simp only [keeps, MappedBy, Bool.and_eq_true, Bool.not_eq_true', List.any_map, ← Bool.not_eq_true,
    List.any_eq_true, Function.comp_apply, beq_iff_eq, not_exists, not_and, ne_eq]

theorem mem_kept : g ∈ current.filter (keeps mapped provider) ↔
    g ∈ current ∧ ¬MappedBy provider g ∧ ∀ m ∈ mapped, m.org ≠ g.org := by
  rw [List.mem_filter, keeps_iff]

theorem applyGroupMap_eq : applyGroupMap current mapped provider =
    (mapped.map fun m => { m with sourceOrg := provider }).foldl mergeMapped
      (current.filter (keeps mapped provider)) :=
  rfl

theorem mem_applyGroupMap_cases (h : g ∈ applyGroupMap current mapped provider) :
    (g ∈ current ∧ ¬MappedBy provider g ∧ ∀ m ∈ mapped, m.org ≠ g.org) ∨
      ∃ m ∈ mapped, g = { m with sourceOrg := provider } := by
  rcases mem_foldl_mergeMapped h with h | h
  · exact Or.inl (mem_kept.mp h)
  · obtain ⟨m, hm, rfl⟩ := List.mem_map.mp h
    exact Or.inr ⟨m, hm, rfl⟩

/-- An organization the map does not name. -/
theorem mem_applyGroupMap_unnamed (hg : ∀ m ∈ mapped, m.org ≠ g.org) :
    g ∈ applyGroupMap current mapped provider ↔ g ∈ current ∧ ¬MappedBy provider g := by
  have hother : ∀ m ∈ mapped.map (fun m => { m with sourceOrg := provider }), g.org ≠ m.org := by
    intro m hm
    obtain ⟨m', hm', rfl⟩ := List.mem_map.mp hm
    exact (hg m' hm').symm
  rw [applyGroupMap_eq, mem_foldl_mergeMapped_of_ne hother, mem_kept]
  exact and_congr_right fun _ => and_iff_left hg

theorem Distinct.eq (h : Distinct l) {a b : Grant} (ha : a ∈ l) (hb : b ∈ l)
    (horg : a.org = b.org) : a = b :=
  List.inj_on_of_nodup_map h ha hb horg

/-- An organization the map names: its grant has the highest role the map
gives. -/
theorem exists_highest (h : Distinct current) (hm : m ∈ mapped) :
    ∃ g ∈ applyGroupMap current mapped provider, g.org = m.org ∧
      IsGreatest (ranksIn mapped m.org) g.role.rank := by
  have hanswers : ∀ m' ∈ mapped, ∃ x ∈ applyGroupMap current mapped provider,
      x.org = m'.org ∧ m'.role.rank ≤ x.role.rank := by
    intro m' hm'
    exact foldl_mergeMapped_answers (g := { m' with sourceOrg := provider })
      (Or.inr (List.mem_map_of_mem hm'))
  obtain ⟨g, hg, horg, -⟩ := hanswers m hm
  refine ⟨g, hg, horg, ?_, ?_⟩
  · rcases mem_applyGroupMap_cases hg with ⟨-, -, hother⟩ | ⟨m', hm', rfl⟩
    · exact absurd horg.symm (hother m hm)
    · exact ⟨m', hm', horg, rfl⟩
  · rintro _ ⟨m', hm', hsame, rfl⟩
    -- one grant for each organization: the one that answers `m'` is `g`
    obtain ⟨x, hx, hxorg, hrank⟩ := hanswers m' hm'
    obtain rfl := (applyGroupMap_distinct h).eq hg hx (horg.trans (hsame.symm.trans hxorg.symm))
    exact hrank

/-- On a list of one grant for each organization, the grant that names an
organization is the one that counts there. -/
theorem roleIn_of_mem (h : Distinct l) {org : Option String} (hg : g ∈ l)
    (horg : g.org = .ofOrgId org) : roleIn l org = some g.role := by
  have hnamed : ∀ {o : GrantOrg}, (o != .all && o.covers org) = true ↔ o = .ofOrgId org := by
    intro o
    cases o with
    | all => cases org <;> simp [GrantOrg.ofOrgId]
    | master => cases org <;> simp [GrantOrg.covers, GrantOrg.ofOrgId]
    | child id =>
        cases org with
        | none => simp [GrantOrg.covers, GrantOrg.ofOrgId]
        | some o =>
            simp only [GrantOrg.covers, GrantOrg.ofOrgId, GrantOrg.child.injEq, Bool.and_eq_true,
              bne_iff_ne, beq_iff_eq, Option.some_inj, ne_eq, reduceCtorEq, not_false_eq_true,
              true_and]
            exact eq_comm
  cases hfind : l.find? fun g => g.org != .all && g.org.covers org with
  | none =>
      have hnone := List.find?_eq_none.mp hfind g hg
      exact absurd (hnamed.mpr horg) hnone
  | some x =>
      have hx : x.org = .ofOrgId org := hnamed.mp (by simpa using List.find?_some hfind)
      obtain rfl := h.eq (List.mem_of_find?_eq_some hfind) hg (hx.trans horg.symm)
      rw [roleIn, hfind]

/-- The map applied again finds what it keeps as it left it. -/
theorem applyGroupMap_idem :
    applyGroupMap (applyGroupMap current mapped provider) mapped provider =
      applyGroupMap current mapped provider := by
  have hnamed : ∀ m ∈ mapped.map (fun m => { m with sourceOrg := provider }),
      ∀ x : Grant, x.org = m.org → keeps mapped provider x = false := by
    intro m hm x hx
    obtain ⟨m', hm', rfl⟩ := List.mem_map.mp hm
    rw [← Bool.not_eq_true, keeps_iff]
    exact fun hkeeps => hkeeps.2 m' hm' hx.symm
  have hkept : (applyGroupMap current mapped provider).filter (keeps mapped provider) =
      current.filter (keeps mapped provider) := by
    rw [applyGroupMap_eq, filter_foldl_mergeMapped hnamed, List.filter_filter]
    simp only [Bool.and_self]
  rw [applyGroupMap_eq, hkept, ← applyGroupMap_eq]

/-- **What a login's groups make of the grants.** -/
theorem group_map (current mapped : List Grant) (provider : Option String)
    (h : Distinct current) :
    let (next, added, removed) := groupMapChange current mapped provider
    Distinct next ∧
      (∀ m ∈ mapped, ∃ g ∈ next, g.org = m.org ∧ IsGreatest (ranksIn mapped m.org) g.role.rank ∧
        ∀ org, m.org = .ofOrgId org → roleIn next org = some g.role) ∧
      (∀ g : Grant, (∀ m ∈ mapped, m.org ≠ g.org) →
        (g ∈ next ↔ g ∈ current ∧ ¬MappedBy provider g)) ∧
      groupMapChange next mapped provider = (next, [], []) ∧
      ∀ g, (g ∈ added ↔ g ∈ next ∧ g ∉ current) ∧ (g ∈ removed ↔ g ∈ current ∧ g ∉ next) := by
  have hnext : Distinct (applyGroupMap current mapped provider) := applyGroupMap_distinct h
  refine ⟨hnext, ?_, fun g hg => mem_applyGroupMap_unnamed hg, ?_, fun g => ⟨?_, ?_⟩⟩
  · intro m hm
    obtain ⟨g, hg, horg, hgreatest⟩ : ∃ g ∈ applyGroupMap current mapped provider,
        g.org = m.org ∧ IsGreatest (ranksIn mapped m.org) g.role.rank := exists_highest h hm
    exact ⟨g, hg, horg, hgreatest, fun org hnamed => roleIn_of_mem hnext hg (horg.trans hnamed)⟩
  · rw [groupMapChange, applyGroupMap_idem, diff_self]
  · simp
  · simp

/-- A directory that moves somebody up in one organization and takes them out
of another, beside a grant written by hand. -/
theorem group_map_moved :
    groupMapChange
        [{ org := .child "acme", role := .viewer, source := some "staff" },
          { org := .child "beta", role := .admin, source := some "beta" },
          { org := .master, role := .viewer }]
        [{ org := .child "acme", role := .operator, source := some "ops" },
          { org := .child "acme", role := .viewer, source := some "staff" }] none =
      ([{ org := .master, role := .viewer },
          { org := .child "acme", role := .operator, source := some "ops" }],
        [{ org := .child "acme", role := .operator, source := some "ops" }],
        [{ org := .child "acme", role := .viewer, source := some "staff" },
          { org := .child "beta", role := .admin, source := some "beta" }]) ∧
      Distinct [{ org := .master, role := .viewer },
        { org := .child "acme", role := .operator, source := some "ops" }] := by
  have h : Distinct
      [{ org := .child "acme", role := .viewer, source := some "staff" },
        { org := .child "beta", role := .admin, source := some "beta" },
        { org := .master, role := .viewer }] := by
    simp [Distinct]
  exact ⟨by decide, (group_map _
    [{ org := .child "acme", role := .operator, source := some "ops" },
      { org := .child "acme", role := .viewer, source := some "staff" }] none h).1⟩

end Grants

end Aperio
