import Mathlib.Data.List.Sort
import Aperio.Text

/-!
# What a dashboard identity may do, per organization

`store/grants.rs`. A grant is one pair of an organization and a role, and an
identity holds a list of them. The organization is a child, master, or every
organization at once; a specific entry beats `*`, and `*` Admin is the
server admin.
-/

namespace Aperio

inductive Role where
  | viewer
  | operator
  | admin
deriving Repr, DecidableEq

def Role.rank : Role → Nat
  | .viewer => 0
  | .operator => 1
  | .admin => 2

def Role.parse (raw : String) : Option Role :=
  match toAsciiLowercase (trim raw) with
  | "viewer" => some .viewer
  | "operator" => some .operator
  | "admin" => some .admin
  | _ => none

def Role.asStr : Role → String
  | .viewer => "viewer"
  | .operator => "operator"
  | .admin => "admin"

inductive GrantOrg where
  | master
  | all
  | child (id : String)
deriving Repr, DecidableEq

namespace GrantOrg

def ofOrgId : Option String → GrantOrg
  | none => .master
  | some id => .child id

/-- Whether a grant over this organization reaches `org` (`none` is
master). -/
def covers (g : GrantOrg) (org : Option String) : Bool :=
  match g with
  | .all => true
  | .master => org.isNone
  | .child id => org == some id

def parse (raw : String) : GrantOrg :=
  let raw := trim raw
  if raw = "" || eqIgnoreAsciiCase raw "master" then .master
  else if raw = "*" then .all
  else .child raw

def asStr : GrantOrg → String
  | .master => "master"
  | .all => "*"
  | .child id => id

/-- `*` first, then master, then the children: the order of a stored
list. -/
def sortRank : GrantOrg → Nat
  | .all => 0
  | .master => 1
  | .child _ => 2

end GrantOrg

/-- `source` is the group that mapped the grant (`none`: written by hand),
`sourceOrg` the organization whose provider did (`none`: the server's
own). -/
structure Grant where
  org : GrantOrg
  role : Role
  source : Option String := none
  sourceOrg : Option String := none
deriving Repr, DecidableEq

def Grant.label (g : Grant) : String :=
  g.org.asStr ++ ":" ++ g.role.asStr

namespace Grants

/-- The role a grant list gives in `org`: a grant naming the organization
wins over `*`. -/
def roleIn (grants : List Grant) (org : Option String) : Option Role :=
  match grants.find? fun g => g.org != .all && g.org.covers org with
  | some g => some g.role
  | none => (grants.find? fun g => g.org == .all).map (·.role)

def isServerAdmin (grants : List Grant) : Bool :=
  grants.any fun g => g.org == .all && g.role == .admin

/-- Whether a holder of `granter` may give, or take away, `grant`. -/
def mayGrant (granter : List Grant) (grant : Grant) : Bool :=
  match grant.org with
  | .all => isServerAdmin granter
  | .master => roleIn granter none == some .admin
  | .child id => roleIn granter (some id) == some .admin

def allAdmin : List Grant :=
  [{ org := .all, role := .admin }]

/-- The grants a flat role stands for: the master Admin could do everything
and keeps being able to. -/
def legacyGrants (role : Role) (orgId : Option String) : List Grant :=
  if role = .admin ∧ orgId = none then allAdmin
  else [{ org := .ofOrgId orgId, role := role }]

/-- Drops repeated organizations, keeping the last spelling of each. -/
def dedupe (grants : List Grant) : List Grant :=
  grants.foldl (fun out g => (out.filter fun h => h.org != g.org) ++ [g]) []

/-- Canonical order. -/
def leOrg (a b : Grant) : Bool :=
  a.org.sortRank < b.org.sortRank ||
    (a.org.sortRank == b.org.sortRank && decide (a.org.asStr ≤ b.org.asStr))

/-- A stored list: one grant for each organization, in canonical order. An
empty one is refused. -/
def normalize (grants : List Grant) : Except String (List Grant) :=
  match dedupe grants with
  | [] => .error "at least one grant is required"
  | out => .ok (out.insertionSort fun a b => leOrg a b = true)

/-- What was added and what was removed. A role change in one organization
is one of each. -/
def diff (before after : List Grant) : List Grant × List Grant :=
  (after.filter fun g => !before.contains g, before.filter fun g => !after.contains g)

/-- Writes one mapped grant: where the organization is already held, the
higher role stays. -/
def mergeMapped : List Grant → Grant → List Grant
  | [], m => [m]
  | g :: rest, m =>
    if g.org == m.org then (if g.role.rank < m.role.rank then m else g) :: rest
    else g :: mergeMapped rest m

/-- What a login's group claims make of a record's grants. The map owns what
it produced before and nothing else; it overrides a foreign grant only where
it names the same organization. -/
def applyGroupMap (current mapped : List Grant) (provider : Option String) : List Grant :=
  let owned (g : Grant) := g.source.isSome && g.sourceOrg == provider
  let mapped := mapped.map fun m => { m with sourceOrg := provider }
  let kept := current.filter fun g => !owned g && !mapped.any (·.org == g.org)
  mapped.foldl mergeMapped kept

/-! ## Stored lists -/

theorem diff_self (l : List Grant) : diff l l = ([], []) := by
  simp [diff]

theorem mem_foldl_dedupe {g : Grant} :
    ∀ {l acc : List Grant},
      g ∈ l.foldl (fun out g => (out.filter fun h => h.org != g.org) ++ [g]) acc →
        g ∈ acc ∨ g ∈ l := by
  intro l
  induction l with
  | nil =>
      intro acc h
      exact Or.inl h
  | cons x rest ih =>
      intro acc h
      rcases ih h with h | h
      · rcases List.mem_append.mp h with h | h
        · exact Or.inl (List.mem_filter.mp h).1
        · exact Or.inr (by simp [List.mem_singleton.mp h])
      · exact Or.inr (List.mem_cons_of_mem _ h)

/-- A stored list holds nothing that was not asked for. -/
theorem mem_of_normalize {l out : List Grant} (h : normalize l = .ok out) {g : Grant}
    (hg : g ∈ out) : g ∈ l := by
  simp only [normalize] at h
  split at h
  · cases h
  · cases h
    rw [List.mem_insertionSort] at hg
    rcases mem_foldl_dedupe hg with h | h
    · cases h
    · exact h

/-- One grant for each organization. -/
def Distinct (l : List Grant) : Prop :=
  (l.map (·.org)).Nodup

theorem Distinct.push {l : List Grant} (h : Distinct l) (g : Grant) :
    Distinct ((l.filter fun h => h.org != g.org) ++ [g]) := by
  rw [Distinct, List.map_append, List.nodup_append]
  refine ⟨List.Nodup.sublist (List.filter_sublist.map _) h, by simp, ?_⟩
  rintro _ ha _ hb rfl
  obtain ⟨x, hx, hxa⟩ := List.mem_map.mp ha
  have hne := (List.mem_filter.mp hx).2
  simp only [List.map_cons, List.map_nil, List.mem_singleton] at hb
  simp [hxa, hb] at hne

theorem foldl_dedupe_distinct :
    ∀ {l acc : List Grant}, Distinct acc →
      Distinct (l.foldl (fun out g => (out.filter fun h => h.org != g.org) ++ [g]) acc) := by
  intro l
  induction l with
  | nil =>
      intro acc h
      exact h
  | cons x rest ih =>
      intro acc h
      exact ih (h.push x)

/-- On a list that already is distinct there is nothing to drop. -/
theorem foldl_dedupe_eq :
    ∀ {l acc : List Grant}, Distinct (acc ++ l) →
      l.foldl (fun out g => (out.filter fun h => h.org != g.org) ++ [g]) acc = acc ++ l := by
  intro l
  induction l with
  | nil =>
      intro acc _
      simp
  | cons x rest ih =>
      intro acc h
      have hacc : (acc.filter fun h => h.org != x.org) = acc := by
        rw [List.filter_eq_self]
        intro a ha
        simp only [bne_iff_ne, ne_eq]
        intro heq
        rw [Distinct, List.map_append, List.nodup_append] at h
        exact h.2.2 _ (List.mem_map.mpr ⟨a, ha, rfl⟩) _
          (List.mem_map.mpr ⟨x, List.mem_cons_self, rfl⟩) heq
      rw [List.foldl_cons, hacc, ih (by rwa [List.append_assoc, List.singleton_append]),
        List.append_assoc, List.singleton_append]

theorem normalize_ok {l out : List Grant} (h : normalize l = .ok out) :
    out = (dedupe l).insertionSort fun a b => leOrg a b = true := by
  simp only [normalize] at h
  split at h
  · cases h
  · cases h
    rfl

theorem normalize_distinct {l out : List Grant} (h : normalize l = .ok out) : Distinct out := by
  have hd : Distinct (dedupe l) := foldl_dedupe_distinct (by simp [Distinct])
  rw [normalize_ok h, Distinct]
  exact ((List.perm_insertionSort _ (dedupe l)).map _).nodup_iff.mpr hd

/-- Storing a list of distinct organizations stores every grant of it. -/
theorem mem_normalize {l out : List Grant} (hd : Distinct l) (h : normalize l = .ok out)
    {g : Grant} : g ∈ out ↔ g ∈ l := by
  have hsame : dedupe l = l := by
    have := @foldl_dedupe_eq l [] (by simpa using hd)
    simpa [dedupe] using this
  rw [normalize_ok h, hsame, List.mem_insertionSort]

/-! ## The group map -/

theorem mergeMapped_orgs (l : List Grant) (m : Grant) :
    (mergeMapped l m).map (·.org) =
      if m.org ∈ l.map (·.org) then l.map (·.org) else l.map (·.org) ++ [m.org] := by
  induction l with
  | nil =>
      simp [mergeMapped]
  | cons g rest ih =>
      rw [mergeMapped]
      by_cases hg : (g.org == m.org) = true
      · rw [if_pos hg]
        have heq : g.org = m.org := by simpa using hg
        have hhead : (if g.role.rank < m.role.rank then m else g).org = m.org := by
          split
          · rfl
          · exact heq
        simp [hhead, heq]
      · rw [if_neg hg, List.map_cons, ih]
        have hne : m.org ≠ g.org := fun h => hg (by simp [h])
        by_cases hin : m.org ∈ rest.map (·.org)
        · simp [hin]
        · have hcons : m.org ∉ g.org :: rest.map (·.org) := by
            simp only [List.mem_cons, not_or]
            exact ⟨hne, hin⟩
          rw [if_neg hin, List.map_cons, if_neg hcons, List.cons_append]

theorem mergeMapped_distinct {l : List Grant} {m : Grant} (h : Distinct l) :
    Distinct (mergeMapped l m) := by
  rw [Distinct, mergeMapped_orgs]
  split
  · exact h
  · rename_i hm
    rw [List.nodup_append]
    refine ⟨h, by simp, ?_⟩
    rintro a ha b hb rfl
    rw [List.mem_singleton] at hb
    exact hm (hb ▸ ha)

theorem mem_mergeMapped {l : List Grant} {m g : Grant} (h : g ∈ mergeMapped l m) :
    g ∈ l ∨ g = m := by
  induction l with
  | nil =>
      exact Or.inr (by simpa [mergeMapped] using h)
  | cons x rest ih =>
      rw [mergeMapped] at h
      split at h
      · rcases List.mem_cons.mp h with h | h
        · split at h
          · exact Or.inr h
          · exact Or.inl (by simp [h])
        · exact Or.inl (List.mem_cons_of_mem _ h)
      · rcases List.mem_cons.mp h with h | h
        · exact Or.inl (by simp [h])
        · exact (ih h).imp_left (List.mem_cons_of_mem _)

/-- A mapped grant leaves the grants of other organizations alone. -/
theorem mem_mergeMapped_of_ne {l : List Grant} {m g : Grant} (hne : g.org ≠ m.org) :
    g ∈ mergeMapped l m ↔ g ∈ l := by
  constructor
  · intro h
    rcases mem_mergeMapped h with h | rfl
    · exact h
    · exact absurd rfl hne
  · intro h
    induction l with
    | nil => cases h
    | cons x rest ih =>
        rw [mergeMapped]
        rcases List.mem_cons.mp h with rfl | h
        · rw [if_neg (by simpa using hne)]
          exact List.mem_cons_self
        · split
          · exact List.mem_cons_of_mem _ h
          · exact List.mem_cons_of_mem _ (ih h)

theorem foldl_mergeMapped_distinct :
    ∀ {mapped l : List Grant}, Distinct l → Distinct (mapped.foldl mergeMapped l) := by
  intro mapped
  induction mapped with
  | nil =>
      intro l h
      exact h
  | cons m rest ih =>
      intro l h
      exact ih (mergeMapped_distinct h)

theorem mem_foldl_mergeMapped {g : Grant} :
    ∀ {mapped l : List Grant}, g ∈ mapped.foldl mergeMapped l → g ∈ l ∨ g ∈ mapped := by
  intro mapped
  induction mapped with
  | nil =>
      intro l h
      exact Or.inl h
  | cons m rest ih =>
      intro l h
      rcases ih h with h | h
      · exact (mem_mergeMapped h).imp_right (by rintro rfl; exact List.mem_cons_self)
      · exact Or.inr (List.mem_cons_of_mem _ h)

theorem mem_foldl_mergeMapped_of_ne {g : Grant} :
    ∀ {mapped l : List Grant}, (∀ m ∈ mapped, g.org ≠ m.org) →
      (g ∈ mapped.foldl mergeMapped l ↔ g ∈ l) := by
  intro mapped
  induction mapped with
  | nil =>
      intro l _
      exact Iff.rfl
  | cons m rest ih =>
      intro l h
      rw [List.foldl_cons, ih fun m' hm' => h m' (List.mem_cons_of_mem _ hm')]
      exact mem_mergeMapped_of_ne (h m List.mem_cons_self)

theorem applyGroupMap_distinct {current mapped : List Grant} {provider : Option String}
    (h : Distinct current) : Distinct (applyGroupMap current mapped provider) :=
  foldl_mergeMapped_distinct (List.Nodup.sublist (List.filter_sublist.map _) h)

/-- What a login's map leaves was there, or is one of the mapped grants under
the provider's mark. -/
theorem mem_applyGroupMap {current mapped : List Grant} {provider : Option String} {g : Grant}
    (h : g ∈ applyGroupMap current mapped provider) :
    g ∈ current ∨ ∃ m ∈ mapped, g = { m with sourceOrg := provider } := by
  rcases mem_foldl_mergeMapped h with h | h
  · exact Or.inl (List.mem_filter.mp h).1
  · obtain ⟨m, hm, rfl⟩ := List.mem_map.mp h
    exact Or.inr ⟨m, hm, rfl⟩

/-- **The map of one organization's provider touches that organization
only**, where nothing outside it carries the provider's mark. -/
theorem mem_applyGroupMap_outside {current mapped : List Grant} {o : String} {g : Grant}
    (hmapped : ∀ m ∈ mapped, m.org = .child o)
    (hmark : ∀ g ∈ current, g.sourceOrg = some o → g.org = .child o) (hg : g.org ≠ .child o) :
    g ∈ applyGroupMap current mapped (some o) ↔ g ∈ current := by
  have horg : ∀ m ∈ mapped.map (fun m => { m with sourceOrg := some o }), g.org ≠ m.org := by
    intro m hm
    obtain ⟨m', hm', rfl⟩ := List.mem_map.mp hm
    rw [hmapped m' hm']
    exact hg
  rw [applyGroupMap, mem_foldl_mergeMapped_of_ne horg, List.mem_filter]
  constructor
  · exact And.left
  · intro h
    refine ⟨h, ?_⟩
    have hforeign : g.sourceOrg ≠ some o := fun hs => hg (hmark g h hs)
    simp only [Bool.and_eq_true, Bool.not_eq_true', Bool.and_eq_false_iff, List.any_eq_false]
    refine ⟨Or.inr (by simpa using hforeign), ?_⟩
    intro m hm
    simpa using fun heq => horg m hm heq.symm

end Grants

end Aperio
