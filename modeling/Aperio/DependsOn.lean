import Aperio.CycleSearch
import Aperio.KeyedSum
import Aperio.Run
import Aperio.Text

/-!
# Services that wait for others

`validate_depends_on` refuses a `depends_on` that can never be met: one of an
entry without a name, one on a service that is not there, or a cycle
(`validateDependsOn_ok_iff`). At run time a service waits until each name it
depends on is in the ready map.

The map counts, per name, the live connections that carry a service of the
name (`ReadyState.Counts`). A connection announces only those of its services
whose gate the server accepts, and it counts the ones it withholds as well.
-/

namespace Aperio

/-! ## The check of a configuration -/

/-- What `validate_depends_on` reads of a `ServiceSpec`. -/
structure DependentSpec where
  name : Option String
  dependsOn : List String := []
deriving Repr, DecidableEq

/-- In which order a map hands out its keys. -/
structure KeyOrder where
  order : List String → List String
  perm : ∀ keys, (order keys).Perm keys

abbrev Dependencies := AList fun _ : String => List String

/-- The check of one entry, which is noted under its name. -/
def declareDeps (names : List String) (deps : Dependencies) (spec : DependentSpec) :
    Except (Option String) Dependencies :=
  match spec.name with
  | none =>
    if spec.dependsOn = [] then .ok deps
    else .error (some ("CRITICAL ERROR: depends_on needs services with names; " ++
      "the entry that declares it has none"))
  | some name =>
    match spec.dependsOn.find? fun dep => dep == name || !names.contains dep with
    | some dep =>
      if dep = name then
        .error (some ("CRITICAL ERROR: service '" ++ name ++ "' depends_on itself"))
      else
        .error (some ("CRITICAL ERROR: service '" ++ name ++ "' depends_on '" ++ dep ++
          "', which is not a service in this configuration"))
    | none => .ok (deps.insert name spec.dependsOn)

def cycleText (chain : List String) : String :=
  "CRITICAL ERROR: depends_on forms a cycle (" ++ join chain " -> " ++
    "); no service in it can ever start first"

/-- `deps.get(node)`, nothing for a name without an entry. -/
def depsOf (deps : Dependencies) (name : String) : List String :=
  (deps.lookup name).getD []

/-- `validate_depends_on`. An error without a text is a walk that has no fuel
left. -/
def validateDependsOn (keys : KeyOrder) (specs : List DependentSpec) :
    Except (Option String) Unit :=
  match specs.foldlM (declareDeps (specs.filterMap (·.name))) ∅ with
  | .error e => .error e
  | .ok deps =>
    match searchAll (depsOf deps) (deps.keys.length + 1) (keys.order deps.keys) with
    | .ok _ => .ok ()
    | .error (.cycle chain) => .error (some (cycleText chain))
    | .error .unfinished => .error none

/-- One service of a configuration depends on another. -/
def DependsOn (specs : List DependentSpec) (a b : String) : Prop :=
  ∃ spec ∈ specs, spec.name = some a ∧ b ∈ spec.dependsOn

/-- A configuration whose dependencies can be met. -/
structure Satisfiable (specs : List DependentSpec) : Prop where
  named : ∀ spec ∈ specs, spec.name = none → spec.dependsOn = []
  known : ∀ a b, DependsOn specs a b → ∃ spec ∈ specs, spec.name = some b
  acyclic : ∀ a, ¬Relation.TransGen (DependsOn specs) a a

/-- An entry the first loop lets through. -/
def DependentSpec.Passes (names : List String) (spec : DependentSpec) : Prop :=
  (spec.name = none → spec.dependsOn = []) ∧
    ∀ name, spec.name = some name → ∀ dep ∈ spec.dependsOn, dep ≠ name ∧ dep ∈ names

def noteDeps (deps : Dependencies) (spec : DependentSpec) : Dependencies :=
  match spec.name with
  | none => deps
  | some name => deps.insert name spec.dependsOn

variable {specs : List DependentSpec} {names : List String} {deps : Dependencies}

theorem declareDeps_spec (names : List String) (deps : Dependencies) (spec : DependentSpec) :
    (spec.Passes names ∧ declareDeps names deps spec = .ok (noteDeps deps spec)) ∨
      ¬spec.Passes names ∧ ∃ text, declareDeps names deps spec = .error (some text) := by
  cases hname : spec.name with
  | none =>
      simp only [declareDeps, noteDeps, hname]
      split
      · rename_i hnil
        exact Or.inl ⟨⟨fun _ => hnil, fun name h => by simp [hname] at h⟩, rfl⟩
      · rename_i hdeps
        exact Or.inr ⟨fun h => hdeps (h.1 hname), _, rfl⟩
  | some name =>
      have hpasses : spec.Passes names ↔ ∀ dep ∈ spec.dependsOn, dep ≠ name ∧ dep ∈ names := by
        simp [DependentSpec.Passes, hname]
      simp only [declareDeps, noteDeps, hname]
      split
      · rename_i dep hfind
        have hbad := List.find?_some hfind
        have hmem := List.mem_of_find?_eq_some hfind
        have hnot : ¬spec.Passes names := by
          rw [hpasses]
          intro h
          obtain ⟨hne, hin⟩ := h dep hmem
          simp [hne, hin] at hbad
        split
        · exact Or.inr ⟨hnot, _, rfl⟩
        · exact Or.inr ⟨hnot, _, rfl⟩
      · rename_i hfind
        refine Or.inl ⟨hpasses.mpr fun dep hdep => ?_, rfl⟩
        have hgood := List.find?_eq_none.mp hfind dep hdep
        simpa using hgood

theorem foldlM_declareDeps (specs : List DependentSpec) (deps : Dependencies) :
    ((∀ spec ∈ specs, spec.Passes names) ∧
        specs.foldlM (declareDeps names) deps = .ok (specs.foldl noteDeps deps)) ∨
      (¬∀ spec ∈ specs, spec.Passes names) ∧
        ∃ text, specs.foldlM (declareDeps names) deps = .error (some text) := by
  induction specs generalizing deps with
  | nil => exact Or.inl ⟨fun spec h => absurd h List.not_mem_nil, rfl⟩
  | cons spec rest ih =>
      rw [List.forall_mem_cons, List.foldlM_cons, List.foldl_cons]
      rcases declareDeps_spec names deps spec with ⟨hpass, hstep⟩ | ⟨hnot, text, hstep⟩
      · rw [hstep]
        rcases ih (noteDeps deps spec) with ⟨hall, hrest⟩ | ⟨hnot, hrest⟩
        · exact Or.inl ⟨⟨hpass, hall⟩, hrest⟩
        · exact Or.inr ⟨fun h => hnot h.2, hrest⟩
      · rw [hstep]
        exact Or.inr ⟨fun h => hnot h.1, text, rfl⟩

theorem lookup_noteDeps_other {name : String} (h : ∀ spec ∈ specs, spec.name ≠ some name) :
    (specs.foldl noteDeps deps).lookup name = deps.lookup name := by
  induction specs generalizing deps with
  | nil => rfl
  | cons spec rest ih =>
      obtain ⟨hspec, hrest⟩ := List.forall_mem_cons.mp h
      rw [List.foldl_cons, ih hrest, noteDeps]
      split
      · rfl
      · rename_i own hown
        refine AList.lookup_insert_ne fun heq => hspec ?_
        rw [hown, heq]

/-- What is noted under a name, when no name stands twice. -/
theorem lookup_noteDeps {spec : DependentSpec} {name : String}
    (hdistinct : (specs.filterMap (·.name)).Nodup) (hspec : spec ∈ specs)
    (hname : spec.name = some name) :
    (specs.foldl noteDeps deps).lookup name = some spec.dependsOn := by
  induction specs generalizing deps with
  | nil => exact absurd hspec List.not_mem_nil
  | cons first rest ih =>
      rw [List.foldl_cons]
      rcases List.mem_cons.mp hspec with rfl | hrest
      · rw [List.filterMap_cons_some hname, List.nodup_cons] at hdistinct
        have hother : ∀ other ∈ rest, other.name ≠ some name := by
          intro other hother hsame
          exact hdistinct.1 (List.mem_filterMap.mpr ⟨other, hother, hsame⟩)
        rw [lookup_noteDeps_other hother, noteDeps, hname]
        exact AList.lookup_insert _
      · refine ih ?_ hrest
        cases hfirst : first.name with
        | none => rwa [List.filterMap_cons_none hfirst] at hdistinct
        | some own =>
            rw [List.filterMap_cons_some hfirst] at hdistinct
            exact hdistinct.of_cons

theorem exists_of_lookup_noteDeps {name : String} {ds : List String}
    (h : (specs.foldl noteDeps deps).lookup name = some ds) :
    (∃ spec ∈ specs, spec.name = some name ∧ spec.dependsOn = ds) ∨
      deps.lookup name = some ds := by
  by_cases hnone : ∀ spec ∈ specs, spec.name ≠ some name
  · rw [lookup_noteDeps_other hnone] at h
    exact Or.inr h
  · induction specs generalizing deps with
    | nil => exact absurd (fun spec hspec => absurd hspec List.not_mem_nil) hnone
    | cons first rest ih =>
        rw [List.foldl_cons] at h
        by_cases hrest : ∀ spec ∈ rest, spec.name ≠ some name
        · have hfirst : first.name = some name := by
            by_contra hne
            exact hnone (List.forall_mem_cons.mpr ⟨hne, hrest⟩)
          rw [lookup_noteDeps_other hrest, noteDeps, hfirst] at h
          have hlookup := (AList.lookup_insert deps).symm.trans h
          exact Or.inl ⟨first, List.mem_cons_self, hfirst, Option.some.inj hlookup⟩
        · rcases ih h hrest with ⟨spec, hspec, hname, hds⟩ | hold
          · exact Or.inl ⟨spec, List.mem_cons_of_mem _ hspec, hname, hds⟩
          · rw [noteDeps] at hold
            split at hold
            · exact Or.inr hold
            · rename_i own hown
              by_cases hsame : own = name
              · subst hsame
                rw [AList.lookup_insert] at hold
                exact Or.inl ⟨first, List.mem_cons_self, hown, Option.some.inj hold⟩
              · rw [AList.lookup_insert_ne (Ne.symm hsame)] at hold
                exact Or.inr hold

/-- The graph the walk is over. -/
theorem edge_iff (hdistinct : (specs.filterMap (·.name)).Nodup) (a b : String) :
    Edge (depsOf (specs.foldl noteDeps ∅)) a b ↔ DependsOn specs a b := by
  constructor
  · intro h
    rw [Edge, depsOf] at h
    cases hlookup : (specs.foldl noteDeps (∅ : Dependencies)).lookup a with
    | none =>
        rw [hlookup] at h
        exact absurd h List.not_mem_nil
    | some ds =>
        rw [hlookup] at h
        rcases exists_of_lookup_noteDeps hlookup with ⟨spec, hspec, hname, rfl⟩ | hnone
        · exact ⟨spec, hspec, hname, h⟩
        · rw [AList.lookup_empty] at hnone
          cases hnone
  · rintro ⟨spec, hspec, hname, hdep⟩
    rw [Edge, depsOf, lookup_noteDeps hdistinct hspec hname]
    exact hdep

/-- The two conditions of the first loop, but for what a cycle excludes. -/
theorem passes_iff : (∀ spec ∈ specs, spec.Passes (specs.filterMap (·.name))) ↔
    (∀ spec ∈ specs, spec.name = none → spec.dependsOn = []) ∧
      (∀ a b, DependsOn specs a b → ∃ spec ∈ specs, spec.name = some b) ∧
        ∀ a, ¬DependsOn specs a a := by
  constructor
  · intro h
    refine ⟨fun spec hspec => (h spec hspec).1, ?_, ?_⟩
    · rintro a b ⟨spec, hspec, hname, hdep⟩
      exact List.mem_filterMap.mp ((h spec hspec).2 a hname b hdep).2
    · rintro a ⟨spec, hspec, hname, hdep⟩
      exact ((h spec hspec).2 a hname a hdep).1 rfl
  · rintro ⟨hnamed, hknown, hself⟩ spec hspec
    refine ⟨hnamed spec hspec, fun name hname dep hdep => ⟨?_, ?_⟩⟩
    · rintro rfl
      exact hself dep ⟨spec, hspec, hname, hdep⟩
    · exact List.mem_filterMap.mpr (hknown name dep ⟨spec, hspec, hname, hdep⟩)

/-- **The check of a configuration** succeeds exactly when its dependencies
can be met, and always ends. -/
theorem validateDependsOn_ok_iff (keys : KeyOrder)
    (hdistinct : (specs.filterMap (·.name)).Nodup) :
    (validateDependsOn keys specs = .ok () ↔ Satisfiable specs) ∧
      validateDependsOn keys specs ≠ .error none := by
  unfold validateDependsOn
  rcases @foldlM_declareDeps (specs.filterMap (·.name)) specs ∅ with
    ⟨hpass, hfold⟩ | ⟨hnot, text, hfold⟩
  · rw [hfold]
    obtain ⟨hnamed, hknown, -⟩ := passes_iff.mp hpass
    generalize hdeps : specs.foldl noteDeps (∅ : Dependencies) = deps
    have hedge : Edge (depsOf deps) = DependsOn specs := by
      funext a b
      rw [← hdeps]
      exact propext (edge_iff hdistinct a b)
    have horder : ∀ a, depsOf deps a ≠ [] → a ∈ keys.order deps.keys := by
      intro a ha
      refine (keys.perm deps.keys).mem_iff.mpr ?_
      by_contra hnot
      exact ha (by rw [depsOf, AList.lookup_eq_none.mpr hnot]; rfl)
    have hfuel : (keys.order deps.keys).length < deps.keys.length + 1 := by
      rw [(keys.perm deps.keys).length_eq]
      exact Nat.lt_succ_self _
    obtain ⟨hok, hends⟩ := searchAll_iff horder hfuel
    rw [hedge] at hok
    have hsat : Satisfiable specs ↔ ∀ a, ¬Relation.TransGen (DependsOn specs) a a :=
      ⟨fun h => h.acyclic, fun h => ⟨hnamed, hknown, h⟩⟩
    rw [hsat, ← hok]
    dsimp only
    cases hsearch : searchAll (depsOf deps) (deps.keys.length + 1) (keys.order deps.keys) with
    | ok out => exact ⟨iff_of_true rfl ⟨out, rfl⟩, nofun⟩
    | error e =>
        cases e with
        | cycle chain => exact ⟨iff_of_false nofun nofun, nofun⟩
        | unfinished => exact absurd hsearch hends
  · rw [hfold]
    refine ⟨iff_of_false nofun fun h => hnot ?_, nofun⟩
    exact passes_iff.mpr ⟨h.named, h.known, fun a ha => h.acyclic a (.single ha)⟩

/-! ## Connections -/

/-- What a connection reads of one of its services: its name, and the methods
of the gate it is to be announced with. -/
structure CarriedService where
  name : Option String
  gate : Option (List String) := none
deriving Repr, DecidableEq

/-- The methods of a gate that a server does not accept, as
`negotiate_visitor_gate` finds them. -/
def unsupportedMethods (announced : Option String) (gate : Option (List String)) : List String :=
  let accepted := (announced.map fun raw =>
    ((split raw ',').map fun m => toAsciiLowercase (trim m)).filter (· ≠ "")).getD []
  match gate with
  | none => []
  | some methods =>
    let wanted := methods.map fun m => toAsciiLowercase (trim m)
    if wanted.all (eqIgnoreAsciiCase · "none") then []
    else wanted.filter fun m => !accepted.contains m

/-- A connection a server has answered, and the methods its answer names. -/
structure ServiceConnection where
  services : List CarriedService
  announcedMethods : Option String := none
deriving Repr, DecidableEq

namespace ServiceConnection

variable (c : ServiceConnection)

def withheld (s : CarriedService) : Bool :=
  !(unsupportedMethods c.announcedMethods s.gate).isEmpty

/-- Nothing is left to serve, and the connection is given up. -/
def nothingLeft : Bool :=
  c.services.all c.withheld

/-- The services the server hears of. -/
def announcedServices : List CarriedService :=
  c.services.filter fun s => !c.withheld s

/-- The names that are counted. -/
def announcedReady : List String :=
  c.services.filterMap (·.name)

/-- The server hears of a service of this name. -/
def Announces (name : String) : Prop :=
  ∃ s ∈ c.announcedServices, s.name = some name

end ServiceConnection

abbrev ReadyMap := AList fun _ : String => Nat

/-- `*live.entry(name).or_insert(0) += 1`. -/
def ReadyMap.up (live : ReadyMap) (name : String) : ReadyMap :=
  live.insert name ((live.lookup name).getD 0 + 1)

/-- A count that reaches zero is removed. -/
def ReadyMap.down (live : ReadyMap) (name : String) : ReadyMap :=
  match live.lookup name with
  | some count => if count - 1 = 0 then live.erase name else live.insert name (count - 1)
  | none => live

/-- The names `await_dependencies` still waits for. -/
def missingDependencies (ready : ReadyMap) (names : List String) : List String :=
  names.filter fun n => (ready.lookup n).isNone

structure ReadyState where
  ready : ReadyMap := ∅
  live : AList (fun _ : Nat => ServiceConnection) := ∅

inductive ReadyAct where
  | connect (id : Nat) (c : ServiceConnection)
  | ended (id : Nat)

/-- One connection comes up or ends. -/
def ReadyState.act (s : ReadyState) : ReadyAct → Option ReadyState
  | .connect id c =>
    match s.live.lookup id with
    | some _ => none
    | none =>
      if c.nothingLeft then some s
      else some ⟨c.announcedReady.foldl ReadyMap.up s.ready, s.live.insert id c⟩
  | .ended id =>
    match s.live.lookup id with
    | some c => some ⟨c.announcedReady.foldl ReadyMap.down s.ready, s.live.erase id⟩
    | none => none

def readySys : Sys ReadyState ReadyAct where
  init s := s = {}
  step s a s' := s.act a = some s'

/-- Some live connection announces a service of this name. -/
def ReadyState.Announced (s : ReadyState) (name : String) : Prop :=
  ∃ id c, s.live.lookup id = some c ∧ c.Announces name

/-- A dependent is released exactly when what it depends on is announced. -/
structure ReadyState.Right (s : ReadyState) : Prop where
  ready : ∀ name, (s.ready.lookup name).isSome ↔ s.Announced name
  released : ∀ names, missingDependencies s.ready names = [] ↔ ∀ n ∈ names, s.Announced n

/-- A connection withholds no service that has a name, unless it is given
up. -/
def wholeConnections (_ : ReadyState) (a : ReadyAct) (_ : ReadyState) : Prop :=
  match a with
  | .connect _ c => c.nothingLeft ∨ ∀ s ∈ c.services, s.name.isSome → c.withheld s = false
  | .ended _ => True

/-! ## Counting -/

variable {live : ReadyMap} {name : String} {s s' : ReadyState} {a : ReadyAct}

def ReadyMap.count (live : ReadyMap) (name : String) : Nat :=
  (live.lookup name).getD 0

/-- No name is left with a count of zero. -/
def ReadyMap.Positive (live : ReadyMap) : Prop :=
  ∀ name, live.lookup name ≠ some 0

theorem ReadyMap.Positive.isSome_iff (h : live.Positive) :
    (live.lookup name).isSome ↔ live.count name ≠ 0 := by
  have hname := h name
  rw [ReadyMap.count]
  cases hlookup : live.lookup name with
  | none => simp
  | some count =>
      rw [hlookup] at hname
      simpa using hname

theorem count_insert (live : ReadyMap) (own name : String) (n : Nat) :
    ReadyMap.count (live.insert own n) name = if own = name then n else live.count name := by
  rw [ReadyMap.count]
  split
  · rename_i hown
    rw [hown, AList.lookup_insert]
    rfl
  · rename_i hown
    rw [AList.lookup_insert_ne (Ne.symm hown)]
    rfl

theorem ReadyMap.Positive.insert (h : live.Positive) (own : String) {n : Nat} (hn : n ≠ 0) :
    ReadyMap.Positive (live.insert own n) := by
  intro name hzero
  by_cases hown : own = name
  · rw [hown, AList.lookup_insert] at hzero
    exact hn (Option.some.inj hzero)
  · rw [AList.lookup_insert_ne (Ne.symm hown)] at hzero
    exact h name hzero

theorem count_erase (live : ReadyMap) (own name : String) :
    ReadyMap.count (live.erase own) name = if own = name then 0 else live.count name := by
  rw [ReadyMap.count]
  split
  · rename_i hown
    rw [hown, AList.lookup_erase]
    rfl
  · rename_i hown
    rw [AList.lookup_erase_ne (Ne.symm hown)]
    rfl

theorem ReadyMap.Positive.erase (h : live.Positive) (own : String) :
    ReadyMap.Positive (live.erase own) := by
  intro name hzero
  by_cases hown : own = name
  · rw [hown, AList.lookup_erase] at hzero
    cases hzero
  · rw [AList.lookup_erase_ne (Ne.symm hown)] at hzero
    exact h name hzero

theorem up_spec (live : ReadyMap) (own : String) :
    (∀ name, (live.up own).count name = live.count name + if own = name then 1 else 0) ∧
      (live.Positive → (live.up own).Positive) := by
  refine ⟨fun name => ?_, fun h => h.insert own (Nat.succ_ne_zero _)⟩
  rw [ReadyMap.up, count_insert]
  split
  · rename_i hown
    rw [← hown, ReadyMap.count]
  · rfl

theorem down_spec (live : ReadyMap) (own : String) :
    (∀ name, (live.down own).count name = live.count name - if own = name then 1 else 0) ∧
      (live.Positive → (live.down own).Positive) := by
  rw [ReadyMap.down]
  split
  · rename_i count hcount
    have hown : live.count own = count := by rw [ReadyMap.count, hcount, Option.getD_some]
    split
    · rename_i hlast
      refine ⟨fun name => ?_, fun h => h.erase own⟩
      rw [count_erase]
      split
      · rename_i hname
        rw [← hname, hown, hlast]
      · rfl
    · rename_i hmore
      refine ⟨fun name => ?_, fun h => h.insert own hmore⟩
      rw [count_insert]
      split
      · rename_i hname
        rw [← hname, hown]
      · rfl
  · rename_i hnone
    refine ⟨fun name => ?_, id⟩
    split
    · rename_i hname
      rw [← hname, ReadyMap.count, hnone]
      rfl
    · rfl

theorem foldl_up_spec (names : List String) (live : ReadyMap) :
    (∀ name, (names.foldl ReadyMap.up live).count name = live.count name + names.count name) ∧
      (live.Positive → (names.foldl ReadyMap.up live).Positive) := by
  induction names generalizing live with
  | nil => exact ⟨fun _ => rfl, id⟩
  | cons own rest ih =>
      obtain ⟨hcount, hpositive⟩ := up_spec live own
      obtain ⟨hrest, hkept⟩ := ih (live.up own)
      refine ⟨fun name => ?_, fun h => hkept (hpositive h)⟩
      rw [List.foldl_cons, hrest, hcount, List.count_cons]
      simp only [beq_iff_eq]
      omega

theorem foldl_down_spec (names : List String) (live : ReadyMap) :
    (∀ name, (names.foldl ReadyMap.down live).count name = live.count name - names.count name) ∧
      (live.Positive → (names.foldl ReadyMap.down live).Positive) := by
  induction names generalizing live with
  | nil => exact ⟨fun _ => rfl, id⟩
  | cons own rest ih =>
      obtain ⟨hcount, hpositive⟩ := down_spec live own
      obtain ⟨hrest, hkept⟩ := ih (live.down own)
      refine ⟨fun name => ?_, fun h => hkept (hpositive h)⟩
      rw [List.foldl_cons, hrest, hcount, List.count_cons]
      simp only [beq_iff_eq]
      omega

/-- **The ready map** counts the live connections that carry a service of a
name. -/
structure ReadyState.Counts (s : ReadyState) : Prop where
  count : ∀ name, s.ready.count name = sumOver (fun _ c => c.announcedReady.count name) s.live
  positive : s.ready.Positive

theorem ReadyState.Counts.act (h : s.Counts) (hact : s.act a = some s') : s'.Counts := by
  cases a with
  | connect id c =>
      rw [ReadyState.act] at hact
      split at hact
      · cases hact
      rename_i hfresh
      split at hact
      · rwa [← Option.some.inj hact]
      · rw [← Option.some.inj hact]
        obtain ⟨hcount, hpositive⟩ := foldl_up_spec c.announcedReady s.ready
        refine ⟨fun name => ?_, hpositive h.positive⟩
        change (c.announcedReady.foldl ReadyMap.up s.ready).count name =
          sumOver _ (s.live.insert id c)
        rw [hcount, h.count, sumOver_insert, erase_of_lookup_eq_none hfresh, Nat.add_comm]
  | ended id =>
      rw [ReadyState.act] at hact
      split at hact
      · rename_i c hlive
        rw [← Option.some.inj hact]
        obtain ⟨hcount, hpositive⟩ := foldl_down_spec c.announcedReady s.ready
        refine ⟨fun name => ?_, hpositive h.positive⟩
        change (c.announcedReady.foldl ReadyMap.down s.ready).count name =
          sumOver _ (s.live.erase id)
        rw [hcount, h.count, sumOver_of_lookup _ hlive, Nat.add_sub_cancel_left]
      · cases hact

theorem ready_counts (hs : readySys.Reachable s) : s.Counts := by
  refine hs.invariant ?_ (fun _ _ _ _ h hact => h.act hact)
  rintro _ rfl
  exact ⟨fun _ => rfl, fun _ => nofun⟩

/-- A name is in the map exactly when a live connection carries it. -/
theorem ReadyState.Counts.isSome_iff (h : s.Counts) : (s.ready.lookup name).isSome ↔
    ∃ id c, s.live.lookup id = some c ∧ name ∈ c.announcedReady := by
  rw [h.positive.isSome_iff, h.count, sumOver_ne_zero_iff]
  simp only [← List.count_pos_iff, Nat.pos_iff_ne_zero]

theorem missing_eq_nil_iff {ready : ReadyMap} {names : List String} :
    missingDependencies ready names = [] ↔ ∀ n ∈ names, (ready.lookup n).isSome := by
  simp [missingDependencies, List.filter_eq_nil_iff, Option.isSome_iff_ne_none]

/-! ## Nothing withheld -/

/-- Every name a live connection is counted for is announced by it. -/
def ReadyState.Whole (s : ReadyState) : Prop :=
  ∀ id c, s.live.lookup id = some c → ∀ name ∈ c.announcedReady, c.Announces name

theorem ServiceConnection.Announces.mem {c : ServiceConnection} (h : c.Announces name) :
    name ∈ c.announcedReady := by
  obtain ⟨service, hservice, hname⟩ := h
  exact List.mem_filterMap.mpr ⟨service, (List.mem_filter.mp hservice).1, hname⟩

theorem ReadyState.Whole.act (h : s.Whole) (hact : s.act a = some s')
    (hwhole : wholeConnections s a s') : s'.Whole := by
  cases a with
  | connect id c =>
      rw [ReadyState.act] at hact
      split at hact
      · cases hact
      split at hact
      · rwa [← Option.some.inj hact]
      · rename_i hleft
        rw [← Option.some.inj hact]
        intro id' c' hlookup name hname
        by_cases hid : id' = id
        · subst hid
          obtain rfl := Option.some.inj ((AList.lookup_insert s.live).symm.trans hlookup)
          obtain ⟨service, hservice, hown⟩ := List.mem_filterMap.mp hname
          refine ⟨service, List.mem_filter.mpr ⟨hservice, ?_⟩, hown⟩
          rw [hwhole.resolve_left hleft service hservice (by rw [hown]; rfl)]
          rfl
        · exact h id' c' ((AList.lookup_insert_ne hid).symm.trans hlookup) name hname
  | ended id =>
      rw [ReadyState.act] at hact
      split at hact
      · rw [← Option.some.inj hact]
        intro id' c' hlookup
        by_cases hid : id' = id
        · subst hid
          rw [AList.lookup_erase] at hlookup
          cases hlookup
        · exact h id' c' ((AList.lookup_erase_ne hid).symm.trans hlookup)
      · cases hact

theorem ReadyState.Whole.right (h : s.Whole) (hcounts : s.Counts) : s.Right := by
  have hready (name : String) : (s.ready.lookup name).isSome ↔ s.Announced name := by
    rw [hcounts.isSome_iff]
    constructor
    · rintro ⟨id, c, hlive, hname⟩
      exact ⟨id, c, hlive, h id c hlive name hname⟩
    · rintro ⟨id, c, hlive, hname⟩
      exact ⟨id, c, hlive, hname.mem⟩
  refine ⟨hready, fun names => ?_⟩
  rw [missing_eq_nil_iff]
  exact forall₂_congr fun n _ => hready n

/-- **Service dependencies.** A configuration is refused exactly when its
dependencies cannot be met. In a run whose connections withhold no service
with a name, a dependent is released exactly when what it waits for is
announced. -/
theorem dependencies_met (keys : KeyOrder) {specs : List DependentSpec}
    (hdistinct : (specs.filterMap (·.name)).Nodup) {s : ReadyState} :
    ((validateDependsOn keys specs = .ok () ↔ Satisfiable specs) ∧
      validateDependsOn keys specs ≠ .error none) ∧
    ((readySys.restrict wholeConnections).Reachable s → s.Right) := by
  refine ⟨validateDependsOn_ok_iff keys hdistinct, fun hs => ?_⟩
  have hwhole : s.Whole := by
    refine hs.invariant ?_ (fun _ _ _ _ h hact => h.act hact.1 hact.2)
    rintro _ rfl
    intro id c hlookup
    cases hlookup
  exact hwhole.right (ready_counts hs.of_restrict)

/-! ## A service that is held back -/

def writtenOrder : KeyOrder where
  order := id
  perm keys := List.Perm.refl keys

/-- A web service that waits for its database. -/
def webAndDb : List DependentSpec :=
  [⟨some "web", ["db"]⟩, ⟨some "db", []⟩]

/-- A connection with the database on it, and another service. -/
def dbConnection (gate : Option (List String)) : ServiceConnection where
  services := [⟨some "api", none⟩, ⟨some "db", gate⟩]
  announcedMethods := some "basic"

theorem dbConnection_reachable (gate : Option (List String)) :
    ∃ s, readySys.step {} (.connect 1 (dbConnection gate)) s ∧
      s.ready.keys = ["db", "api"] ∧ s.live = (∅ : AList _).insert 1 (dbConnection gate) :=
  ⟨_, rfl, rfl, rfl⟩

theorem dependencies_met_db : ((validateDependsOn writtenOrder webAndDb = .ok () ↔
      Satisfiable webAndDb) ∧ validateDependsOn writtenOrder webAndDb ≠ .error none) ∧
    ∃ s : ReadyState, s.ready.keys = ["db", "api"] ∧ s.Right := by
  obtain ⟨s, hstep, hready, -⟩ := dbConnection_reachable none
  have hs : (readySys.restrict wholeConnections).Reachable s :=
    .step (.init rfl) ⟨hstep, Or.inr (by decide)⟩
  obtain ⟨hvalid, hright⟩ := @dependencies_met writtenOrder webAndDb (by decide) s
  exact ⟨hvalid, s, hready, hright hs⟩

/-- The database is behind a gate the server does not accept. It is withheld,
and what waits for it is released. -/
theorem withheld_service_releases :
    ∃ s, readySys.Reachable s ∧ missingDependencies s.ready ["db"] = [] ∧
      ¬s.Announced "db" ∧ ¬s.Right := by
  obtain ⟨s, hstep, hready, hlive⟩ := dbConnection_reachable (some ["oidc"])
  have hreleased : missingDependencies s.ready ["db"] = [] := by
    rw [missing_eq_nil_iff]
    intro n hn
    rw [AList.lookup_isSome, AList.mem_keys, hready, List.mem_singleton.mp hn]
    exact List.mem_cons_self
  have hnot : ¬s.Announced "db" := by
    rintro ⟨id, c, hlookup, hannounces⟩
    rw [hlive] at hlookup
    by_cases hid : id = 1
    · subst hid
      rw [AList.lookup_insert] at hlookup
      obtain rfl := Option.some.inj hlookup
      obtain ⟨service, hservice, hname⟩ := hannounces
      revert service
      decide
    · rw [AList.lookup_insert_ne hid] at hlookup
      cases hlookup
  refine ⟨s, .step (.init rfl) hstep, hreleased, hnot, fun hright => ?_⟩
  exact hnot ((hright.released ["db"]).mp hreleased "db" List.mem_cons_self)

end Aperio
