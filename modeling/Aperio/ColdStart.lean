import Aperio.ScalingBounds
import Aperio.Select

/-!
# Which record a cold start wakes

`cold_start_wait` (`scaling.rs`) chooses among the records of a hostname and
holds the request until `measure` counts an instance for the one chosen. Both
repeat rules that `select_client_pool` has of its own: which bind a path falls
under, and which services may serve.

`coldStartRecord_path` reads the choice off the list, `pool_isSome_iff` says
when a pool is there, and `cold_start_iff` puts the two rules of routing
beside the scaler's.
-/

namespace Aperio

/-! ## The choice -/

/-- A record's path against the request's; a record without one takes every
path. -/
def DeclaredScaling.matchesPath (record : DeclaredScaling) (path : String) : Bool :=
  match record.path with
  | some p => path == p || startsWith path (p ++ "/")
  | none => true

/-- The record `cold_start_wait` wakes, looked up by bind. -/
def coldStartRecord (records : List DeclaredScaling) (hostname path : String) :
    Option DeclaredScaling :=
  records.foldl (fun best candidate =>
    if candidate.hostname ≠ hostname then best
    else if !candidate.matchesPath path then best
    else if best.all fun current => current.path.isNone && candidate.path.isSome then
      some candidate
    else best) none

def DeclaredScaling.coldStartEnabled (record : DeclaredScaling) : Bool :=
  decide (record.min = 0) && decide (0 < record.coldStartSecs)

/-- The instances `measure` counts. -/
def measuredInstances (clients : Clients) (now downThreshold : Nat) (hostname : String)
    (path : Option String) : Nat :=
  (upClients clients now downThreshold).countP fun h =>
    h.services.any (·.measured hostname path)

/-! ## Reading the choice off the list -/

/-- The records of a hostname that a path falls under. -/
def recordsFor (records : List DeclaredScaling) (hostname path : String) : List DeclaredScaling :=
  records.filter fun r => r.hostname == hostname && r.matchesPath path

section Choice

variable {records : List DeclaredScaling} {hostname path : String}

theorem foldl_coldStartRecord (best : Option DeclaredScaling) :
    records.foldl (fun best candidate =>
      if candidate.hostname ≠ hostname then best
      else if !candidate.matchesPath path then best
      else if best.all fun current => current.path.isNone && candidate.path.isSome then
        some candidate
      else best) best =
    if best.any (·.path.isSome) then best
    else ((recordsFor records hostname path).find? (·.path.isSome)).or
      (best.or (recordsFor records hostname path).head?) := by
  induction records generalizing best with
  | nil => cases best <;> simp [recordsFor]
  | cons r rest ih =>
      rw [List.foldl_cons, ih]
      by_cases hhost : r.hostname = hostname
      · cases hmatch : r.matchesPath path with
        | false => simp [recordsFor, hhost, hmatch]
        | true =>
            have hfor : recordsFor (r :: rest) hostname path =
                r :: recordsFor rest hostname path := by simp [recordsFor, hhost, hmatch]
            rw [hfor]
            cases best with
            | none => cases hpath : r.path <;> simp [hhost, hpath]
            | some b =>
                cases hb : b.path <;> cases hpath : r.path <;> simp [hhost, hb, hpath]
      · simp [recordsFor, hhost]

theorem coldStartRecord_eq : coldStartRecord records hostname path =
    ((recordsFor records hostname path).find? (·.path.isSome)).or
      (recordsFor records hostname path).head? :=
  foldl_coldStartRecord none

theorem mem_of_coldStartRecord {r : DeclaredScaling}
    (h : coldStartRecord records hostname path = some r) :
    r ∈ recordsFor records hostname path := by
  rw [coldStartRecord_eq, Option.or_eq_some_iff] at h
  rcases h with h | ⟨-, h⟩
  · exact List.mem_of_find?_eq_some h
  · exact List.mem_of_head? h

/-- The chosen record's path is the first one listed. -/
theorem coldStartRecord_path : (coldStartRecord records hostname path).bind (·.path) =
    ((recordsFor records hostname path).filterMap (·.path)).head? := by
  rw [coldStartRecord_eq]
  induction recordsFor records hostname path with
  | nil => rfl
  | cons r rest ih =>
      cases hpath : r.path with
      | some p => simp [hpath]
      | none =>
          rw [List.filterMap_cons_none hpath, ← ih, List.find?_cons_of_neg (by simp [hpath])]
          cases hfind : rest.find? (·.path.isSome) with
          | some f => rfl
          | none =>
              cases rest with
              | nil => simp [hpath]
              | cons b tail =>
                  have hb : b.path = none := by
                    simpa using List.find?_eq_none.mp hfind b List.mem_cons_self
                  simp [hpath, hb]

end Choice

/-! ## The longest bind -/

theorem foldl_longerBind_le (binds : List String) (acc : Option String) {b : String}
    (hb : b ∈ binds ∨ acc = some b) :
    ∃ m, binds.foldl longerBind acc = some m ∧ b.utf8ByteSize ≤ m.utf8ByteSize := by
  induction binds generalizing acc b with
  | nil =>
      rcases hb with hb | hb
      · cases hb
      · exact ⟨b, hb, Nat.le_refl _⟩
  | cons a rest ih =>
      have hstep : ∃ m, longerBind acc a = some m ∧ a.utf8ByteSize ≤ m.utf8ByteSize ∧
          ∀ c, acc = some c → c.utf8ByteSize ≤ m.utf8ByteSize := by
        cases acc with
        | none => exact ⟨a, rfl, Nat.le_refl _, nofun⟩
        | some c =>
            by_cases hle : c.utf8ByteSize ≤ a.utf8ByteSize
            · exact ⟨a, if_pos hle, Nat.le_refl _, fun _ hc => Option.some.inj hc ▸ hle⟩
            · refine ⟨c, if_neg hle, Nat.le_of_not_le hle, fun d hd => ?_⟩
              rw [Option.some.inj hd]
      obtain ⟨m, hm, ham, hcm⟩ := hstep
      rw [List.foldl_cons]
      rcases hb with hb | hb
      · rcases List.mem_cons.mp hb with rfl | hb
        · obtain ⟨n, hn, hle⟩ := ih (longerBind acc b) (Or.inr hm)
          exact ⟨n, hn, ham.trans hle⟩
        · exact ih (longerBind acc a) (Or.inl hb)
      · obtain ⟨n, hn, hle⟩ := ih (longerBind acc a) (Or.inr hm)
        exact ⟨n, hn, (hcm b hb).trans hle⟩

theorem longestBind_le {binds : List String} {b m : String} (hb : b ∈ binds)
    (hm : longestBind binds = some m) : b.utf8ByteSize ≤ m.utf8ByteSize := by
  obtain ⟨n, hn, hle⟩ := foldl_longerBind_le binds none (Or.inl hb)
  obtain rfl := Option.some.inj (hm.symm.trans hn)
  exact hle

theorem prefix_of_pathMatchesBind {path bind : String} (h : pathMatchesBind path bind = true) :
    bind.toList <+: path.toList := by
  simp only [pathMatchesBind, Bool.or_eq_true, beq_iff_eq, startsWith,
    List.isPrefixOf_iff_prefix, String.toList_append] at h
  rcases h with rfl | h
  · exact List.prefix_rfl
  · exact (List.prefix_append _ _).trans h

theorem eq_of_prefix_of_size {a b : String} (h : a.toList <+: b.toList)
    (hsize : b.utf8ByteSize ≤ a.utf8ByteSize) : a = b := by
  obtain ⟨rest, hrest⟩ := h
  have hb : b = a ++ String.ofList rest := by
    rw [← String.toList_inj, String.toList_append, String.toList_ofList, hrest]
  rw [hb, String.utf8ByteSize_append] at hsize
  have hempty : (String.ofList rest).utf8ByteSize = 0 := by omega
  rw [hb, String.utf8ByteSize_eq_zero_iff.mp hempty, String.append_empty]

/-- Two binds of one path that are equally long are the same. -/
theorem eq_of_pathMatchesBind {path a b : String} (ha : pathMatchesBind path a = true)
    (hb : pathMatchesBind path b = true) (hsize : a.utf8ByteSize = b.utf8ByteSize) : a = b := by
  have ha := prefix_of_pathMatchesBind ha
  have hb := prefix_of_pathMatchesBind hb
  rcases List.prefix_or_prefix_of_prefix ha hb with h | h
  · exact eq_of_prefix_of_size h hsize.symm.le
  · exact (eq_of_prefix_of_size h hsize.le).symm

/-! ## When there is a pool -/

/-- A request for this path may go to the service by its path bind. -/
def ServiceState.takesPath (s : ServiceState) (uriPath : String) : Prop :=
  ∀ b, s.effectivePathBind = some b → pathMatchesBind uriPath b = true

/-- The services of the connections that are up. -/
def upServices (clients : Clients) (now downThreshold : Nat) : List ServiceState :=
  (upClients clients now downThreshold).flatMap (·.services)

section Pool

variable {clients : Clients} {now downThreshold : Nat}

theorem mem_upServices {s : ServiceState} : s ∈ upServices clients now downThreshold ↔
    ∃ id h, clients.lookup id = some h ∧ h.routable now downThreshold = true ∧ s ∈ h.services := by
  simp only [upServices, upClients, List.mem_flatMap, List.mem_filter, List.mem_map]
  constructor
  · rintro ⟨h, ⟨⟨e, he, rfl⟩, hup⟩, hs⟩
    exact ⟨e.1, e.2, AList.mem_lookup_iff.mpr he, hup, hs⟩
  · rintro ⟨id, h, hlook, hup, hs⟩
    exact ⟨h, ⟨⟨⟨id, h⟩, AList.mem_lookup_iff.mp hlook, rfl⟩, hup⟩, hs⟩

/-- Routing chooses from the serving services of the connections that are
up. -/
theorem exists_eligible (p : ServiceState → Prop) :
    (∃ c ∈ eligibleServices clients now downThreshold, p c.2) ↔
      ∃ s ∈ upServices clients now downThreshold, s.serving = true ∧ p s := by
  constructor
  · rintro ⟨c, hc, hp⟩
    obtain ⟨h, hlook, hget, hup, hserving⟩ := mem_eligibleServices.mp hc
    exact ⟨c.2, mem_upServices.mpr ⟨_, h, hlook, hup, List.mem_of_getElem? hget⟩, hserving, hp⟩
  · rintro ⟨s, hs, hserving, hp⟩
    obtain ⟨id, h, hlook, hup, hmem⟩ := mem_upServices.mp hs
    obtain ⟨i, hget⟩ := List.getElem?_of_mem hmem
    exact ⟨(⟨id, i⟩, s), mem_eligibleServices.mpr ⟨h, hlook, hget, hup, hserving⟩, hp⟩

theorem pathStage_ne_nil {pool : List Candidate} {uriPath : String} :
    (pathStage pool uriPath).1 ≠ [] ↔ ∃ c ∈ pool, c.2.takesPath uriPath := by
  rw [ne_eq, pathStage_eq_nil]
  push Not
  simp only [ServiceState.takesPath, ne_eq, Bool.not_eq_false]

theorem selectClientPool_isSome {uriPath : String} {host : Option String} :
    (selectClientPool clients uriPath host now downThreshold).isSome = true ↔
      (candidatePool clients uriPath host now downThreshold).1 ≠ [] := by
  unfold selectClientPool
  dsimp only
  cases (candidatePool clients uriPath host now downThreshold).1 with
  | nil => exact iff_of_false Bool.false_ne_true fun h => h rfl
  | cons c rest => exact iff_of_true rfl (List.cons_ne_nil c rest)

/-- **When a pool is there**: a serving service takes the path that claims the
hostname, or, where none claims it, asks for every such hostname. -/
theorem pool_isSome_iff {hostname uriPath : String} :
    (selectClientPool clients uriPath (some hostname) now downThreshold).isSome = true ↔
      (∃ s ∈ upServices clients now downThreshold, s.serving = true ∧
        s.matchesHost hostname = true ∧ s.takesPath uriPath) ∨
      ((∀ s ∈ upServices clients now downThreshold, s.serving = true →
          s.matchesHost hostname = false) ∧
        ∃ s ∈ upServices clients now downThreshold, s.serving = true ∧ s.catchAll = true ∧
          s.takesPath uriPath) := by
  have hsome : (selectClientPool clients uriPath (some hostname) now downThreshold).isSome = true ↔
      ∃ c ∈ (hostStage (eligibleServices clients now downThreshold) (some hostname)).1,
        c.2.takesPath uriPath := by
    rw [← pathStage_ne_nil, ne_eq, ← dropEjected_eq_nil]
    exact selectClientPool_isSome
  rw [hsome]
  simp only [hostStage, Option.any_some]
  split
  · next hempty =>
      rw [List.isEmpty_iff, List.filter_eq_nil_iff] at hempty
      have hnone : ∀ s ∈ upServices clients now downThreshold, s.serving = true →
          s.matchesHost hostname = false := by
        intro s hs hserving
        by_contra hmatch
        have hclaims : ∃ c ∈ eligibleServices clients now downThreshold,
            c.2.matchesHost hostname = true :=
          (exists_eligible (·.matchesHost hostname = true)).mpr
            ⟨s, hs, hserving, Bool.eq_true_of_not_eq_false hmatch⟩
        obtain ⟨c, hc, hclaims⟩ := hclaims
        exact hempty c hc hclaims
      rw [← exists_eligible, ← exists_eligible]
      simp only [List.mem_filter]
      constructor
      · rintro ⟨c, ⟨hc, hall⟩, htakes⟩
        exact Or.inr ⟨hnone, c, hc, hall, htakes⟩
      · rintro (⟨c, hc, hmatch, -⟩ | ⟨-, c, hc, hall, htakes⟩)
        · exact absurd hmatch (hempty c hc)
        · exact ⟨c, ⟨hc, hall⟩, htakes⟩
  · next hne =>
      obtain ⟨c, hc⟩ := List.exists_mem_of_ne_nil _ fun hnil => hne (List.isEmpty_iff.mpr hnil)
      obtain ⟨hc, hmatch⟩ := List.mem_filter.mp hc
      rw [← exists_eligible]
      simp only [List.mem_filter]
      constructor
      · rintro ⟨d, ⟨hd, hmatch⟩, htakes⟩
        exact Or.inl ⟨d, hd, hmatch, htakes⟩
      · rintro (⟨d, hd, hmatch, htakes⟩ | ⟨hnone, -⟩)
        · exact ⟨d, ⟨hd, hmatch⟩, htakes⟩
        · obtain ⟨s, hs, hserving, hclaims⟩ := (exists_eligible (·.matchesHost hostname = true)).mp
            ⟨c, hc, hmatch⟩
          rw [hnone s hs hserving] at hclaims
          cases hclaims

/-! ## What is counted -/

theorem measuredInstances_pos {hostname : String} {path : Option String} :
    0 < measuredInstances clients now downThreshold hostname path ↔
      ∃ s ∈ upServices clients now downThreshold, s.measured hostname path = true := by
  simp only [measuredInstances, List.countP_pos_iff, upServices, List.mem_flatMap,
    List.any_eq_true]
  constructor
  · rintro ⟨h, hh, s, hs, hmeasured⟩
    exact ⟨s, ⟨h, hh, hs⟩, hmeasured⟩
  · rintro ⟨s, ⟨h, hh, hs⟩, hmeasured⟩
    exact ⟨h, hh, s, hs, hmeasured⟩

theorem measureService_instances {hostname : String} {path : Option String}
    {out out' : PoolCapacity} {s : ServiceState}
    (h : measureService hostname path out s = some out') : out'.instances = out.instances := by
  unfold measureService at h
  split at h
  · split at h
    · obtain ⟨capacity, -, h⟩ := Option.bind_eq_some_iff.mp h
      obtain ⟨inflight, -, h⟩ := Option.bind_eq_some_iff.mp h
      rw [← Option.some.inj h]
    · rw [← Option.some.inj h]
  · rw [← Option.some.inj h]

theorem foldlM_measureService_instances {hostname : String} {path : Option String}
    {services : List ServiceState} {out out' : PoolCapacity}
    (h : services.foldlM (measureService hostname path) out = some out') :
    out'.instances = out.instances := by
  induction services generalizing out with
  | nil => rw [← Option.some.inj h]
  | cons s rest ih =>
      obtain ⟨mid, hmid, h⟩ := Option.bind_eq_some_iff.mp h
      rw [ih h, measureService_instances hmid]

/-- Where its sums stay in their type, `measure` counts these instances. -/
theorem measure_instances_eq {hostname : String} {path : Option String} {out : PoolCapacity}
    (h : measure hostname path clients now downThreshold = some out) :
    out.instances = measuredInstances clients now downThreshold hostname path := by
  unfold measure at h
  unfold measuredInstances
  have hfold : ∀ (handles : List ClientHandle) (start : PoolCapacity),
      handles.foldlM (measureClient hostname path) start = some out →
      out.instances = start.instances +
        handles.countP fun h => h.services.any (·.measured hostname path) := by
    intro handles
    induction handles with
    | nil =>
        intro start h
        rw [← Option.some.inj h]
        rfl
    | cons handle rest ih =>
        intro start h
        obtain ⟨mid, hmid, h⟩ := Option.bind_eq_some_iff.mp h
        obtain ⟨counted, hcounted, hmid⟩ := Option.bind_eq_some_iff.mp hmid
        rw [ih mid h, List.countP_cons]
        have hsame := foldlM_measureService_instances hcounted
        split at hmid
        · next hany =>
            obtain ⟨instances, hadd, hmid⟩ := Option.bind_eq_some_iff.mp hmid
            rw [← Option.some.inj hmid, if_pos hany]
            simp only [addU32] at hadd
            split at hadd
            · rw [← Option.some.inj hadd, hsame]
              dsimp only
              omega
            · cases hadd
        · next hany =>
            rw [← Option.some.inj hmid, if_neg hany, hsame]
            rfl
  rw [hfold _ {} h]
  exact Nat.zero_add _

end Pool

/-- The first of a hostname's records with a path the request falls under has
the longest of these paths. -/
def LongestFirst (records : List DeclaredScaling) (hostname path : String) : Prop :=
  ∀ r ∈ recordsFor records hostname path, ∀ p, r.path = some p →
    ∀ q ∈ ((recordsFor records hostname path).filterMap (·.path)).head?,
      p.utf8ByteSize ≤ q.utf8ByteSize

/-- The longest bind is the first listed where no other is longer. -/
theorem head?_eq_longestBind_iff {binds : List String} {path : String}
    (hbinds : ∀ b ∈ binds, pathMatchesBind path b = true) :
    binds.head? = longestBind binds ↔
      ∀ b ∈ binds, ∀ q ∈ binds.head?, b.utf8ByteSize ≤ q.utf8ByteSize := by
  cases hlongest : longestBind binds with
  | none =>
      rw [longestBind_eq_none] at hlongest
      simp [hlongest]
  | some m =>
      have hm := longestBind_mem hlongest
      constructor
      · intro hhead b hb q hq
        rw [hhead, Option.mem_some] at hq
        exact hq ▸ longestBind_le hb hlongest
      · intro hfirst
        cases binds with
        | nil => cases hm
        | cons a rest =>
            have ha := longestBind_le List.mem_cons_self hlongest
            have hsize := Nat.le_antisymm ha (hfirst m hm a rfl)
            rw [List.head?_cons, eq_of_pathMatchesBind (hbinds a List.mem_cons_self)
              (hbinds m hm) hsize]

/-- **Which record is woken, and when its wait ends with a route.** The record
chosen is one of the hostname that the path falls under; its path is the
longest of these exactly when no longer one is listed after it. An instance
counted for it means a pool exactly when a service that routing may choose
takes the path. -/
theorem cold_start_iff (records : List DeclaredScaling) (clients : Clients)
    (now downThreshold : Nat) (hostname path : String) :
    (∀ r, coldStartRecord records hostname path = some r →
      r ∈ recordsFor records hostname path) ∧
    (coldStartRecord records hostname path = none ↔ recordsFor records hostname path = []) ∧
    ((coldStartRecord records hostname path).bind (·.path) =
        longestBind ((recordsFor records hostname path).filterMap (·.path)) ↔
      LongestFirst records hostname path) ∧
    (∀ bind out, measure hostname bind clients now downThreshold = some out →
      out.instances = measuredInstances clients now downThreshold hostname bind) ∧
    ∀ r, coldStartRecord records hostname path = some r →
      ((0 < measuredInstances clients now downThreshold hostname r.path →
          (selectClientPool clients path (some hostname) now downThreshold).isSome = true) ↔
        (∀ s ∈ upServices clients now downThreshold, s.measured hostname r.path = false) ∨
        (∃ s ∈ upServices clients now downThreshold, s.serving = true ∧
          s.matchesHost hostname = true ∧ s.takesPath path) ∨
        ((∀ s ∈ upServices clients now downThreshold, s.serving = true →
            s.matchesHost hostname = false) ∧
          ∃ s ∈ upServices clients now downThreshold, s.serving = true ∧ s.catchAll = true ∧
            s.takesPath path)) := by
  refine ⟨fun r => mem_of_coldStartRecord, ?_, ?_, fun _ _ => measure_instances_eq,
    fun r _ => ?_⟩
  · rw [coldStartRecord_eq, Option.or_eq_none_iff, List.head?_eq_none_iff]
    constructor
    · exact fun h => h.2
    · intro h
      rw [h]
      exact ⟨rfl, rfl⟩
  · have hbinds : ∀ b ∈ (recordsFor records hostname path).filterMap (·.path),
        pathMatchesBind path b = true := by
      intro b hb
      obtain ⟨r, hr, hpath⟩ := List.mem_filterMap.mp hb
      have hmatch := (List.mem_filter.mp hr).2
      rw [Bool.and_eq_true, DeclaredScaling.matchesPath, hpath] at hmatch
      exact hmatch.2
    rw [coldStartRecord_path, head?_eq_longestBind_iff hbinds, LongestFirst]
    constructor
    · intro h r hr p hp
      exact h p (List.mem_filterMap.mpr ⟨r, hr, hp⟩)
    · intro h b hb
      obtain ⟨r, hr, hp⟩ := List.mem_filterMap.mp hb
      exact h r hr b hp
  · rw [measuredInstances_pos, pool_isSome_iff]
    constructor
    · intro h
      by_cases hcounted : ∃ s ∈ upServices clients now downThreshold,
          s.measured hostname r.path = true
      · exact Or.inr (h hcounted)
      · exact Or.inl fun s hs => Bool.eq_false_iff.mpr fun hm => hcounted ⟨s, hs, hm⟩
    · rintro (hnone | h) ⟨s, hs, hmeasured⟩
      · rw [hnone s hs] at hmeasured
        cases hmeasured
      · exact h

/-- A record of `app.test`. -/
def appRecord (path : Option String) : DeclaredScaling where
  id := scalingKey none "app.test" path
  hostname := "app.test"
  orgId := none
  path := path
  url := "https://api.test/scale"
  secret := none
  max := 3
  coldStartSecs := 45
  targetUtilization := 4 / 5
  windowSecs := 15

/-- A connection with one service for `app.test`. -/
def appClients (service : ServiceState) : Clients :=
  (∅ : Clients).insert "c"
    { connectedAt := 0, clientIp := "198.51.100.7", perms := .ofMaster, services := [service] }

def appService : ServiceState :=
  { declaredHostname := some "app.test" }

theorem cold_start_app :
    coldStartRecord [appRecord none] "app.test" "/a" = some (appRecord none) ∧
      (selectClientPool (appClients appService) "/a" (some "app.test") 0 30).isSome = true := by
  obtain ⟨-, -, -, -, hpool⟩ := cold_start_iff [appRecord none] (appClients appService) 0 30
    "app.test" "/a"
  refine ⟨by decide +kernel, (hpool (appRecord none) (by decide +kernel)).mpr ?_ ?_⟩
  · exact Or.inr (Or.inl
      ⟨appService, by decide +kernel, by decide +kernel, by decide +kernel, nofun⟩)
  · decide +kernel

/-- The shorter of two paths is listed first, and the one service counted is
refused. -/
theorem cold_start_misses :
    coldStartRecord [appRecord (some "/a"), appRecord (some "/a/b")] "app.test" "/a/b/c" =
        some (appRecord (some "/a")) ∧
      longestBind ["/a", "/a/b"] = some "/a/b" ∧
      coldStartRecord [appRecord none] "app.test" "/x" = some (appRecord none) ∧
      measuredInstances (appClients { appService with serverSideRefused := some "off" }) 0 30
        "app.test" none = 1 ∧
      selectClientPool (appClients { appService with serverSideRefused := some "off" }) "/x"
        (some "app.test") 0 30 = none := by
  decide +kernel

end Aperio
