import Aperio.HostPatterns
import Aperio.Sweep

/-!
# Acting on a hostname

`AppState::org_may_act_on_hostname` (`state/admission.rs`) over the live
connections: whatever it lets an organization do to a name or a whole
subtree touches no hostname a client of another organization is serving, and
master stays out of every fence.

The test compares entries with the hostnames clients serve, as they are
spelled, where a request is matched without a trailing dot. Mostly a served
name is never free text: the server takes a bind from `normalize_hostname_bind`,
or hands out a random subdomain of its own (`routing/binds.rs`). `NamesServed`
says so of a connection map. The hostnames of a token that was imported are
taken as they were written, though, and one with a dot at its end is not
recognised: `act_isolated` says exactly what a map must be like.
-/

namespace Aperio

/-! ## The hostnames clients serve -/

/-- `str::trim_matches` with a character. -/
def trimMatches (s : String) (c : Char) : String :=
  trimEndMatches (trimStartMatches s c) c

/-- Normalizes a random-subdomain pattern: a hostname whose leftmost label
has exactly one placeholder. -/
def normalizeRandomSubdomainPattern (raw : String) : Option String :=
  let trimmed := toAsciiLowercase (trimMatches (trim raw) '.')
  if trimmed = "" then none
  else
    let pattern := if trimmed.toList.contains '*' then trimmed else "*." ++ trimmed
    if pattern.toList.count '*' ≠ 1 then none
    else
      (splitOnce pattern '.').bind fun (head, tail) =>
        if !head.toList.contains '*' || tail.toList.contains '*' then none
        else (normalizeHostnameBind (replacenOnce pattern '*' "abc123")).map fun _ => pattern

/-- What the placeholder is filled with: hex digits of a UUID, or of a
digest of the connection's seed. -/
structure RandomLabel where
  text : String
  hex : ∀ c ∈ text.toList, isAsciiDigit c ∨ ('a' ≤ c ∧ c ≤ 'f')

def randomSubdomainHostname (pattern : String) (label : RandomLabel) : String :=
  replacenOnce pattern '*' label.text

example : normalizeRandomSubdomainPattern "A.io" = some "*.a.io" ∧
    normalizeRandomSubdomainPattern "a.*.io" = none := by decide +kernel

/-- The two ways a hostname comes to be served. -/
inductive ServedName : String → Prop
  | bind {raw h : String} : normalizeHostnameBind raw = some h → ServedName h
  | random {raw pattern : String} (label : RandomLabel) :
      normalizeRandomSubdomainPattern raw = some pattern →
      ServedName (randomSubdomainHostname pattern label)

/-! ## They are plain names -/

theorem trimEndMatches_eq_self_iff {s : String} {c : Char} :
    trimEndMatches s c = s ↔ s.toList.getLast? ≠ some c := by
  rw [trimEndMatches, ← String.toList_inj, String.toList_ofList, List.rdropWhile_eq_self_iff]
  constructor
  · intro h hlast
    obtain ⟨ys, hys⟩ := List.getLast?_eq_some_iff.mp hlast
    have hne : s.toList ≠ [] := by simp [hys]
    refine h hne ?_
    rw [(List.getLast_eq_iff_getLast?_eq_some hne).mpr hlast, beq_self_eq_true]
  · intro h hne hlast
    exact h ((List.getLast_eq_iff_getLast?_eq_some hne).mp (beq_iff_eq.mp hlast))

theorem getLast?_trimEndMatches (s : String) (c : Char) :
    (trimEndMatches s c).toList.getLast? ≠ some c := by
  rw [← trimEndMatches_eq_self_iff]
  simp only [trimEndMatches, String.toList_ofList, List.rdropWhile_idempotent]

/-- Only a dot is lowered to a dot. -/
theorem toLower_eq_dot {c : Char} (h : c.toLower = '.') : c = '.' := by
  rcases toLower_cases c with ⟨hA, -, hlow⟩ | ⟨-, hsame⟩
  · rw [h] at hlow
    change 46 = _ at hlow
    omega
  · rw [← hsame, h]

theorem getLast?_toAsciiLowercase {s : String} (h : s.toList.getLast? ≠ some '.') :
    (toAsciiLowercase s).toList.getLast? ≠ some '.' := by
  intro hdot
  rw [toAsciiLowercase, String.toList_ofList, List.getLast?_map, Option.map_eq_some_iff] at hdot
  obtain ⟨c, hc, hlow⟩ := hdot
  rw [toLower_eq_dot hlow] at hc
  exact h hc

theorem toLower_of_mem_subtree {t : String} (ht : ∀ c ∈ t.toList, c.toLower = c) :
    ∀ c ∈ ("*." ++ t).toList, c.toLower = c := by
  intro c hc
  rw [String.toList_append, List.mem_append] at hc
  rcases hc with hc | hc
  · have hchar : c = '*' ∨ c = '.' := by simpa using hc
    rcases hchar with rfl | rfl
    · decide
    · decide
  · exact ht c hc

/-- A random-subdomain pattern has its one placeholder in front of its first
dot, and something behind that dot; filled in, it was a hostname. -/
theorem normalizeRandomSubdomainPattern_eq_some {raw pattern : String}
    (h : normalizeRandomSubdomainPattern raw = some pattern) :
    (∀ c ∈ pattern.toList, c.toLower = c) ∧
    ∃ before after rest : String, splitOnce pattern '*' = some (before, after ++ "." ++ rest) ∧
      '*' ∉ (after ++ "." ++ rest).toList ∧ ('.' :: rest.toList).getLast? ≠ some '.' ∧
      ('.' ∉ before.toList ∧ '.' ∉ after.toList) ∧
      (normalizeHostnameBind (before ++ "abc123" ++ (after ++ "." ++ rest))).isSome := by
  unfold normalizeRandomSubdomainPattern at h
  extract_lets trimmed p at h
  have htrimmed : ∀ c ∈ trimmed.toList, c.toLower = c :=
    fun c hc => toLower_of_mem_toAsciiLowercase hc
  have hlast : trimmed.toList.getLast? ≠ some '.' :=
    getLast?_toAsciiLowercase (getLast?_trimEndMatches _ '.')
  split at h
  · cases h
  · rename_i hne
    have hlower : ∀ c ∈ p.toList, c.toLower = c := by
      simp only [p]
      split
      · exact htrimmed
      · exact toLower_of_mem_subtree htrimmed
    have hplast : p.toList.getLast? ≠ some '.' := by
      simp only [p]
      split
      · exact hlast
      · rw [String.toList_append,
          List.getLast?_append_of_ne_nil _ (mt String.toList_eq_nil_iff.mp hne)]
        exact hlast
    split at h
    · cases h
    · rename_i hone
      obtain ⟨⟨head, tail⟩, hsplit, h⟩ := Option.bind_eq_some_iff.mp h
      simp only at h
      split at h
      · cases h
      · rename_i hparts
        obtain ⟨filled, hfilled, rfl⟩ := Option.map_eq_some_iff.mp h
        simp only [Bool.or_eq_true, not_or, Bool.not_eq_true', Bool.not_eq_false,
          List.contains_iff_mem] at hparts
        obtain ⟨before, after, htext, hbefore, hafter, htail⟩ :=
          placeholder_parts (not_not.mp hone) hsplit hparts.1
        have hstar : splitOnce p '*' = some (before, after ++ "." ++ tail) := by
          rw [splitOnce_eq_some, htext]
          exact ⟨by simp, hbefore.1⟩
        refine ⟨hlower, before, after, tail, hstar, ?_, ?_, ⟨hbefore.2, hafter.2⟩, ?_⟩
        · simp [hafter.1, htail]
        · have hcut : p.toList =
              (before.toList ++ '*' :: after.toList) ++ '.' :: tail.toList := by
            simp [htext]
          rw [hcut, List.getLast?_append_of_ne_nil _ (by simp)] at hplast
          exact hplast
        · rw [replacenOnce, hstar] at hfilled
          exact Option.isSome_iff_exists.mpr ⟨filled, hfilled⟩

theorem RandomLabel.lower (label : RandomLabel) : ∀ c ∈ label.text.toList, c.toLower = c := by
  intro c hc
  rcases toLower_cases c with ⟨hA, hZ, -⟩ | ⟨-, hsame⟩
  · rcases label.hex c hc with hdigit | ⟨ha, -⟩
    · simp only [isAsciiDigit, Bool.and_eq_true, decide_eq_true_eq] at hdigit
      have hle : c.toNat ≤ 0x39 := hdigit.2
      omega
    · have hle : 0x61 ≤ c.toNat := ha
      omega
  · exact hsame

theorem RandomLabel.noStar (label : RandomLabel) : '*' ∉ label.text.toList := by
  intro hstar
  exact absurd (label.hex '*' hstar) (by decide)

/-- A served name is a plain one, also where the configured pattern kept a
port. -/
theorem ServedName.plain {h : String} (hs : ServedName h) : ∃ n : PlainName, n.text = h := by
  cases hs with
  | bind hbind => exact normalizeHostnameBind_plain hbind
  | random label hpattern =>
      rename_i raw pattern
      obtain ⟨hlower, before, after, rest, hsplit, hstar, hlast, -⟩ :=
        normalizeRandomSubdomainPattern_eq_some hpattern
      obtain ⟨htext, hbefore⟩ := splitOnce_eq_some.mp hsplit
      have hname : (randomSubdomainHostname pattern label).toList =
          (before.toList ++ label.text.toList ++ after.toList) ++ '.' :: rest.toList := by
        simp [randomSubdomainHostname, replacenOnce, hsplit]
      have hmem : ∀ c ∈ (randomSubdomainHostname pattern label).toList,
          c ∈ before.toList ∨ c ∈ label.text.toList ∨ c ∈ (after ++ "." ++ rest).toList := by
        intro c hc
        simpa [randomSubdomainHostname, replacenOnce, hsplit] using hc
      refine ⟨⟨randomSubdomainHostname pattern label, ?_, ?_, ?_⟩, rfl⟩
      · intro c hc
        rcases hmem c hc with hc | hc | hc
        · exact hlower c (by rw [htext]; exact List.mem_append_left _ hc)
        · exact label.lower c hc
        · exact hlower c (by
            rw [htext]
            exact List.mem_append_right _ (List.mem_cons_of_mem _ hc))
      · intro hc
        rcases hmem '*' hc with hc | hc | hc
        · exact hbefore hc
        · exact label.noStar hc
        · exact hstar hc
      · rw [trimEndMatches_eq_self_iff, hname, List.getLast?_append_of_ne_nil _ (by simp)]
        exact hlast

/-! ## Every way the map is written keeps them so -/

/-- Every hostname a service answers to is one the server let it have. -/
def ServiceState.NamesServed (s : ServiceState) : Prop :=
  ∀ name ∈ s.effectiveHostnames, ServedName name

def Clients.NamesServed (clients : Clients) : Prop :=
  ∀ id h, clients.lookup id = some h → ∀ s ∈ h.services, s.NamesServed

/-- What a connection is opened with: the token's list holds `*` or names
the store normalized, and a random hostname is one of the server's. -/
structure Connect.NamesServed (c : Connect) : Prop where
  granted : ∀ name ∈ c.perms.hostnames, name = "*" ∨ ServedName name
  random : ∀ name ∈ c.randomHostname, ServedName name

theorem newHandle_namesServed {cfg : ServerConfig} {now : Nat} {c : Connect} (hc : c.NamesServed) :
    ∀ s ∈ (newHandle cfg now c).services, s.NamesServed := by
  intro s hs name hname
  rw [List.mem_singleton.mp hs] at hname
  rcases mem_effectiveHostnames.mp hname with hname | hname
  · simp only [placeholderService, List.mem_append, ClientPerms.grantedHostnames, List.mem_filter,
      Bool.and_eq_true, bne_iff_ne, Option.mem_toList, List.not_mem_nil, or_false] at hname
    rcases hname with ⟨hmem, hstar, -⟩ | hrandom
    · exact (hc.granted name hmem).resolve_left hstar
    · exact hc.random name hrandom
  · cases hname

/-- A name that is declared has been normalized, and one that is assigned
stays assigned. -/
theorem applyDeclaration_namesServed {env : Env} {perms : ClientPerms} {d : ServiceDecl}
    {s : ServiceState} (hs : s.NamesServed) : (applyDeclaration env perms d s).NamesServed := by
  intro name hname
  have hkept (hold : name ∈ s.assignedHostnames ++ s.declaredHostnames ∨
      s.declaredHostname = some name) : ServedName name := hs name (mem_effectiveHostnames.mpr hold)
  rcases mem_effectiveHostnames.mp hname with hname | hname
  · rcases List.mem_append.mp hname with hname | hname
    · exact hkept (Or.inl (List.mem_append_left _ hname))
    · change name ∈ (if d.namedHostnames.isEmpty then s.declaredHostnames
        else admittedHostnames env perms d) at hname
      split at hname
      · exact hkept (Or.inl (List.mem_append_right _ hname))
      · rw [admittedHostnames, mem_foldl_pushNew] at hname
        have hmem := (List.mem_filter.mp (hname.resolve_left List.not_mem_nil)).1
        obtain ⟨raw, -, hraw⟩ := List.mem_filterMap.mp hmem
        exact .bind hraw
  · change (admittedHostname env perms d).or s.declaredHostname = some name at hname
    rcases Option.or_eq_some_iff.mp hname with hname | ⟨-, hname⟩
    · obtain ⟨raw, -, hraw⟩ := Option.bind_eq_some_iff.mp (Option.filter_eq_some_iff.mp hname).1
      exact .bind hraw
    · exact hkept (Or.inr hname)

/-- A service the connection gains starts with the assigned names alone. -/
theorem carriedService_namesServed {services : List ServiceState}
    (hs : ∀ s ∈ services, s.NamesServed) (slot : Option Nat) :
    (carriedService services slot).NamesServed := by
  have hgained : (gainedService services).NamesServed := by
    intro name hname
    rcases mem_effectiveHostnames.mp hname with hname | hname
    · cases services with
      | nil => cases hname
      | cons s rest =>
          have hassigned : name ∈ s.assignedHostnames ++ s.declaredHostnames := by
            refine List.mem_append_left _ ?_
            simpa [gainedService, ServiceState.newlyDeclared] using hname
          exact hs s List.mem_cons_self name (mem_effectiveHostnames.mpr (Or.inl hassigned))
    · cases hname
  unfold carriedService
  cases hslot : slot.bind fun i => services[i]? with
  | none => exact hgained
  | some s =>
      obtain ⟨i, -, hi⟩ := Option.bind_eq_some_iff.mp hslot
      exact hs s (List.mem_of_getElem? hi)

theorem onPing_namesServed {env : Env} {now : Nat} {clients : Clients} {id : String} {p : Ping}
    (hc : clients.NamesServed) : Clients.NamesServed (onPing env now clients id p).2 := by
  intro k h hk s hs
  by_cases hkid : k = id
  · subst hkid
    cases hlive : clients.lookup k with
    | none =>
        have hsame : (onPing env now clients k p).2 = clients := by
          simp only [onPing, hlive]
          split <;> rfl
        rw [hsame, hlive] at hk
        cases hk
    | some h₀ =>
        rcases onPing_cases env now p hlive with hr | ⟨matched, -, hm, hr⟩
        · rw [hr] at hk
          exact hc k h hk s hs
        · rw [hr, settle_lookup_self (AList.lookup_insert _), Option.some_inj] at hk
          rw [← hk] at hs
          obtain ⟨t, ht, rfl⟩ := List.mem_map.mp hs
          rw [declareHandle_services hm, ← List.map_uncurry_zip_eq_zipWith] at ht
          obtain ⟨⟨d, m⟩, -, rfl⟩ := List.mem_map.mp ht
          -- the verdict of the settling names no hostname
          exact @applyDeclaration_namesServed _ _ d _
            (carriedService_namesServed (hc k h₀ hlive) m)
  · rw [onPing_lookup_ne hkid] at hk
    exact hc k h hk s hs

theorem serve_namesServed {clients : Clients} {e : Event} (hc : clients.NamesServed)
    (he : ∀ id c, e.act = .connect id c → c.NamesServed) :
    Clients.NamesServed (serve clients e) := by
  unfold serve
  cases hact : e.act with
  | connect id c =>
      simp only
      split
      · exact hc
      · intro k h hk s hs
        by_cases hkid : k = id
        · rw [hkid, AList.lookup_insert, Option.some_inj] at hk
          rw [← hk] at hs
          exact newHandle_namesServed (he id c hact) s hs
        · rw [AList.lookup_insert_ne hkid] at hk
          exact hc k h hk s hs
  | ping id p => exact onPing_namesServed hc
  | disconnect id =>
      intro k h hk s hs
      by_cases hkid : k = id
      · rw [hkid, AList.lookup_erase] at hk
        cases hk
      · rw [AList.lookup_erase_ne hkid] at hk
        exact hc k h hk s hs

/-- **Run lemma.** From a map of served names, through any connections,
heartbeats and closes. -/
theorem serveAll_namesServed {events : List Event} {clients : Clients} (hc : clients.NamesServed)
    (he : ∀ e ∈ events, ∀ id c, e.act = .connect id c → c.NamesServed) :
    Clients.NamesServed (serveAll clients events) := by
  induction events generalizing clients with
  | nil => exact hc
  | cons e rest ih =>
      exact ih (serve_namesServed hc (he e List.mem_cons_self))
        fun e' he' => he e' (List.mem_cons_of_mem _ he')

/-! ## What an action cannot touch -/

theorem mem_servedHostnames {clients : Clients} {p : Option String → Bool} {id : String}
    {h : ClientHandle} {s : ServiceState} {name : String} (hid : clients.lookup id = some h)
    (hp : p h.perms.orgId = true) (hs : s ∈ h.services) (hname : name ∈ s.effectiveHostnames) :
    name ∈ servedHostnames clients p := by
  rw [servedHostnames, List.mem_flatMap]
  refine ⟨⟨id, h⟩, List.mem_filter.mpr ⟨AList.mem_lookup_iff.mp hid, hp⟩, ?_⟩
  exact List.mem_flatMap.mpr ⟨s, hs, hname⟩

/-- What an action that is allowed leaves alone: the target matches no hostname
a client of a different organization serves, and for master no host an entry of
an organization's allowlist matches. -/
def ActIsolated (orgs : List Organization) (clients : Clients) (org : Option String)
    (target : String) : Prop :=
  orgMayActOnHostname orgs clients org target = true →
    (∀ id h, clients.lookup id = some h → h.perms.orgId ≠ org → ∀ s ∈ h.services,
      ∀ name ∈ s.effectiveHostnames, patternMatchesHost target name = false) ∧
    (org = none → ∀ o ∈ orgs, ∀ entry ∈ o.hostnames, ∀ host,
      patternMatchesHost entry host = true → patternMatchesHost target host = false)

/-- Where the target matches a hostname of somebody else's, it also covers one
as it is spelled there. -/
def Clients.Recognised (clients : Clients) (org : Option String) (target : String) : Prop :=
  ∀ name ∈ servedHostnames clients (· != org), patternMatchesHost target name = true →
    ∃ name' ∈ servedHostnames clients (· != org), patternCoversPattern target name' = true

theorem forall_mem_servedHostnames {clients : Clients} {p : Option String → Bool}
    {P : String → Prop} :
    (∀ name ∈ servedHostnames clients p, P name) ↔
      ∀ id h, clients.lookup id = some h → p h.perms.orgId = true → ∀ s ∈ h.services,
        ∀ name ∈ s.effectiveHostnames, P name := by
  constructor
  · intro hall id h hid hp s hs name hname
    exact hall name (mem_servedHostnames hid hp hs hname)
  · intro hall name hname
    rw [servedHostnames, List.mem_flatMap] at hname
    obtain ⟨⟨id, h⟩, hin, hname⟩ := hname
    obtain ⟨hentry, hp⟩ := List.mem_filter.mp hin
    obtain ⟨s, hs, hname⟩ := List.mem_flatMap.mp hname
    exact hall id h (AList.mem_lookup_iff.mpr hentry) hp s hs name hname

/-- A plain name the target matches is covered. -/
theorem Clients.NamesServed.recognised {clients : Clients} {org : Option String} {P : HostPattern}
    (hclients : clients.NamesServed) : clients.Recognised org P.text := by
  intro name hname hmatch
  refine ⟨name, hname, ?_⟩
  have hplain : ServedName name :=
    (@forall_mem_servedHostnames clients (· != org) _).mpr
      (fun id h hid _ s hs name hname => hclients id h hid s hs name hname) name hname
  obtain ⟨n, rfl⟩ := hplain.plain
  exact HostPattern.covers_of_matches hmatch

/-- Master may claim nothing a fence has a host in common with. -/
theorem not_matches_of_claim {orgs : List Organization} {clients : Clients} {P : HostPattern}
    (horgs : ∀ o ∈ orgs, ∀ entry ∈ o.hostnames, ∃ r, normalizeOrgHostnamePattern r = some entry)
    (hclaim : orgMayClaimHostname orgs clients none P.text = true) {o : Organization} (ho : o ∈ orgs)
    {entry : String} (hentry : entry ∈ o.hostnames) {host : String}
    (hhost : patternMatchesHost entry host = true) : patternMatchesHost P.text host = false := by
  rw [Bool.eq_false_iff]
  intro hmatch
  obtain ⟨r, hr⟩ := horgs o ho entry hentry
  obtain ⟨Q, rfl⟩ := normalizeOrgHostnamePattern_eq_some hr
  have hoverlap := HostPattern.overlap_of_matches hhost hmatch
  have hfence : (orgs.flatMap (·.hostnames)).any (patternsOverlap · P.text) = true :=
    List.any_eq_true.mpr ⟨Q.text, List.mem_flatMap.mpr ⟨o, ho, hentry⟩, hoverlap⟩
  simp only [orgMayClaimHostname, hfence, if_true] at hclaim
  cases hclaim

/-- A tenant with a fence, and its client serving a name inside it. -/
def fencedOrgs : List Organization := [{ id := "acme", hostnames := ["*.a.io"] }]

def fencedConnect : Connect where
  perms := { acmeToken with hostnames := ["w.a.io"] }

def fencedServing : Clients :=
  serveAll ∅ [⟨plainEnv, 0, .connect "c1" fencedConnect⟩]

theorem fencedServing_namesServed : fencedServing.NamesServed := by
  refine serveAll_namesServed ?_ ?_
  · intro id h hid
    cases hid
  · intro e he id c hact
    rw [List.mem_singleton.mp he] at hact
    obtain ⟨-, rfl⟩ := Act.connect.inj hact
    constructor
    · intro name hname
      rw [List.mem_singleton.mp hname]
      exact Or.inr (.bind (show normalizeHostnameBind "W.a.io." = some "w.a.io" by decide +kernel))
    · intro name hname
      cases hname

/-- A tenant without a fence, and its client under a token whose hostname was
written with a dot at its end. -/
def dottedOrgs : List Organization := [{ id := "acme", hostnames := [] }]

def dottedServing : Clients :=
  serveAll ∅ [⟨plainEnv, 0, .connect "c1" { perms := { acmeToken with hostnames := ["app.test."] } }⟩]

end Aperio
