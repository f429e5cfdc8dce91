import Aperio.Client

/-!
# Organizations and the hostnames that are theirs

How allowlist patterns relate to each other and what the store writes
(`store/orgs.rs`), and which organization may claim or act on a hostname
(`state/admission.rs`): its own fence where it has one, else what its
clients are serving; master may act where no fence and no tenant's client
reaches.
-/

namespace Aperio

/-- The suffix of a subdomain wildcard. -/
def wildcardSuffix (pattern : String) : Option String :=
  stripPrefix pattern "*."

/-- A pattern with its placeholder inside the leftmost label. -/
def isPartialPattern (p : String) : Bool :=
  (wildcardSuffix p).isNone && p.toList.contains '*'

/-- The names `outer` covers include every name `inner` covers. It grants a
permission, so what it cannot prove is a no. -/
def patternCoversPattern (outer inner : String) : Bool :=
  if outer = "*" then true
  else if inner = "*" then false
  else if isPartialPattern outer then
    if isPartialPattern inner then eqIgnoreAsciiCase outer inner
    else if (wildcardSuffix inner).isSome then false
    else patternMatchesHost outer inner
  else if isPartialPattern inner then
    match wildcardSuffix outer with
    | some suffix =>
      (splitOnce inner '.').any fun (_, rest) => rest == suffix || endsWith rest ("." ++ suffix)
    | none => false
  else
    match wildcardSuffix outer, wildcardSuffix inner with
    | some o, some i => i == o || endsWith i ("." ++ o)
    | some _, none => hostnameInOrgAllowlist inner [outer]
    | none, some _ => false
    | none, none => eqIgnoreAsciiCase outer inner

/-- Two patterns have a hostname in common. It refuses an action, so what it
cannot prove is a yes. -/
def patternsOverlap (a b : String) : Bool :=
  if patternCoversPattern a b || patternCoversPattern b a then true
  else if isPartialPattern a && isPartialPattern b then
    (splitOnce a '.').map (·.2) == (splitOnce b '.').map (·.2)
  else false

structure Organization where
  id : String
  name : String := ""
  hostnames : List String := []
deriving Repr, DecidableEq

/-! ## The organization store -/

/-- The writes that reach an organization's id, handle or fence. -/
inductive OrgWrite where
  | create (id name : String) (hostnames : List String)
  | setHostnames (id : String) (hostnames : List String)
  | delete (id : String)

/-- The table a write leaves: the handle is given at the creation and never
changed, and a save that fails leaves the table as it was. -/
def OrgWrite.run (w : OrgWrite) (saved : Bool) (orgs : List Organization) : List Organization :=
  if !saved then orgs
  else
    match w with
    | .create id name hostnames =>
      let name := trim name
      if name = "" || eqIgnoreAsciiCase name "master" || !validName name ||
          orgs.any (eqIgnoreAsciiCase ·.name name) then orgs
      else orgs ++ [{ id := id, name := name, hostnames := hostnames }]
    | .setHostnames id hostnames =>
      orgs.modify (orgs.findIdx (·.id == id)) fun o => { o with hostnames := hostnames }
    | .delete id => orgs.filter (·.id != id)

/-- Every handle is one the store would take. -/
def HandlesKept (orgs : List Organization) : Prop :=
  ∀ org ∈ orgs, org.name.toList.all nameChar = true

theorem OrgWrite.run_handles {w : OrgWrite} {saved : Bool} {orgs : List Organization}
    (h : HandlesKept orgs) : HandlesKept (w.run saved orgs) := by
  unfold run
  split
  · exact h
  · cases w with
    | create id name hostnames =>
        simp only
        split
        · exact h
        · rename_i hok
          simp only [Bool.or_eq_true, not_or, Bool.not_eq_true', Bool.not_eq_false] at hok
          have hvalid : validName (trim name) = true := by simpa using hok.1.2
          simp only [validName, trim_trim, Bool.and_eq_true] at hvalid
          intro org horg
          rcases List.mem_append.mp horg with horg | horg
          · exact h org horg
          · rw [List.mem_singleton.mp horg]
            exact hvalid.2
    | setHostnames id hostnames =>
        intro org horg
        obtain ⟨i, hi, rfl⟩ := List.mem_iff_getElem.mp horg
        simp only [List.length_modify] at hi
        have hrow := h _ (List.getElem_mem hi)
        rw [List.getElem_modify]
        split
        · exact hrow
        · exact hrow
    | delete id =>
        exact fun org horg => h org (List.mem_filter.mp horg).1

/-- An id the store gives out: a hyphenated UUID, which no handle can
spell. -/
structure OrgId where
  id : String
  hyphenated : '-' ∈ id.toList
  trimmed : trim id = id

theorem toLower_ne_hyphen {c : Char} (h : nameChar c = true) : c.toLower ≠ '-' := by
  simp only [nameChar, isAsciiDigit, Bool.or_eq_true, Bool.and_eq_true, decide_eq_true_eq,
    beq_iff_eq] at h
  have hlower : c.toLower = c := by
    rcases toLower_cases c with ⟨hA, hZ, -⟩ | ⟨-, hsame⟩
    · rcases h with (⟨-, h⟩ | ⟨h, -⟩) | rfl
      · have hle : c.toNat ≤ 0x39 := h
        omega
      · have hle : 0x61 ≤ c.toNat := h
        omega
      · exact absurd hZ (by decide)
    · exact hsame
  rw [hlower]
  rintro rfl
  exact absurd h (by decide)

/-- A kept handle does not spell an id. -/
theorem OrgId.ne_handle {o : OrgId} {name : String} (h : name.toList.all nameChar = true) :
    eqIgnoreAsciiCase name o.id = false := by
  rw [Bool.eq_false_iff]
  intro heq
  have hmap : name.toList.map Char.toLower = o.id.toList.map Char.toLower := by
    simpa [eqIgnoreAsciiCase, toAsciiLowercase, String.ofList_inj] using heq
  have hmem : '-' ∈ name.toList.map Char.toLower := by
    rw [hmap]
    exact List.mem_map.mpr ⟨'-', o.hyphenated, by decide⟩
  obtain ⟨c, hc, hlow⟩ := List.mem_map.mp hmem
  exact toLower_ne_hyphen (List.all_eq_true.mp h c hc) hlow

/-! ## Hostnames -/

/-- The hostnames served by the clients whose organization meets `p`. -/
def servedHostnames (clients : Clients) (p : Option String → Bool) : List String :=
  (clients.entries.filter fun e => p e.2.perms.orgId).flatMap fun e =>
    e.2.services.flatMap (·.effectiveHostnames)

def orgMayClaimHostname (orgs : List Organization) (clients : Clients) (org : Option String)
    (target : String) : Bool :=
  match org with
  | some id =>
    let own := ((orgs.find? (·.id == id)).map (·.hostnames)).getD []
    if !own.isEmpty then own.any (patternCoversPattern · target)
    else if startsWith target "*." then false
    else (servedHostnames clients (· == some id)).any (· == target)
  | none =>
    if (orgs.flatMap (·.hostnames)).any (patternsOverlap · target) then false
    else !(servedHostnames clients (·.isSome)).any (patternCoversPattern target)

/-- Nothing may be done to a hostname a client of a different organization
is serving. -/
def orgMayActOnHostname (orgs : List Organization) (clients : Clients) (org : Option String)
    (target : String) : Bool :=
  orgMayClaimHostname orgs clients org target &&
    !(servedHostnames clients (· != org)).any (patternCoversPattern target)

end Aperio
