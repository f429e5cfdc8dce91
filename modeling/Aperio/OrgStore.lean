import Aperio.Commit
import Aperio.HostPatterns
import Aperio.OidcCache

/-!
# The organization store

`store/orgs.rs`: the rows of the child organizations, and the changes to
them. Every one of them runs through `commit`. The ids and the time of a
creation are given from outside, and the sentences of the refusals are left
out.
-/

namespace Aperio

structure StoredOrg extends Organization where
  customName : Option String := none
  createdAt : Nat := 0
  maxClients : Option Nat := none
  maxTokens : Option Nat := none
  maxUsers : Option Nat := none
  maxBytesMonth : Option Nat := none
  oidc : Option OrgOidcConfig := none
  panelHostname : Option String := none
deriving Repr, DecidableEq

inductive OrgError where
  | nameRequired
  | nameReserved
  | nameInvalid (name : String)
  | nameTaken (name : String)
  | noSuchOrg
  | notSaved
deriving Repr, DecidableEq

/-- A display name that is blank is none. -/
def normalizeCustomName (raw : Option String) : Option String :=
  (raw.map trim).filter (· != "")

/-- A panel hostname is one exact name: lowercase, without a port or a
trailing dot. -/
def normalizePanelHostname (raw : String) : Option String :=
  let host := toAsciiLowercase (trimEndMatches (trim raw) '.')
  let host :=
    (((rsplitOnce host ':').filter fun e => e.2 != "" && e.2.toList.all isAsciiDigit).map
      (·.1)).getD host
  if host = "" || decide (253 < host.utf8ByteSize) || host.toList.contains '*' then none
  else if (split host '.').all fun label =>
      label != "" && decide (label.utf8ByteSize ≤ 63) &&
        label.toList.all (fun c => isAsciiAlphanumeric c || c == '-') &&
        !startsWith label "-" && !endsWith label "-" then some host
  else none

abbrev OrgRows := List StoredOrg

namespace OrgRows

def find (orgs : OrgRows) (id : String) : Option StoredOrg :=
  orgs.find? (·.id == id)

/-- Rewrites the first row with this id. -/
def rewrite (orgs : OrgRows) (id : String) (f : StoredOrg → StoredOrg) : OrgRows :=
  match orgs with
  | [] => []
  | o :: rest => if o.id == id then f o :: rest else o :: rewrite rest id f

/-- Changes one row that has to be there. -/
def changeOrg (id : String) (f : StoredOrg → StoredOrg) (orgs : OrgRows) :
    Except OrgError StoredOrg × OrgRows :=
  match orgs.find id with
  | none => (.error .noSuchOrg, orgs)
  | some org => (.ok (f org), orgs.rewrite id f)

/-- The organization whose panel the hostname is. -/
def panelOrgFor (orgs : OrgRows) (host : String) : Option StoredOrg :=
  orgs.find? (·.panelHostname == some host)

end OrgRows

abbrev OrgTable := Table OrgRows

namespace OrgTable

variable (t : OrgTable) (saved : Bool) (id : String)

/-- Handles are unique in any letter case, and `master` is reserved. -/
def create (nowSecs : Nat) (name : String) (hostnames : List String)
    (customName : Option String) : Except OrgError StoredOrg × OrgTable :=
  let name := trim name
  if name = "" then (.error .nameRequired, t)
  else if eqIgnoreAsciiCase name "master" then (.error .nameReserved, t)
  else if !validName name then (.error (.nameInvalid name), t)
  else if t.memory.any (eqIgnoreAsciiCase ·.name name) then (.error (.nameTaken name), t)
  else
    let org : StoredOrg :=
      { id := id
        name := name
        hostnames := hostnames
        customName := normalizeCustomName customName
        createdAt := nowSecs }
    t.commit saved .notSaved fun orgs => (.ok org, orgs ++ [org])

def setCustomName (customName : Option String) : Except OrgError Unit × OrgTable :=
  let out := t.commit saved .notSaved
    (OrgRows.changeOrg id fun o => { o with customName := normalizeCustomName customName })
  (out.1.map fun _ => (), out.2)

def delete : Except OrgError Unit × OrgTable :=
  if t.memory.any (·.id == id) then
    t.commit saved .notSaved fun orgs => (.ok (), orgs.filter (·.id != id))
  else (.error .noSuchOrg, t)

/-- What is given is set; zero clears like nothing does. -/
def setQuota (maxClients maxTokens maxUsers maxBytesMonth : Option (Option Nat)) :
    Except OrgError StoredOrg × OrgTable :=
  let limit (given : Option (Option Nat)) (old : Option Nat) : Option Nat :=
    (given.map fun v => v.filter (0 < ·)).getD old
  t.commit saved .notSaved
    (OrgRows.changeOrg id fun o =>
      { o with
        maxClients := limit maxClients o.maxClients
        maxTokens := limit maxTokens o.maxTokens
        maxUsers := limit maxUsers o.maxUsers
        maxBytesMonth := limit maxBytesMonth o.maxBytesMonth })

def setPanelHostname (hostname : Option String) : Except OrgError StoredOrg × OrgTable :=
  t.commit saved .notSaved (OrgRows.changeOrg id fun o => { o with panelHostname := hostname })

def setHostnames (hostnames : List String) : Except OrgError StoredOrg × OrgTable :=
  t.commit saved .notSaved (OrgRows.changeOrg id fun o => { o with hostnames := hostnames })

def setOidc (oidc : Option OrgOidcConfig) : Except OrgError StoredOrg × OrgTable :=
  t.commit saved .notSaved (OrgRows.changeOrg id fun o => { o with oidc := oidc })

/-- Replaces every row. -/
def importRows (orgs : OrgRows) : Except OrgError Nat × OrgTable :=
  t.commit saved .notSaved fun _ => (.ok orgs.length, orgs)

end OrgTable

/-! ## Rows -/

namespace OrgRows

variable {orgs : OrgRows} {id : String} {f : StoredOrg → StoredOrg} {o : StoredOrg}

theorem mem_of_find (h : orgs.find id = some o) : o ∈ orgs ∧ o.id = id := by
  refine ⟨List.mem_of_find?_eq_some h, ?_⟩
  simpa using List.find?_some h

theorem find_isSome (ho : o ∈ orgs) (hid : o.id = id) : ∃ p, orgs.find id = some p := by
  rw [← Option.isSome_iff_exists, find, List.find?_isSome]
  exact ⟨o, ho, by simpa using hid⟩

theorem ids_rewrite (hf : ∀ o, (f o).id = o.id) :
    (orgs.rewrite id f).map (·.id) = orgs.map (·.id) := by
  induction orgs with
  | nil => rfl
  | cons a rest ih =>
      rw [rewrite]
      split
      · rw [List.map_cons, List.map_cons, hf]
      · rw [List.map_cons, List.map_cons, ih]

/-- The row is rewritten and the others are the ones they were. -/
theorem mem_rewrite (hids : (orgs.map (·.id)).Nodup) (h : o ∈ orgs.rewrite id f) :
    (o ∈ orgs ∧ o.id ≠ id) ∨ ∃ p ∈ orgs, p.id = id ∧ o = f p := by
  induction orgs with
  | nil => cases h
  | cons a rest ih =>
      rw [List.map_cons, List.nodup_cons] at hids
      rw [rewrite] at h
      by_cases hid : a.id = id
      · rw [if_pos (by simpa using hid)] at h
        rcases List.mem_cons.mp h with rfl | hrest
        · exact .inr ⟨a, List.mem_cons_self, hid, rfl⟩
        · refine .inl ⟨List.mem_cons_of_mem _ hrest, ?_⟩
          rintro rfl
          exact hids.1 (hid ▸ List.mem_map_of_mem hrest)
      · rw [if_neg (by simpa using hid)] at h
        rcases List.mem_cons.mp h with rfl | hrest
        · exact .inl ⟨List.mem_cons_self, hid⟩
        · rcases ih hids.2 hrest with ⟨hmem, hne⟩ | ⟨p, hp, hpid, rfl⟩
          · exact .inl ⟨List.mem_cons_of_mem _ hmem, hne⟩
          · exact .inr ⟨p, List.mem_cons_of_mem _ hp, hpid, rfl⟩

theorem changeOrg_cases (orgs : OrgRows) (id : String) (f : StoredOrg → StoredOrg) :
    (∃ org, orgs.find id = some org ∧ changeOrg id f orgs = (.ok (f org), orgs.rewrite id f)) ∨
    orgs.find id = none ∧ changeOrg id f orgs = (.error .noSuchOrg, orgs) := by
  rw [changeOrg]
  cases orgs.find id with
  | none => exact .inr ⟨rfl, rfl⟩
  | some org => exact .inl ⟨org, rfl, rfl⟩

end OrgRows

/-- A change to one row that is there is written, or nothing is. -/
theorem OrgTable.commit_changeOrg (t : OrgTable) (saved : Bool) (id : String)
    (f : StoredOrg → StoredOrg) :
    (∃ org, t.memory.find id = some org ∧ saved = true ∧
      t.commit saved .notSaved (OrgRows.changeOrg id f) =
        (.ok (f org), Table.load (t.memory.rewrite id f))) ∨
    (saved = false ∨ t.memory.find id = none) ∧
      ∃ e, t.commit saved .notSaved (OrgRows.changeOrg id f) = (.error e, t) := by
  rcases t.commit_cases saved OrgError.notSaved (OrgRows.changeOrg id f) with
    ⟨out, hout, hsaved, hc⟩ | ⟨e, hc⟩
  · rcases OrgRows.changeOrg_cases t.memory id f with
      ⟨org, hfind, hrow⟩ | ⟨-, hnone⟩
    · rw [hrow] at hout hc
      cases hout
      exact .inl ⟨org, hfind, hsaved, hc⟩
    · rw [hnone] at hout
      cases hout
  · refine .inr ⟨?_, e, hc⟩
    rcases OrgRows.changeOrg_cases t.memory id f with
      ⟨org, -, hrow⟩ | ⟨hfind, -⟩
    · refine .inl ?_
      by_contra hsaved
      have hok : (t.commit saved OrgError.notSaved (OrgRows.changeOrg id f)).1 = .ok (f org) := by
        rw [Bool.not_eq_false] at hsaved
        simp only [Table.commit, hrow, hsaved, if_true]
      rw [hc] at hok
      cases hok
    · exact .inr hfind

end Aperio
