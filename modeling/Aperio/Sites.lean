import Aperio.Binds
import Aperio.VisitorAuth

/-!
# Sites

The part of `sites.rs` that says who may reach a request's route. A
compiled list holds its sites most specific first, and the first matching
one that writes `access` decides. The traversal questions `gatesOnHost` and
`publicOnHost` are asked of the hostname alone, for a path that cannot be
trusted to mean what it looks like.
-/

namespace Aperio

/-- A policy that stands between somebody and the route. Compiling a site
turns any other policy into `SiteAccess.isPublic`, so a site's gate is never
one that admits everyone. -/
structure GatePolicy extends Policy where
  gating : toPolicy.gates = true
deriving DecidableEq

/-- A site's `access`, compiled. -/
inductive SiteAccess where
  | isPublic
  | gate (policy : GatePolicy)
deriving DecidableEq

/-- What a declared policy compiles to: one that admits everyone is the
public spelling. -/
def SiteAccess.ofPolicy (policy : Policy) : SiteAccess :=
  if h : policy.gates = true then .gate ⟨policy, h⟩ else .isPublic

def SiteAccess.isGate : SiteAccess → Bool
  | .gate _ => true
  | .isPublic => false

/-- One compiled site. Its path is a normalized prefix, never the root:
compiling writes the root as no path at all. -/
structure Site where
  hostname : String
  path : Option String
  access : Option SiteAccess
  path_normal : ∀ p ∈ path, ∃ raw, normalizePathBind raw = some p
deriving DecidableEq

namespace Site

theorem noPath_normal : ∀ p ∈ (none : Option String), ∃ raw, normalizePathBind raw = some p := by
  rintro p ⟨⟩

def hostMatches (s : Site) (host : Option String) : Bool :=
  s.hostname == "*" || host.any (patternMatchesHost s.hostname)

def matchesRoute (s : Site) (host : Option String) (path : String) : Bool :=
  s.hostMatches host && s.path.all (pathMatchesBind path)

end Site

/-- The compiled sites, most specific first. -/
abbrev Sites := List Site

namespace Sites

/-- Who may reach this request's route, when a site says: the most specific
matching site that writes `access`. -/
def accessFor (sites : Sites) (host : Option String) (path : String) : Option SiteAccess :=
  (sites.filter (·.matchesRoute host path)).findSome? (·.access)

/-- Some site covering this hostname, at any path, gates it. -/
def gatesOnHost (sites : Sites) (host : Option String) : Bool :=
  sites.any fun s => s.access.any SiteAccess.isGate && s.hostMatches host

/-- The site covering the whole hostname that says who may reach it says
anyone may. -/
def publicOnHost (sites : Sites) (host : Option String) : Bool :=
  (sites.filter fun s => s.path.isNone && s.hostMatches host).findSome? (·.access)
    == some .isPublic

variable {sites : Sites} {host : Option String} {path : String}

/-- A site decides exactly where some matching site writes `access`. -/
theorem accessFor_isSome :
    (sites.accessFor host path).isSome = true ↔
      ∃ s ∈ sites, s.matchesRoute host path = true ∧ s.access.isSome = true := by
  simp [accessFor, List.findSome?_isSome_iff, and_assoc]

theorem mem_of_accessFor {a : SiteAccess} (h : sites.accessFor host path = some a) :
    ∃ s ∈ sites, s.matchesRoute host path = true ∧ s.access = some a := by
  obtain ⟨s, hs, ha⟩ := List.exists_of_findSome?_eq_some h
  rw [List.mem_filter] at hs
  exact ⟨s, hs.1, hs.2, ha⟩

/-- Where a site decides a path, a site decides everything under it. -/
theorem accessFor_isSome_of_under {bind : String} (hu : pathMatchesBind path bind = true)
    (h : (sites.accessFor host bind).isSome = true) :
    (sites.accessFor host path).isSome = true := by
  rw [accessFor_isSome] at *
  obtain ⟨s, hs, hm, ha⟩ := h
  refine ⟨s, hs, ?_, ha⟩
  simp only [Site.matchesRoute, Bool.and_eq_true] at *
  refine ⟨hm.1, ?_⟩
  cases hp : s.path with
  | none =>
      simp
  | some q =>
      rw [hp] at hm
      simp only [Option.all_some] at hm ⊢
      exact pathMatchesBind_trans hu hm.2

/-- Only a site over the whole hostname covers the root path, and it covers
every path with it. -/
theorem accessFor_isSome_of_root (h : (sites.accessFor host "/").isSome = true) :
    (sites.accessFor host path).isSome = true := by
  rw [accessFor_isSome] at *
  obtain ⟨s, hs, hm, ha⟩ := h
  refine ⟨s, hs, ?_, ha⟩
  simp only [Site.matchesRoute, Bool.and_eq_true] at *
  refine ⟨hm.1, ?_⟩
  cases hp : s.path with
  | none =>
      simp
  | some q =>
      obtain ⟨raw, hraw⟩ := s.path_normal q hp
      rw [hp] at hm
      exact absurd hm.2 (by simp [root_not_under hraw])

/-- A gate that decides some path of a hostname is seen by the traversal
question. -/
theorem gatesOnHost_of_accessFor {p : GatePolicy}
    (h : sites.accessFor host path = some (.gate p)) : sites.gatesOnHost host = true := by
  obtain ⟨s, hs, hm, ha⟩ := mem_of_accessFor h
  simp only [Site.matchesRoute, Bool.and_eq_true] at hm
  simp only [gatesOnHost, List.any_eq_true, Bool.and_eq_true]
  exact ⟨s, hs, by simp [ha, SiteAccess.isGate], hm.1⟩

end Sites

end Aperio
