import Aperio.Registry
import Aperio.Results

/-!
# Binding a tunnel by name

The planning half of `aperio-client bind` (`bind_tunnels.rs`): the tokens it
asks with, the listing it puts together from their answers, and the binding
each entry of the configuration becomes.

`discover` keeps the first tunnel of each name, whichever organization it is
of, so a name means one tunnel by the time it is resolved.
`resolveView_iff` says which.
-/

namespace Aperio

/-! ## The configuration -/

structure BindEntry where
  port : Option Nat := none
  address : Option String := none
  token : Option String := none
  psk : Option String := none
deriving Repr, DecidableEq

inductive BindValue where
  | port (port : Nat)
  | entry (entry : BindEntry)
deriving Repr, DecidableEq

def BindValue.toEntry : BindValue → BindEntry
  | .port n => { port := some n }
  | .entry e => e

/-- What `bind` was started with: the token of the `server:` section, the
`binds:` section in file order, and the names on the command line. -/
structure BindConfig where
  token : Option String := none
  binds : List (String × BindValue) := []
  names : List String := []
deriving Repr, DecidableEq

/-- A setting as it is used: trimmed, and none when that leaves none. -/
def nonBlank (setting : Option String) : Option String :=
  (setting.map trim).filter (· != "")

namespace BindConfig

def fallbackToken (cfg : BindConfig) : Option String :=
  nonBlank cfg.token

/-- Every configured credential, once. -/
def tokens (cfg : BindConfig) : List String :=
  ((cfg.fallbackToken :: cfg.binds.map (·.2.toEntry.token)).filterMap nonBlank).foldl
    ServiceState.pushNew []

/-- The names to resolve, each with the entry that goes with it. -/
def requests (cfg : BindConfig) : List (String × BindEntry) :=
  if cfg.names = [] then cfg.binds.map fun (name, value) => (name, value.toEntry)
  else cfg.names.map fun name => (name, ((cfg.binds.lookup name).map (·.toEntry)).getD {})

/-- What the tokens are answered, in the order they are asked. -/
def listed (cfg : BindConfig) (list : String → List TunnelView) : List TunnelView :=
  cfg.tokens.flatMap fun token =>
    (list token).map fun view => { view with discoveredWith := some token }

end BindConfig

/-- `discover`, on what was listed: a name that has been seen is skipped. -/
def discover (listed : List TunnelView) : List TunnelView :=
  listed.foldl (fun seen view => if seen.any (·.name == view.name) then seen else seen ++ [view]) []

/-! ## One binding -/

structure Binding where
  name : String
  decl : LocalTunnel
  label : String
  address : String
  port : Nat
  token : String
  psk : Option String
deriving DecidableEq

/-- A stable local port for a tunnel name: FNV-1a, folded into the range. -/
def derivedPort (name : String) : Nat :=
  let hash := (utf8Bytes name).foldl
    (fun (hash : UInt64) byte => (hash ^^^ byte.toUInt64) * 0x00000100000001b3) 0xcbf29ce484222325
  20000 + hash.toNat % 10000

def localPort (view : TunnelView) (configured : Option Nat) : Nat :=
  (configured.filter (0 < ·)).getD
    ((((rsplitOnce (trim view.target) ':').bind fun (_, port) => parseU16 port).filter
      (1024 ≤ ·)).getD (derivedPort view.name))

/-- The token a tunnel is bound with: the entry's own, else the one that saw
the tunnel, else the fallback. -/
def bindToken (view : TunnelView) (entry : BindEntry) (fallback : Option String) : Option String :=
  nonBlank ((entry.token.or view.discoveredWith).or fallback)

def bindingForView (view : TunnelView) (entry : BindEntry) (fallback : Option String) :
    Except String Binding :=
  match bindToken view entry fallback with
  | none => .error ("tunnel `" ++ view.name ++ "` has no token to bind with")
  | some token =>
    .ok {
      name := view.name
      decl := {
        name := some view.name
        customName := view.customName
        target := view.target
        protocol := view.protocol
        encrypt := view.encrypt
        idleTimeout := view.idleTimeout
        psk := none
        proxyProtocol := false }
      label := "tunnel " ++ view.name
      address := (nonBlank entry.address).getD "127.0.0.1"
      port := localPort view entry.port
      token := token
      psk := entry.psk }

/-! ## Resolving a name -/

/-- Is a tunnel of this owner one of the organization written before the
`@`? -/
def ownerNamed (owner : Option String) (org : String) : Bool :=
  match owner with
  | some owner => eqIgnoreAsciiCase owner org
  | none => eqIgnoreAsciiCase org "master"

/-- Whether a tunnel is what a key names. -/
def TunnelView.answers (key : String) (view : TunnelView) : Bool :=
  match splitOnce (trim key) '@' with
  | some (org, name) => view.name == trim name && ownerNamed view.org (trim org)
  | none => view.name == trim key

def qualifiedName (view : TunnelView) : String :=
  view.org.getD "master" ++ "@" ++ view.name

/-- The tunnel a key resolves to. -/
def resolveView (key : String) (visible : List TunnelView) : Except String TunnelView :=
  let key := trim key
  match splitOnce key '@' with
  | some (org, name) =>
    match visible.find? fun v => v.name == trim name && ownerNamed v.org (trim org) with
    | some view => .ok view
    | none =>
      .error ("`" ++ key ++ "` is not a tunnel this token may bind: no `" ++ trim name ++
        "` in the organization `" ++ trim org ++ "`.")
  | none =>
    let byName := visible.filter (·.name == key)
    if 1 < byName.length then
      .error ("`" ++ key ++ "` names a tunnel in more than one organization; write one of " ++
        join (byName.map qualifiedName) ", " ++ ".")
    else
      match byName.head? with
      | some view => .ok view
      | none => .error ("`" ++ key ++ "` is not a tunnel this token may bind.")

def resolveName (key : String) (entry : BindEntry) (visible : List TunnelView)
    (fallback : Option String) : Except String Binding :=
  (resolveView key visible).bind fun view => bindingForView view entry fallback

/-! ## The plan -/

def visibleHint (visible : List TunnelView) : String :=
  if visible = [] then
    "This token can bind no tunnel on this server: nothing is declared, or the declaring " ++
      "clients are in another organization and the token lacks allow_bind."
  else "This token can bind: " ++ join (visible.map (·.name)) ", " ++ "."

/-- What resolves, and what does not. -/
def resolveAll (visible : List TunnelView) (fallback : Option String) :
    List (String × BindEntry) → List Binding × List String
  | [] => ([], [])
  | (key, entry) :: rest =>
    let (planned, failures) := resolveAll visible fallback rest
    match resolveName key entry visible fallback with
    | .ok binding => (binding :: planned, failures)
    | .error e => (planned, e :: failures)

/-- The names on the command line all resolve or none is bound; an entry of
the `binds:` section that does not is only reported. With neither, whatever
is visible is bound. -/
def plan (cfg : BindConfig) (visible : List TunnelView) : Except String (List Binding) :=
  let (planned, failures) := resolveAll visible cfg.fallbackToken cfg.requests
  if cfg.names ≠ [] then
    if failures ≠ [] then .error (join failures " " ++ " " ++ visibleHint visible)
    else .ok planned
  else if cfg.binds = [] then
    visible.mapM fun view => bindingForView view {} cfg.fallbackToken
  else .ok planned

/-- `b` is a binding the plan makes for `v`: an entry resolves to it, or
nothing was asked for and it is visible. -/
def BindConfig.Binds (cfg : BindConfig) (visible : List TunnelView) (v : TunnelView)
    (b : Binding) : Prop :=
  (∃ request ∈ cfg.requests, resolveView request.1 visible = .ok v ∧
      bindingForView v request.2 cfg.fallbackToken = .ok b) ∨
    cfg.requests = [] ∧ v ∈ visible ∧ bindingForView v {} cfg.fallbackToken = .ok b

variable {cfg : BindConfig} {visible : List TunnelView} {fallback : Option String}

theorem resolveName_ok {key : String} {entry : BindEntry} {b : Binding} :
    resolveName key entry visible fallback = .ok b ↔
      ∃ v, resolveView key visible = .ok v ∧ bindingForView v entry fallback = .ok b := by
  unfold resolveName
  cases resolveView key visible <;> simp [Except.bind]

/-! ## What a name means after discovery -/

variable {listed : List TunnelView} {v : TunnelView}

/-- Of each name the first tunnel is kept. -/
theorem filter_discover (listed : List TunnelView) (name : String) :
    (discover listed).filter (·.name == name) = (listed.find? (·.name == name)).toList := by
  have hfold : ∀ (l seen : List TunnelView),
      (l.foldl (fun seen view => if seen.any (·.name == view.name) then seen else seen ++ [view])
        seen).filter (·.name == name) =
      seen.filter (·.name == name) ++
        if seen.any (·.name == name) then [] else (l.find? (·.name == name)).toList := by
    intro l
    induction l with
    | nil => simp
    | cons view l ih =>
        intro seen
        rw [List.foldl_cons, ih]
        by_cases hname : view.name = name
        · rw [← hname]
          by_cases hseen : seen.any (·.name == view.name) = true
          · simp [hseen]
          · simp [hseen]
        · have hskip : (view :: l).find? (·.name == name) = l.find? (·.name == name) := by
            simp [hname]
          by_cases hseen : seen.any (·.name == view.name) = true
          · simp only [hseen, if_true, hskip]
          · simp [hseen, hskip, hname]
  simpa [discover] using hfold listed []

theorem mem_discover : v ∈ discover listed ↔ listed.find? (·.name == v.name) = some v := by
  have hmem : v ∈ discover listed ↔ v ∈ (discover listed).filter (·.name == v.name) := by simp
  rw [hmem, filter_discover, Option.mem_toList]

/-- The first tunnel of a name, if there is one. -/
theorem find?_name_eq_some {name : String} (q : TunnelView → Bool) :
    ((listed.find? (·.name == name)).filter q) = some v ↔
      listed.find? (·.name == v.name) = some v ∧ (v.name == name && q v) = true := by
  rw [Option.filter_eq_some_iff, Bool.and_eq_true, beq_iff_eq]
  constructor
  · rintro ⟨hfirst, hq⟩
    obtain rfl : v.name = name := by simpa using List.find?_some hfirst
    exact ⟨hfirst, rfl, hq⟩
  · rintro ⟨hfirst, rfl, hq⟩
    exact ⟨hfirst, hq⟩

/-- A key resolves to the first tunnel of its name, when that is one it
names. -/
theorem resolveView_iff {key : String} :
    resolveView key (discover listed) = .ok v ↔
      listed.find? (·.name == v.name) = some v ∧ v.answers key = true := by
  unfold resolveView TunnelView.answers
  simp only
  cases hsplit : splitOnce (trim key) '@' with
  | some parts =>
      obtain ⟨org, name⟩ := parts
      have hfind : (discover listed).find? (fun v => v.name == trim name &&
          ownerNamed v.org (trim org)) =
          (listed.find? (·.name == trim name)).filter fun v => ownerNamed v.org (trim org) := by
        have hboth := @List.find?_filter _ (discover listed) (·.name == trim name)
          fun v => ownerNamed v.org (trim org)
        rw [filter_discover] at hboth
        simp only [Bool.decide_and, Bool.decide_eq_true] at hboth
        rw [← hboth]
        cases listed.find? (·.name == trim name) with
        | none => rfl
        | some w => cases hw : ownerNamed w.org (trim org) <;> simp [hw, Option.filter]
      rw [← find?_name_eq_some fun v => ownerNamed v.org (trim org)]
      simp only [hfind]
      cases (listed.find? (·.name == trim name)).filter fun v => ownerNamed v.org (trim org) with
      | none => simp
      | some w => simp
  | none =>
      have hfirst := @find?_name_eq_some listed v (trim key) fun _ => true
      rw [Bool.and_true] at hfirst
      simp only [filter_discover, ← hfirst]
      cases listed.find? (·.name == trim key) with
      | none => simp
      | some w => simp

end Aperio
