import Mathlib.Data.Rat.Defs
import Aperio.Commit

/-!
# The token store

`TokenStore` of `store/tokens.rs`. A token's secret is never kept, only its
hash; `hash` is that function. Secrets, ids and the time are given from
outside, and every write runs through `commit`.
-/

namespace Aperio

/-- Why a write did not happen. -/
inductive NotWritten where
  | noSuchRecord
  | notPersisted
deriving Repr, DecidableEq

structure ApiToken where
  id : String
  name : String
  tokenHash : String
  tokenPrefix : String
  hostnames : List String
  paths : List String
  allowedIps : List String := []
  createdAt : Nat
  expiresAt : Option Nat
  ttlSeconds : Option Nat := none
  maxRps : Option ℚ := none
  dailyMaxBytes : Option Nat := none
  maxConnections : Option Nat := none
  allowPublic : Bool := false
  allowServerSide : Bool := false
  allowBind : Bool := false
  allowOtel : Bool := false
  topics : List String := []
  canary : Bool := false
  orgId : Option String := none
  prevTokenHash : Option String := none
  prevExpiresAt : Option Nat := none
  pinnedKey : Option String := none
deriving DecidableEq

def ApiToken.isExpired (token : ApiToken) (now : Nat) : Bool :=
  token.expiresAt.any (· ≤ now)

/-- Everything a token is created with. -/
structure TokenSpec where
  name : String := ""
  hostnames : List String := []
  paths : List String := []
  topics : List String := []
  allowedIps : List String := []
  orgId : Option String := none
  ttlSeconds : Option Nat := none
  maxRps : Option ℚ := none
  dailyMaxBytes : Option Nat := none
  maxConnections : Option Nat := none
  allowPublic : Bool := false
  allowServerSide : Bool := false
  allowBind : Bool := false
  allowOtel : Bool := false
  canary : Bool := false

/-- What is given is set; `some none` clears. -/
structure TokenPatch where
  name : Option String := none
  hostnames : Option (List String) := none
  paths : Option (List String) := none
  topics : Option (List String) := none
  allowedIps : Option (List String) := none
  ttlSeconds : Option (Option Nat) := none
  maxRps : Option (Option ℚ) := none
  dailyMaxBytes : Option (Option Nat) := none
  maxConnections : Option (Option Nat) := none
  allowPublic : Option Bool := none
  allowServerSide : Option Bool := none
  allowBind : Option Bool := none
  allowOtel : Option Bool := none
  canary : Option Bool := none

/-- What a pin found. -/
inductive Pinning where
  | pinned
  | isMatch
  | mismatch
deriving Repr, DecidableEq

/-- `u64::saturating_add` on a time. -/
def deadline (now span : Nat) : Nat :=
  min (now + span) 18446744073709551615

def ApiToken.ofSpec (hash : String → String) (spec : TokenSpec) (id secret : String) (now : Nat) :
    ApiToken where
  id := id
  name := spec.name
  tokenHash := hash secret
  tokenPrefix := String.ofList (secret.toList.take 12)
  hostnames := spec.hostnames
  paths := spec.paths
  allowedIps := spec.allowedIps
  createdAt := now
  expiresAt := spec.ttlSeconds.map (deadline now)
  ttlSeconds := spec.ttlSeconds
  maxRps := spec.maxRps
  dailyMaxBytes := spec.dailyMaxBytes
  maxConnections := spec.maxConnections.filter (0 < ·)
  allowPublic := spec.allowPublic
  allowServerSide := spec.allowServerSide
  allowBind := spec.allowBind
  allowOtel := spec.allowOtel
  topics := spec.topics
  canary := spec.canary
  orgId := spec.orgId

def ApiToken.patched (token : ApiToken) (patch : TokenPatch) (now : Nat) : ApiToken :=
  { token with
    name := patch.name.getD token.name
    hostnames := patch.hostnames.getD token.hostnames
    paths := patch.paths.getD token.paths
    allowedIps := patch.allowedIps.getD token.allowedIps
    expiresAt := (patch.ttlSeconds.map fun ttl => ttl.map (deadline now)).getD token.expiresAt
    ttlSeconds := patch.ttlSeconds.getD token.ttlSeconds
    maxRps := (patch.maxRps.map fun rps => rps.filter (0 < ·)).getD token.maxRps
    dailyMaxBytes := (patch.dailyMaxBytes.map fun quota => quota.filter (0 < ·)).getD
      token.dailyMaxBytes
    maxConnections := (patch.maxConnections.map fun conns => conns.filter (0 < ·)).getD
      token.maxConnections
    allowPublic := patch.allowPublic.getD token.allowPublic
    allowServerSide := patch.allowServerSide.getD token.allowServerSide
    allowBind := patch.allowBind.getD token.allowBind
    allowOtel := patch.allowOtel.getD token.allowOtel
    topics := patch.topics.getD token.topics
    canary := patch.canary.getD token.canary }

/-- A new secret: the old one is remembered for as long as it is still
accepted, and the pin is dropped. -/
def ApiToken.rotated (token : ApiToken) (hash : String → String) (secret : String)
    (graceSeconds now : Nat) : ApiToken :=
  { token with
    prevTokenHash := if 0 < graceSeconds then some token.tokenHash else none
    prevExpiresAt := if 0 < graceSeconds then some (deadline now graceSeconds) else none
    tokenHash := hash secret
    tokenPrefix := String.ofList (secret.toList.take 12)
    pinnedKey := none }

abbrev Tokens := List ApiToken

namespace Tokens

def get (tokens : Tokens) (id : String) : Option ApiToken :=
  tokens.find? (·.id == id)

/-- Rewrites the first row with this id. -/
def modify (tokens : Tokens) (id : String) (f : ApiToken → ApiToken) : Tokens :=
  match tokens with
  | [] => []
  | t :: rest => if t.id == id then f t :: rest else t :: modify rest id f

end Tokens

abbrev TokenTable := Table Tokens

namespace TokenTable

variable {R : Type} (hash : String → String) (t : TokenTable) (saved : Bool) (id : String)

/-- Runs a change, which refuses nothing, and saves it. -/
def commit (change : Tokens → R × Tokens) : Except NotWritten R × TokenTable :=
  Table.commit t saved .notPersisted fun tokens => (.ok (change tokens).1, (change tokens).2)

/-- Replaces every row. -/
def importRows (tokens : Tokens) : Except NotWritten Nat × TokenTable :=
  commit t saved fun _ => (tokens.length, tokens)

def create (spec : TokenSpec) (secret : String) (now : Nat) :
    Except NotWritten (ApiToken × String) × TokenTable :=
  let record := ApiToken.ofSpec hash spec id secret now
  commit t saved fun tokens => ((record, secret), tokens ++ [record])

def update (patch : TokenPatch) (now : Nat) : Except NotWritten ApiToken × TokenTable :=
  match t.memory.get id with
  | none => (.error .noSuchRecord, t)
  | some token =>
    commit t saved fun tokens =>
      (token.patched patch now, tokens.modify id (·.patched patch now))

def revoke : Except NotWritten Unit × TokenTable :=
  match t.memory.findIdx? (·.id == id) with
  | none => (.error .noSuchRecord, t)
  | some pos => commit t saved fun tokens => ((), tokens.eraseIdx pos)

/-- The first key a token sees is its pin. Only a new pin is a change. -/
def pinKey (key : String) : Except NotWritten Pinning × TokenTable :=
  match t.memory.get id with
  | none => (.error .noSuchRecord, t)
  | some token =>
    match token.pinnedKey with
    | some existing => (.ok (if existing = key then .isMatch else .mismatch), t)
    | none =>
      commit t saved fun tokens =>
        (.pinned, tokens.modify id fun token => { token with pinnedKey := some key })

def rotate (secret : String) (graceSeconds now : Nat) :
    Except NotWritten (ApiToken × String) × TokenTable :=
  match t.memory.get id with
  | none => (.error .noSuchRecord, t)
  | some token =>
    commit t saved fun tokens =>
      ((token.rotated hash secret graceSeconds now, secret),
        tokens.modify id (·.rotated hash secret graceSeconds now))

/-- The token with this secret lives as long again as it was made to. -/
def refresh (secret : String) (now : Nat) : Except NotWritten ApiToken × TokenTable :=
  let found (token : ApiToken) := token.tokenHash == hash secret && !token.isExpired now
  match t.memory.findIdx? found, t.memory.find? found with
  | some pos, some token =>
    match token.ttlSeconds with
    | none => (.error .noSuchRecord, t)
    | some ttl =>
      let refreshed := { token with expiresAt := some (deadline now ttl) }
      commit t saved fun tokens => (refreshed, tokens.set pos refreshed)
  | _, _ => (.error .noSuchRecord, t)

end TokenTable

end Aperio
