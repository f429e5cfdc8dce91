import Aperio.KeyedSum
import Aperio.Ping
import Aperio.Run

/-!
# Admission of a tunnel

What `ws_handler` and `handle_socket` (`tunnel/ws.rs`) count between an
upgrade request and the connection in the `clients` map. The organization's
quota is checked against the map under one lock and the connection is
registered under another, by another task; in between lie the reservation of
a slot of `active_tunnel_count` by compare and swap and an upgrade that may
never happen. Each of these is a step, and which attempt moves next is the
outside world's.

The slot is kept by `TunnelSlot`, which gives it back when the callback of the
upgrade is dropped uncalled, and by the connection's `cleanup` otherwise. The
settings and the organization's quota are fixed over a run.
-/

namespace Aperio

/-! ## The two bounds -/

/-- What the check reads of an organization. -/
structure OrgClientQuota where
  id : String
  maxClients : Option Nat := none

/-- What admission is decided by. -/
structure TunnelLimits where
  orgs : List OrgClientQuota := []
  maxTunnels : UInt64 := 1000
  cfg : ServerConfig := {}

def TunnelLimits.orgQuota (lim : TunnelLimits) (org : Option String) : Option OrgClientQuota :=
  org.bind fun id => lim.orgs.find? (·.id == id)

/-- The most clients an organization may have connected, where it has a
quota. -/
def TunnelLimits.maxClients (lim : TunnelLimits) (org : Option String) : Option Nat :=
  (lim.orgQuota org).bind (·.maxClients)

def orgClientCount (clients : Clients) (org : Option String) : Nat :=
  (clients.entries.filter fun e => e.2.perms.orgId == org).length

def checkOrgClientQuota (lim : TunnelLimits) (clients : Clients) (org : Option String) :
    Except String Unit :=
  match lim.maxClients org with
  | none => .ok ()
  | some max =>
    if max ≤ orgClientCount clients org then
      .error s!"organization client quota reached ({max})"
    else .ok ()

/-! ## One attempt -/

/-- Where an upgrade attempt stands. -/
inductive UpgradeAt where
  /-- The token is good. -/
  | authorized
  /-- Past the quota check. -/
  | admitted
  /-- At the head of the loop that reserves a slot. -/
  | reserving
  /-- The loop has read the counter. -/
  | loaded (current : UInt64)
  /-- The slot is held by the `TunnelSlot` of the upgrade callback. -/
  | reserved
  /-- `handle_socket` runs, and has not registered. -/
  | handedOff
  | registered
  /-- Out of the map, with the slot not yet given back. -/
  | closing
deriving DecidableEq

/-- The attempt holds a slot. -/
def UpgradeAt.holdsSlot : UpgradeAt → Bool
  | .reserved => true
  | .handedOff => true
  | .registered => true
  | .closing => true
  | _ => false

/-- The attempt has been admitted and is not in the map yet. -/
def UpgradeAt.pending : UpgradeAt → Bool
  | .admitted => true
  | .reserving => true
  | .loaded _ => true
  | .reserved => true
  | .handedOff => true
  | _ => false

structure UpgradeAttempt where
  connect : Connect
  stage : UpgradeAt := .authorized

def UpgradeAttempt.org (a : UpgradeAttempt) : Option String :=
  a.connect.perms.orgId

/-- What an attempt does next. -/
inductive UpgradeStep where
  /-- The handler's future is dropped with the request, which it can be only
  where it awaits. -/
  | hangUp
  | checkQuota
  /-- `refuse_unpaired_client`. -/
  | pair (sameRelease : Bool)
  | load
  | exchange
  /-- The connection dies before the upgrade, and the callback is dropped. -/
  | dropCallback
  | upgrade
  | register (now : Nat)
  | disconnect
  | release

inductive TunnelAct where
  | arrive (id : String) (connect : Connect)
  | proceed (id : String) (step : UpgradeStep)

/-! ## All of them -/

structure Tunnels where
  clients : Clients := ∅
  activeTunnelCount : UInt64 := 0
  attempts : AList fun _ : String => UpgradeAttempt := ∅

namespace Tunnels

def tally (s : Tunnels) (p : UpgradeAttempt → Bool) : Nat :=
  (s.attempts.entries.filter fun e => p e.2).length

/-- How many attempts hold a slot: the reserved and the registered. -/
def held (s : Tunnels) : Nat :=
  s.tally fun a => a.stage.holdsSlot

/-- The attempts of an organization that the quota check let through and that
are not in the map yet. -/
def pending (s : Tunnels) (org : Option String) : Nat :=
  s.tally fun a => a.stage.pending && a.org == org

def move (s : Tunnels) (id : String) (a : UpgradeAttempt) (stage : UpgradeAt) : Tunnels :=
  { s with attempts := s.attempts.insert id { a with stage := stage } }

def gone (s : Tunnels) (id : String) : Tunnels :=
  { s with attempts := s.attempts.erase id }

/-- One step of the attempt `a`, which goes by `id`. -/
def proceed (lim : TunnelLimits) (s : Tunnels) (id : String) (a : UpgradeAttempt) :
    UpgradeAt → UpgradeStep → Option Tunnels
  | .authorized, .hangUp => some (s.gone id)
  | .authorized, .checkQuota =>
    match checkOrgClientQuota lim s.clients a.org with
    | .error _ => some (s.gone id)
    | .ok _ => some (s.move id a .admitted)
  | .admitted, .pair sameRelease =>
    some (if sameRelease then s.move id a .reserving else s.gone id)
  | .reserving, .load =>
    some (if lim.maxTunnels ≤ s.activeTunnelCount then s.gone id
      else s.move id a (.loaded s.activeTunnelCount))
  | .loaded current, .exchange =>
    some (if s.activeTunnelCount = current then
        { s.move id a .reserved with activeTunnelCount := current + 1 }
      else s.move id a .reserving)
  | .reserved, .dropCallback =>
    some { s.gone id with activeTunnelCount := s.activeTunnelCount - 1 }
  | .reserved, .upgrade => some (s.move id a .handedOff)
  | .handedOff, .register now =>
    some { s.move id a .registered with
      clients := s.clients.insert id (newHandle lim.cfg now a.connect) }
  | .registered, .disconnect =>
    some { s.move id a .closing with clients := s.clients.erase id }
  | .closing, .release =>
    some { s.gone id with activeTunnelCount := s.activeTunnelCount - 1 }
  | _, _ => none

def step (lim : TunnelLimits) (s : Tunnels) : TunnelAct → Option Tunnels
  | .arrive id connect =>
    match s.attempts.lookup id with
    | some _ => none
    | none => some (s.move id { connect := connect } .authorized)
  | .proceed id step =>
    match s.attempts.lookup id with
    | none => none
    | some a => s.proceed lim id a a.stage step

end Tunnels

def tunnelSys (lim : TunnelLimits) : Sys Tunnels TunnelAct where
  init s := s = {}
  step s act s' := s.step lim act = some s'

/-! ## What one attempt changes -/

section

variable {lim : TunnelLimits} {s s' : Tunnels} {id k : String} {a b : UpgradeAttempt}
  {stage : UpgradeAt} {p : UpgradeAttempt → Bool}

theorem tally_eq_sumOver (s : Tunnels) (p : UpgradeAttempt → Bool) :
    s.tally p = sumOver (fun _ a => (p a).toNat) s.attempts :=
  length_filter_eq_sumOver (fun _ a => p a) s.attempts

theorem tally_move (h : s.attempts.lookup id = some a) :
    (s.move id a stage).tally p + (p a).toNat
      = s.tally p + (p { a with stage := stage }).toNat := by
  rw [tally_eq_sumOver, tally_eq_sumOver, sumOver_of_lookup _ h, Tunnels.move, sumOver_insert]
  omega

theorem tally_gone (h : s.attempts.lookup id = some a) :
    (s.gone id).tally p + (p a).toNat = s.tally p := by
  rw [tally_eq_sumOver, tally_eq_sumOver, sumOver_of_lookup _ h]
  show sumOver _ (s.attempts.erase id) + _ = _
  omega

theorem tally_arrive (h : s.attempts.lookup id = none) :
    (s.move id a stage).tally p = s.tally p + (p { a with stage := stage }).toNat := by
  rw [tally_eq_sumOver, tally_eq_sumOver, Tunnels.move, sumOver_insert,
    erase_of_lookup_eq_none h]
  omega

theorem lookup_move :
    (s.move id a stage).attempts.lookup k =
      if k = id then some { a with stage := stage } else s.attempts.lookup k := by
  by_cases hk : k = id
  · subst hk
    simp [Tunnels.move]
  · simp [Tunnels.move, hk]

theorem lookup_gone :
    (s.gone id).attempts.lookup k = if k = id then none else s.attempts.lookup k := by
  by_cases hk : k = id
  · subst hk
    simp [Tunnels.gone]
  · simp [Tunnels.gone, hk]

end

/-- The kinds of step an attempt takes. -/
inductive Tunnels.Proceeds (lim : TunnelLimits) (s : Tunnels) (id : String) (a : UpgradeAttempt) :
    UpgradeStep → Tunnels → Prop
  | gone (st : UpgradeStep) (hslot : a.stage.holdsSlot = false) :
      Proceeds lim s id a st (s.gone id)
  | passCheck (hstage : a.stage = .authorized)
      (hok : checkOrgClientQuota lim s.clients a.org = .ok ()) :
      Proceeds lim s id a .checkQuota (s.move id a .admitted)
  /-- On to a stage that is still on its way to the map, without the counter. -/
  | onward (st : UpgradeStep) (stage : UpgradeAt) (hslot : stage.holdsSlot = a.stage.holdsSlot)
      (hpending : a.stage.pending = true) (hnew : stage.pending = true)
      (hread : ∀ current, stage = .loaded current → current < lim.maxTunnels) :
      Proceeds lim s id a st (s.move id a stage)
  | reserve (hstage : a.stage = .loaded s.activeTunnelCount) :
      Proceeds lim s id a .exchange
        { s.move id a .reserved with activeTunnelCount := s.activeTunnelCount + 1 }
  | giveBack (st : UpgradeStep) (hslot : a.stage.holdsSlot = true) (hout : a.stage ≠ .registered) :
      Proceeds lim s id a st { s.gone id with activeTunnelCount := s.activeTunnelCount - 1 }
  | register (now : Nat) (hstage : a.stage = .handedOff) :
      Proceeds lim s id a (.register now)
        { s.move id a .registered with
          clients := s.clients.insert id (newHandle lim.cfg now a.connect) }
  | disconnect (hstage : a.stage = .registered) :
      Proceeds lim s id a .disconnect
        { s.move id a .closing with clients := s.clients.erase id }

theorem UpgradeAt.ne_registered_of_pending {stage : UpgradeAt} (h : stage.pending = true) :
    stage ≠ .registered := by
  rintro rfl
  cases h

theorem UpgradeAt.ne_registered_of_free {stage : UpgradeAt} (h : stage.holdsSlot = false) :
    stage ≠ .registered := by
  rintro rfl
  cases h

/-- Everything a step of an attempt can do. -/
theorem proceed_cases {lim : TunnelLimits} {s s' : Tunnels} {id : String} {a : UpgradeAttempt}
    {st : UpgradeStep} (h : s.proceed lim id a a.stage st = some s') :
    Tunnels.Proceeds lim s id a st s' := by
  generalize hstage : a.stage = stage at h
  unfold Tunnels.proceed at h
  split at h
  · obtain rfl := Option.some.inj h
    exact .gone _ (by rw [hstage]; rfl)
  · split at h
    · obtain rfl := Option.some.inj h
      exact .gone _ (by rw [hstage]; rfl)
    · rename_i hok
      obtain rfl := Option.some.inj h
      exact .passCheck hstage hok
  · obtain rfl := Option.some.inj h
    split
    · exact .onward _ _ (by rw [hstage]; rfl) (by rw [hstage]; rfl) rfl (fun _ hc => by cases hc)
    · exact .gone _ (by rw [hstage]; rfl)
  · obtain rfl := Option.some.inj h
    split
    · exact .gone _ (by rw [hstage]; rfl)
    · rename_i hfree
      refine .onward _ _ (by rw [hstage]; rfl) (by rw [hstage]; rfl) rfl (fun current hc => ?_)
      obtain rfl := UpgradeAt.loaded.inj hc
      exact UInt64.not_le.mp hfree
  · rename_i current
    obtain rfl := Option.some.inj h
    split
    · rename_i hsame
      subst hsame
      exact .reserve hstage
    · exact .onward _ _ (by rw [hstage]; rfl) (by rw [hstage]; rfl) rfl (fun _ hc => by cases hc)
  · obtain rfl := Option.some.inj h
    exact .giveBack _ (by rw [hstage]; rfl) (by simp [hstage])
  · obtain rfl := Option.some.inj h
    exact .onward _ _ (by rw [hstage]; rfl) (by rw [hstage]; rfl) rfl (fun _ hc => by cases hc)
  · obtain rfl := Option.some.inj h
    exact .register _ hstage
  · obtain rfl := Option.some.inj h
    exact .disconnect hstage
  · obtain rfl := Option.some.inj h
    exact .giveBack _ (by rw [hstage]; rfl) (by simp [hstage])
  · cases h

/-! ## The slots -/

/-- The counter is the number of slots held, and what the loop read of it was
below the limit. -/
structure Tunnels.Slots (lim : TunnelLimits) (s : Tunnels) : Prop where
  counted : s.activeTunnelCount.toNat = s.held
  bounded : s.activeTunnelCount ≤ lim.maxTunnels
  loaded : ∀ id a current, s.attempts.lookup id = some a → a.stage = .loaded current →
    current < lim.maxTunnels

section

variable {lim : TunnelLimits} {s s' : Tunnels} {id : String} {a : UpgradeAttempt}
  {stage : UpgradeAt} {clients : Clients}

/-- An attempt that keeps its slot, or has none, moves without the counter. -/
theorem Tunnels.Slots.move (hs : s.Slots lim) (hid : s.attempts.lookup id = some a)
    (hslot : stage.holdsSlot = a.stage.holdsSlot)
    (hread : ∀ current, stage = .loaded current → current < lim.maxTunnels) :
    Tunnels.Slots lim { s.move id a stage with clients := clients } where
  counted := by
    have hsum : (s.move id a stage).held + _ = s.held + _ := tally_move hid
    have hcount := hs.counted
    rw [hslot] at hsum
    show s.activeTunnelCount.toNat = (s.move id a stage).held
    omega
  bounded := hs.bounded
  loaded := by
    intro k b current hk hb
    rw [lookup_move] at hk
    split at hk
    · obtain rfl := Option.some.inj hk
      exact hread current hb
    · exact hs.loaded k b current hk hb

theorem Tunnels.Slots.gone (hs : s.Slots lim) (hid : s.attempts.lookup id = some a)
    (hslot : a.stage.holdsSlot = false) : (s.gone id).Slots lim where
  counted := by
    have hsum : (s.gone id).held + _ = s.held := tally_gone hid
    rw [hslot] at hsum
    exact hs.counted.trans hsum.symm
  bounded := hs.bounded
  loaded := by
    intro k b current hk hb
    rw [lookup_gone] at hk
    split at hk
    · cases hk
    · exact hs.loaded k b current hk hb

/-- A slot given back is one that was counted. -/
theorem Tunnels.Slots.giveBack (hs : s.Slots lim) (hid : s.attempts.lookup id = some a)
    (hslot : a.stage.holdsSlot = true) :
    Tunnels.Slots lim { s.gone id with activeTunnelCount := s.activeTunnelCount - 1 } := by
  have hsum : (s.gone id).held + _ = s.held := tally_gone hid
  rw [hslot] at hsum
  have hcount := hs.counted
  have hbound := UInt64.le_iff_toNat_le.mp hs.bounded
  have hone : (1 : UInt64) ≤ s.activeTunnelCount := by
    rw [UInt64.le_iff_toNat_le]
    show 1 ≤ s.activeTunnelCount.toNat
    rw [Bool.toNat_true] at hsum
    omega
  have hsub : (s.activeTunnelCount - 1).toNat = s.activeTunnelCount.toNat - 1 :=
    UInt64.toNat_sub_of_le _ _ hone
  refine ⟨?_, ?_, ?_⟩
  · show (s.activeTunnelCount - 1).toNat = (s.gone id).held
    rw [Bool.toNat_true] at hsum
    omega
  · rw [UInt64.le_iff_toNat_le]
    show (s.activeTunnelCount - 1).toNat ≤ _
    omega
  · intro k b current hk hb
    rw [lookup_gone] at hk
    split at hk
    · cases hk
    · exact hs.loaded k b current hk hb

/-- The exchange that succeeds takes the slot the loop saw to be free. -/
theorem Tunnels.Slots.reserve (hs : s.Slots lim) (hid : s.attempts.lookup id = some a)
    (hstage : a.stage = .loaded s.activeTunnelCount) :
    Tunnels.Slots lim
      { s.move id a .reserved with activeTunnelCount := s.activeTunnelCount + 1 } := by
  have hlt := UInt64.lt_iff_toNat_lt.mp (hs.loaded id a _ hid hstage)
  have hsum : (s.move id a .reserved).held + _ = s.held + _ := tally_move hid
  rw [hstage] at hsum
  have hcount := hs.counted
  have hmax := lim.maxTunnels.toNat_lt
  have hadd : (s.activeTunnelCount + 1).toNat = s.activeTunnelCount.toNat + 1 := by
    rw [UInt64.toNat_add]
    exact Nat.mod_eq_of_lt (by show s.activeTunnelCount.toNat + 1 < 2 ^ 64; omega)
  refine ⟨?_, ?_, ?_⟩
  · show (s.activeTunnelCount + 1).toNat = (s.move id a .reserved).held
    simp only [UpgradeAt.holdsSlot, Bool.toNat_true, Bool.toNat_false] at hsum
    omega
  · rw [UInt64.le_iff_toNat_le]
    show (s.activeTunnelCount + 1).toNat ≤ _
    omega
  · intro k b current hk hb
    have hk' : (s.move id a .reserved).attempts.lookup k = some b := hk
    rw [lookup_move] at hk'
    split at hk'
    · obtain rfl := Option.some.inj hk'
      cases hb
    · exact hs.loaded k b current hk' hb

theorem slots_proceed {st : UpgradeStep} (hs : s.Slots lim)
    (hid : s.attempts.lookup id = some a)
    (h : s.proceed lim id a a.stage st = some s') : s'.Slots lim := by
  cases proceed_cases h with
  | gone _ hslot => exact hs.gone hid hslot
  | passCheck hstage => exact hs.move hid (by rw [hstage]; rfl) (fun _ hc => by cases hc)
  | onward _ _ hslot _ _ hread => exact hs.move hid hslot hread
  | reserve hstage => exact hs.reserve hid hstage
  | giveBack _ hslot => exact hs.giveBack hid hslot
  | register _ hstage => exact hs.move hid (by rw [hstage]; rfl) (fun _ hc => by cases hc)
  | disconnect hstage => exact hs.move hid (by rw [hstage]; rfl) (fun _ hc => by cases hc)

end

/-! ## The map -/

/-- The map holds the attempts that are registered, each under what it
connected with. -/
structure Tunnels.Mapped (s : Tunnels) : Prop where
  registered : ∀ id, (s.clients.lookup id).isSome ↔
    ∃ a, s.attempts.lookup id = some a ∧ a.stage = .registered

section

variable {lim : TunnelLimits} {s s' : Tunnels} {id : String} {a : UpgradeAttempt}
  {stage : UpgradeAt}

theorem Tunnels.Mapped.move (hs : s.Mapped) (hid : s.attempts.lookup id = some a)
    (hold : a.stage ≠ .registered) (hnew : stage ≠ .registered) :
    (s.move id a stage).Mapped where
  registered := by
    intro k
    rw [lookup_move]
    show (s.clients.lookup k).isSome ↔ _
    rw [hs.registered k]
    by_cases hk : k = id
    · subst hk
      simp [hid, hold, hnew]
    · simp [hk]

theorem Tunnels.Mapped.gone (hs : s.Mapped) (hid : s.attempts.lookup id = some a)
    (hold : a.stage ≠ .registered) : (s.gone id).Mapped where
  registered := by
    intro k
    rw [lookup_gone]
    show (s.clients.lookup k).isSome ↔ _
    rw [hs.registered k]
    by_cases hk : k = id
    · subst hk
      simp [hid, hold]
    · simp [hk]

theorem Tunnels.Mapped.count (hs : s.Mapped) (n : UInt64) :
    Tunnels.Mapped { s with activeTunnelCount := n } :=
  ⟨hs.registered⟩

theorem mapped_proceed {st : UpgradeStep} (hs : s.Mapped)
    (hid : s.attempts.lookup id = some a)
    (h : s.proceed lim id a a.stage st = some s') : s'.Mapped := by
  cases proceed_cases h with
  | gone _ hslot => exact hs.gone hid (UpgradeAt.ne_registered_of_free hslot)
  | passCheck hstage => exact hs.move hid (by simp [hstage]) (by simp)
  | onward _ _ _ hpending hnew =>
      exact hs.move hid (UpgradeAt.ne_registered_of_pending hpending)
        (UpgradeAt.ne_registered_of_pending hnew)
  | reserve hstage => exact (hs.move hid (by simp [hstage]) (by simp)).count _
  | giveBack _ _ hout => exact (hs.gone hid hout).count _
  | register now =>
      refine ⟨fun k => ?_⟩
      show ((s.clients.insert id _).lookup k).isSome ↔
        ∃ b, (s.move id a .registered).attempts.lookup k = some b ∧ _
      rw [lookup_move]
      by_cases hk : k = id
      · subst hk
        simp
      · simpa [hk] using hs.registered k
  | disconnect =>
      refine ⟨fun k => ?_⟩
      show ((s.clients.erase id).lookup k).isSome ↔
        ∃ b, (s.move id a .closing).attempts.lookup k = some b ∧ _
      rw [lookup_move]
      by_cases hk : k = id
      · subst hk
        simp
      · simpa [hk] using hs.registered k

end

/-! ## The quota -/

/-- A check that passes leaves room for the attempts that passed before it and
are still on their way to the map. -/
def roomForPending (lim : TunnelLimits) (s : Tunnels) : TunnelAct → Bool
  | .proceed id .checkQuota =>
    (s.attempts.lookup id).all fun a => (lim.maxClients a.org).all fun max =>
      decide (orgClientCount s.clients a.org < max →
        orgClientCount s.clients a.org + s.pending a.org < max)
  | _ => true

/-- The clients of an organization in the map, and those on their way to
it. -/
def Tunnels.claimed (s : Tunnels) (org : Option String) : Nat :=
  orgClientCount s.clients org + s.pending org

section

variable {lim : TunnelLimits} {s s' : Tunnels} {id : String} {a : UpgradeAttempt}
  {stage : UpgradeAt} {org : Option String}

theorem orgClientCount_eq_sumOver (clients : Clients) (org : Option String) :
    orgClientCount clients org = sumOver (fun _ h => (h.perms.orgId == org).toNat) clients :=
  length_filter_eq_sumOver (fun _ (h : ClientHandle) => h.perms.orgId == org) clients

theorem orgClientCount_insert_le (clients : Clients) (id : String) (h : ClientHandle) :
    orgClientCount (clients.insert id h) org
      ≤ orgClientCount clients org + (h.perms.orgId == org).toNat := by
  have hrest := sumOver_erase_le (fun _ h => (h.perms.orgId == org).toNat) clients id
  rw [orgClientCount_eq_sumOver, orgClientCount_eq_sumOver, sumOver_insert]
  omega

theorem orgClientCount_erase_le (clients : Clients) (id : String) :
    orgClientCount (clients.erase id) org ≤ orgClientCount clients org := by
  rw [orgClientCount_eq_sumOver, orgClientCount_eq_sumOver]
  exact sumOver_erase_le _ clients id

theorem pending_gone_le (hid : s.attempts.lookup id = some a) :
    (s.gone id).pending org ≤ s.pending org := by
  have hsum : (s.gone id).pending org + _ = s.pending org := tally_gone hid
  omega

/-- An attempt that was pending already, or is so no longer, adds nothing. -/
theorem pending_move_le (hid : s.attempts.lookup id = some a)
    (hstage : stage.pending = true → a.stage.pending = true) :
    (s.move id a stage).pending org ≤ s.pending org := by
  have hsum : (s.move id a stage).pending org + (a.stage.pending && a.org == org).toNat
      = s.pending org + (stage.pending && a.org == org).toNat := tally_move hid
  have hle : (stage.pending && a.org == org).toNat ≤ (a.stage.pending && a.org == org).toNat := by
    cases hp : stage.pending with
    | false => simp
    | true => simp [hstage hp]
  omega

theorem claimed_gone_le (hid : s.attempts.lookup id = some a) :
    (s.gone id).claimed org ≤ s.claimed org :=
  Nat.add_le_add_left (pending_gone_le hid) _

theorem claimed_move_le (hid : s.attempts.lookup id = some a)
    (hstage : stage.pending = true → a.stage.pending = true) :
    (s.move id a stage).claimed org ≤ s.claimed org :=
  Nat.add_le_add_left (pending_move_le hid hstage) _

theorem claimed_passCheck_le (hid : s.attempts.lookup id = some a) (hstage : a.stage = .authorized) :
    (s.move id a .admitted).claimed org ≤ s.claimed org + (a.org == org).toNat := by
  have hsum : (s.move id a .admitted).pending org + (a.stage.pending && a.org == org).toNat
      = s.pending org + (a.org == org).toNat := tally_move hid
  rw [hstage] at hsum
  show orgClientCount s.clients org + _ ≤ orgClientCount s.clients org + _ + _
  omega

/-- The attempt that registers leaves the pending ones and enters the map. -/
theorem claimed_register_le (hid : s.attempts.lookup id = some a) (hstage : a.stage = .handedOff)
    (now : Nat) :
    orgClientCount (s.clients.insert id (newHandle lim.cfg now a.connect)) org
        + (s.move id a .registered).pending org ≤ s.claimed org := by
  have hsum : (s.move id a .registered).pending org + (a.stage.pending && a.org == org).toNat
      = s.pending org + 0 := tally_move hid
  have hwas : (a.stage.pending && a.org == org) = (a.org == org) := by
    rw [hstage]
    rfl
  have hmap : orgClientCount (s.clients.insert id (newHandle lim.cfg now a.connect)) org
      ≤ orgClientCount s.clients org + (a.org == org).toNat :=
    orgClientCount_insert_le s.clients id _
  rw [hwas] at hsum
  rw [Tunnels.claimed]
  omega

/-- Only the quota check adds to what an organization claims. -/
theorem claimed_proceed {st : UpgradeStep} (hid : s.attempts.lookup id = some a)
    (h : s.proceed lim id a a.stage st = some s') :
    s'.claimed org ≤ s.claimed org ∨
      (st = .checkQuota ∧ a.org = org ∧
        checkOrgClientQuota lim s.clients org = .ok () ∧ s'.claimed org ≤ s.claimed org + 1) := by
  cases proceed_cases h with
  | gone => exact Or.inl (claimed_gone_le hid)
  | passCheck hstage hok =>
      have hle := @claimed_passCheck_le _ _ _ org hid hstage
      by_cases horg : a.org = org
      · have hone := Bool.toNat_le (a.org == org)
        exact Or.inr ⟨rfl, horg, horg ▸ hok, by omega⟩
      · have hzero : (a.org == org).toNat = 0 := by simp [horg]
        left
        omega
  | onward _ _ _ hpending => exact Or.inl (claimed_move_le hid fun _ => hpending)
  | reserve hstage =>
      exact Or.inl (@claimed_move_le _ _ _ .reserved _ hid fun _ => by rw [hstage]; rfl)
  | giveBack => exact Or.inl (claimed_gone_le hid)
  | register now hstage => exact Or.inl (claimed_register_le hid hstage now)
  | disconnect =>
      exact Or.inl (Nat.add_le_add (orgClientCount_erase_le s.clients id)
        (@pending_move_le _ _ _ .closing _ hid (fun hp => by cases hp)))

theorem checkOrgClientQuota_eq_ok {max : Nat} (hmax : lim.maxClients org = some max)
    (h : checkOrgClientQuota lim s.clients org = .ok ()) :
    orgClientCount s.clients org < max := by
  rw [checkOrgClientQuota, hmax] at h
  simp only at h
  split at h
  · cases h
  · rename_i hfull
    omega

theorem step_arrive {connect : Connect} (h : s.step lim (.arrive id connect) = some s') :
    s.attempts.lookup id = none ∧ s' = s.move id { connect := connect } .authorized := by
  unfold Tunnels.step at h
  simp only at h
  split at h
  · cases h
  · rename_i hnone
    exact ⟨hnone, (Option.some.inj h).symm⟩

theorem step_proceed {st : UpgradeStep} (h : s.step lim (.proceed id st) = some s') :
    ∃ a, s.attempts.lookup id = some a ∧ s.proceed lim id a a.stage st = some s' := by
  unfold Tunnels.step at h
  simp only at h
  split at h
  · cases h
  · rename_i a ha
    exact ⟨a, ha, h⟩

theorem slots_step {act : TunnelAct} (hs : s.Slots lim) (h : s.step lim act = some s') :
    s'.Slots lim := by
  cases act with
  | arrive id connect =>
      obtain ⟨hnone, rfl⟩ := step_arrive h
      refine ⟨?_, hs.bounded, fun k b current hk hb => ?_⟩
      · have hsum : (s.move id { connect := connect } .authorized).held = s.held :=
          tally_arrive hnone
        exact hs.counted.trans hsum.symm
      · rw [lookup_move] at hk
        split at hk
        · obtain rfl := Option.some.inj hk
          cases hb
        · exact hs.loaded k b current hk hb
  | proceed id st =>
      obtain ⟨a, ha, hp⟩ := step_proceed h
      exact slots_proceed hs ha hp

theorem mapped_step {act : TunnelAct} (hs : s.Mapped) (h : s.step lim act = some s') :
    s'.Mapped := by
  cases act with
  | arrive id connect =>
      obtain ⟨hnone, rfl⟩ := step_arrive h
      refine ⟨fun k => ?_⟩
      rw [lookup_move]
      show (s.clients.lookup k).isSome ↔ _
      rw [hs.registered k]
      by_cases hk : k = id
      · subst hk
        simp [hnone]
      · simp [hk]
  | proceed id st =>
      obtain ⟨a, ha, hp⟩ := step_proceed h
      exact mapped_proceed hs ha hp

/-- A step with room keeps what an organization claims within its quota. -/
theorem claimed_step {act : TunnelAct} {max : Nat} (hmax : lim.maxClients org = some max)
    (hs : s.claimed org ≤ max) (h : s.step lim act = some s') (hroom : roomForPending lim s act) :
    s'.claimed org ≤ max := by
  cases act with
  | arrive id connect =>
      obtain ⟨hnone, rfl⟩ := step_arrive h
      have hsum : (s.move id { connect := connect } .authorized).pending org = s.pending org :=
        tally_arrive hnone
      show orgClientCount s.clients org + _ ≤ max
      rw [hsum]
      exact hs
  | proceed id st =>
      obtain ⟨a, ha, hp⟩ := step_proceed h
      rcases @claimed_proceed _ _ _ _ _ org _ ha hp with hle | ⟨rfl, rfl, hok, hle⟩
      · exact Nat.le_trans hle hs
      · have hlt : s.claimed a.org < max := by
          simp only [roomForPending, ha, hmax, Option.all_some, decide_eq_true_eq] at hroom
          exact hroom (checkOrgClientQuota_eq_ok hmax hok)
        omega

end

/-! ## Every run -/

/-- The runs whose quota checks all leave that room. -/
def roomySys (lim : TunnelLimits) : Sys Tunnels TunnelAct :=
  (tunnelSys lim).restrict fun s act _ => roomForPending lim s act

theorem slots_reachable {lim : TunnelLimits} {s : Tunnels} (hs : (tunnelSys lim).Reachable s) :
    s.Slots lim ∧ s.Mapped := by
  refine hs.invariant (P := fun s => s.Slots lim ∧ s.Mapped) ?_ ?_
  · rintro _ rfl
    refine ⟨⟨rfl, ?_, ?_⟩, ⟨?_⟩⟩
    · rw [UInt64.le_iff_toNat_le]
      exact Nat.zero_le _
    · intro id a current hid
      cases hid
    · intro id
      constructor
      · intro h
        cases h
      · rintro ⟨a, ha, _⟩
        cases ha
  · intro s act s' _ hinv hstep
    exact ⟨slots_step hinv.1 hstep, mapped_step hinv.2 hstep⟩

/-- **Admission.** In every run the counter is the number of connections that
are reserved or registered, and within `max_tunnels`, and the map holds the
registered ones. In every run in which each quota check that passes leaves
room for those that passed before it, no organization has more clients in the
map than its quota. -/
theorem tunnel_admission (lim : TunnelLimits) :
    (∀ s, (tunnelSys lim).Reachable s →
      s.activeTunnelCount.toNat = s.held ∧ s.activeTunnelCount ≤ lim.maxTunnels ∧
        ∀ id, (s.clients.lookup id).isSome ↔
          ∃ a, s.attempts.lookup id = some a ∧ a.stage = .registered) ∧
    ∀ s, (roomySys lim).Reachable s →
      ∀ org max, lim.maxClients org = some max → orgClientCount s.clients org ≤ max := by
  refine ⟨fun s hs => ?_, fun s hs org max hmax => ?_⟩
  · obtain ⟨hslots, hmapped⟩ := slots_reachable hs
    exact ⟨hslots.counted, hslots.bounded, hmapped.registered⟩
  · have hclaimed : s.claimed org ≤ max := by
      refine hs.invariant (P := fun s => s.claimed org ≤ max) ?_ ?_
      · rintro _ rfl
        exact Nat.zero_le _
      · intro s act s' _ hle hstep
        exact claimed_step hmax hle hstep.1 hstep.2
    exact Nat.le_trans (Nat.le_add_right _ _) hclaimed

/-- One organization, which may have one client. -/
def oneClientEach : TunnelLimits where
  orgs := [{ id := "acme", maxClients := some 1 }]
  maxTunnels := 2

def acmeConnect : Connect where
  perms := { ClientPerms.ofMaster with master := false, orgId := some "acme" }

/-- What an attempt does from the pairing to the map. -/
def toTheMap (id : String) : List TunnelAct :=
  [.proceed id (.pair true), .proceed id .load, .proceed id .exchange, .proceed id .upgrade,
    .proceed id (.register 0)]

/-- The second attempt is checked once the first is in the map. -/
def oneAfterAnother : List TunnelAct :=
  [.arrive "a" acmeConnect, .proceed "a" .checkQuota] ++ toTheMap "a" ++
    [.arrive "b" acmeConnect, .proceed "b" .checkQuota]

/-- Both attempts are checked before either is in the map. -/
def bothAtOnce : List TunnelAct :=
  [.arrive "a" acmeConnect, .arrive "b" acmeConnect, .proceed "a" .checkQuota,
    .proceed "b" .checkQuota] ++ toTheMap "a" ++ toTheMap "b"

theorem oneAfterAnother_run {s : Tunnels}
    (h : oneAfterAnother.foldlM (fun s act =>
      if roomForPending oneClientEach s act then s.step oneClientEach act else none) {} = some s) :
    (roomySys oneClientEach).Reachable s := by
  refine @Sys.Reachable.foldlM _ _ (roomySys oneClientEach) _ _ _ (.init rfl) oneAfterAnother
    (fun s act s' hnext => ?_) h
  by_cases hroom : roomForPending oneClientEach s act = true
  · rw [if_pos hroom] at hnext
    exact ⟨hnext, hroom⟩
  · rw [if_neg hroom] at hnext
    cases hnext

theorem tunnel_admission_one_after_another : ∃ s, (roomySys oneClientEach).Reachable s ∧
    orgClientCount s.clients (some "acme") ≤ 1 ∧ (s.clients.lookup "a").isSome ∧
      s.activeTunnelCount.toNat = s.held := by
  refine ⟨_, oneAfterAnother_run rfl, ?_, rfl, ?_⟩
  · exact (tunnel_admission oneClientEach).2 _ (oneAfterAnother_run rfl) (some "acme") 1 rfl
  · exact ((tunnel_admission oneClientEach).1 _ (oneAfterAnother_run rfl).of_restrict).1

/-- Two attempts that are both checked before either is registered are both
registered. -/
theorem both_at_once : ∃ s, (tunnelSys oneClientEach).Reachable s ∧
    oneClientEach.maxClients (some "acme") = some 1 ∧
      orgClientCount s.clients (some "acme") = 2 :=
  ⟨_, @Sys.Reachable.foldlM _ _ (tunnelSys oneClientEach) _ _ _ (.init rfl) bothAtOnce
    (fun _ _ _ hstep => hstep) rfl, rfl, rfl⟩

end Aperio
