import Mathlib.Algebra.Group.Nat.Defs
import Mathlib.Data.List.Basic
import Aperio.Text

/-!
# Sealing a tunnel end to end

`e2e.rs`: the handshake of the two clients of a bound tunnel, and the halves
of the session it gives them. X25519 is a parameter. Key derivation and
AEAD are taken as ideal: a key is what it was derived from, the salt, the
shared secret and the direction, and a sealed frame is the key, the nonce
and the plaintext it was made with, so it opens under nothing else.

The salt is the pre-shared key as a text, which its bytes determine.
-/

namespace Aperio

inductive E2eRole where
  | initiator
  | responder
deriving Repr, DecidableEq

def E2eRole.other : E2eRole → E2eRole
  | .initiator => .responder
  | .responder => .initiator

/-- The key exchange: the public key of a secret, and the secret shared with
the holder of a public key. -/
structure X25519 (Secret Shared : Type) where
  publicKey : Secret → Bytes
  diffieHellman : Secret → Bytes → Shared

/-- A directional key, by who seals with it. -/
structure SessionKey (Shared : Type) where
  salt : String
  shared : Shared
  sender : E2eRole
deriving Repr, DecidableEq

/-- What a binary frame carries. -/
inductive Payload (Shared : Type) where
  | plain (bytes : Bytes)
  | sealed (key : SessionKey Shared) (nonce plaintext : Bytes)
deriving Repr, DecidableEq

variable {Secret Shared : Type}

/-! ## The two halves of a session -/

/-- 96-bit nonce from a 64-bit per-direction counter, little end first. -/
def counterNonce (counter : Nat) : Bytes :=
  ((List.range 8).map fun i => UInt8.ofNat (counter / 256 ^ i)) ++ [0, 0, 0, 0]

structure Sealer (Shared : Type) where
  key : SessionKey Shared
  counter : Nat := 0
deriving Repr, DecidableEq

structure Opener (Shared : Type) where
  key : SessionKey Shared
  counter : Nat := 0
deriving Repr, DecidableEq

/-- Seals one outgoing frame. A counter that cannot be raised seals
nothing. -/
def Sealer.seal (sealer : Sealer Shared) (plaintext : Bytes) :
    Option (Sealer Shared × Payload Shared) :=
  if sealer.counter + 1 < 2 ^ 64 then
    some ({ sealer with counter := sealer.counter + 1 },
      .sealed sealer.key (counterNonce sealer.counter) plaintext)
  else none

/-- Opens one incoming frame. -/
def Opener.open [DecidableEq Shared] (opener : Opener Shared) (payload : Payload Shared) :
    Option (Opener Shared × Bytes) :=
  match payload with
  | .plain _ => none
  | .sealed key nonce plaintext =>
    if opener.counter + 1 < 2 ^ 64 ∧ key = opener.key ∧ nonce = counterNonce opener.counter then
      some ({ opener with counter := opener.counter + 1 }, plaintext)
    else none

structure Session (Shared : Type) where
  sealer : Sealer Shared
  opener : Opener Shared
deriving Repr, DecidableEq

/-! ## The handshake -/

/-- `APE1`. -/
def handshakeMagic : Bytes := [0x41, 0x50, 0x45, 0x31]

def handshakeLen : Nat := 4 + 32

structure Handshake (Secret : Type) where
  secret : Secret
  role : E2eRole
  psk : Option String

namespace Handshake

/-- The frame to send: the magic and our public key. -/
def frame (x : X25519 Secret Shared) (hs : Handshake Secret) : Bytes :=
  handshakeMagic ++ x.publicKey hs.secret

def salt (hs : Handshake Secret) : String :=
  hs.psk.getD ""

/-- Completes the handshake with the peer's frame. -/
def complete (x : X25519 Secret Shared) (hs : Handshake Secret) (peerFrame : Bytes) :
    Option (Session Shared) :=
  if peerFrame.length ≠ handshakeLen ∨ peerFrame.take 4 ≠ handshakeMagic then none
  else
    let shared := x.diffieHellman hs.secret (peerFrame.drop 4)
    some {
      sealer := { key := ⟨hs.salt, shared, hs.role⟩ }
      opener := { key := ⟨hs.salt, shared, hs.role.other⟩ } }

end Handshake

/-! ## What the halves do -/

/-- The low bytes settle the number they are taken from. -/
theorem mod_pow_eq_of_bytes {c d n : Nat} (h : ∀ i < n, c / 256 ^ i % 256 = d / 256 ^ i % 256) :
    c % 256 ^ n = d % 256 ^ n := by
  induction n with
  | zero => rw [Nat.pow_zero, Nat.mod_one, Nat.mod_one]
  | succ n ih =>
      have hlow := ih fun i hi => h i (Nat.lt_succ_of_lt hi)
      rw [Nat.mod_pow_succ, Nat.mod_pow_succ, hlow, h n (Nat.lt_succ_self n)]

/-- **Nonces.** Below the counter's range no two counters have one nonce. -/
theorem counterNonce_inj {c d : Nat} (hc : c < 2 ^ 64) (hd : d < 2 ^ 64)
    (h : counterNonce c = counterNonce d) : c = d := by
  have hbytes : ∀ i < 8, c / 256 ^ i % 256 = d / 256 ^ i % 256 := by
    intro i hi
    have hmap := List.append_cancel_right h
    have hget := List.map_inj_left.mp hmap i (List.mem_range.mpr hi)
    have hnat := congrArg UInt8.toNat hget
    simpa using hnat
  have hmod := mod_pow_eq_of_bytes hbytes
  have hrange : 256 ^ 8 = 2 ^ 64 := by decide
  rwa [hrange, Nat.mod_eq_of_lt hc, Nat.mod_eq_of_lt hd] at hmod

theorem Sealer.seal_eq_some {sealer sealer' : Sealer Shared} {plaintext : Bytes}
    {payload : Payload Shared} :
    sealer.seal plaintext = some (sealer', payload) ↔
      sealer.counter + 1 < 2 ^ 64 ∧ sealer' = { sealer with counter := sealer.counter + 1 } ∧
        payload = .sealed sealer.key (counterNonce sealer.counter) plaintext := by
  unfold Sealer.seal
  split
  · rename_i hroom
    rw [Option.some_inj, Prod.mk.injEq]
    constructor
    · rintro ⟨rfl, rfl⟩
      exact ⟨hroom, rfl, rfl⟩
    · rintro ⟨-, rfl, rfl⟩
      exact ⟨rfl, rfl⟩
  · rename_i hfull
    constructor
    · intro h
      cases h
    · rintro ⟨hroom, -, -⟩
      exact absurd hroom hfull

theorem Opener.open_eq_some [DecidableEq Shared] {opener opener' : Opener Shared}
    {payload : Payload Shared} {plaintext : Bytes} :
    opener.open payload = some (opener', plaintext) ↔
      opener.counter + 1 < 2 ^ 64 ∧
        payload = .sealed opener.key (counterNonce opener.counter) plaintext ∧
        opener' = { opener with counter := opener.counter + 1 } := by
  cases payload with
  | plain bytes => simp [Opener.open]
  | sealed key nonce p =>
      unfold Opener.open
      simp only
      split
      · rename_i hok
        obtain ⟨hroom, rfl, rfl⟩ := hok
        rw [Option.some_inj, Prod.mk.injEq]
        constructor
        · rintro ⟨rfl, rfl⟩
          exact ⟨hroom, rfl, rfl⟩
        · rintro ⟨-, hpayload, rfl⟩
          cases hpayload
          exact ⟨rfl, rfl⟩
      · rename_i hnot
        constructor
        · intro h
          cases h
        · rintro ⟨hroom, hpayload, -⟩
          cases hpayload
          exact absurd ⟨hroom, rfl, rfl⟩ hnot

theorem Handshake.complete_eq_some {x : X25519 Secret Shared} {hs : Handshake Secret}
    {peerFrame : Bytes} {session : Session Shared}
    (h : hs.complete x peerFrame = some session) :
    session.sealer = { key := ⟨hs.salt, x.diffieHellman hs.secret (peerFrame.drop 4), hs.role⟩ } ∧
      session.opener =
        { key := ⟨hs.salt, x.diffieHellman hs.secret (peerFrame.drop 4), hs.role.other⟩ } := by
  unfold complete at h
  split at h
  · cases h
  · cases h
    exact ⟨rfl, rfl⟩

end Aperio
