import Mathlib.Logic.Function.Basic
import Aperio.Run
import Aperio.E2e
import Aperio.NamedTunnel

/-!
# The two ends of a bound tunnel

The streams of bound tunnels with the server between them: on one end
`bridge_connection` of a binder, on the other `handle_tcp_open` of a
declaring client. The server is the adversary. It lists what tunnels it
likes, opens streams as it likes, keeps everything it is sent, and hands any
end any frame it has seen or can make; what it cannot make is a frame sealed
under a key derived with the pre-shared key, unless that key is empty, which
is what no key at all is derived with.

`EndToEnd` is what a pre-shared key is for, and `keyHonoured` what the
server must not do for it to hold.
-/

namespace Aperio

/-! ## One end of a stream -/

/-- `chunks` is what the local socket has produced, read by read, and
`delivered` what has been relayed to it. The PROXY header a declaring client
may write in front of that is its own and not counted. -/
structure StreamEnd (Secret Shared : Type) where
  role : E2eRole
  encrypt : Bool
  psk : Option String
  secret : Secret
  session : Option (Session Shared) := none
  relaying : Bool := false
  sending : Bool := true
  receiving : Bool := true
  chunks : List Bytes := []
  delivered : Bytes := []

namespace StreamEnd

variable {Secret Shared : Type} (x : X25519 Secret Shared)

def handshake (e : StreamEnd Secret Shared) : Handshake Secret :=
  ⟨e.secret, e.role, e.psk⟩

/-- A new end: an encrypted one sends its handshake and waits, any other
relays at once. -/
def started (e : StreamEnd Secret Shared) : StreamEnd Secret Shared × List (Payload Shared) :=
  if e.encrypt then (e, [.plain (e.handshake.frame x)])
  else ({ e with relaying := true }, [])

/-- The first frame from the peer, which has to be its handshake. -/
def shaken (e : StreamEnd Secret Shared) (payload : Payload Shared) : StreamEnd Secret Shared :=
  let session :=
    match payload with
    | .plain frame => e.handshake.complete x frame
    | .sealed .. => none
  match session with
  | some session => { e with session := some session, relaying := true }
  | none => { e with sending := false, receiving := false }

/-- A read from the local socket. -/
def produced (e : StreamEnd Secret Shared) (chunk : Bytes) :
    StreamEnd Secret Shared × List (Payload Shared) :=
  let e := { e with chunks := e.chunks ++ [chunk] }
  match e.session with
  | some session =>
    match session.sealer.seal chunk with
    | some (sealer, payload) =>
      ({ e with session := some { session with sealer := sealer } }, [payload])
    | none => ({ e with sending := false }, [])
  | none => (e, [.plain chunk])

/-- A frame from the tunnel. `ciphertext` is what a sealed frame looks like
to an end that does not open it. -/
def received [DecidableEq Shared] (ciphertext : Payload Shared → Bytes)
    (e : StreamEnd Secret Shared) (payload : Payload Shared) : StreamEnd Secret Shared :=
  match e.session with
  | some session =>
    match session.opener.open payload with
    | some (opener, plaintext) =>
      { e with
        session := some { session with opener := opener }
        delivered := e.delivered ++ plaintext }
    | none => { e with receiving := false }
  | none => { e with delivered := e.delivered ++ ciphertext payload }

end StreamEnd

/-- An end of a binding's listener. Only TCP is ever encrypted. -/
def binderEnd {Secret Shared : Type} (b : Binding) (transport : Transport) (secret : Secret) :
    StreamEnd Secret Shared where
  role := .initiator
  encrypt := b.decl.encrypt && transport == .tcp
  psk := b.psk
  secret := secret

/-- An end of a declared tunnel. -/
def declaredEnd {Secret Shared : Type} (d : LocalTunnel) (transport : Transport)
    (secret : Secret) : StreamEnd Secret Shared where
  role := .responder
  encrypt := d.encrypt && transport == .tcp
  psk := d.psk
  secret := secret

/-- An end of the target of a stream that names none. -/
def legacyEnd {Secret Shared : Type} (secret : Secret) : StreamEnd Secret Shared where
  role := .responder
  encrypt := false
  psk := none
  secret := secret

/-! ## The run -/

/-- The ends there are, and everything they have handed to the server. -/
structure Relayed (Secret Shared : Type) where
  ends : Nat → Option (StreamEnd Secret Shared) := fun _ => none
  wire : List (Nat × Payload Shared) := []

inductive RelayAct (Secret Shared : Type) where
  | accept (id : Nat) (view : TunnelView) (entry : BindEntry) (transport : Transport)
      (secret : Secret)
  | dial (id : Nat) (tunnels : List LocalTunnel) (transport : Transport) (target : String)
      (secret : Secret)
  | legacy (id : Nat) (secret : Secret)
  | shake (id : Nat) (payload : Payload Shared)
  | read (id : Nat) (chunk : Bytes)
  | deliver (id : Nat) (payload : Payload Shared)
  | stop (id : Nat) (sending receiving : Bool)

section

variable {Secret Shared : Type}

def Relayed.put (s : Relayed Secret Shared) (id : Nat) (e : StreamEnd Secret Shared)
    (out : List (Payload Shared)) : Relayed Secret Shared where
  ends := Function.update s.ends id (some e)
  wire := s.wire ++ out.map fun payload => (id, payload)

/-- What the server can hand on: any bytes, a sealed frame it was sent, or
one under a key it can derive. -/
def Relayed.CanMake (s : Relayed Secret Shared) (psk : String) : Payload Shared → Prop
  | .plain _ => True
  | .sealed key nonce plaintext =>
    (∃ id, (id, Payload.sealed key nonce plaintext) ∈ s.wire) ∨ key.salt ≠ psk ∨ key.salt = ""

variable [DecidableEq Shared]

/-- `accept` is a connection to a binder's listener, `dial` and `legacy` a
stream the server opens on a declaring client. -/
inductive RelayStep (x : X25519 Secret Shared) (ciphertext : Payload Shared → Bytes)
    (psk : String) : Relayed Secret Shared → RelayAct Secret Shared → Relayed Secret Shared → Prop
  | accept {s : Relayed Secret Shared} {id : Nat} {view : TunnelView} {entry : BindEntry}
      {fallback : Option String} {b : Binding} {transport : Transport} {secret : Secret}
      (hfresh : s.ends id = none) (hbind : bindingForView view entry fallback = .ok b)
      (hserves : protocolServes b.decl.protocol transport.text = true) :
      RelayStep x ciphertext psk s (.accept id view entry transport secret)
        (s.put id ((binderEnd b transport secret).started x).1
          ((binderEnd b transport secret).started x).2)
  | dial {s : Relayed Secret Shared} {id : Nat} {raw tunnels : List LocalTunnel}
      {transport : Transport} {target : String} {d : LocalTunnel} {secret : Secret}
      (hfresh : s.ends id = none) (hvalid : validateTunnels raw = .ok tunnels)
      (hfound : relayUnder transport tunnels target = some d) :
      RelayStep x ciphertext psk s (.dial id tunnels transport target secret)
        (s.put id ((declaredEnd d transport secret).started x).1
          ((declaredEnd d transport secret).started x).2)
  | legacy {s : Relayed Secret Shared} {id : Nat} {secret : Secret} (hfresh : s.ends id = none) :
      RelayStep x ciphertext psk s (.legacy id secret)
        (s.put id ((legacyEnd secret).started x).1 ((legacyEnd secret).started x).2)
  | shake {s : Relayed Secret Shared} {id : Nat} {e : StreamEnd Secret Shared}
      {payload : Payload Shared} (he : s.ends id = some e) (hencrypt : e.encrypt = true)
      (hwaiting : e.relaying = false) (hopen : e.receiving = true)
      (hmake : s.CanMake psk payload) :
      RelayStep x ciphertext psk s (.shake id payload) (s.put id (e.shaken x payload) [])
  | read {s : Relayed Secret Shared} {id : Nat} {e : StreamEnd Secret Shared} {chunk : Bytes}
      (he : s.ends id = some e) (hrelaying : e.relaying = true) (hsending : e.sending = true) :
      RelayStep x ciphertext psk s (.read id chunk)
        (s.put id (e.produced chunk).1 (e.produced chunk).2)
  | deliver {s : Relayed Secret Shared} {id : Nat} {e : StreamEnd Secret Shared}
      {payload : Payload Shared} (he : s.ends id = some e) (hrelaying : e.relaying = true)
      (hreceiving : e.receiving = true) (hmake : s.CanMake psk payload) :
      RelayStep x ciphertext psk s (.deliver id payload)
        (s.put id (e.received ciphertext payload) [])
  | stop {s : Relayed Secret Shared} {id : Nat} {e : StreamEnd Secret Shared}
      {sending receiving : Bool} (he : s.ends id = some e) :
      RelayStep x ciphertext psk s (.stop id sending receiving)
        (s.put id { e with
          sending := e.sending && sending
          receiving := e.receiving && receiving } [])

def relaySys (x : X25519 Secret Shared) (ciphertext : Payload Shared → Bytes) (psk : String) :
    Sys (Relayed Secret Shared) (RelayAct Secret Shared) where
  init s := s = {}
  step := RelayStep x ciphertext psk

end

/-! ## What the key is for -/

section

variable {Secret Shared : Type} (x : X25519 Secret Shared) (psk : String)

/-- `e'` seals under the key `e` opens with. -/
def OtherSide (e e' : StreamEnd Secret Shared) : Prop :=
  ∃ session session', e.session = some session ∧ e'.session = some session' ∧
    session.opener.key = session'.sealer.key

/-- The key and nonce a frame was sealed with. -/
def nonceUse : Nat × Payload Shared → Option (SessionKey Shared × Bytes)
  | (_, .plain _) => none
  | (_, .sealed key nonce _) => some (key, nonce)

/-- Nothing but the handshake leaves a binder unsealed, what is delivered is
what the other side's socket produced, and no nonce is used twice. -/
structure EndToEnd (s : Relayed Secret Shared) : Prop where
  sealed : ∀ id e, s.ends id = some e → e.role = .initiator → e.psk = some psk →
    ∀ payload, (id, payload) ∈ s.wire → payload = .plain (e.handshake.frame x) ∨
      ∃ key nonce plaintext, payload = .sealed key nonce plaintext ∧ key.salt = psk
  delivered : ∀ id e, s.ends id = some e → e.psk = some psk → e.delivered = [] ∨
    ∃ id' e', s.ends id' = some e' ∧ e'.psk = some psk ∧ e'.role = e.role.other ∧
      OtherSide e e' ∧ e.delivered <+: e'.chunks.flatten
  nonces : ((s.wire.filterMap nonceUse).filter fun use => use.1.salt = psk).Nodup

/-- What the server is kept from. -/
def keyHonoured (s : Relayed Secret Shared) (a : RelayAct Secret Shared)
    (_ : Relayed Secret Shared) : Prop :=
  match a with
  | .accept _ view entry transport _ =>
    entry.psk = some psk → view.encrypt = true ∧ transport = .tcp
  | .shake id (.plain frame) => ∀ e, s.ends id = some e → e.psk = some psk →
    ∀ id' e' session', s.ends id' = some e' → e'.psk = some psk → e'.role = e.role →
      e'.session = some session' →
      session'.sealer.key.shared ≠ x.diffieHellman e.secret (frame.drop 4)
  | _ => True

end

end Aperio
