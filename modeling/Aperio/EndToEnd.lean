import Aperio.StreamEnds

/-!
# A pre-shared key against the server

`end_to_end` holds in every run in which two things do not happen: the
listing talks the binder out of encryption, and two ends of one role are
brought to one shared secret.

The invariant has a part about each end by itself, a part about what it has
sent, and one fact about all of them: no two ends with the key seal under
one directional key. Whatever opens then comes from one end, and its nonce
says which of that end's reads it is. Steps change one end at a time, so
each is a use of the frame rule `Relayed.Sound.put`.
-/

namespace Aperio

/-! ## What is kept of each end -/

section

variable {Secret Shared : Type} {x : X25519 Secret Shared} {psk : String}
  {e e' : StreamEnd Secret Shared} {payload : Payload Shared}

namespace StreamEnd

/-- What holds of an end by itself. -/
structure Sound (psk : String) (e : StreamEnd Secret Shared) : Prop where
  encrypted : e.psk = some psk → e.encrypt = true
  waiting : e.relaying = false → e.session = none ∧ e.chunks = [] ∧ e.delivered = []
  ready : e.encrypt = true → e.relaying = true → e.session ≠ none
  keys : ∀ session, e.session = some session → ∃ shared,
    session.sealer.key = ⟨e.handshake.salt, shared, e.role⟩ ∧
      session.opener.key = ⟨e.handshake.salt, shared, e.role.other⟩
  counted : ∀ session, e.session = some session → session.sealer.counter ≤ e.chunks.length ∧
    session.sealer.counter < 2 ^ 64 ∧ session.opener.counter < 2 ^ 64
  current : ∀ session, e.session = some session → e.sending = true →
    session.sealer.counter = e.chunks.length

/-- A frame the end has sent: in the clear its handshake at most, sealed a
read of its socket under the nonce of its place. -/
def Sent (x : X25519 Secret Shared) (psk : String) (e : StreamEnd Secret Shared) :
    Payload Shared → Prop
  | .plain bytes => e.psk = some psk → bytes = e.handshake.frame x
  | .sealed key nonce plaintext => ∃ session j, e.session = some session ∧
    session.sealer.key = key ∧ j < session.sealer.counter ∧ nonce = counterNonce j ∧
    e.chunks[j]? = some plaintext

/-- What an end has done stays done. -/
structure Grows (e e' : StreamEnd Secret Shared) : Prop where
  same : e'.handshake = e.handshake
  session : ∀ session, e.session = some session → ∃ session', e'.session = some session' ∧
    session'.sealer.key = session.sealer.key ∧
    session.sealer.counter ≤ session'.sealer.counter
  chunks : e.chunks <+: e'.chunks

theorem Grows.of_session (hsame : e'.handshake = e.handshake) (hsession : e'.session = e.session)
    (hchunks : e'.chunks = e.chunks) : e.Grows e' := by
  refine ⟨hsame, ?_, [], by rw [List.append_nil, hchunks]⟩
  intro session hs
  exact ⟨session, by rw [hsession]; exact hs, rfl, Nat.le_refl _⟩

theorem Sent.grows (h : e.Sent x psk payload) (hgrows : e.Grows e') : e'.Sent x psk payload := by
  cases payload with
  | plain bytes =>
      have hpsk : e'.psk = e.psk := congrArg Handshake.psk hgrows.same
      intro hkeyed
      rw [hgrows.same]
      exact h (by rw [← hpsk]; exact hkeyed)
  | sealed key nonce plaintext =>
      obtain ⟨session, j, hs, hkey, hj, hnonce, hchunk⟩ := h
      obtain ⟨session', hs', hkey', hcount⟩ := hgrows.session session hs
      refine ⟨session', j, hs', by rw [hkey', hkey], by omega, hnonce, ?_⟩
      obtain ⟨rest, hrest⟩ := hgrows.chunks
      rw [← hrest, List.getElem?_append_left]
      · exact hchunk
      · exact (List.getElem?_eq_some_iff.mp hchunk).1

/-- Whoever has a key derived with the pre-shared one holds it. -/
theorem Sound.keyed (h : e.Sound psk) (hpsk : psk ≠ "") {session : Session Shared}
    (hs : e.session = some session) (hsalt : session.sealer.key.salt = psk) :
    e.psk = some psk := by
  obtain ⟨shared, hkey, -⟩ := h.keys session hs
  rw [hkey] at hsalt
  have hsalt' : e.psk.getD "" = psk := hsalt
  cases hnone : e.psk with
  | none =>
      rw [hnone] at hsalt'
      exact absurd hsalt'.symm hpsk
  | some k =>
      rw [hnone] at hsalt'
      exact congrArg some hsalt'

theorem salt_of_keyed (h : e.psk = some psk) : e.handshake.salt = psk := by
  simp [Handshake.salt, handshake, h]

/-- An end that relays in the clear does not hold the key. -/
theorem Sound.unkeyed (h : e.Sound psk) (hs : e.session = none) (hrelaying : e.relaying = true) :
    e.psk ≠ some psk := by
  intro hk
  exact h.ready (h.encrypted hk) hrelaying hs

/-- A session moves on with its end. -/
theorem Sound.advanced {σ σ' : Session Shared} {chunks : List Bytes} {delivered : Bytes}
    (h : e.Sound psk) (hs : e.session = some σ) (hrelaying : e.relaying = true)
    (hsealer : σ'.sealer.key = σ.sealer.key) (hopener : σ'.opener.key = σ.opener.key)
    (hsealed : σ'.sealer.counter < 2 ^ 64) (hopened : σ'.opener.counter < 2 ^ 64)
    (hle : σ'.sealer.counter ≤ chunks.length)
    (hcurrent : e.sending = true → σ'.sealer.counter = chunks.length) :
    ({ e with session := some σ', chunks := chunks, delivered := delivered } :
      StreamEnd Secret Shared).Sound psk := by
  refine ⟨h.encrypted, ?_, fun _ _ => Option.some_ne_none _, ?_, ?_, ?_⟩
  · intro (hr : e.relaying = false)
    rw [hrelaying] at hr
    cases hr
  · intro τ hτ
    obtain ⟨shared, hkey, hkey'⟩ := h.keys σ hs
    cases hτ
    exact ⟨shared, by rw [hsealer, hkey]; rfl, by rw [hopener, hkey']; rfl⟩
  · intro τ hτ
    cases hτ
    exact ⟨hle, hsealed, hopened⟩
  · intro τ hτ
    cases hτ
    exact hcurrent

end StreamEnd

/-! ## What is kept of all of them -/

variable {s : Relayed Secret Shared} {id : Nat} {out : List (Payload Shared)}

namespace Relayed

/-- What has been opened are the first reads of whoever seals under the
key. -/
def Opened (s : Relayed Secret Shared) (opener : Opener Shared) (delivered : Bytes) : Prop :=
  delivered = [] ∧ opener.counter = 0 ∨
    ∃ id' e' session', s.ends id' = some e' ∧ e'.session = some session' ∧
      session'.sealer.key = opener.key ∧ opener.counter ≤ e'.chunks.length ∧
      delivered = (e'.chunks.take opener.counter).flatten

structure Sound (x : X25519 Secret Shared) (psk : String) (s : Relayed Secret Shared) : Prop where
  each : ∀ id e, s.ends id = some e → e.Sound psk
  sent : ∀ id payload, (id, payload) ∈ s.wire →
    ∃ e, s.ends id = some e ∧ e.Sent x psk payload
  single : ∀ id id' e e' session session', s.ends id = some e → s.ends id' = some e' →
    e.psk = some psk → e'.psk = some psk → e.session = some session →
    e'.session = some session' → session.sealer.key = session'.sealer.key → id = id'
  opened : ∀ id e session, s.ends id = some e → e.psk = some psk → e.session = some session →
    s.Opened session.opener e.delivered
  nonces : ((s.wire.filterMap nonceUse).filter fun use => use.1.salt = psk).Nodup

theorem put_self (s : Relayed Secret Shared) (id : Nat) (e : StreamEnd Secret Shared)
    (out : List (Payload Shared)) : (s.put id e out).ends id = some e :=
  Function.update_self ..

theorem put_other (s : Relayed Secret Shared) {id id' : Nat} (h : id' ≠ id)
    (e : StreamEnd Secret Shared) (out : List (Payload Shared)) :
    (s.put id e out).ends id' = s.ends id' :=
  Function.update_of_ne h ..

/-- An end of the new state is the one that was put there, or an old one. -/
theorem put_cases {id' : Nat} {f : StreamEnd Secret Shared}
    (h : (s.put id e out).ends id' = some f) : id' = id ∧ f = e ∨ id' ≠ id ∧ s.ends id' = some f := by
  by_cases hid : id' = id
  · rw [hid, put_self] at h
    exact Or.inl ⟨hid, (Option.some_inj.mp h).symm⟩
  · rw [put_other s hid] at h
    exact Or.inr ⟨hid, h⟩

/-- An old end has grown into one of the new state. -/
theorem exists_put (hgrows : ∀ f, s.ends id = some f → f.Grows e) {id' : Nat}
    {f : StreamEnd Secret Shared} (h : s.ends id' = some f) :
    ∃ f', (s.put id e out).ends id' = some f' ∧ f.Grows f' := by
  by_cases hid : id' = id
  · rw [hid] at h ⊢
    exact ⟨e, put_self .., hgrows f h⟩
  · exact ⟨f, by rw [put_other s hid]; exact h, StreamEnd.Grows.of_session rfl rfl rfl⟩

theorem Opened.put {opener : Opener Shared} {delivered : Bytes} (h : s.Opened opener delivered)
    (hgrows : ∀ f, s.ends id = some f → f.Grows e) :
    (s.put id e out).Opened opener delivered := by
  rcases h with hnone | ⟨id', f, session, hf, hs, hkey, hcount, hdelivered⟩
  · exact Or.inl hnone
  · obtain ⟨f', hf', hgrow⟩ := @exists_put _ _ _ _ _ out hgrows _ _ hf
    obtain ⟨session', hs', hkey', -⟩ := hgrow.session session hs
    obtain ⟨rest, hrest⟩ := hgrow.chunks
    refine Or.inr ⟨id', f', session', hf', hs', by rw [hkey', hkey], ?_, ?_⟩
    · rw [← hrest, List.length_append]
      omega
    · rw [hdelivered, ← hrest, List.take_append_of_le_length hcount]

/-- **Frame rule.** One end changes and sends: what it owes is about itself
and the frames it sends. -/
theorem Sound.put (h : s.Sound x psk) (hgrows : ∀ f, s.ends id = some f → f.Grows e)
    (heach : e.Sound psk) (hsent : ∀ payload ∈ out, e.Sent x psk payload)
    (hsingle : ∀ id' f session session', s.ends id' = some f → id' ≠ id → e.psk = some psk →
      f.psk = some psk → e.session = some session → f.session = some session' →
      session.sealer.key ≠ session'.sealer.key)
    (hopened : ∀ session, e.psk = some psk → e.session = some session →
      s.Opened session.opener e.delivered)
    (hnonces : ((((s.put id e out).wire).filterMap nonceUse).filter
      fun use => use.1.salt = psk).Nodup) : (s.put id e out).Sound x psk := by
  refine ⟨?_, ?_, ?_, ?_, hnonces⟩
  · intro id' f hf
    rcases put_cases hf with ⟨-, rfl⟩ | ⟨-, hf⟩
    · exact heach
    · exact h.each id' f hf
  · intro id' payload hmem
    rcases List.mem_append.mp hmem with hmem | hmem
    · obtain ⟨f, hf, hwas⟩ := h.sent id' payload hmem
      obtain ⟨f', hf', hgrow⟩ := exists_put hgrows hf
      exact ⟨f', hf', hwas.grows hgrow⟩
    · obtain ⟨p, hp, heq⟩ := List.mem_map.mp hmem
      cases heq
      exact ⟨e, put_self .., hsent payload hp⟩
  · intro id₁ id₂ f₁ f₂ session₁ session₂ hf₁ hf₂ hk₁ hk₂ hs₁ hs₂ hkey
    rcases put_cases hf₁ with ⟨hid₁, rfl⟩ | ⟨hne₁, hold₁⟩ <;>
      rcases put_cases hf₂ with ⟨hid₂, rfl⟩ | ⟨hne₂, hold₂⟩
    · rw [hid₁, hid₂]
    · exact absurd hkey (hsingle id₂ f₂ _ _ hold₂ hne₂ hk₁ hk₂ hs₁ hs₂)
    · exact absurd hkey.symm (hsingle id₁ f₁ _ _ hold₁ hne₁ hk₂ hk₁ hs₂ hs₁)
    · exact h.single id₁ id₂ f₁ f₂ session₁ session₂ hold₁ hold₂ hk₁ hk₂ hs₁ hs₂ hkey
  · intro id' f session hf hk hs
    rcases put_cases hf with ⟨-, rfl⟩ | ⟨-, hf⟩
    · exact (hopened session hk hs).put hgrows
    · exact (h.opened id' f session hf hk hs).put hgrows

/-- Frames in the clear use no nonce. -/
theorem nonces_put_plain (h : ∀ payload ∈ out, ∃ bytes, payload = Payload.plain bytes) :
    (s.put id e out).wire.filterMap nonceUse = s.wire.filterMap nonceUse := by
  have hnone : (out.map fun payload => (id, payload)).filterMap nonceUse = [] := by
    rw [List.filterMap_eq_nil_iff]
    intro use huse
    obtain ⟨payload, hpayload, rfl⟩ := List.mem_map.mp huse
    obtain ⟨bytes, rfl⟩ := h payload hpayload
    rfl
  rw [Relayed.put, List.filterMap_append, hnone, List.append_nil]

/-- A new end. -/
theorem Sound.started (h : s.Sound x psk) (hfresh : s.ends id = none)
    (hnew : e.session = none ∧ e.relaying = false ∧ e.chunks = [] ∧ e.delivered = [])
    (hkeyed : e.psk = some psk → e.encrypt = true) :
    (s.put id (e.started x).1 (e.started x).2).Sound x psk := by
  obtain ⟨hsession, hrelaying, hchunks, hdelivered⟩ := hnew
  have hgrows : ∀ f, s.ends id = some f → f.Grows (e.started x).1 := by
    intro f hf
    rw [hfresh] at hf
    cases hf
  have hnone : (e.started x).1.session = none := by
    unfold StreamEnd.started
    split <;> exact hsession
  have hplain : ∀ payload ∈ (e.started x).2, ∃ bytes, payload = Payload.plain bytes := by
    unfold StreamEnd.started
    split <;> simp
  refine h.put hgrows ?_ ?_ ?_ ?_ ?_
  · unfold StreamEnd.started
    split
    · rename_i hencrypt
      refine ⟨hkeyed, fun _ => ⟨hsession, hchunks, hdelivered⟩, ?_, ?_, ?_, ?_⟩
      · intro _ hr
        rw [hrelaying] at hr
        cases hr
      all_goals
        intro session hs
        rw [hsession] at hs
        cases hs
    · rename_i hencrypt
      refine ⟨hkeyed, fun hr => (by cases hr), fun he => absurd he hencrypt, ?_, ?_, ?_⟩
      all_goals
        intro session (hs : e.session = some session)
        rw [hsession] at hs
        cases hs
  · intro payload hmem
    unfold StreamEnd.started at hmem ⊢
    split at hmem
    · rename_i hencrypt
      rw [List.mem_singleton.mp hmem, if_pos hencrypt]
      intro _
      rfl
    · cases hmem
  · intro id' f session session' _ _ _ _ hs
    rw [hnone] at hs
    cases hs
  · intro session _ hs
    rw [hnone] at hs
    cases hs
  · rw [nonces_put_plain hplain]
    exact h.nonces

/-- An end changes without sending, and keeps its session and what it has
read. -/
theorem Sound.put_quiet (h : s.Sound x psk) (he : s.ends id = some e) (hgrows : e.Grows e')
    (heach : e'.Sound psk)
    (hsingle : ∀ id' f session session', s.ends id' = some f → id' ≠ id → e'.psk = some psk →
      f.psk = some psk → e'.session = some session → f.session = some session' →
      session.sealer.key ≠ session'.sealer.key)
    (hopened : ∀ session, e'.psk = some psk → e'.session = some session →
      s.Opened session.opener e'.delivered) : (s.put id e' []).Sound x psk := by
  refine h.put ?_ heach (fun payload hmem => absurd hmem List.not_mem_nil) hsingle hopened ?_
  · intro f hf
    rw [he] at hf
    cases hf
    exact hgrows
  · rw [nonces_put_plain (fun payload hmem => absurd hmem List.not_mem_nil)]
    exact h.nonces

/-- No other end seals under the key of one that is there. -/
theorem Sound.single_of_same (h : s.Sound x psk) (he : s.ends id = some e)
    (hsame : e'.psk = e.psk)
    (hkeys : ∀ session', e'.session = some session' → ∃ session, e.session = some session ∧
      session.sealer.key = session'.sealer.key) :
    ∀ id' f session session', s.ends id' = some f → id' ≠ id → e'.psk = some psk →
      f.psk = some psk → e'.session = some session → f.session = some session' →
      session.sealer.key ≠ session'.sealer.key := by
  intro id' f session session' hf hne hk hk' hs hs' hkey
  obtain ⟨old, hold, hsealer⟩ := hkeys session hs
  rw [hsame] at hk
  exact hne (h.single id id' e f old session' he hf hk hk' hold hs' (by rw [hsealer, hkey])).symm

/-- An end that keeps its session is read from, or stops. -/
theorem Sound.put_kept (h : s.Sound x psk) (he : s.ends id = some e) {chunks : List Bytes}
    {sending receiving : Bool} (hchunks : e.chunks <+: chunks)
    (hwaiting : e.relaying = false → chunks = e.chunks)
    (hsending : sending = true → e.sending = true ∧ chunks = e.chunks) :
    (s.put id { e with chunks := chunks, sending := sending, receiving := receiving } []).Sound
      x psk := by
  have hsound := h.each id e he
  refine h.put_quiet he ⟨rfl, fun σ hσ => ⟨σ, hσ, rfl, Nat.le_refl _⟩, hchunks⟩ ?_
    (h.single_of_same he rfl fun σ hσ => ⟨σ, hσ, rfl⟩)
    fun σ hk hσ => h.opened id e σ he hk hσ
  refine ⟨hsound.encrypted, ?_, hsound.ready, hsound.keys, ?_, ?_⟩
  · intro hr
    obtain ⟨hnone, hempty, hdelivered⟩ := hsound.waiting hr
    exact ⟨hnone, (hwaiting hr).trans hempty, hdelivered⟩
  · intro σ hσ
    obtain ⟨hle, hrest⟩ := hsound.counted σ hσ
    exact ⟨hle.trans hchunks.length_le, hrest⟩
  · intro σ hσ hstill
    obtain ⟨hwas, hsame⟩ := hsending hstill
    rw [hsound.current σ hσ hwas]
    exact congrArg List.length hsame.symm

/-- Whatever an end without a session relays is nobody's who has the key. -/
theorem Sound.put_clear (h : s.Sound x psk) (he : s.ends id = some e) (hs : e.session = none)
    (hrelaying : e.relaying = true) {chunks : List Bytes} {delivered : Bytes}
    (hchunks : e.chunks <+: chunks)
    (hplain : ∀ payload ∈ out, ∃ bytes, payload = Payload.plain bytes) :
    (s.put id { e with chunks := chunks, delivered := delivered } out).Sound x psk := by
  have hsound := h.each id e he
  have hclear := hsound.unkeyed hs hrelaying
  have hnone : ∀ σ, e.session ≠ some σ := by
    intro σ hσ
    rw [hs] at hσ
    cases hσ
  refine h.put ?_ ?_ ?_ (fun _ _ _ _ _ _ hk => absurd hk hclear)
    (fun _ hk => absurd hk hclear) ?_
  · intro f hf
    rw [he, Option.some_inj] at hf
    rw [← hf]
    exact ⟨rfl, fun σ hσ => absurd hσ (hnone σ), hchunks⟩
  · refine ⟨hsound.encrypted, ?_, hsound.ready, fun σ hσ => absurd hσ (hnone σ),
      fun σ hσ => absurd hσ (hnone σ), fun σ hσ => absurd hσ (hnone σ)⟩
    intro (hr : e.relaying = false)
    rw [hrelaying] at hr
    cases hr
  · intro payload hmem
    obtain ⟨bytes, rfl⟩ := hplain payload hmem
    exact fun hk => absurd hk hclear
  · rw [nonces_put_plain hplain]
    exact h.nonces

/-- The peer's handshake, when no other end of the role has its secret. -/
theorem Sound.shaken (h : s.Sound x psk) (he : s.ends id = some e) (hwaiting : e.relaying = false)
    (hcond : ∀ frame, payload = .plain frame → e.psk = some psk →
      ∀ id' e' session', s.ends id' = some e' → e'.psk = some psk → e'.role = e.role →
      e'.session = some session' →
      session'.sealer.key.shared ≠ x.diffieHellman e.secret (frame.drop 4)) :
    (s.put id (e.shaken x payload) []).Sound x psk := by
  have hsound := h.each id e he
  obtain ⟨hnone, hchunks, hdelivered⟩ := hsound.waiting hwaiting
  have hclosed : (s.put id { e with sending := false, receiving := false } []).Sound x psk :=
    h.put_kept he List.prefix_rfl (fun _ => rfl) fun hsending => (by cases hsending)
  cases payload with
  | sealed key nonce plaintext => exact hclosed
  | plain frame =>
      cases hcomplete : e.handshake.complete x frame with
      | none =>
          simp only [StreamEnd.shaken, hcomplete]
          exact hclosed
      | some session =>
          obtain ⟨hsealer, hopener⟩ := Handshake.complete_eq_some hcomplete
          simp only [StreamEnd.shaken, hcomplete]
          refine h.put_quiet he ⟨rfl, ?_, List.prefix_rfl⟩ ?_ ?_ ?_
          · intro old hold
            rw [hnone] at hold
            cases hold
          · refine ⟨hsound.encrypted, fun hr => (by cases hr), fun _ _ => Option.some_ne_none _,
              ?_, ?_, ?_⟩
            · intro σ hσ
              cases hσ
              exact ⟨_, by rw [hsealer]; rfl, by rw [hopener]; rfl⟩
            · intro σ hσ
              cases hσ
              rw [hsealer, hopener]
              exact ⟨Nat.zero_le _, Nat.two_pow_pos 64, Nat.two_pow_pos 64⟩
            · intro σ hσ _
              cases hσ
              rw [hsealer]
              exact (congrArg List.length hchunks).symm
          · intro id' f σ σ' hf hne hk hk' hσ hσ' hkey
            cases hσ
            obtain ⟨shared, hkey', -⟩ := (h.each id' f hf).keys σ' hσ'
            rw [hsealer, hkey'] at hkey
            have hrole : f.role = e.role := (congrArg SessionKey.sender hkey).symm
            refine hcond frame rfl hk id' f σ' hf hk' hrole hσ' ?_
            rw [hkey']
            exact (congrArg SessionKey.shared hkey).symm
          · intro σ hk hσ
            cases hσ
            left
            rw [hopener]
            exact ⟨hdelivered, rfl⟩

/-- A sealed frame uses one nonce more. -/
theorem nonces_put_sealed {key : SessionKey Shared} {nonce plaintext : Bytes}
    (h : ((s.wire.filterMap nonceUse).filter fun use => use.1.salt = psk).Nodup)
    (hnew : key.salt = psk → (key, nonce) ∉ s.wire.filterMap nonceUse) :
    (((s.put id e [.sealed key nonce plaintext]).wire.filterMap nonceUse).filter
      fun use => use.1.salt = psk).Nodup := by
  have hwire : (s.put id e [.sealed key nonce plaintext]).wire.filterMap nonceUse =
      s.wire.filterMap nonceUse ++ [(key, nonce)] := by
    simp [Relayed.put, nonceUse]
  rw [hwire, List.filter_append]
  by_cases hsalt : key.salt = psk
  · have hlast : [(key, nonce)].filter (fun use => use.1.salt = psk) = [(key, nonce)] := by
      simp [hsalt]
    rw [hlast, ← List.concat_eq_append]
    exact h.concat fun hmem => hnew hsalt (List.mem_filter.mp hmem).1
  · have hlast : [(key, nonce)].filter (fun use => use.1.salt = psk) = [] := by
      simp [hsalt]
    rw [hlast, List.append_nil]
    exact h

/-- The nonces used under a key are those of the places before its holder's
next one. -/
theorem Sound.used (h : s.Sound x psk) (hpsk : psk ≠ "") (he : s.ends id = some e)
    {σ : Session Shared} (hs : e.session = some σ) (hsalt : σ.sealer.key.salt = psk)
    {nonce : Bytes} (hmem : (σ.sealer.key, nonce) ∈ s.wire.filterMap nonceUse) :
    ∃ j < σ.sealer.counter, nonce = counterNonce j := by
  obtain ⟨⟨id', payload⟩, hwire, huse⟩ := List.mem_filterMap.mp hmem
  cases payload with
  | plain bytes => cases huse
  | sealed key n plaintext =>
      cases huse
      obtain ⟨f, hf, σ', j, hs', hkey, hj, hnonce, -⟩ := h.sent id' _ hwire
      have hk := (h.each id e he).keyed hpsk hs hsalt
      have hk' := (h.each id' f hf).keyed hpsk hs' (by rw [hkey]; exact hsalt)
      obtain rfl : id = id' := h.single id id' e f σ σ' he hf hk hk' hs hs' hkey.symm
      rw [he, Option.some_inj] at hf
      rw [← hf, hs, Option.some_inj] at hs'
      exact ⟨j, by rw [hs']; exact hj, hnonce⟩

/-- A read, sealed under a nonce nobody has used. -/
theorem Sound.put_sealed (h : s.Sound x psk) (hpsk : psk ≠ "") (he : s.ends id = some e)
    (hrelaying : e.relaying = true) (hsending : e.sending = true) {σ : Session Shared}
    (hs : e.session = some σ) (hroom : σ.sealer.counter + 1 < 2 ^ 64) (chunk : Bytes) :
    (s.put id
      { e with
        session := some { σ with sealer := { σ.sealer with counter := σ.sealer.counter + 1 } }
        chunks := e.chunks ++ [chunk] }
      [.sealed σ.sealer.key (counterNonce σ.sealer.counter) chunk]).Sound x psk := by
  have hsound := h.each id e he
  obtain ⟨-, hlt, hopen⟩ := hsound.counted σ hs
  have hcurrent := hsound.current σ hs hsending
  have hnext : σ.sealer.counter + 1 = (e.chunks ++ [chunk]).length := by
    rw [List.length_append, List.length_singleton, hcurrent]
  refine h.put ?_ ?_ ?_ (h.single_of_same he rfl ?_) ?_ ?_
  · intro f hf
    rw [he, Option.some_inj] at hf
    rw [← hf]
    refine ⟨rfl, ?_, List.prefix_append _ _⟩
    intro old hold
    rw [hs, Option.some_inj] at hold
    rw [← hold]
    exact ⟨_, rfl, rfl, Nat.le_succ _⟩
  · exact hsound.advanced hs hrelaying rfl rfl hroom hopen (Nat.le_of_eq hnext) fun _ => hnext
  · intro payload hmem
    rw [List.mem_singleton.mp hmem]
    refine ⟨_, σ.sealer.counter, rfl, rfl, Nat.lt_succ_self _, rfl, ?_⟩
    rw [hcurrent]
    exact List.getElem?_concat_length
  · intro τ hτ
    cases hτ
    exact ⟨σ, hs, rfl⟩
  · intro τ hk hτ
    cases hτ
    exact h.opened id e σ he hk hs
  · refine nonces_put_sealed h.nonces ?_
    intro hsalt hmem
    obtain ⟨j, hj, hnonce⟩ := h.used hpsk he hs hsalt hmem
    have hsame := counterNonce_inj hlt (hj.trans hlt) hnonce
    omega

/-- A read, sealed where there is a session. -/
theorem Sound.produced (h : s.Sound x psk) (hpsk : psk ≠ "") (he : s.ends id = some e)
    (hrelaying : e.relaying = true) (hsending : e.sending = true) (chunk : Bytes) :
    (s.put id (e.produced chunk).1 (e.produced chunk).2).Sound x psk := by
  cases hs : e.session with
  | none =>
      have hclear : e.produced chunk =
          ({ e with chunks := e.chunks ++ [chunk] }, [.plain chunk]) := by
        simp only [StreamEnd.produced, hs]
      rw [hclear]
      exact h.put_clear he hs hrelaying (List.prefix_append _ _)
        fun payload hmem => ⟨chunk, List.mem_singleton.mp hmem⟩
  | some σ =>
      cases hseal : σ.sealer.seal chunk with
      | none =>
          have hstop : e.produced chunk =
              ({ e with chunks := e.chunks ++ [chunk], sending := false }, []) := by
            simp only [StreamEnd.produced, hs, hseal]
          rw [hstop]
          refine h.put_kept he (List.prefix_append _ _) ?_ fun hstill => (by cases hstill)
          intro hr
          rw [hrelaying] at hr
          cases hr
      | some sealed =>
          obtain ⟨sealer, payload⟩ := sealed
          obtain ⟨hroom, rfl, rfl⟩ := Sealer.seal_eq_some.mp hseal
          simp only [StreamEnd.produced, hs, hseal]
          exact h.put_sealed hpsk he hrelaying hsending hs hroom chunk

/-- What opens under a key derived with the pre-shared one is the next read
of the one end that seals under it. -/
theorem Sound.opens (h : s.Sound x psk) (hpsk : psk ≠ "") (he : s.ends id = some e)
    (hk : e.psk = some psk) {σ : Session Shared} (hs : e.session = some σ)
    (hroom : σ.opener.counter + 1 < 2 ^ 64) {plaintext : Bytes}
    (hmake : s.CanMake psk (.sealed σ.opener.key (counterNonce σ.opener.counter) plaintext)) :
    s.Opened { σ.opener with counter := σ.opener.counter + 1 } (e.delivered ++ plaintext) := by
  have hsalt : σ.opener.key.salt = psk := by
    obtain ⟨shared, -, hkey⟩ := (h.each id e he).keys σ hs
    rw [hkey]
    exact StreamEnd.salt_of_keyed hk
  obtain ⟨id', hwire⟩ : ∃ id', (id', Payload.sealed σ.opener.key
      (counterNonce σ.opener.counter) plaintext) ∈ s.wire := by
    rcases hmake with hseen | hother | hempty
    · exact hseen
    · exact absurd hsalt hother
    · exact absurd (hsalt.symm.trans hempty) hpsk
  obtain ⟨f, hf, σ', j, hs', hkey, hj, hnonce, hchunk⟩ := h.sent id' _ hwire
  have hlt' := ((h.each id' f hf).counted σ' hs').2.1
  obtain rfl := counterNonce_inj (by omega) (by omega) hnonce
  have hk' := (h.each id' f hf).keyed hpsk hs' (by rw [hkey]; exact hsalt)
  -- The reads opened so far are the same end's.
  have hsofar : e.delivered = (f.chunks.take σ.opener.counter).flatten := by
    rcases h.opened id e σ he hk hs with ⟨hnone, hzero⟩ | ⟨id₂, f₂, σ₂, hf₂, hs₂, hkey₂, -, hall⟩
    · rw [hnone, hzero, List.take_zero, List.flatten_nil]
    · have hk₂ := (h.each id₂ f₂ hf₂).keyed hpsk hs₂ (by rw [hkey₂]; exact hsalt)
      obtain rfl := h.single id₂ id' f₂ f σ₂ σ' hf₂ hf hk₂ hk' hs₂ hs' (by rw [hkey₂, hkey])
      rw [hf₂, Option.some_inj] at hf
      rw [hall, hf]
  refine Or.inr ⟨id', f, σ', hf, hs', hkey, (List.getElem?_eq_some_iff.mp hchunk).1, ?_⟩
  rw [List.take_add_one, hchunk, List.flatten_append, hsofar]
  simp

/-- A frame from the server: what opens is the next read of the other
side. -/
theorem Sound.received [DecidableEq Shared] (h : s.Sound x psk) (hpsk : psk ≠ "")
    (he : s.ends id = some e) (hrelaying : e.relaying = true) (hmake : s.CanMake psk payload)
    (ciphertext : Payload Shared → Bytes) :
    (s.put id (e.received ciphertext payload) []).Sound x psk := by
  have hsound := h.each id e he
  cases hs : e.session with
  | none =>
      have hclear : e.received ciphertext payload =
          { e with delivered := e.delivered ++ ciphertext payload } := by
        simp only [StreamEnd.received, hs]
      rw [hclear]
      exact h.put_clear he hs hrelaying List.prefix_rfl
        fun payload hmem => absurd hmem List.not_mem_nil
  | some σ =>
      cases hopen : σ.opener.open payload with
      | none =>
          have hstop : e.received ciphertext payload = { e with receiving := false } := by
            simp only [StreamEnd.received, hs, hopen]
          rw [hstop]
          exact h.put_kept he List.prefix_rfl (fun _ => rfl) fun hstill => ⟨hstill, rfl⟩
      | some opened =>
          obtain ⟨opener, plaintext⟩ := opened
          obtain ⟨hroom, rfl, rfl⟩ := Opener.open_eq_some.mp hopen
          obtain ⟨hle, hlt, -⟩ := hsound.counted σ hs
          simp only [StreamEnd.received, hs, hopen]
          refine h.put_quiet he ⟨rfl, ?_, List.prefix_rfl⟩ ?_ (h.single_of_same he rfl ?_) ?_
          · intro old hold
            rw [hs, Option.some_inj] at hold
            rw [← hold]
            exact ⟨_, rfl, rfl, Nat.le_refl _⟩
          · exact hsound.advanced hs hrelaying rfl rfl hlt hroom hle (hsound.current σ hs)
          · intro τ hτ
            cases hτ
            exact ⟨σ, hs, rfl⟩
          · intro τ hk hτ
            cases hτ
            exact h.opens hpsk he hk hs hroom hmake

end Relayed

/-! ## Every run -/

/-- A declared tunnel with a key is relayed sealed. -/
theorem relayUnder_keyed {raw tunnels : List LocalTunnel} {transport : Transport}
    {target : String} {d : LocalTunnel} (hvalid : validateTunnels raw = .ok tunnels)
    (hfound : relayUnder transport tunnels target = some d) (hkeyed : d.psk = some psk) :
    d.encrypt = true ∧ transport = .tcp := by
  have hok := (validateTunnels_ok hvalid).1 d (List.mem_of_find?_eq_some hfound)
  have hencrypt := hok.keyed (by rw [hkeyed]; rfl)
  have hserves : protocolServes d.protocol transport.text = true := by
    have hpred := List.find?_some hfound
    simp only [Bool.and_eq_true] at hpred
    exact hpred.2
  rw [hok.sealed hencrypt] at hserves
  refine ⟨hencrypt, ?_⟩
  cases transport with
  | tcp => rfl
  | udp => exact absurd hserves (by decide)

theorem Relayed.Sound.endToEnd (h : s.Sound x psk) (hpsk : psk ≠ "") : EndToEnd x psk s := by
  refine ⟨?_, ?_, h.nonces⟩
  · intro id e he _ hk payload hmem
    obtain ⟨f, hf, hsent⟩ := h.sent id payload hmem
    rw [he, Option.some_inj] at hf
    rw [← hf] at hsent
    cases payload with
    | plain bytes => exact Or.inl (by rw [hsent hk])
    | sealed key nonce plaintext =>
        obtain ⟨σ, j, hs, hkey, -⟩ := hsent
        obtain ⟨shared, hsealer, -⟩ := (h.each id e he).keys σ hs
        refine Or.inr ⟨key, nonce, plaintext, rfl, ?_⟩
        rw [← hkey, hsealer]
        exact StreamEnd.salt_of_keyed hk
  · intro id e he hk
    cases hs : e.session with
    | none =>
        have hsound := h.each id e he
        left
        cases hr : e.relaying with
        | false => exact (hsound.waiting hr).2.2
        | true => exact absurd hs (hsound.ready (hsound.encrypted hk) hr)
    | some σ =>
        obtain ⟨shared, -, hopener⟩ := (h.each id e he).keys σ hs
        rcases h.opened id e σ he hk hs with ⟨hnone, -⟩ | ⟨id', f, σ', hf, hs', hkey, -, hall⟩
        · exact Or.inl hnone
        · obtain ⟨shared', hsealer, -⟩ := (h.each id' f hf).keys σ' hs'
          have hsalt : σ'.sealer.key.salt = psk := by
            rw [hkey, hopener]
            exact StreamEnd.salt_of_keyed hk
          have hrole : f.role = e.role.other := by
            rw [hsealer, hopener] at hkey
            exact congrArg SessionKey.sender hkey
          refine Or.inr ⟨id', f, hf, (h.each id' f hf).keyed hpsk hs' hsalt, hrole,
            ⟨σ, σ', hs, hs', hkey.symm⟩, ?_⟩
          obtain ⟨rest, hrest⟩ := List.take_prefix σ.opener.counter f.chunks
          exact ⟨rest.flatten, by rw [hall, ← List.flatten_append, hrest]⟩

variable [DecidableEq Shared] {ciphertext : Payload Shared → Bytes} {s' : Relayed Secret Shared}
  {a : RelayAct Secret Shared}

/-- **Step lemma.** -/
theorem step_sealed (hpsk : psk ≠ "") (hstep : RelayStep x ciphertext psk s a s')
    (hcond : keyHonoured x psk s a s') (h : s.Sound x psk) : s'.Sound x psk := by
  cases hstep with
  | @accept id view entry fallback b transport secret hfresh hbind hserves =>
      refine h.started hfresh ⟨rfl, rfl, rfl, rfl⟩ ?_
      intro (hk : b.psk = some psk)
      obtain ⟨-, -, -, hencrypt, hentry⟩ := bindingForView_ok hbind
      obtain ⟨hview, htcp⟩ := hcond (by rw [← hentry]; exact hk)
      simp only [binderEnd, hencrypt, hview, htcp]
      decide
  | @dial id raw tunnels transport target d secret hfresh hvalid hfound =>
      refine h.started hfresh ⟨rfl, rfl, rfl, rfl⟩ ?_
      intro (hk : d.psk = some psk)
      obtain ⟨hencrypt, htcp⟩ := relayUnder_keyed hvalid hfound hk
      simp only [declaredEnd, hencrypt, htcp]
      decide
  | legacy hfresh =>
      refine h.started hfresh ⟨rfl, rfl, rfl, rfl⟩ ?_
      intro hk
      cases hk
  | @shake id e payload he hencrypt hwaiting hopen hmake =>
      refine h.shaken he hwaiting ?_
      rintro frame rfl hk id' e' session' he' hk' hrole hs'
      exact hcond e he hk id' e' session' he' hk' hrole hs'
  | read he hrelaying hsending =>
      exact h.produced hpsk he hrelaying hsending _
  | deliver he hrelaying hreceiving hmake =>
      exact h.received hpsk he hrelaying hmake ciphertext
  | @stop id e sending receiving he =>
      refine h.put_kept he List.prefix_rfl (fun _ => rfl) ?_
      intro hstill
      exact ⟨(Bool.and_eq_true_iff.mp hstill).1, rfl⟩

/-- **End to end.** In every run in which the key is honoured, whatever else
the server does. -/
theorem end_to_end (hpsk : psk ≠ "")
    (h : ((relaySys x ciphertext psk).restrict (keyHonoured x psk)).Reachable s) :
    EndToEnd x psk s := by
  have hsound : s.Sound x psk := by
    refine h.invariant ?_ ?_
    · intro s hs
      have hs' : s = {} := hs
      rw [hs']
      refine ⟨fun id e he => (by cases he), fun id payload hmem => absurd hmem List.not_mem_nil,
        fun id id' e e' σ σ' he => (by cases he), fun id e σ he => (by cases he), ?_⟩
      exact List.nodup_nil
    · intro s a s' _ hsound hstep
      exact step_sealed hpsk hstep.1 hstep.2 hsound
  exact hsound.endToEnd hpsk

end

/-! ## Three runs -/

/-- A key exchange small enough to run: both sides multiply. -/
def smallExchange : X25519 Nat Nat where
  publicKey n := List.replicate 31 0 ++ [UInt8.ofNat n]
  diffieHellman n key := n * (key.getLastD 0).toNat

def smallRun : Sys (Relayed Nat Nat) (RelayAct Nat Nat) :=
  relaySys smallExchange (fun _ => []) "secret"

/-- `pg`, as the server lists it. -/
def listedPg (encrypt : Bool) : TunnelView where
  name := "pg"
  protocol := "tcp"
  target := "10.0.0.1:5432"
  encrypt := encrypt

def pskEntry : BindEntry where
  psk := some "secret"

/-- The binding of `pg` with a pre-shared key. -/
def pskBinding (encrypt : Bool) : Binding where
  name := "pg"
  decl := { pgTunnel "10.0.0.1:5432" with encrypt := encrypt }
  label := "tunnel pg"
  address := "127.0.0.1"
  port := 5432
  token := "t"
  psk := some "secret"

theorem bind_listedPg (encrypt : Bool) :
    bindingForView (listedPg encrypt) pskEntry (some "t") = .ok (pskBinding encrypt) := by
  cases encrypt <;> rfl

/-- The binder's end, as the server lists the tunnel. -/
def pskBinder (encrypt : Bool) (secret : Nat) : StreamEnd Nat Nat :=
  binderEnd (pskBinding encrypt) .tcp secret

/-- `pg` where it is declared, with the same key. -/
def pskTunnel : LocalTunnel :=
  { pgTunnel "10.0.0.1:5432" with encrypt := true, psk := some "secret" }

section

variable {cond : Relayed Nat Nat → RelayAct Nat Nat → Relayed Nat Nat → Prop}
  {s : Relayed Nat Nat} {id : Nat} {e : StreamEnd Nat Nat}

theorem reachable_accept (h : (smallRun.restrict cond).Reachable s) (hfresh : s.ends id = none)
    {encrypt : Bool} {secret : Nat}
    (hcond : ∀ s', cond s (.accept id (listedPg encrypt) pskEntry .tcp secret) s') :
    (smallRun.restrict cond).Reachable
      (s.put id ((pskBinder encrypt secret).started smallExchange).1
        ((pskBinder encrypt secret).started smallExchange).2) :=
  h.step ⟨RelayStep.accept hfresh (bind_listedPg encrypt) (by cases encrypt <;> decide), hcond _⟩

theorem reachable_dial (h : (smallRun.restrict cond).Reachable s) (hfresh : s.ends id = none)
    {secret : Nat}
    (hcond : ∀ s', cond s (.dial id [pskTunnel] .tcp "10.0.0.1:5432" secret) s') :
    (smallRun.restrict cond).Reachable
      (s.put id ((declaredEnd pskTunnel .tcp secret).started smallExchange).1
        ((declaredEnd pskTunnel .tcp secret).started smallExchange).2) := by
  have hvalid : validateTunnels [pskTunnel] = .ok [pskTunnel] := rfl
  exact h.step ⟨RelayStep.dial hfresh hvalid rfl, hcond _⟩

theorem reachable_shake (h : (smallRun.restrict cond).Reachable s) (he : s.ends id = some e)
    (hencrypt : e.encrypt = true) (hwaiting : e.relaying = false) (hopen : e.receiving = true)
    {frame : Bytes} (hcond : ∀ s', cond s (.shake id (.plain frame)) s') :
    (smallRun.restrict cond).Reachable (s.put id (e.shaken smallExchange (.plain frame)) []) :=
  h.step ⟨RelayStep.shake he hencrypt hwaiting hopen trivial, hcond _⟩

theorem reachable_read (h : (smallRun.restrict cond).Reachable s) (he : s.ends id = some e)
    (hrelaying : e.relaying = true) (hsending : e.sending = true) {chunk : Bytes}
    (hcond : ∀ s', cond s (.read id chunk) s') :
    (smallRun.restrict cond).Reachable
      (s.put id (e.produced chunk).1 (e.produced chunk).2) :=
  h.step ⟨RelayStep.read he hrelaying hsending, hcond _⟩

theorem reachable_deliver (h : (smallRun.restrict cond).Reachable s) (he : s.ends id = some e)
    (hrelaying : e.relaying = true) (hreceiving : e.receiving = true) {payload : Payload Nat}
    (hmake : s.CanMake "secret" payload) (hcond : ∀ s', cond s (.deliver id payload) s') :
    (smallRun.restrict cond).Reachable (s.put id (e.received (fun _ => []) payload) []) :=
  h.step ⟨RelayStep.deliver he hrelaying hreceiving hmake, hcond _⟩

end

/-- A tunnel with the key on both sides: what one socket produces the other
is delivered. -/
theorem end_to_end_once : ∃ s e, s.ends 1 = some e ∧ e.delivered = [7] ∧
    EndToEnd smallExchange "secret" s := by
  have h0 : (smallRun.restrict (keyHonoured smallExchange "secret")).Reachable {} := .init rfl
  have h1 := @reachable_accept _ _ 0 h0 rfl true 2 fun _ _ => ⟨rfl, rfl⟩
  have h2 := @reachable_dial _ _ 1 h1 rfl 3 fun _ => trivial
  have h3 := @reachable_shake _ _ 0 _ h2 rfl rfl rfl rfl
    ((declaredEnd pskTunnel .tcp 3 : StreamEnd Nat Nat).handshake.frame smallExchange) (by
      intro _ e he hk id' e' σ' he' hk' hrole hs'
      rcases Relayed.put_cases he' with ⟨-, rfl⟩ | ⟨-, he'⟩
      · cases hs'
      · rcases Relayed.put_cases he' with ⟨-, rfl⟩ | ⟨-, he'⟩
        · cases hs'
        · cases he')
  have h4 := @reachable_shake _ _ 1 _ h3 rfl rfl rfl rfl
    ((pskBinder true 2).handshake.frame smallExchange) (by
      intro _ e he hk id' e' σ' he' hk' hrole hs'
      cases he
      rcases Relayed.put_cases he' with ⟨-, rfl⟩ | ⟨-, he'⟩
      · cases hrole
      · rcases Relayed.put_cases he' with ⟨-, rfl⟩ | ⟨-, he'⟩
        · cases hs'
        · rcases Relayed.put_cases he' with ⟨-, rfl⟩ | ⟨-, he'⟩
          · cases hs'
          · cases he')
  have h5 := @reachable_read _ _ 0 _ h4 rfl rfl rfl [7] fun _ => trivial
  have h6 := @reachable_deliver _ _ 1 _ h5 rfl rfl rfl
    (.sealed ⟨"secret", 6, .initiator⟩ (counterNonce 0) [7]) (Or.inl ⟨0, by decide⟩) fun _ => trivial
  exact ⟨_, _, rfl, rfl, end_to_end (by decide) h6⟩

/-- The server lists the tunnel as a plain one, and the first read leaves in
the clear. -/
theorem downgraded_in_clear : ∃ s, smallRun.Reachable s ∧ (0, Payload.plain [7]) ∈ s.wire ∧
    ¬EndToEnd smallExchange "secret" s := by
  have h0 : (smallRun.restrict fun _ _ _ => True).Reachable {} := .init rfl
  have h1 := @reachable_accept _ _ 0 h0 rfl false 2 fun _ => trivial
  have h2 := @reachable_read _ _ 0 _ h1 (Relayed.put_self ..) rfl rfl [7] fun _ => trivial
  refine ⟨_, h2.of_restrict, List.mem_singleton_self _, ?_⟩
  intro h
  rcases h.sealed 0 _ (Relayed.put_self ..) rfl rfl _ (List.mem_singleton_self _) with
    hframe | ⟨key, nonce, plaintext, heq, -⟩
  · exact absurd hframe (by decide)
  · cases heq

end Aperio
