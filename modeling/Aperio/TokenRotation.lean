import Mathlib.Data.List.Nodup
import Mathlib.Logic.Function.Basic
import Aperio.Run
import Aperio.TokenStore

/-!
# Rotating a token's secret

`TokenStore::verify` of `store/tokens.rs` beside the operations that move a
token's secret and its lifetime. A row remembers two hashes and a deadline for
the older one. Here every secret a token ever had is written down next to the
store, and the rows are shown to answer as that list says.

`hash` is taken to keep secrets apart, and secrets and ids to be new ones, as
`Uuid::new_v4` makes them.
-/

namespace Aperio

/-! ## Verifying -/

def ApiToken.prevSecretValid (token : ApiToken) (now : Nat) : Bool :=
  token.prevTokenHash.isSome && token.prevExpiresAt.any (now < ·)

/-- The test of `verify` on one row. -/
def ApiToken.accepts (token : ApiToken) (hash : String → String) (secret : String)
    (now : Nat) : Bool :=
  if token.isExpired now then false
  else token.tokenHash == hash secret ||
    (token.prevSecretValid now && token.prevTokenHash.any (· == hash secret))

def Tokens.verify (tokens : Tokens) (hash : String → String) (secret : String) (now : Nat) :
    Option ApiToken :=
  tokens.find? (·.accepts hash secret now)

/-! ## The steps -/

/-- The store with what it does not keep: every secret and id there has been,
the secrets of each token, newest first, and when it was last rotated and with
how much grace. -/
structure RotationState where
  table : TokenTable := .load []
  now : Nat := 0
  minted : List String := []
  ids : List String := []
  history : String → List String := fun _ => []
  rotations : String → Option (Nat × Nat) := fun _ => none

inductive RotationAct where
  | tick (now : Nat)
  | create (spec : TokenSpec) (id secret : String) (saved : Bool)
  | rotate (id secret : String) (graceSeconds : Nat) (saved : Bool)
  | refresh (secret : String) (saved : Bool)
  | update (id : String) (patch : TokenPatch) (saved : Bool)
  | revoke (id : String) (saved : Bool)

/-- The clock does not go back, and what is new is new. -/
def RotationAct.Fits (s : RotationState) : RotationAct → Prop
  | .tick now => s.now ≤ now
  | .create _ id secret _ => id ∉ s.ids ∧ secret ∉ s.minted
  | .rotate _ secret _ _ => secret ∉ s.minted
  | _ => True

namespace RotationState

variable (hash : String → String) (s : RotationState)

def next : RotationAct → RotationState
  | .tick now => { s with now := now }
  | .create spec id secret saved =>
    let out := TokenTable.create hash s.table saved id spec secret s.now
    { s with
      table := out.2
      minted := secret :: s.minted
      ids := id :: s.ids
      history :=
        if out.1.toOption.isSome then Function.update s.history id [secret] else s.history }
  | .rotate id secret graceSeconds saved =>
    let out := TokenTable.rotate hash s.table saved id secret graceSeconds s.now
    { s with
      table := out.2
      minted := secret :: s.minted
      history :=
        if out.1.toOption.isSome then Function.update s.history id (secret :: s.history id)
        else s.history
      rotations :=
        if out.1.toOption.isSome then
          Function.update s.rotations id (some (s.now, graceSeconds))
        else s.rotations }
  | .refresh secret saved =>
    { s with table := (TokenTable.refresh hash s.table saved secret s.now).2 }
  | .update id patch saved =>
    { s with table := (TokenTable.update s.table saved id patch s.now).2 }
  | .revoke id saved => { s with table := (TokenTable.revoke s.table saved id).2 }

def verify (secret : String) : Option ApiToken :=
  Tokens.verify s.table.memory hash secret s.now

/-- The token's secret, or the one before its last rotation while the grace of
that rotation has not run out. -/
def Holds (token : ApiToken) (secret : String) : Prop :=
  (s.history token.id)[0]? = some secret ∨
    (s.history token.id)[1]? = some secret ∧
      ∃ at' graceSeconds, s.rotations token.id = some (at', graceSeconds) ∧
        s.now < deadline at' graceSeconds

end RotationState

/-- The runs from a state on. -/
def Sys.onwards {σ α : Type*} (S : Sys σ α) (s : σ) : Sys σ α where
  init s' := s' = s
  step := S.step

/-- Every order of operations, starting with an empty store. -/
def rotationSys (hash : String → String) : Sys RotationState RotationAct where
  init s := s = {}
  step s a s' := a.Fits s ∧ s' = s.next hash a

structure RotationState.Law (hash : String → String) (s : RotationState) : Prop where
  verify : ∀ secret token, s.verify hash secret = some token ↔
    token ∈ s.table.memory ∧ token.isExpired s.now = false ∧ s.Holds token secret
  single : ∀ secret, ∀ t ∈ s.table.memory, ∀ t' ∈ s.table.memory,
    t.accepts hash secret s.now = true → t'.accepts hash secret s.now = true → t = t'
  older : ∀ id, ∀ secret ∈ (s.history id).drop 2, s.verify hash secret = none

/-! ## Lists of rows -/

namespace Tokens

variable {tokens : Tokens} {id : String} {f : ApiToken → ApiToken} {t : ApiToken}

theorem map_id_modify (hf : ∀ t, (f t).id = t.id) :
    (tokens.modify id f).map (·.id) = tokens.map (·.id) := by
  induction tokens with
  | nil => rfl
  | cons x rest ih =>
      rw [modify]
      split
      · simp [hf]
      · simp [ih]

/-- Where ids are distinct, a row of the rewritten list has another id and was
there, or is the one that was rewritten. -/
theorem mem_modify_of_nodup (hids : (tokens.map (·.id)).Nodup) (h : t ∈ tokens.modify id f) :
    t ∈ tokens ∧ t.id ≠ id ∨ ∃ t₀ ∈ tokens, t₀.id = id ∧ t = f t₀ := by
  induction tokens with
  | nil => cases h
  | cons x rest ih =>
      obtain ⟨hx, hrest⟩ := List.nodup_cons.mp hids
      rw [modify] at h
      split at h
      · rename_i hid
        have hxid : x.id = id := by simpa using hid
        rcases List.mem_cons.mp h with rfl | hmem
        · exact .inr ⟨x, List.mem_cons_self, hxid, rfl⟩
        · refine .inl ⟨List.mem_cons_of_mem _ hmem, fun heq => hx ?_⟩
          show x.id ∈ rest.map (·.id)
          rw [hxid, ← heq]
          exact List.mem_map_of_mem hmem
      · rename_i hid
        rcases List.mem_cons.mp h with rfl | hmem
        · exact .inl ⟨List.mem_cons_self, by simpa using hid⟩
        · rcases ih hrest hmem with ⟨hold, hne⟩ | ⟨t₀, ht₀, hid₀, rfl⟩
          · exact .inl ⟨List.mem_cons_of_mem _ hold, hne⟩
          · exact .inr ⟨t₀, List.mem_cons_of_mem _ ht₀, hid₀, rfl⟩

theorem eq_of_id {t' : ApiToken} (hids : (tokens.map (·.id)).Nodup) (ht : t ∈ tokens)
    (ht' : t' ∈ tokens) (hid : t.id = t'.id) : t = t' :=
  List.inj_on_of_nodup_map hids ht ht' hid

variable {hash : String → String} {secret : String} {now : Nat}

theorem verify_eq_some (hsingle : ∀ t ∈ tokens, ∀ t' ∈ tokens,
      t.accepts hash secret now = true → t'.accepts hash secret now = true → t = t') :
    tokens.verify hash secret now = some t ↔
      t ∈ tokens ∧ t.accepts hash secret now = true := by
  constructor
  · intro h
    have hfind : tokens.find? (fun token => token.accepts hash secret now) = some t := h
    exact ⟨List.mem_of_find?_eq_some hfind, (List.find?_eq_some_iff_append.mp hfind).1⟩
  · rintro ⟨ht, haccepts⟩
    rw [verify]
    cases hfind : tokens.find? (·.accepts hash secret now) with
    | none => exact absurd haccepts (List.find?_eq_none.mp hfind t ht)
    | some t' =>
        have hmem := List.mem_of_find?_eq_some hfind
        rw [hsingle t' hmem t ht (List.find?_eq_some_iff_append.mp hfind).1 haccepts]

end Tokens

/-- Where the first hit stands. -/
theorem getElem?_of_find {α : Type} {p : α → Bool} {l : List α} {i : Nat} {a : α}
    (hpos : l.findIdx? p = some i) (hfind : l.find? p = some a) : l[i]? = some a := by
  induction l generalizing i with
  | nil => cases hfind
  | cons x rest ih =>
      rw [List.findIdx?_cons] at hpos
      rw [List.find?_cons] at hfind
      cases hx : p x with
      | true =>
          rw [hx] at hpos hfind
          obtain rfl : 0 = i := by simpa using hpos
          simpa using hfind
      | false =>
          rw [hx] at hpos hfind
          obtain ⟨j, hj, rfl⟩ : ∃ j, rest.findIdx? p = some j ∧ j + 1 = i := by
            simpa using hpos
          simpa using ih hj hfind

/-! ## What the rows remember -/

namespace RotationState

variable {hash : String → String} {s s' : RotationState}

/-- The two hashes of a row are those of the first two secrets, and its
deadline is the last rotation's. -/
structure RowKept (hash : String → String) (s : RotationState) (t : ApiToken) : Prop where
  current : ∃ secret older, s.history t.id = secret :: older ∧ t.tokenHash = hash secret
  none : t.prevTokenHash = none → (s.history t.id).length ≤ 1 ∨
    ∃ at', s.rotations t.id = some (at', 0) ∧ at' ≤ s.now
  some : ∀ h, t.prevTokenHash = some h → ∃ prev at' graceSeconds,
    (s.history t.id)[1]? = some prev ∧ h = hash prev ∧
      s.rotations t.id = some (at', graceSeconds) ∧
      t.prevExpiresAt = some (deadline at' graceSeconds)

structure Kept (hash : String → String) (s : RotationState) : Prop where
  ids : (s.table.memory.map (·.id)).Nodup
  known : ∀ t ∈ s.table.memory, t.id ∈ s.ids
  unborn : ∀ id, id ∉ s.ids → s.history id = []
  rows : ∀ t ∈ s.table.memory, s.RowKept hash t
  minted : ∀ id, ∀ secret ∈ s.history id, secret ∈ s.minted
  owner : ∀ id id', ∀ secret ∈ s.history id, secret ∈ s.history id' → id = id'
  distinct : ∀ id, (s.history id).Nodup

/-- A row answers as its history says. -/
theorem RowKept.accepts_iff {t : ApiToken} (h : s.RowKept hash t)
    (hinj : Function.Injective hash) (secret : String) :
    t.accepts hash secret s.now = true ↔
      t.isExpired s.now = false ∧ s.Holds t secret := by
  obtain ⟨current, older, hhist, hhash⟩ := h.current
  have hcurrent : t.tokenHash = hash secret ↔ (s.history t.id)[0]? = Option.some secret := by
    rw [hhash, hhist, List.getElem?_cons_zero, hinj.eq_iff, Option.some.injEq]
  have hprevious : (t.prevSecretValid s.now = true ∧ t.prevTokenHash = Option.some (hash secret)) ↔
      (s.history t.id)[1]? = Option.some secret ∧ ∃ at' graceSeconds,
        s.rotations t.id = Option.some (at', graceSeconds) ∧ s.now < deadline at' graceSeconds := by
    cases hprev : t.prevTokenHash with
    | none =>
        refine ⟨nofun, fun ⟨hold, at', grace, hrot, hopen⟩ => ?_⟩
        rcases h.none hprev with hshort | ⟨at'', hrot', hle⟩
        · rw [List.getElem?_eq_none hshort] at hold
          cases hold
        · rw [hrot'] at hrot
          cases hrot
          exact absurd (lt_of_lt_of_le hopen (min_le_left _ _)) (Nat.not_lt_of_le hle)
    | some hp =>
        obtain ⟨prev, at', grace, hold, rfl, hrot, hexp⟩ := h.some hp hprev
        have hvalid : t.prevSecretValid s.now = true ↔ s.now < deadline at' grace := by
          simp [ApiToken.prevSecretValid, hprev, hexp]
        rw [hvalid, Option.some.injEq, hinj.eq_iff, hold, Option.some.injEq]
        constructor
        · rintro ⟨hopen, rfl⟩
          exact ⟨rfl, at', grace, hrot, hopen⟩
        · rintro ⟨rfl, at'', grace', hrot', hopen⟩
          rw [hrot] at hrot'
          cases hrot'
          exact ⟨hopen, rfl⟩
  rw [ApiToken.accepts]
  cases t.isExpired s.now with
  | true => simp
  | false =>
      simp only [Bool.false_eq_true, if_false, Bool.or_eq_true, beq_iff_eq, Bool.and_eq_true,
        true_and, Holds, ← hcurrent, ← hprevious]
      refine or_congr_right (and_congr_right fun _ => ?_)
      cases t.prevTokenHash with
      | none => simp
      | some hp => simp

/-- A secret that is held is one of the token's. -/
theorem Holds.mem {t : ApiToken} {secret : String} (h : s.Holds t secret) :
    secret ∈ s.history t.id := by
  rcases h with h | ⟨h, -⟩
  · exact List.mem_of_getElem? h
  · exact List.mem_of_getElem? h

theorem Kept.single (h : s.Kept hash) (hinj : Function.Injective hash) (secret : String) :
    ∀ t ∈ s.table.memory, ∀ t' ∈ s.table.memory, t.accepts hash secret s.now = true →
      t'.accepts hash secret s.now = true → t = t' := by
  intro t ht t' ht' haccepts haccepts'
  have hown := (((h.rows t ht).accepts_iff hinj secret).mp haccepts).2.mem
  have hown' := (((h.rows t' ht').accepts_iff hinj secret).mp haccepts').2.mem
  exact Tokens.eq_of_id h.ids ht ht' (h.owner _ _ secret hown hown')

/-- A secret after the second is not one of the first two. -/
theorem not_older {l : List String} (hl : l.Nodup) {secret : String} (h : secret ∈ l.drop 2) :
    l[0]? ≠ some secret ∧ l[1]? ≠ some secret := by
  match l, hl with
  | [], _ => cases h
  | [_], _ => cases h
  | x :: y :: rest, hl =>
      obtain ⟨hx, hrest⟩ := List.nodup_cons.mp hl
      obtain ⟨hy, -⟩ := List.nodup_cons.mp hrest
      have hmem : secret ∈ rest := h
      refine ⟨fun heq => hx ?_, fun heq => hy ?_⟩
      · have hxs : x = secret := by simpa using heq
        rw [hxs]
        exact List.mem_cons_of_mem _ hmem
      · have hys : y = secret := by simpa using heq
        rw [hys]
        exact hmem

theorem Kept.law (h : s.Kept hash) (hinj : Function.Injective hash) : s.Law hash := by
  have hverify : ∀ secret t, s.verify hash secret = some t ↔
      t ∈ s.table.memory ∧ t.isExpired s.now = false ∧ s.Holds t secret := by
    intro secret t
    rw [verify, Tokens.verify_eq_some (h.single hinj secret)]
    exact and_congr_right fun ht => (h.rows t ht).accepts_iff hinj secret
  refine ⟨hverify, h.single hinj, fun id secret hmem => ?_⟩
  cases hfound : s.verify hash secret with
  | none => rfl
  | some t =>
      obtain ⟨-, -, hholds⟩ := (hverify secret t).mp hfound
      obtain rfl := h.owner _ _ secret hholds.mem (List.mem_of_mem_drop hmem)
      obtain ⟨hfirst, hsecond⟩ := not_older (h.distinct _) hmem
      rcases hholds with hnow | ⟨hbefore, -⟩
      · exact absurd hnow hfirst
      · exact absurd hbefore hsecond

/-! ## Every operation keeps it -/

/-- An operation that leaves hashes and histories alone. -/
theorem Kept.of (h : s.Kept hash) (hids : (s'.table.memory.map (·.id)).Nodup)
    (hrows : ∀ t ∈ s'.table.memory, ∃ t₀ ∈ s.table.memory, t.id = t₀.id ∧
      t.tokenHash = t₀.tokenHash ∧ t.prevTokenHash = t₀.prevTokenHash ∧
      t.prevExpiresAt = t₀.prevExpiresAt)
    (hhistory : s'.history = s.history) (hrotations : s'.rotations = s.rotations)
    (hminted : s.minted ⊆ s'.minted) (hknown : s.ids ⊆ s'.ids) (hnow : s.now ≤ s'.now) :
    s'.Kept hash where
  ids := hids
  known := by
    intro t ht
    obtain ⟨t₀, ht₀, hid, -⟩ := hrows t ht
    rw [hid]
    exact hknown (h.known t₀ ht₀)
  unborn := by
    intro id hid
    rw [hhistory]
    exact h.unborn id fun hmem => hid (hknown hmem)
  rows := by
    intro t ht
    obtain ⟨t₀, ht₀, hid, hhash, hprev, hexp⟩ := hrows t ht
    obtain ⟨hcurrent, hnone, hsome⟩ := h.rows t₀ ht₀
    refine ⟨?_, fun hp => ?_, fun hp hph => ?_⟩
    · rw [hhistory, hid, hhash]
      exact hcurrent
    · rw [hhistory, hrotations, hid]
      exact (hnone (hprev ▸ hp)).imp_right fun ⟨at', hrot, hle⟩ => ⟨at', hrot, hle.trans hnow⟩
    · rw [hhistory, hrotations, hid, hexp]
      exact hsome hp (hprev ▸ hph)
  minted := by
    intro id secret hmem
    rw [hhistory] at hmem
    exact hminted (h.minted id secret hmem)
  owner := by
    rw [hhistory]
    exact h.owner
  distinct := by
    rw [hhistory]
    exact h.distinct

/-- A change that touches no row. -/
theorem Kept.same (h : s.Kept hash) (hmemory : s'.table.memory = s.table.memory)
    (hhistory : s'.history = s.history) (hrotations : s'.rotations = s.rotations)
    (hminted : s.minted ⊆ s'.minted) (hknown : s.ids ⊆ s'.ids) (hnow : s.now ≤ s'.now) :
    s'.Kept hash := by
  refine h.of ?_ (fun t ht => ?_) hhistory hrotations hminted hknown hnow
  · rw [hmemory]
    exact h.ids
  · rw [hmemory] at ht
    exact ⟨t, ht, rfl, rfl, rfl, rfl⟩

end RotationState

/-- A change was saved, or nothing happened. -/
theorem TokenTable.commit_cases {R : Type} (t : TokenTable) (saved : Bool)
    (change : Tokens → R × Tokens) :
    TokenTable.commit t saved change = (.error .notPersisted, t) ∨
      TokenTable.commit t saved change =
        (.ok (change t.memory).1, .load (change t.memory).2) := by
  cases saved with
  | false => exact .inl rfl
  | true => exact .inr rfl

theorem Tokens.get_mem {tokens : Tokens} {id : String} {t : ApiToken}
    (h : tokens.get id = some t) : t ∈ tokens ∧ t.id = id := by
  have hfind : tokens.find? (fun token => token.id == id) = some t := h
  exact ⟨List.mem_of_find?_eq_some hfind,
    by simpa using (List.find?_eq_some_iff_append.mp hfind).1⟩

/-- Only the expiry of one row is set. -/
theorem TokenTable.refresh_cases (hash : String → String) (t : TokenTable) (saved : Bool)
    (secret : String) (now : Nat) : (TokenTable.refresh hash t saved secret now).2 = t ∨
      ∃ pos token expires, t.memory[pos]? = some token ∧
        (TokenTable.refresh hash t saved secret now).2.memory =
          t.memory.set pos { token with expiresAt := expires } := by
  generalize hout : TokenTable.refresh hash t saved secret now = out
  unfold TokenTable.refresh at hout
  dsimp only at hout
  split at hout
  · rename_i pos token hpos hfind
    split at hout
    · exact .inl (hout ▸ rfl)
    · rename_i ttl _
      refine (TokenTable.commit_cases t saved _).imp
        (fun hc => by rw [← hout, hc]) fun hc => ?_
      exact ⟨pos, token, some (deadline now ttl), getElem?_of_find hpos hfind, by
        rw [← hout, hc]
        rfl⟩
  · exact .inl (hout ▸ rfl)

namespace RotationState

variable {hash : String → String} {s : RotationState}

theorem Kept.update (h : s.Kept hash) (id : String) (patch : TokenPatch) (saved : Bool) :
    (s.next hash (.update id patch saved)).Kept hash := by
  cases hget : s.table.memory.get id with
  | none =>
      refine h.same ?_ rfl rfl (List.Subset.refl _) (List.Subset.refl _) (le_refl _)
      simp [next, TokenTable.update, hget]
  | some token =>
      rcases TokenTable.commit_cases s.table saved fun tokens =>
          (token.patched patch s.now, tokens.modify id (·.patched patch s.now)) with hc | hc
      · refine h.same ?_ rfl rfl (List.Subset.refl _) (List.Subset.refl _) (le_refl _)
        simp [next, TokenTable.update, hget, hc]
      · have hmemory : (s.next hash (.update id patch saved)).table.memory =
            s.table.memory.modify id (·.patched patch s.now) := by
          simp [next, TokenTable.update, hget, hc, Table.load]
        refine h.of ?_ (fun t ht => ?_) rfl rfl (List.Subset.refl _) (List.Subset.refl _)
          (le_refl _)
        · rw [hmemory, Tokens.map_id_modify (f := (·.patched patch s.now)) fun _ => rfl]
          exact h.ids
        · rw [hmemory] at ht
          rcases Tokens.mem_modify_of_nodup h.ids ht with ⟨hold, -⟩ | ⟨t₀, ht₀, -, rfl⟩
          · exact ⟨t, hold, rfl, rfl, rfl, rfl⟩
          · exact ⟨t₀, ht₀, rfl, rfl, rfl, rfl⟩

theorem Kept.revoke (h : s.Kept hash) (id : String) (saved : Bool) :
    (s.next hash (.revoke id saved)).Kept hash := by
  cases hpos : s.table.memory.findIdx? (·.id == id) with
  | none =>
      refine h.same ?_ rfl rfl (List.Subset.refl _) (List.Subset.refl _) (le_refl _)
      simp [next, TokenTable.revoke, hpos]
  | some pos =>
      rcases TokenTable.commit_cases s.table saved fun tokens => ((), tokens.eraseIdx pos)
        with hc | hc
      · refine h.same ?_ rfl rfl (List.Subset.refl _) (List.Subset.refl _) (le_refl _)
        simp [next, TokenTable.revoke, hpos, hc]
      · have hmemory : (s.next hash (.revoke id saved)).table.memory =
            s.table.memory.eraseIdx pos := by
          simp [next, TokenTable.revoke, hpos, hc, Table.load]
        refine h.of ?_ (fun t ht => ?_) rfl rfl (List.Subset.refl _) (List.Subset.refl _)
          (le_refl _)
        · rw [hmemory]
          exact h.ids.sublist ((List.eraseIdx_sublist _ _).map _)
        · rw [hmemory] at ht
          exact ⟨t, (List.eraseIdx_sublist _ _).subset ht, rfl, rfl, rfl, rfl⟩

theorem Kept.refresh (h : s.Kept hash) (secret : String) (saved : Bool) :
    (s.next hash (.refresh secret saved)).Kept hash := by
  rcases TokenTable.refresh_cases hash s.table saved secret s.now with
    hsame | ⟨pos, token, expires, hat, hmemory⟩
  · have hmemory : (s.next hash (.refresh secret saved)).table.memory = s.table.memory := by
      rw [next, hsame]
    exact h.same hmemory rfl rfl (List.Subset.refl _) (List.Subset.refl _) (le_refl _)
  · have hrows : (s.next hash (.refresh secret saved)).table.memory =
        s.table.memory.set pos { token with expiresAt := expires } := hmemory
    refine h.of ?_ (fun t ht => ?_) rfl rfl (List.Subset.refl _) (List.Subset.refl _)
      (le_refl _)
    · have hid : (s.table.memory.map (·.id))[pos]? = some token.id := by
        rw [List.getElem?_map, hat, Option.map_some]
      obtain ⟨hlt, heq⟩ := List.getElem?_eq_some_iff.mp hid
      rw [hrows, List.map_set]
      show ((s.table.memory.map (·.id)).set pos token.id).Nodup
      rw [← heq, List.set_getElem_self]
      exact h.ids
    · rw [hrows] at ht
      rcases List.mem_or_eq_of_mem_set ht with hold | rfl
      · exact ⟨t, hold, rfl, rfl, rfl, rfl⟩
      · exact ⟨token, List.mem_of_getElem? hat, rfl, rfl, rfl, rfl⟩

/-- A row the step is not about. -/
theorem RowKept.congr {s' : RotationState} {t : ApiToken} (h : s.RowKept hash t)
    (hhistory : s'.history t.id = s.history t.id)
    (hrotations : s'.rotations t.id = s.rotations t.id) (hnow : s.now ≤ s'.now) :
    s'.RowKept hash t := by
  obtain ⟨hcurrent, hnone, hsome⟩ := h
  refine ⟨?_, fun hp => ?_, fun hp hph => ?_⟩
  · rw [hhistory]
    exact hcurrent
  · rw [hhistory, hrotations]
    exact (hnone hp).imp_right fun ⟨at', hrot, hle⟩ => ⟨at', hrot, hle.trans hnow⟩
  · rw [hhistory, hrotations]
    exact hsome hp hph

/-- A new secret in front of a token's. -/
theorem Kept.extend (h : s.Kept hash) (id : String) {secret : String}
    (hsecret : secret ∉ s.minted) {history : String → List String}
    (hhistory : history = Function.update s.history id (secret :: s.history id)) :
    (∀ a, ∀ x ∈ history a, x ∈ secret :: s.minted) ∧
      (∀ a b, ∀ x ∈ history a, x ∈ history b → a = b) ∧ ∀ a, (history a).Nodup := by
  have hmem : ∀ a, ∀ x ∈ history a, a = id ∧ x = secret ∨ x ∈ s.history a := by
    intro a x hx
    rw [hhistory] at hx
    by_cases ha : a = id
    · rw [ha, Function.update_self] at hx
      rw [ha]
      exact (List.mem_cons.mp hx).imp_left fun heq => ⟨rfl, heq⟩
    · rw [Function.update_of_ne ha] at hx
      exact .inr hx
  have hnew : ∀ a, secret ∉ s.history a := fun a hx => hsecret (h.minted a secret hx)
  refine ⟨fun a x hx => ?_, fun a b x hx hx' => ?_, fun a => ?_⟩
  · rcases hmem a x hx with ⟨-, rfl⟩ | hold
    · exact List.mem_cons_self
    · exact List.mem_cons_of_mem _ (h.minted a x hold)
  · rcases hmem a x hx with ⟨rfl, rfl⟩ | hold
    · rcases hmem b x hx' with ⟨rfl, -⟩ | hold'
      · rfl
      · exact absurd hold' (hnew b)
    · rcases hmem b x hx' with ⟨rfl, rfl⟩ | hold'
      · exact absurd hold (hnew a)
      · exact h.owner a b x hold hold'
  · rw [hhistory]
    by_cases ha : a = id
    · rw [ha, Function.update_self, List.nodup_cons]
      exact ⟨hnew id, h.distinct id⟩
    · rw [Function.update_of_ne ha]
      exact h.distinct a

/-- A rotation that was saved. -/
theorem Kept.rotated {s' : RotationState} {id secret : String} {graceSeconds : Nat}
    (h : s.Kept hash) (hid : id ∈ s.ids) (hsecret : secret ∉ s.minted)
    (hmemory : s'.table.memory =
      s.table.memory.modify id (·.rotated hash secret graceSeconds s.now))
    (hhistory : s'.history = Function.update s.history id (secret :: s.history id))
    (hrotations : s'.rotations = Function.update s.rotations id (some (s.now, graceSeconds)))
    (hminted : s'.minted = secret :: s.minted := by rfl) (hknown : s'.ids = s.ids := by rfl)
    (hnow : s'.now = s.now := by rfl) : s'.Kept hash := by
  obtain ⟨hmint, howner, hdistinct⟩ := h.extend id hsecret hhistory
  refine ⟨?_, fun t ht => ?_, fun a ha => ?_, fun t ht => ?_, ?_, howner, hdistinct⟩
  · rw [hmemory,
      Tokens.map_id_modify (f := (·.rotated hash secret graceSeconds s.now)) fun _ => rfl]
    exact h.ids
  · rw [hmemory] at ht
    rw [hknown]
    rcases Tokens.mem_modify_of_nodup h.ids ht with ⟨hold, -⟩ | ⟨t₀, ht₀, -, rfl⟩
    · exact h.known t hold
    · exact h.known t₀ ht₀
  · rw [hknown] at ha
    have hne : a ≠ id := fun heq => ha (heq ▸ hid)
    rw [hhistory, Function.update_of_ne hne]
    exact h.unborn a ha
  · rw [hmemory] at ht
    rcases Tokens.mem_modify_of_nodup h.ids ht with ⟨hold, hne⟩ | ⟨t₀, ht₀, hat₀, rfl⟩
    · refine (h.rows t hold).congr ?_ ?_ (le_of_eq hnow.symm)
      · rw [hhistory, Function.update_of_ne hne]
      · rw [hrotations, Function.update_of_ne hne]
    · obtain ⟨current, older, hcurrent, hhash⟩ := (h.rows t₀ ht₀).current
      have hat : s'.history t₀.id = secret :: s.history t₀.id := by
        rw [hhistory, hat₀, Function.update_self]
      have hrot : s'.rotations t₀.id = some (s.now, graceSeconds) := by
        rw [hrotations, hat₀, Function.update_self]
      refine ⟨⟨secret, s.history t₀.id, hat, rfl⟩, fun hp => ?_, fun hp hph => ?_⟩
      · have hzero : graceSeconds = 0 := by
          by_contra hne
          simp [ApiToken.rotated, Nat.pos_of_ne_zero hne] at hp
        exact .inr ⟨s.now, hzero ▸ hrot, le_of_eq hnow.symm⟩
      · have hpos : 0 < graceSeconds := by
          by_contra hno
          simp [ApiToken.rotated, hno] at hph
        have hsome : t₀.tokenHash = hp := by simpa [ApiToken.rotated, hpos] using hph
        refine ⟨current, s.now, graceSeconds, ?_, hsome ▸ hhash, hrot, ?_⟩
        · show (s'.history t₀.id)[1]? = some current
          rw [hat, hcurrent]
          rfl
        · simp [ApiToken.rotated, hpos]
  · rw [hminted]
    exact hmint

theorem Kept.create (h : s.Kept hash) (spec : TokenSpec) {id secret : String} (saved : Bool)
    (hid : id ∉ s.ids) (hsecret : secret ∉ s.minted) :
    (s.next hash (.create spec id secret saved)).Kept hash := by
  rcases TokenTable.commit_cases s.table saved fun tokens =>
      ((ApiToken.ofSpec hash spec id secret s.now, secret),
        tokens ++ [ApiToken.ofSpec hash spec id secret s.now]) with hc | hc
  · have hout : TokenTable.create hash s.table saved id spec secret s.now =
        (.error .notPersisted, s.table) := hc
    refine h.same ?_ ?_ rfl (List.subset_cons_self _ _) (List.subset_cons_self _ _) (le_refl _)
    · simp [next, hout]
    · simp [next, hout, Except.toOption]
  · have hout : TokenTable.create hash s.table saved id spec secret s.now =
        (.ok (ApiToken.ofSpec hash spec id secret s.now, secret),
          .load (s.table.memory ++ [ApiToken.ofSpec hash spec id secret s.now])) := hc
    have hmemory : (s.next hash (.create spec id secret saved)).table.memory =
        s.table.memory ++ [ApiToken.ofSpec hash spec id secret s.now] := by
      simp [next, hout, Table.load]
    have hhistory : (s.next hash (.create spec id secret saved)).history =
        Function.update s.history id [secret] := by
      simp [next, hout, Except.toOption]
    have hfront : (s.next hash (.create spec id secret saved)).history =
        Function.update s.history id (secret :: s.history id) := by
      rw [hhistory, h.unborn id hid]
    have hextended := h.extend id hsecret hfront
    refine ⟨?_, fun t ht => ?_, fun a ha => ?_, fun t ht => ?_, hextended.1, hextended.2.1,
      hextended.2.2⟩
    · rw [hmemory, List.map_append, List.nodup_append]
      refine ⟨h.ids, List.nodup_singleton _, fun a ha b hb heq => hid ?_⟩
      obtain ⟨t, ht, rfl⟩ := List.mem_map.mp ha
      have hb' : b = id := by simpa [ApiToken.ofSpec] using hb
      rw [← hb', ← heq]
      exact h.known t ht
    · rw [hmemory] at ht
      rcases List.mem_append.mp ht with hold | hnew
      · exact List.mem_cons_of_mem _ (h.known t hold)
      · rw [List.mem_singleton.mp hnew]
        exact List.mem_cons_self
    · obtain ⟨hne, hold⟩ := not_or.mp (List.mem_cons.not.mp ha)
      rw [hhistory, Function.update_of_ne hne]
      exact h.unborn a hold
    · rw [hmemory] at ht
      rcases List.mem_append.mp ht with hold | hnew
      · have hne : t.id ≠ id := fun heq => hid (heq ▸ h.known t hold)
        refine (h.rows t hold).congr ?_ rfl (le_refl _)
        rw [hhistory, Function.update_of_ne hne]
      · rw [List.mem_singleton.mp hnew]
        have hat : (s.next hash (.create spec id secret saved)).history id = [secret] := by
          rw [hhistory, Function.update_self]
        refine ⟨⟨secret, [], hat, rfl⟩, fun _ => .inl (le_of_eq (congrArg List.length hat)), ?_⟩
        intro previous hprevious
        cases hprevious

theorem Kept.rotate (h : s.Kept hash) (id : String) {secret : String} (graceSeconds : Nat)
    (saved : Bool) (hsecret : secret ∉ s.minted) :
    (s.next hash (.rotate id secret graceSeconds saved)).Kept hash := by
  cases hget : s.table.memory.get id with
  | none =>
      have hout : TokenTable.rotate hash s.table saved id secret graceSeconds s.now =
          (.error .noSuchRecord, s.table) := by simp [TokenTable.rotate, hget]
      refine h.same ?_ ?_ ?_ (List.subset_cons_self _ _) (List.Subset.refl _) (le_refl _)
      · simp [next, hout]
      · simp [next, hout, Except.toOption]
      · simp [next, hout, Except.toOption]
  | some token =>
      rcases TokenTable.commit_cases s.table saved fun tokens =>
          ((token.rotated hash secret graceSeconds s.now, secret),
            tokens.modify id (·.rotated hash secret graceSeconds s.now)) with hc | hc
      · have hout : TokenTable.rotate hash s.table saved id secret graceSeconds s.now =
            (.error .notPersisted, s.table) := by simpa [TokenTable.rotate, hget] using hc
        refine h.same ?_ ?_ ?_ (List.subset_cons_self _ _) (List.Subset.refl _) (le_refl _)
        · simp [next, hout]
        · simp [next, hout, Except.toOption]
        · simp [next, hout, Except.toOption]
      · have hout : TokenTable.rotate hash s.table saved id secret graceSeconds s.now =
            (.ok (token.rotated hash secret graceSeconds s.now, secret),
              .load (s.table.memory.modify id (·.rotated hash secret graceSeconds s.now))) := by
          simpa [TokenTable.rotate, hget] using hc
        have hmemory : (s.next hash (.rotate id secret graceSeconds saved)).table.memory =
            s.table.memory.modify id (·.rotated hash secret graceSeconds s.now) := by
          simp [next, hout, Table.load]
        have hhistory : (s.next hash (.rotate id secret graceSeconds saved)).history =
            Function.update s.history id (secret :: s.history id) := by
          simp [next, hout, Except.toOption]
        have hrotations : (s.next hash (.rotate id secret graceSeconds saved)).rotations =
            Function.update s.rotations id (some (s.now, graceSeconds)) := by
          simp [next, hout, Except.toOption]
        obtain ⟨htoken, hid⟩ := Tokens.get_mem hget
        exact h.rotated (hid ▸ h.known token htoken) hsecret hmemory hhistory hrotations

theorem Kept.next (h : s.Kept hash) {a : RotationAct} (ha : a.Fits s) :
    (s.next hash a).Kept hash := by
  cases a with
  | tick now =>
      exact h.same rfl rfl rfl (List.Subset.refl _) (List.Subset.refl _) ha
  | create spec id secret saved => exact h.create spec saved ha.1 ha.2
  | rotate id secret graceSeconds saved => exact h.rotate id graceSeconds saved ha
  | refresh secret saved => exact h.refresh secret saved
  | update id patch saved => exact h.update id patch saved
  | revoke id saved => exact h.revoke id saved

/-- A token's secrets are only ever added to, in front. -/
theorem history_next (hash : String → String) {a : RotationAct} (hs : s.Kept hash)
    (ha : a.Fits s) (id : String) : s.history id <:+ (s.next hash a).history id := by
  cases a with
  | create spec other secret saved =>
      show s.history id <:+ (if _ then _ else s.history) id
      split
      · by_cases hid : id = other
        · rw [hid, hs.unborn other ha.1]
          exact List.nil_suffix
        · simp [Function.update_of_ne hid]
      · exact List.suffix_refl _
  | rotate other secret graceSeconds saved =>
      show s.history id <:+ (if _ then _ else s.history) id
      split
      · by_cases hid : id = other
        · rw [hid, Function.update_self]
          exact List.suffix_cons _ _
        · simp [Function.update_of_ne hid]
      · exact List.suffix_refl _
  | _ => exact List.suffix_refl _

end RotationState

/-! ## Every run -/

theorem rotationSys_kept {hash : String → String} {s : RotationState}
    (hs : (rotationSys hash).Reachable s) : s.Kept hash := by
  refine hs.invariant ?_ ?_
  · rintro s rfl
    exact ⟨List.nodup_nil, fun _ h => absurd h List.not_mem_nil, fun _ _ => rfl,
      fun _ h => absurd h List.not_mem_nil, fun _ _ h => absurd h List.not_mem_nil,
      fun _ _ _ h => absurd h List.not_mem_nil, fun _ => List.nodup_nil⟩
  · rintro s a s' - hkept ⟨hfits, rfl⟩
    exact hkept.next hfits

/-- **A token is answered for by its secret, and by the one before while the
last rotation's grace runs**, at every moment of every run. A secret that is
older is refused then and ever after, and who a secret once stood for is who
it stands for. -/
theorem rotation_law {hash : String → String} (hinj : Function.Injective hash)
    {s s' : RotationState} (hs : (rotationSys hash).Reachable s)
    (hlater : ((rotationSys hash).onwards s).Reachable s') :
    s'.Law hash ∧
      (∀ id, ∀ secret ∈ (s.history id).drop 2, s'.verify hash secret = none) ∧
      ∀ secret t t', s.verify hash secret = some t → s'.verify hash secret = some t' →
        t.id = t'.id := by
  have hkept := rotationSys_kept hs
  obtain ⟨hreach, hhistory⟩ : (rotationSys hash).Reachable s' ∧
      ∀ id, s.history id <:+ s'.history id := by
    refine hlater.invariant
      (P := fun s' => (rotationSys hash).Reachable s' ∧ ∀ id, s.history id <:+ s'.history id)
      ?_ ?_
    · rintro s' rfl
      exact ⟨hs, fun id => List.suffix_refl _⟩
    · rintro s₁ a s₂ - ⟨hreach, hsuffix⟩ hstep
      refine ⟨hreach.step hstep, fun id => ?_⟩
      obtain ⟨hfits, rfl⟩ := hstep
      exact (hsuffix id).trans
        (RotationState.history_next hash (rotationSys_kept hreach) hfits id)
  have hlaw := (rotationSys_kept hreach).law hinj
  refine ⟨hlaw, fun id secret hmem => hlaw.older id secret ?_, fun secret t t' ht ht' => ?_⟩
  · obtain ⟨newer, hnewer⟩ := hhistory id
    have hdrop : (s.history id).drop 2 = (s'.history id).drop (newer.length + 2) := by
      rw [← hnewer, List.drop_length_add_append]
    rw [hdrop] at hmem
    exact List.drop_subset_drop_left _ (Nat.le_add_left _ _) hmem
  · have hown := ((hkept.law hinj).verify secret t).mp ht
    have hown' := (hlaw.verify secret t').mp ht'
    exact (rotationSys_kept hreach).owner _ _ secret ((hhistory t.id).subset hown.2.2.mem)
      hown'.2.2.mem

/-! ## Two rotations within one grace -/

def twiceRotated : RotationState :=
  ((({} : RotationState).next id (.create {} "t1" "a" true)).next id
    (.rotate "t1" "b" 60 true)).next id (.rotate "t1" "c" 60 true)

theorem twiceRotated_reachable : (rotationSys id).Reachable twiceRotated := by
  refine .step (.step (.step (.init rfl) (a := .create {} "t1" "a" true) ⟨?_, rfl⟩)
    (a := .rotate "t1" "b" 60 true) ⟨?_, rfl⟩) (a := .rotate "t1" "c" 60 true) ⟨?_, rfl⟩
  · exact ⟨List.not_mem_nil, List.not_mem_nil⟩
  · show "b" ∉ ["a"]
    decide
  · show "c" ∉ ["b", "a"]
    decide

/-- The second secret is still good, the first is not. -/
theorem rotation_law_twice : twiceRotated.Law id ∧
    (twiceRotated.verify id "b").map (·.id) = some "t1" ∧
    twiceRotated.verify id "a" = none := by
  obtain ⟨hlaw, holder, -⟩ := rotation_law Function.injective_id
    twiceRotated_reachable (.init rfl)
  refine ⟨hlaw, by decide, holder "t1" "a" ?_⟩
  show "a" ∈ (["c", "b", "a"] : List String).drop 2
  decide

end Aperio
