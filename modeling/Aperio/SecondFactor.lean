import Aperio.ByteOrder
import Aperio.Ip
import Aperio.Run
import Aperio.UserStore

/-!
# The second factor

`verify_step` of `totp.rs`, and the handlers that accept a code: the login
(`auth_login_handler`) and the removal of the second factor
(`totp_disable_handler`). Each checks the code against the secret of one lock
region and records what was used up in a later one, with the other handlers
in between.

The log remembers what was accepted and when recovery codes were given out;
the code does not.
-/

namespace Aperio

/-! ## Codes -/

/-- The crates that do the hashing. -/
structure FactorPrims where
  hmacSha1 : Bytes → Bytes → Bytes
  sha256Hex : String → String
  passwordOk : String → String → Bool

def stepSecs : Nat := 30

def base32Alphabet : List Char :=
  "ABCDEFGHIJKLMNOPQRSTUVWXYZ234567".toList

/-- Five bits a character; a whole byte is put out as soon as there is one. -/
def base32Step (acc : Nat × Nat × Bytes) (c : Char) : Option (Nat × Nat × Bytes) :=
  (base32Alphabet.findIdx? (· == c.toUpper)).map fun v =>
    let bits := (acc.1 * 32 + v) % 2 ^ 64
    let nbits := acc.2.1 + 5
    if 8 ≤ nbits then (bits, nbits - 8, acc.2.2 ++ [UInt8.ofNat (bits >>> (nbits - 8))])
    else (bits, nbits, acc.2.2)

def base32Decode (s : String) : Option Bytes :=
  ((trimEndMatches s '=').toList.foldlM base32Step (0, 0, [])).map (·.2.2)

namespace FactorPrims

variable (X : FactorPrims)

/-- The code of a secret at a step. -/
def codeAt (secret : Bytes) (counter : Nat) : Nat :=
  let digest := X.hmacSha1 secret (beBytes 8 counter)
  let at_ (i : Nat) : Nat := (digest.getD i 0).toNat
  let offset := at_ 19 % 16
  (at_ offset % 128 * 2 ^ 24 + at_ (offset + 1) * 2 ^ 16 + at_ (offset + 2) * 2 ^ 8 +
    at_ (offset + 3)) % 1000000

/-- The step a code of six digits is for: this one, the one before or the one
after, and the latest of them where it is for more than one. -/
def verifyStep (secretB32 code : String) (nowSecs : Nat) : Option Int :=
  let code := trim code
  if code.utf8ByteSize ≠ 6 || !code.toList.all isAsciiDigit then none
  else
    match base32Decode secretB32, parseU32 code with
    | some secret, some entered =>
      if secret = [] then none
      else
        let step : Int := (nowSecs / stepSecs : Nat)
        [step - 1, step, step + 1].foldl (fun hit counter =>
          if counter < 0 then hit
          else if X.codeAt secret counter.toNat = entered then some counter
          else hit) none
    | _, _ => none

def hashRecoveryCode (code : String) : String :=
  X.sha256Hex (trim code)

end FactorPrims

/-! ## The handlers -/

/-- What a code was accepted as. -/
inductive FactorUse where
  | step (n : Int)
  | recovery (hash : String)
deriving Repr, DecidableEq

/-- A login with its password and code, where `admits` is whether the panel it
is made at admits the grants; or a removal by a signed-in account. -/
inductive FactorCall where
  | login (username password code : String) (admits : List Grant → Bool)
  | removal (id code : String)

def FactorCall.code : FactorCall → String
  | .login _ _ code _ => code
  | .removal _ code => code

/-- Where a handler is: a challenge is the secret that was read, and `passed`
a code that was accepted. -/
inductive FactorStage where
  | arrived
  | challenged (id secret : String)
  | passed (id : String) (use : FactorUse)
  | unchallenged
  | refused
  | removed
deriving Repr, DecidableEq

/-- What a region finds, and whether its write can be saved. -/
structure FactorMoment where
  saved : Bool := true
  nowSecs : Nat := 0

section Handlers

variable (X : FactorPrims)

/-- Checks a code against the secret that was read, and uses it up. -/
def redeem (t : UserTable) (w : FactorMoment) (id secret code : String) :
    Option FactorUse × UserTable :=
  match X.verifyStep secret code w.nowSecs with
  | some step =>
    let out := t.totpTryAdvanceStep w.saved id step
    (if out.1 then some (.step step) else none, out.2)
  | none =>
    let hash := X.hashRecoveryCode code
    let out := t.consumeRecovery w.saved id hash
    (if out.1 then some (.recovery hash) else none, out.2)

/-- The next region of a handler. -/
def FactorCall.region (call : FactorCall) (w : FactorMoment) (t : UserTable) (s : FactorStage) :
    FactorStage × UserTable :=
  match s, call with
  | .arrived, .login username password code admits =>
    let verified :=
      (t.memory.verify (X.passwordOk password) username).filter fun u => admits u.grants
    (match verified with
      | none => .refused
      | some u =>
        match u.totpSecret with
        | none => .unchallenged
        | some secret => if trim code = "" then .refused else .challenged u.id secret, t)
  | .arrived, .removal id _ =>
    (match (t.memory.get id).bind (·.totpSecret) with
      | none => .refused
      | some secret => .challenged id secret, t)
  | .challenged id secret, call =>
    let out := redeem X t w id secret call.code
    (match out.1 with
      | some use => .passed id use
      | none => .refused, out.2)
  | .passed id _, .removal _ _ =>
    let out := t.totpDisable w.saved id
    (match out.1 with
      | .ok _ => .removed
      | .error _ => .refused, out.2)
  | s, _ => (s, t)

end Handlers

/-! ## Every interleaving -/

inductive FactorEvent where
  | used (id : String) (use : FactorUse)
  | issued (id : String)
deriving Repr, DecidableEq

def FactorEvent.account : FactorEvent → String
  | .used id _ => id
  | .issued id => id

/-- The recovery codes accepted since the last set was given out. -/
def spent (id : String) (log : List FactorEvent) : List String :=
  log.foldl (fun hashes e =>
    match e with
    | .used id' (.recovery hash) => if id' = id then hashes ++ [hash] else hashes
    | .used _ (.step _) => hashes
    | .issued id' => if id' = id then [] else hashes) []

structure FactorState where
  table : UserTable
  calls : List (FactorCall × FactorStage) := []
  log : List FactorEvent := []

/-- Besides the two handlers: an enrollment begun and confirmed, the reset by
an admin, and a start over what is on disk. -/
inductive FactorAct where
  | arrive (call : FactorCall)
  | region (i : Nat) (w : FactorMoment)
  | begin (id secret : String) (saved : Bool)
  | enable (id code : String) (codes hashes : List String) (w : FactorMoment)
  | reset (id : String) (saved : Bool)
  | start (saved : Bool)

/-- What a region is logged as: a code that has just passed. -/
def passedNow (before after : FactorStage) : List FactorEvent :=
  match before, after with
  | .challenged _ _, .passed id use => [.used id use]
  | _, _ => []

def FactorState.next (X : FactorPrims) (s : FactorState) : FactorAct → Option FactorState
  | .arrive call => some { s with calls := s.calls ++ [(call, .arrived)] }
  | .region i w =>
    (s.calls[i]?).map fun (call, stage) =>
      let out := call.region X w s.table stage
      { table := out.2
        calls := s.calls.set i (call, out.1)
        log := s.log ++ passedNow stage out.1 }
  | .begin id secret saved => some { s with table := (s.table.totpBegin saved id secret).2 }
  | .enable id code codes hashes w =>
    let out := s.table.totpEnable w.saved id
      (fun pending => (X.verifyStep pending code w.nowSecs).isSome) codes hashes
    some { s with
      table := out.2
      log := s.log ++ if out.1.toOption.isSome then [.issued id] else [] }
  | .reset id saved => some { s with table := (s.table.totpDisable saved id).2 }
  | .start saved => some { s with table := UserTable.load s.table.disk saved, calls := [] }

/-- Any number of handlers over accounts that were loaded. -/
def factorSys (X : FactorPrims) : Sys FactorState FactorAct where
  init s := s.calls = [] ∧ s.log = [] ∧ ∃ rows saved, s.table = UserTable.load rows saved
  step s a s' := s.next X a = some s'

/-- A step is newer than every one accepted for the account before, and a
recovery code was not accepted since its set was given out. -/
def OneTime (before : List FactorEvent) : FactorEvent → Prop
  | .used id (.step n) => ∀ m, .used id (.step m) ∈ before → m < n
  | .used id (.recovery hash) => hash ∉ spent id before
  | .issued _ => True

def FactorStage.isPassed : FactorStage → Bool
  | .passed _ _ => true
  | _ => false

/-- Codes are accepted once each, and none is that could not be saved. -/
structure FactorState.Held (X : FactorPrims) (s : FactorState) : Prop where
  oneTime : AtEach s.log OneTime
  unsaved : ∀ i w s', s.next X (.region i w) = some s' → w.saved = false →
    s'.log = s.log ∧ ∀ p ∈ s'.calls, p.2.isPassed = true → p ∈ s.calls

/-! ## What a row remembers -/

/-- The row knows the steps that were accepted for it, and holds no code that
was. -/
structure User.Remembers (u : User) (id : String) (log : List FactorEvent) : Prop where
  steps : ∀ n, .used id (.step n) ∈ log → ∃ last, u.totpLastStep = some last ∧ n ≤ last
  codes : ∀ hash ∈ spent id log, hash ∉ u.recoveryHashes

def Users.Remember (rows : Users) (log : List FactorEvent) : Prop :=
  ∀ id u, rows.get id = some u → u.Remembers id log

section Rows

variable {rows : Users} {id id' : String} {u u' : User} {log : List FactorEvent} {e : FactorEvent}

theorem spent_concat_of_ne (h : e.account ≠ id) : spent id (log ++ [e]) = spent id log := by
  rw [spent, List.foldl_append, List.foldl_cons, List.foldl_nil, ← spent]
  cases e with
  | issued id' => exact if_neg h
  | used id' use =>
      cases use with
      | step n => rfl
      | recovery hash => exact if_neg h

theorem User.Remembers.concat_of_ne (h : u.Remembers id log) (hne : e.account ≠ id) :
    u.Remembers id (log ++ [e]) where
  steps := by
    intro n hn
    rcases List.mem_append.mp hn with hn | hn
    · exact h.steps n hn
    · rw [← List.mem_singleton.mp hn] at hne
      exact absurd rfl hne
  codes := by
    rw [spent_concat_of_ne hne]
    exact h.codes

variable (u') in
/-- One row is rewritten, with an event of its own or none. -/
theorem Users.Remember.modify (events : List FactorEvent) (h : rows.Remember log) (hget : rows.get id = some u)
    (hid : u'.id = u.id)
    (hone : events = [] ∨ ∃ e, events = [e] ∧ e.account = id)
    (hrow : u'.Remembers id (log ++ events)) :
    Remember (rows.modify id fun _ => u') (log ++ events) := by
  have hself : u'.id = id := hid.trans (mem_of_get hget).2
  intro id' w hw
  by_cases heq : id' = id
  · rw [heq] at hw ⊢
    rw [get_modify hget hself] at hw
    rwa [← Option.some.inj hw]
  · rw [get_modify_of_ne heq hself] at hw
    have hold := h id' w hw
    rcases hone with rfl | ⟨e, rfl, he⟩
    · rwa [List.append_nil]
    · exact hold.concat_of_ne fun h => heq (h.symm.trans he)

theorem get_convertLegacyRows : rows.convertLegacyRows.get id = (rows.get id).map fun u =>
    if u.isLegacyRow then { u with grants := Grants.legacyGrants u.role u.orgId } else u := by
  rw [Users.get, Users.get, Users.convertLegacyRows, List.find?_map]
  congr 2
  funext u
  rw [Function.comp_apply]
  split <;> rfl

theorem Users.Remember.convert (h : rows.Remember log) : rows.convertLegacyRows.Remember log := by
  intro id u hu
  rw [get_convertLegacyRows] at hu
  obtain ⟨w, hw, rfl⟩ := Option.map_eq_some_iff.mp hu
  have hold := h id w hw
  split
  · exact ⟨hold.steps, hold.codes⟩
  · exact hold

end Rows

/-! ## Every state -/

/-- Memory and disk both remember what was accepted. -/
structure FactorState.Sound (s : FactorState) : Prop where
  oneTime : AtEach s.log OneTime
  memory : s.table.memory.Remember s.log
  disk : s.table.disk.Remember s.log

section Steps

variable {X : FactorPrims} {t t' : UserTable} {log : List FactorEvent} {id : String}

/-- What is not remembered on a change of one row: nothing. -/
theorem commitRow_remember {R : Type} {saved : Bool} {f : User → Except UserError (User × R)}
    (hmemory : t.memory.Remember log) (hdisk : t.disk.Remember log)
    (hf : ∀ u u' out, t.memory.get id = some u → f u = .ok (u', out) →
      u'.id = u.id ∧ (u.Remembers id log → u'.Remembers id log)) :
    (t.commitRow saved id f).2.memory.Remember log ∧
      (t.commitRow saved id f).2.disk.Remember log := by
  rcases UserTable.commitRow_cases t saved id f with ⟨e, hc⟩ | ⟨u, u', out, -, hget, hfu, hc⟩
  · rw [hc]
    exact ⟨hmemory, hdisk⟩
  · rw [hc]
    obtain ⟨hid, hrow⟩ := hf u u' out hget hfu
    have hmod := hmemory.modify u' [] hget hid (.inl rfl) (by
      rw [List.append_nil]
      exact hrow (hmemory id u hget))
    rw [List.append_nil] at hmod
    exact ⟨hmod, hmod⟩

theorem totpBegin_remember (saved : Bool) (id secret : String) (hmemory : t.memory.Remember log)
    (hdisk : t.disk.Remember log) : (t.totpBegin saved id secret).2.memory.Remember log ∧
      (t.totpBegin saved id secret).2.disk.Remember log := by
  refine commitRow_remember hmemory hdisk ?_
  rintro u u' out - ⟨⟩
  exact ⟨rfl, fun hrow => ⟨hrow.steps, hrow.codes⟩⟩

theorem totpDisable_remember (saved : Bool) (id : String) (hmemory : t.memory.Remember log)
    (hdisk : t.disk.Remember log) : (t.totpDisable saved id).2.memory.Remember log ∧
      (t.totpDisable saved id).2.disk.Remember log := by
  refine commitRow_remember hmemory hdisk ?_
  rintro u u' out - ⟨⟩
  exact ⟨rfl, fun hrow => ⟨hrow.steps, fun _ _ hin => by cases hin⟩⟩

theorem load_remember {rows : Users} (saved : Bool) (h : rows.Remember log) :
    (UserTable.load rows saved).memory.Remember log ∧
      (UserTable.load rows saved).disk.Remember log := by
  simp only [UserTable.load]
  split
  · cases saved with
    | false => exact ⟨h.convert, h⟩
    | true => exact ⟨h.convert, h.convert⟩
  · exact ⟨h.convert, h⟩

variable (X id) in
/-- A code that is accepted was not before, and is remembered from then on. -/
theorem redeem_cases (w : FactorMoment) (secret code : String)
    (hmemory : t.memory.Remember log) :
    ((redeem X t w id secret code).1 = none ∧ (redeem X t w id secret code).2 = t) ∨
      ∃ use, (redeem X t w id secret code).1 = some use ∧ w.saved = true ∧
        OneTime log (.used id use) ∧
        (redeem X t w id secret code).2.memory.Remember (log ++ [.used id use]) ∧
        (redeem X t w id secret code).2.disk.Remember (log ++ [.used id use]) := by
  simp only [redeem]
  cases X.verifyStep secret code w.nowSecs with
  | some step =>
      simp only [UserTable.totpTryAdvanceStep]
      cases hget : t.memory.get id with
      | none => exact .inl ⟨rfl, rfl⟩
      | some u =>
          simp only
          split
          · exact .inl ⟨rfl, rfl⟩
          · rename_i hnewer
            rcases UserTable.commitRow_cases t w.saved id fun u =>
              .ok ({ u with totpLastStep := some step }, ()) with
              ⟨e, hc⟩ | ⟨u₁, u', out, hsaved, hget', hfu, hc⟩
            · rw [hc]
              exact .inl ⟨rfl, rfl⟩
            · rw [hc]
              obtain rfl := Option.some.inj (hget.symm.trans hget')
              cases hfu
              have hold := hmemory id u hget
              have hlast : ∀ m, .used id (.step m) ∈ log → m < step := by
                intro m hm
                obtain ⟨last, hl, hle⟩ := hold.steps m hm
                rw [hl, Option.any_some, decide_eq_true_eq] at hnewer
                omega
              have hmod := hmemory.modify { u with totpLastStep := some step }
                [.used id (.step step)] hget rfl (.inr ⟨_, rfl, rfl⟩) (by
                  refine ⟨fun n hn => ⟨step, rfl, ?_⟩, by simpa [spent] using hold.codes⟩
                  rcases List.mem_append.mp hn with hn | hn
                  · exact (hlast n hn).le
                  · rw [List.mem_singleton] at hn
                    cases hn
                    exact le_refl _)
              exact .inr ⟨.step step, rfl, hsaved, hlast, hmod, hmod⟩
  | none =>
      simp only [UserTable.consumeRecovery]
      cases hget : t.memory.get id with
      | none => exact .inl ⟨rfl, rfl⟩
      | some u =>
          simp only
          split
          · rename_i hheld
            rcases UserTable.commitRow_cases t w.saved id fun u =>
              .ok ({ u with recoveryHashes :=
                u.recoveryHashes.filter (· != X.hashRecoveryCode code) }, ()) with
              ⟨e, hc⟩ | ⟨u₁, u', out, hsaved, hget', hfu, hc⟩
            · rw [hc]
              exact .inl ⟨rfl, rfl⟩
            · rw [hc]
              obtain rfl := Option.some.inj (hget.symm.trans hget')
              cases hfu
              have hold := hmemory id u hget
              have hspent : spent id (log ++ [.used id (.recovery (X.hashRecoveryCode code))]) =
                  spent id log ++ [X.hashRecoveryCode code] := by
                simp [spent]
              have hmod := hmemory.modify
                { u with recoveryHashes :=
                  u.recoveryHashes.filter (· != X.hashRecoveryCode code) }
                [.used id (.recovery (X.hashRecoveryCode code))] hget rfl (.inr ⟨_, rfl, rfl⟩) (by
                  refine ⟨fun n hn => ?_, ?_⟩
                  · rcases List.mem_append.mp hn with hn | hn
                    · exact hold.steps n hn
                    · rw [List.mem_singleton] at hn
                      cases hn
                  · intro hash hhash hin
                    rw [hspent] at hhash
                    obtain ⟨hin, hne⟩ := List.mem_filter.mp hin
                    rcases List.mem_append.mp hhash with hhash | hhash
                    · exact hold.codes hash hhash hin
                    · simp [List.mem_singleton.mp hhash] at hne)
              refine .inr ⟨.recovery _, rfl, hsaved, fun hin => ?_, hmod, hmod⟩
              exact hold.codes _ hin (by simpa using hheld)
          · exact .inl ⟨rfl, rfl⟩

/-- A region accepts a code and has written what it used up, or accepts
nothing. -/
theorem region_cases (call : FactorCall) (w : FactorMoment) (stage : FactorStage)
    (hmemory : t.memory.Remember log) (hdisk : t.disk.Remember log) :
    (passedNow stage (call.region X w t stage).1 = [] ∧
        ((call.region X w t stage).1.isPassed = true → (call.region X w t stage).1 = stage) ∧
        (call.region X w t stage).2.memory.Remember log ∧
        (call.region X w t stage).2.disk.Remember log) ∨
      ∃ id use, passedNow stage (call.region X w t stage).1 = [.used id use] ∧ w.saved = true ∧
        OneTime log (.used id use) ∧
        (call.region X w t stage).2.memory.Remember (log ++ [.used id use]) ∧
        (call.region X w t stage).2.disk.Remember (log ++ [.used id use]) := by
  cases stage with
  | arrived =>
      refine .inl ⟨?_, ?_, ?_⟩
      · cases call <;> rfl
      · cases call with
        | login username password code admits =>
            simp only [FactorCall.region]
            split
            · rintro ⟨⟩
            · split
              · rintro ⟨⟩
              · split <;> rintro ⟨⟩
        | removal id code =>
            simp only [FactorCall.region]
            split <;> rintro ⟨⟩
      · cases call <;> exact ⟨hmemory, hdisk⟩
  | challenged id secret =>
      simp only [FactorCall.region]
      rcases redeem_cases X id w secret call.code hmemory with
        ⟨hnone, htable⟩ | ⟨use, huse, hsaved, hone, hmem, hdsk⟩
      · rw [hnone, htable]
        exact .inl ⟨rfl, by rintro ⟨⟩, hmemory, hdisk⟩
      · rw [huse]
        exact .inr ⟨id, use, rfl, hsaved, hone, hmem, hdsk⟩
  | passed id use =>
      cases call with
      | login username password code admits => exact .inl ⟨rfl, fun _ => rfl, hmemory, hdisk⟩
      | removal id' code =>
          refine .inl ⟨rfl, ?_, totpDisable_remember w.saved id hmemory hdisk⟩
          simp only [FactorCall.region]
          split <;> rintro ⟨⟩
  | unchallenged => exact .inl ⟨rfl, fun _ => rfl, hmemory, hdisk⟩
  | refused => exact .inl ⟨rfl, fun _ => rfl, hmemory, hdisk⟩
  | removed => exact .inl ⟨rfl, fun _ => rfl, hmemory, hdisk⟩

end Steps

namespace FactorState

variable {X : FactorPrims} {s s' : FactorState}

/-- A new set is given out, and none of its codes is spent. -/
theorem Sound.enabled (h : s.Sound) (id code : String) (codes hashes : List String)
    (w : FactorMoment) : Sound
      { s with
        table := (s.table.totpEnable w.saved id
          (fun pending => (X.verifyStep pending code w.nowSecs).isSome) codes hashes).2
        log := s.log ++
          if (s.table.totpEnable w.saved id
            (fun pending => (X.verifyStep pending code w.nowSecs).isSome) codes
              hashes).1.toOption.isSome then [.issued id] else [] } := by
  rcases s.table.totpEnable_cases w.saved id
      (fun pending => (X.verifyStep pending code w.nowSecs).isSome) codes hashes with
    ⟨e, hc⟩ | ⟨u, pending, hget, hc⟩
  · rw [hc]
    simp only [Except.toOption, Option.isSome_none, Bool.false_eq_true, if_false,
      List.append_nil]
    exact ⟨h.oneTime, h.memory, h.disk⟩
  · rw [hc]
    simp only [Except.toOption, Option.isSome_some, if_true]
    have hmod := h.memory.modify
      { u with totpSecret := some pending, totpPending := none, recoveryHashes := hashes }
      [.issued id] hget rfl (.inr ⟨_, rfl, rfl⟩) (by
        refine ⟨fun n hn => ?_, by simp [spent]⟩
        rcases List.mem_append.mp hn with hn | hn
        · exact (h.memory id u hget).steps n hn
        · rw [List.mem_singleton] at hn
          cases hn)
    exact ⟨atEach_append.mpr ⟨h.oneTime, trivial⟩, hmod, hmod⟩

theorem Sound.next {a : FactorAct} (h : s.Sound) (hnext : s.next X a = some s') : s'.Sound := by
  cases a with
  | arrive call =>
      obtain rfl := Option.some.inj hnext
      exact ⟨h.oneTime, h.memory, h.disk⟩
  | begin id secret saved =>
      obtain rfl := Option.some.inj hnext
      obtain ⟨hmemory, hdisk⟩ := totpBegin_remember saved id secret h.memory h.disk
      exact ⟨h.oneTime, hmemory, hdisk⟩
  | reset id saved =>
      obtain rfl := Option.some.inj hnext
      obtain ⟨hmemory, hdisk⟩ := totpDisable_remember saved id h.memory h.disk
      exact ⟨h.oneTime, hmemory, hdisk⟩
  | start saved =>
      obtain rfl := Option.some.inj hnext
      obtain ⟨hmemory, hdisk⟩ := load_remember saved h.disk
      exact ⟨h.oneTime, hmemory, hdisk⟩
  | enable id code codes hashes w =>
      obtain rfl := Option.some.inj hnext
      exact h.enabled id code codes hashes w
  | region i w =>
      obtain ⟨⟨call, stage⟩, hp, rfl⟩ := Option.map_eq_some_iff.mp hnext
      rcases region_cases (X := X) call w stage h.memory h.disk with
        ⟨hquiet, -, hmemory, hdisk⟩ | ⟨id, use, hpassed, -, hone, hmemory, hdisk⟩
      · simp only [hquiet, List.append_nil]
        exact ⟨h.oneTime, hmemory, hdisk⟩
      · simp only [hpassed]
        exact ⟨atEach_append.mpr ⟨h.oneTime, hone⟩, hmemory, hdisk⟩

theorem Sound.held (h : s.Sound) : s.Held X where
  oneTime := h.oneTime
  unsaved := by
    intro i w s' hnext hsaved
    obtain ⟨⟨call, stage⟩, hp, rfl⟩ := Option.map_eq_some_iff.mp hnext
    rcases region_cases (X := X) call w stage h.memory h.disk with
      ⟨hquiet, hstays, -⟩ | ⟨id, use, -, hwritten, -⟩
    · refine ⟨by simp only [hquiet, List.append_nil], fun p hmem hpassed => ?_⟩
      rcases List.mem_or_eq_of_mem_set hmem with hmem | rfl
      · exact hmem
      · rw [hstays hpassed]
        exact List.mem_of_getElem? hp
    · rw [hsaved] at hwritten
      cases hwritten

end FactorState

/-- **One-time codes are one-time**, whatever the clock reads, the writes do
and the handlers' regions interleave to. -/
theorem codes_oneTime {X : FactorPrims} {s : FactorState} (hs : (factorSys X).Reachable s) :
    s.Held X := by
  refine (hs.invariant (P := FactorState.Sound) ?_ ?_).held
  · rintro s ⟨-, hlog, rows, saved, htable⟩
    have hnone : rows.Remember [] := fun id u _ => ⟨by rintro n ⟨⟩, by rintro hash ⟨⟩⟩
    obtain ⟨hmemory, hdisk⟩ := load_remember saved hnone
    rw [← htable] at hmemory hdisk
    exact ⟨by rw [hlog]; exact atEach_nil, by rwa [hlog], by rwa [hlog]⟩
  · rintro s a s' - hsound hnext
    exact hsound.next hnext

/-- An account with one recovery code left. -/
def lastCodeRows : Users :=
  [{ id := "u-1", username := "alice", passwordHash := "argon", totpSecret := some "JBSWY3DP"
     grants := [{ org := .master, role := .viewer }]
     recoveryHashes :=
       ["72399361da6a7754fec986dca5b7cbaf1c810a28ded4abaf56b2106d06cb78b0"] }]

def lastCode : FactorState where
  table := UserTable.load lastCodeRows true

/-- The hashes of that code and that password. -/
def lastCodePrims : FactorPrims where
  hmacSha1 _ _ := []
  sha256Hex s :=
    if s = "abcdefghij" then "72399361da6a7754fec986dca5b7cbaf1c810a28ded4abaf56b2106d06cb78b0"
    else s
  passwordOk password hash := password == "correct horse" && hash == "argon"

/-- It signs in with it, and is refused when it tries again. -/
theorem codes_oneTime_lastCode : ∃ s : FactorState, s.Held lastCodePrims ∧
    (s.log.length, s.calls.map (·.2.isPassed)) = (1, [true, false]) := by
  have hrun : (([.arrive (.login "alice" "correct horse" "abcdefghij" fun _ => true), .region 0 {},
      .region 0 {}, .arrive (.login "alice" "correct horse" "abcdefghij" fun _ => true),
      .region 1 {}, .region 1 {}] : List FactorAct).foldlM
        (FactorState.next lastCodePrims) lastCode).map
          (fun s => (s.log.length, s.calls.map (·.2.isPassed))) = some (1, [true, false]) := by
    decide +kernel
  obtain ⟨s, hs, hview⟩ := Option.map_eq_some_iff.mp hrun
  have hinit : (factorSys lastCodePrims).Reachable lastCode := .init ⟨rfl, rfl, lastCodeRows, true, rfl⟩
  exact ⟨s, codes_oneTime (hinit.foldlM (fun _ _ _ h => h) hs), hview⟩

end Aperio
