import Aperio.Grants
import Aperio.Run

/-!
# Admin keys in two processes

`AdminKeyStore` of `store/admin_keys.rs`, and the table it shares with the
`aperio-server admin` command line. A creation or a revocation is a read of
the table and then a replacement of all of it, so between the two the other
process may have written.

`Current` is the write of a process that still knows what the table holds.
-/

namespace Aperio

/-! ## The store -/

structure AdminKeyRow where
  id : String
  name : String
  keyHash : String
  keyPrefix : String
  role : Role
  orgId : Option String := none
  scope : Option GrantOrg := none
  createdAt : Nat := 0
  expiresAt : Option Nat := none
deriving Repr, DecidableEq

abbrev AdminKeys := List AdminKeyRow

namespace AdminKeyRow

def isExpired (key : AdminKeyRow) (nowSecs : Nat) : Bool :=
  key.expiresAt.any (· ≤ nowSecs)

def legacyScope (role : Role) (orgId : Option String) : GrantOrg :=
  if role = .admin ∧ orgId = none then .all else .ofOrgId orgId

/-- A row without a scope is read the way it behaved. -/
def converted (key : AdminKeyRow) : AdminKeyRow :=
  { key with scope := some (key.scope.getD (legacyScope key.role key.orgId)) }

/-- What a key is known and presented by. -/
def face (key : AdminKeyRow) : String × String :=
  (key.id, key.keyHash)

@[simp] theorem face_converted (key : AdminKeyRow) : key.converted.face = key.face := rfl

end AdminKeyRow

/-- How old the keys in memory may be, in nanoseconds. -/
def rereadEvery : Nat := 1000000000

structure AdminKeyStore where
  keys : AdminKeys
  readAt : Nat
deriving DecidableEq

namespace AdminKeyStore

variable (store : AdminKeyStore)

/-- Reads the table again. `rows` is `none` where the read fails, which keeps
what is in memory. -/
def reread (now : Nat) (rows : Option AdminKeys) : AdminKeyStore where
  keys := (rows.map (·.map AdminKeyRow.converted)).getD store.keys
  readAt := now

/-- `create` after its read: whether the key is given out, and the rows the
table is replaced by, if it is. -/
def createWrite (record : AdminKeyRow) (saved : Bool) :
    Bool × AdminKeyStore × Option AdminKeys :=
  let pushed : AdminKeyStore := { store with keys := store.keys ++ [record] }
  if saved then (true, pushed, some pushed.keys)
  else (false, { pushed with keys := pushed.keys.dropLast }, none)

/-- `revoke` after its read. A removal that could not be written is taken
back. -/
def revokeWrite (id : String) (saved : Bool) : Bool × AdminKeyStore × Option AdminKeys :=
  match store.keys.findIdx? (·.id == id) with
  | none => (false, store, none)
  | some pos =>
    let removed : AdminKeyStore := { store with keys := store.keys.eraseIdx pos }
    if saved then (true, removed, some removed.keys) else (false, store, none)

/-- `verify`, with what a read would give and the hash of the secret. -/
def verify (now nowSecs : Nat) (rows : Option AdminKeys) (hash : String) :
    Option AdminKeyRow × AdminKeyStore :=
  let store := if store.readAt + rereadEvery ≤ now then store.reread now rows else store
  (store.keys.find? fun k => !k.isExpired nowSecs && k.keyHash == hash, store)

end AdminKeyStore

/-! ## Two processes -/

inductive Process where
  | server
  | commandLine
deriving Repr, DecidableEq

inductive AdminKeyCall where
  | create (record : AdminKeyRow)
  | revoke (id : String)
deriving Repr, DecidableEq

/-- A process, between the read and the write of `call` if there is one.
`readOk` remembers whether its last read succeeded; the code does not. -/
structure KeyProcess where
  store : AdminKeyStore
  call : Option AdminKeyCall := none
  readOk : Bool := true
deriving DecidableEq

/-- The table, the processes and the time. `minted` are the keys made so far,
`created` the ones reported as created, and `revoked` what was reported as
revoked, and when. -/
structure KeyState where
  table : AdminKeys
  procs : Process → KeyProcess
  now : Nat
  minted : AdminKeys
  created : AdminKeys
  revoked : List (String × Nat) := []

inductive KeyAct where
  | wait (time : Nat)
  | begin (p : Process) (call : AdminKeyCall) (readOk : Bool)
  | finish (p : Process) (saved : Bool)
  | verify (p : Process) (nowSecs : Nat) (hash : String) (readOk : Bool)
deriving DecidableEq

namespace KeyState

variable (s : KeyState)

/-- What a read gives. -/
def rows (readOk : Bool) : Option AdminKeys :=
  if readOk then some s.table else none

def setProc (p : Process) (proc : KeyProcess) : KeyState :=
  { s with procs := fun q => if q = p then proc else s.procs q }

/-- The read of a call. -/
def begun (p : Process) (call : AdminKeyCall) (readOk : Bool) : KeyState :=
  let s' := s.setProc p
    { store := (s.procs p).store.reread s.now (s.rows readOk), call := some call, readOk := readOk }
  match call with
  | .create record => { s' with minted := record :: s.minted }
  | .revoke _ => s'

/-- The write of a call, and its answer. -/
def finished (p : Process) (call : AdminKeyCall) (saved : Bool) : KeyState :=
  let proc := s.procs p
  match call with
  | .create record =>
    let out := proc.store.createWrite record saved
    let s' := s.setProc p { proc with store := out.2.1, call := none }
    { s' with
      table := out.2.2.getD s.table
      created := if out.1 then record :: s.created else s.created }
  | .revoke id =>
    let out := proc.store.revokeWrite id saved
    let s' := s.setProc p { proc with store := out.2.1, call := none }
    { s' with
      table := out.2.2.getD s.table
      revoked := if out.1 then (id, s.now) :: s.revoked else s.revoked }

/-- A check of a secret, which may read. -/
def verified (p : Process) (nowSecs : Nat) (hash : String) (readOk : Bool) : KeyState :=
  let proc := s.procs p
  let reads := decide (proc.store.readAt + rereadEvery ≤ s.now)
  s.setProc p
    { proc with
      store := (proc.store.verify s.now nowSecs (s.rows readOk) hash).2
      readOk := if reads then readOk else proc.readOk }

/-- A process does one thing after the other. -/
def next : KeyAct → Option KeyState
  | .wait time => some { s with now := s.now + time }
  | .begin p call readOk =>
    if (s.procs p).call = none then some (s.begun p call readOk) else none
  | .finish p saved => ((s.procs p).call).map fun call => s.finished p call saved
  | .verify p nowSecs hash readOk =>
    if (s.procs p).call = none then some (s.verified p nowSecs hash readOk) else none

end KeyState

/-- A new key's id and secret are nobody's yet, as random ones are. -/
def KeyAct.Fresh (s : KeyState) : KeyAct → Prop
  | .begin _ (.create record) _ =>
    ∀ k ∈ s.minted, k.id ≠ record.id ∧ k.keyHash ≠ record.keyHash
  | _ => True

/-- Two processes that have loaded one table. -/
def keySys : Sys KeyState KeyAct where
  init s := (s.table.map (·.id)).Nodup ∧ (s.table.map (·.keyHash)).Nodup ∧
    (∀ p, s.procs p = { store := ⟨s.table.map AdminKeyRow.converted, s.now⟩ }) ∧
      s.minted = s.table ∧ s.created = s.table ∧ s.revoked = []
  step s a s' := s.next a = some s' ∧ a.Fresh s

/-! ## What holds -/

/-- The table is what was created and not revoked, and a revoked key's secret
opens nothing from `rereadEvery` on, as long as reads succeed. -/
structure KeyState.Held (s : KeyState) : Prop where
  table : ∀ face, face ∈ s.table.map AdminKeyRow.face ↔
    face ∈ s.created.map AdminKeyRow.face ∧ ∀ time, (face.1, time) ∉ s.revoked
  refused : ∀ p nowSecs time, ∀ key ∈ s.minted, (key.id, time) ∈ s.revoked →
    time + rereadEvery ≤ s.now → (s.procs p).readOk = true →
      ((s.procs p).store.verify s.now nowSecs (some s.table) key.keyHash).1 = none

/-- What a process is about to write is the table as it is, and its own
change. -/
def KeyState.Current (s : KeyState) (p : Process) : Prop :=
  ∀ call, (s.procs p).call = some call →
    match call with
    | .create _ => ∀ face, face ∈ (s.procs p).store.keys.map AdminKeyRow.face ↔
        face ∈ s.table.map AdminKeyRow.face
    | .revoke id => (∃ key ∈ (s.procs p).store.keys, key.id = id) → ∀ face, face.1 ≠ id →
        (face ∈ (s.procs p).store.keys.map AdminKeyRow.face ↔ face ∈ s.table.map AdminKeyRow.face)

def current (s : KeyState) (a : KeyAct) (_ : KeyState) : Prop :=
  match a with
  | .finish p true => s.Current p
  | _ => True

/-! ## One store -/

namespace AdminKeys

/-- The ids and hashes of a list, row by row. -/
def faces (keys : AdminKeys) : List (String × String) :=
  keys.map AdminKeyRow.face

theorem faces_converted (keys : AdminKeys) :
    faces (keys.map AdminKeyRow.converted) = keys.faces := by
  simp [faces, Function.comp_def]

theorem ids_faces (keys : AdminKeys) : keys.faces.map (·.1) = keys.map (·.id) := by
  simp [faces, AdminKeyRow.face, Function.comp_def]

theorem mem_faces_concat {keys : AdminKeys} {record : AdminKeyRow} {face : String × String} :
    face ∈ faces (keys ++ [record]) ↔ face ∈ keys.faces ∨ face = record.face := by
  rw [faces, List.map_append, List.mem_append, List.map_singleton, List.mem_singleton]
  exact Iff.rfl

theorem mem_erased {keys : AdminKeys} {id : String} {pos : Nat} (hids : (keys.map (·.id)).Nodup)
    (hpos : keys.findIdx? (·.id == id) = some pos) (key : AdminKeyRow) :
    key ∈ keys.eraseIdx pos ↔ key ∈ keys ∧ key.id ≠ id := by
  have herase : keys.eraseIdx pos = keys.eraseP (·.id == id) := by
    rw [List.eraseP_eq_eraseIdx, hpos]
  rw [herase]
  clear hpos herase
  induction keys with
  | nil => simp
  | cons k rest ih =>
      rw [List.map_cons, List.nodup_cons] at hids
      have hrest := ih hids.2
      by_cases hk : k.id = id
      · rw [List.eraseP_cons_of_pos (by simpa using hk)]
        constructor
        · intro h
          refine ⟨List.mem_cons_of_mem _ h, fun heq => hids.1 ?_⟩
          rw [hk, ← heq]
          exact List.mem_map_of_mem h
        · rintro ⟨h, hne⟩
          rcases List.mem_cons.mp h with rfl | h
          · exact absurd hk hne
          · exact h
      · rw [List.eraseP_cons_of_neg (by simpa using hk), List.mem_cons, List.mem_cons]
        constructor
        · rintro (rfl | h)
          · exact ⟨.inl rfl, hk⟩
          · exact ⟨.inr (hrest.mp h).1, (hrest.mp h).2⟩
        · rintro ⟨rfl | h, hne⟩
          · exact .inl rfl
          · exact .inr (hrest.mpr ⟨h, hne⟩)

end AdminKeys

namespace AdminKeyStore

variable {store : AdminKeyStore}

theorem createWrite_cases (store : AdminKeyStore) (record : AdminKeyRow) (saved : Bool) :
    store.createWrite record saved =
      if saved then (true, { store with keys := store.keys ++ [record] },
        some (store.keys ++ [record])) else (false, store, none) := by
  cases saved with
  | false => simp [createWrite]
  | true => rfl

/-- A revocation that succeeds has taken the one key of this id out. -/
theorem revokeWrite_cases (hids : (store.keys.map (·.id)).Nodup) (id : String) (saved : Bool) :
    store.revokeWrite id saved = (false, store, none) ∨
      ∃ keys : AdminKeys, store.revokeWrite id saved = (true, { store with keys }, some keys) ∧
        saved = true ∧ (∃ key ∈ store.keys, key.id = id) ∧ keys.Sublist store.keys ∧
          ∀ key, key ∈ keys ↔ key ∈ store.keys ∧ key.id ≠ id := by
  rw [revokeWrite]
  cases hpos : store.keys.findIdx? (·.id == id) with
  | none => exact .inl rfl
  | some pos =>
      cases saved with
      | false => exact .inl rfl
      | true =>
          refine .inr ⟨_, rfl, rfl, ?_, List.eraseIdx_sublist _ _, AdminKeys.mem_erased hids hpos⟩
          obtain ⟨hlt, hid, -⟩ := List.findIdx?_eq_some_iff_getElem.mp hpos
          exact ⟨_, List.getElem_mem hlt, by simpa using hid⟩

end AdminKeyStore

/-! ## Every state -/

/-- A process remembers keys that were created, and of those revoked only
ones that were when it read last. -/
structure KeyState.Knows (s : KeyState) (proc : KeyProcess) : Prop where
  ids : (proc.store.keys.map (·.id)).Nodup
  created : ∀ face ∈ proc.store.keys.faces, face ∈ s.created.faces
  readAt : proc.store.readAt ≤ s.now
  recent : proc.readOk = true → ∀ face ∈ proc.store.keys.faces, ∀ time,
    (face.1, time) ∈ s.revoked → proc.store.readAt ≤ time
  pending : ∀ record, proc.call = some (.create record) → record ∈ s.minted ∧
    record.id ∉ s.created.map (·.id)

structure KeyState.Sound (s : KeyState) : Prop where
  ids : (s.minted.map (·.id)).Nodup
  hashes : (s.minted.map (·.keyHash)).Nodup
  minted : ∀ key ∈ s.created, key ∈ s.minted
  tableIds : (s.table.map (·.id)).Nodup
  table : ∀ face, face ∈ s.table.faces ↔
    face ∈ s.created.faces ∧ ∀ time, (face.1, time) ∉ s.revoked
  revoked : ∀ e ∈ s.revoked, e.2 ≤ s.now ∧ e.1 ∈ s.created.map (·.id)
  procs : ∀ p, s.Knows (s.procs p)
  apart : ∀ p q record record', p ≠ q → (s.procs p).call = some (.create record) →
    (s.procs q).call = some (.create record') → record.id ≠ record'.id

namespace KeyState

variable {s s' : KeyState} {p : Process} {proc : KeyProcess}

theorem setProc_procs (s : KeyState) (p q : Process) (proc : KeyProcess) :
    (s.setProc p proc).procs q = if q = p then proc else s.procs q := rfl

/-- What a process knows it still knows when others have gone on. -/
theorem Knows.later (h : s.Knows proc) (hnow : s.now ≤ s'.now)
    (hcreated : ∀ face ∈ s.created.faces, face ∈ s'.created.faces)
    (hrevoked : ∀ e ∈ s'.revoked, e ∈ s.revoked ∨ s.now ≤ e.2)
    (hminted : ∀ key ∈ s.minted, key ∈ s'.minted)
    (hpending : ∀ record, proc.call = some (.create record) →
      record.id ∉ s'.created.map (·.id)) : s'.Knows proc where
  ids := h.ids
  created := fun face hface => hcreated face (h.created face hface)
  readAt := h.readAt.trans hnow
  recent := by
    intro hok face hface time htime
    rcases hrevoked _ htime with hold | hnew
    · exact h.recent hok face hface time hold
    · exact h.readAt.trans hnew
  pending := fun record hcall => ⟨hminted record (h.pending record hcall).1, hpending record hcall⟩

/-- A key that a process remembers was created under its id. -/
theorem Knows.id_created (h : s.Knows proc) {key : AdminKeyRow} (hkey : key ∈ proc.store.keys) :
    key.id ∈ s.created.map (·.id) := by
  obtain ⟨c, hc, hface⟩ := List.mem_map.mp (h.created key.face (List.mem_map_of_mem hkey))
  exact List.mem_map.mpr ⟨c, hc, congrArg Prod.fst hface⟩

/-- A process that has just read, or tried to. -/
theorem Sound.knows_reread (h : s.Sound) (p : Process) (readOk : Bool)
    (call : Option AdminKeyCall) (hcall : ∀ record, call = some (.create record) →
      record ∈ s.minted ∧ record.id ∉ s.created.map (·.id)) :
    s.Knows { store := (s.procs p).store.reread s.now (s.rows readOk), call, readOk } := by
  have hp := h.procs p
  cases readOk with
  | false =>
      refine ⟨hp.ids, hp.created, Nat.le_refl _, ?_, hcall⟩
      intro hok
      cases hok
  | true =>
      have hfaces : ((s.procs p).store.reread s.now (s.rows true)).keys.faces = s.table.faces :=
        AdminKeys.faces_converted s.table
      refine ⟨?_, ?_, Nat.le_refl _, ?_, hcall⟩
      · rw [← AdminKeys.ids_faces, hfaces, AdminKeys.ids_faces]
        exact h.tableIds
      · rw [hfaces]
        exact fun face hface => ((h.table face).mp hface).1
      · rw [hfaces]
        intro _ face hface time htime
        exact absurd htime (((h.table face).mp hface).2 time)

/-- Two creations on their way stay apart while none is begun. -/
theorem setProc_apart (h : s.Sound)
    (hcall : ∀ record, proc.call = some (.create record) → (s.procs p).call = proc.call)
    (q r : Process) (record record' : AdminKeyRow) (hne : q ≠ r)
    (hq : ((s.setProc p proc).procs q).call = some (.create record))
    (hr : ((s.setProc p proc).procs r).call = some (.create record')) :
    record.id ≠ record'.id := by
  have hcalls : ∀ q record, ((s.setProc p proc).procs q).call = some (.create record) →
      (s.procs q).call = some (.create record) := by
    intro q record hq
    rw [setProc_procs] at hq
    split at hq
    · rename_i heq
      rw [heq, hcall record hq, hq]
    · exact hq
  exact h.apart q r record record' hne (hcalls q record hq) (hcalls r record' hr)

theorem setProc_sound (h : s.Sound) (hknows : s.Knows proc)
    (hcall : ∀ record, proc.call = some (.create record) → (s.procs p).call = proc.call) :
    (s.setProc p proc).Sound where
  ids := h.ids
  hashes := h.hashes
  minted := h.minted
  tableIds := h.tableIds
  table := h.table
  revoked := h.revoked
  procs := by
    intro q
    rw [setProc_procs]
    split
    · exact ⟨hknows.ids, hknows.created, hknows.readAt, hknows.recent, hknows.pending⟩
    · have hq := h.procs q
      exact ⟨hq.ids, hq.created, hq.readAt, hq.recent, hq.pending⟩
  apart := setProc_apart h hcall

theorem Sound.verified (h : s.Sound) (p : Process) (nowSecs : Nat) (hash : String)
    (readOk : Bool) (hidle : (s.procs p).call = none) :
    (s.verified p nowSecs hash readOk).Sound := by
  have hp := h.procs p
  simp only [KeyState.verified, AdminKeyStore.verify]
  refine setProc_sound h ?_ fun _ _ => rfl
  by_cases hreads : (s.procs p).store.readAt + rereadEvery ≤ s.now
  · simp only [hreads, if_true, decide_true]
    have hknows := h.knows_reread p readOk none (by rintro record ⟨⟩)
    rw [hidle]
    exact hknows
  · simp only [hreads, if_false, decide_false, Bool.false_eq_true]
    exact ⟨hp.ids, hp.created, hp.readAt, hp.recent, hp.pending⟩

theorem Sound.begun (h : s.Sound) (p : Process) (call : AdminKeyCall) (readOk : Bool)
    (hfresh : (KeyAct.begin p call readOk).Fresh s) :
    (s.begun p call readOk).Sound := by
  cases call with
  | revoke id =>
      refine setProc_sound h (h.knows_reread p readOk _ ?_) ?_
      · rintro record ⟨⟩
      · rintro record ⟨⟩
  | create record =>
      -- The key is made first, and the table read then.
      have hfresh' : ∀ k ∈ s.minted, k.id ≠ record.id ∧ k.keyHash ≠ record.keyHash := hfresh
      have hnew : record.id ∉ s.created.map (·.id) := by
        intro hmem
        obtain ⟨k, hk, hid⟩ := List.mem_map.mp hmem
        exact (hfresh' k (h.minted k hk)).1 hid
      have hcalls : ∀ q r, (s.procs q).call = some (.create r) → r.id ≠ record.id := fun q r hq =>
        (hfresh' r ((h.procs q).pending r hq).1).1
      have hmade : { s with minted := record :: s.minted }.Sound := by
        refine ⟨?_, ?_, fun k hk => List.mem_cons_of_mem _ (h.minted k hk), h.tableIds, h.table,
          h.revoked, fun q => ?_, h.apart⟩
        · refine List.nodup_cons.mpr ⟨fun hmem => ?_, h.ids⟩
          obtain ⟨k, hk, hid⟩ := List.mem_map.mp hmem
          exact (hfresh' k hk).1 hid
        · refine List.nodup_cons.mpr ⟨fun hmem => ?_, h.hashes⟩
          obtain ⟨k, hk, hid⟩ := List.mem_map.mp hmem
          exact (hfresh' k hk).2 hid
        · exact (h.procs q).later (Nat.le_refl _) (fun _ hf => hf) (fun _ he => .inl he)
            (fun k hk => List.mem_cons_of_mem _ hk)
            fun r hr => ((h.procs q).pending r hr).2
      have hknows := hmade.knows_reread p readOk (some (.create record)) (by
        rintro r ⟨⟩
        exact ⟨List.mem_cons_self, hnew⟩)
      have hrow : { s with minted := record :: s.minted }.rows readOk = s.rows readOk := rfl
      rw [hrow] at hknows
      refine ⟨hmade.ids, hmade.hashes, hmade.minted, h.tableIds, h.table, h.revoked, ?_, ?_⟩
      · intro q
        simp only [KeyState.begun, setProc_procs]
        split
        · exact ⟨hknows.ids, hknows.created, hknows.readAt, hknows.recent, hknows.pending⟩
        · have hq := hmade.procs q
          exact ⟨hq.ids, hq.created, hq.readAt, hq.recent, hq.pending⟩
      · intro q r a b hne hq hr
        simp only [KeyState.begun, setProc_procs] at hq hr
        split at hq
        · rename_i heq
          rw [if_neg fun hrp => hne (heq.trans hrp.symm)] at hr
          cases hq
          exact (hcalls r b hr).symm
        · split at hr
          · cases hr
            exact hcalls q a hq
          · exact h.apart q r a b hne hq hr

/-- A call that is not saved, or finds nothing to revoke, is only over. -/
theorem Sound.over (h : s.Sound) (p : Process) :
    (s.setProc p { s.procs p with call := none }).Sound := by
  have hp := h.procs p
  refine setProc_sound h ⟨hp.ids, hp.created, hp.readAt, hp.recent, ?_⟩ ?_
  · rintro record ⟨⟩
  · rintro record ⟨⟩

theorem Sound.create_saved (h : s.Sound) (p : Process) {record : AdminKeyRow}
    (hcall : (s.procs p).call = some (.create record))
    (hsame : ∀ face, face ∈ (s.procs p).store.keys.faces ↔ face ∈ s.table.faces) :
    KeyState.Sound
      { s.setProc p { s.procs p with
          store := { (s.procs p).store with keys := (s.procs p).store.keys ++ [record] }
          call := none } with
        table := (s.procs p).store.keys ++ [record]
        created := record :: s.created } := by
  have hp := h.procs p
  obtain ⟨hminted, hnew⟩ := hp.pending record hcall
  have hids : (((s.procs p).store.keys ++ [record]).map (·.id)).Nodup := by
    rw [List.map_append, List.nodup_append]
    refine ⟨hp.ids, by simp, ?_⟩
    rintro _ hmem _ hid rfl
    rw [List.map_singleton, List.mem_singleton] at hid
    obtain ⟨k, hk, rfl⟩ := List.mem_map.mp hmem
    exact hnew (hid ▸ hp.id_created hk)
  have hcons : ∀ face, face ∈ AdminKeys.faces (record :: s.created) ↔
      face = record.face ∨ face ∈ s.created.faces := fun _ => List.mem_cons
  have hunrevoked : ∀ time, (record.id, time) ∉ s.revoked := fun time htime =>
    hnew (h.revoked _ htime).2
  refine ⟨h.ids, h.hashes, ?_, hids, ?_, ?_, ?_, setProc_apart h (by rintro record ⟨⟩)⟩
  · intro k hk
    rcases List.mem_cons.mp hk with rfl | hk
    · exact hminted
    · exact h.minted k hk
  · intro face
    refine AdminKeys.mem_faces_concat.trans (Iff.trans ?_ (and_congr_left' (hcons face).symm))
    rw [hsame, h.table]
    constructor
    · rintro (⟨hc, hr⟩ | rfl)
      · exact ⟨.inr hc, hr⟩
      · exact ⟨.inl rfl, hunrevoked⟩
    · rintro ⟨rfl | hc, hr⟩
      · exact .inr rfl
      · exact .inl ⟨hc, hr⟩
  · intro e he
    obtain ⟨hle, hmem⟩ := h.revoked e he
    exact ⟨hle, List.mem_cons_of_mem _ hmem⟩
  · intro q
    rw [setProc_procs]
    split
    · refine ⟨hids, ?_, hp.readAt, ?_, ?_⟩
      · intro face hface
        rcases AdminKeys.mem_faces_concat.mp hface with hface | rfl
        · exact (hcons face).mpr (.inr (hp.created face hface))
        · exact (hcons _).mpr (.inl rfl)
      · intro hok face hface time htime
        rcases AdminKeys.mem_faces_concat.mp hface with hface | rfl
        · exact hp.recent hok face hface time htime
        · exact absurd htime (hunrevoked time)
      · rintro r ⟨⟩
    · rename_i hne
      refine (h.procs q).later (Nat.le_refl _)
        (fun face hface => (hcons face).mpr (.inr hface)) (fun _ he => .inl he)
        (fun _ hk => hk) ?_
      intro r hr hmem
      rcases List.mem_cons.mp hmem with hid | hmem
      · exact h.apart q p r record hne hr hcall hid
      · exact ((h.procs q).pending r hr).2 hmem

theorem Sound.revoke_saved (h : s.Sound) (p : Process) {id : String} {keys : AdminKeys}
    (hfound : ∃ key ∈ (s.procs p).store.keys, key.id = id)
    (hsub : keys.Sublist (s.procs p).store.keys)
    (hkeys : ∀ key, key ∈ keys ↔ key ∈ (s.procs p).store.keys ∧ key.id ≠ id)
    (hsame : ∀ face : String × String, face.1 ≠ id →
      (face ∈ (s.procs p).store.keys.faces ↔ face ∈ s.table.faces)) :
    KeyState.Sound
      { s.setProc p { s.procs p with store := { (s.procs p).store with keys }, call := none } with
        table := keys
        revoked := (id, s.now) :: s.revoked } := by
  have hp := h.procs p
  have hfaces : ∀ face, face ∈ keys.faces ↔
      face ∈ (s.procs p).store.keys.faces ∧ face.1 ≠ id := by
    intro face
    constructor
    · intro hface
      obtain ⟨k, hk, rfl⟩ := List.mem_map.mp hface
      obtain ⟨hk, hne⟩ := (hkeys k).mp hk
      exact ⟨List.mem_map_of_mem hk, hne⟩
    · rintro ⟨hface, hne⟩
      obtain ⟨k, hk, rfl⟩ := List.mem_map.mp hface
      exact List.mem_map_of_mem ((hkeys k).mpr ⟨hk, hne⟩)
  have hids : (keys.map (·.id)).Nodup := List.Nodup.sublist (hsub.map _) hp.ids
  refine ⟨h.ids, h.hashes, h.minted, hids, ?_, ?_, ?_, setProc_apart h (by rintro record ⟨⟩)⟩
  · intro face
    refine (hfaces face).trans ?_
    simp only [List.mem_cons, not_or]
    constructor
    · rintro ⟨hface, hne⟩
      obtain ⟨hc, hr⟩ := (h.table face).mp ((hsame face hne).mp hface)
      exact ⟨hc, fun time => ⟨fun heq => hne (Prod.mk.inj heq).1, hr time⟩⟩
    · rintro ⟨hc, hr⟩
      have hne : face.1 ≠ id := fun heq => (hr s.now).1 (by rw [heq])
      exact ⟨(hsame face hne).mpr ((h.table face).mpr ⟨hc, fun time => (hr time).2⟩), hne⟩
  · intro e he
    rcases List.mem_cons.mp he with rfl | he
    · obtain ⟨k, hk, rfl⟩ := hfound
      exact ⟨Nat.le_refl _, hp.id_created hk⟩
    · exact h.revoked e he
  · intro q
    rw [setProc_procs]
    split
    · refine ⟨hids, fun face hface => hp.created face ((hfaces face).mp hface).1, hp.readAt,
        ?_, ?_⟩
      · intro hok face hface time htime
        obtain ⟨hface, hne⟩ := (hfaces face).mp hface
        rcases List.mem_cons.mp htime with heq | htime
        · exact absurd (Prod.mk.inj heq).1 hne
        · exact hp.recent hok face hface time htime
      · rintro r ⟨⟩
    · refine (h.procs q).later (Nat.le_refl _) (fun _ hface => hface) ?_ (fun _ hk => hk)
        fun r hr => ((h.procs q).pending r hr).2
      intro e he
      rcases List.mem_cons.mp he with rfl | he
      · exact .inr (Nat.le_refl _)
      · exact .inl he

theorem Sound.finished (h : s.Sound) (p : Process) {call : AdminKeyCall} (saved : Bool)
    (hcall : (s.procs p).call = some call) (hcurrent : saved = true → s.Current p) :
    (s.finished p call saved).Sound := by
  cases call with
  | create record =>
      simp only [KeyState.finished, AdminKeyStore.createWrite_cases]
      cases saved with
      | false => exact h.over p
      | true => exact h.create_saved p hcall (hcurrent rfl _ hcall)
  | revoke id =>
      rcases AdminKeyStore.revokeWrite_cases (h.procs p).ids id saved with
        hw | ⟨keys, hw, hsaved, hfound, hsub, hkeys⟩
      · simp only [KeyState.finished, hw]
        exact h.over p
      · simp only [KeyState.finished, hw, if_true, Option.getD_some]
        exact h.revoke_saved p hfound hsub hkeys (hcurrent hsaved _ hcall hfound)

end KeyState

namespace KeyState

theorem Sound.next {s s' : KeyState} {a : KeyAct} (h : s.Sound) (hnext : s.next a = some s')
    (hfresh : a.Fresh s) (hcurrent : current s a s') : s'.Sound := by
  cases a with
  | wait time =>
      obtain rfl := Option.some.inj hnext
      refine ⟨h.ids, h.hashes, h.minted, h.tableIds, h.table, ?_, fun p => ?_, h.apart⟩
      · intro e he
        obtain ⟨hle, hmem⟩ := h.revoked e he
        exact ⟨hle.trans (Nat.le_add_right _ _), hmem⟩
      · exact (h.procs p).later (Nat.le_add_right _ _) (fun _ hf => hf) (fun _ he => .inl he)
          (fun _ hk => hk) fun r hr => ((h.procs p).pending r hr).2
  | begin p call readOk =>
      obtain ⟨hidle, heq⟩ := Option.ite_none_right_eq_some.mp hnext
      obtain rfl := Option.some.inj heq
      exact h.begun p call readOk hfresh
  | verify p nowSecs hash readOk =>
      obtain ⟨hidle, heq⟩ := Option.ite_none_right_eq_some.mp hnext
      obtain rfl := Option.some.inj heq
      exact h.verified p nowSecs hash readOk hidle
  | finish p saved =>
      obtain ⟨call, hcall, rfl⟩ := Option.map_eq_some_iff.mp hnext
      refine h.finished p saved hcall fun hsaved => ?_
      rw [hsaved] at hcurrent
      exact hcurrent

/-- A key that is found is one of those made, so it is known by its hash. -/
theorem Sound.refused {s : KeyState} (h : s.Sound) (p : Process) (nowSecs time : Nat)
    {key : AdminKeyRow} (hkey : key ∈ s.minted) (hrevoked : (key.id, time) ∈ s.revoked)
    (htime : time + rereadEvery ≤ s.now) (hok : (s.procs p).readOk = true) :
    ((s.procs p).store.verify s.now nowSecs (some s.table) key.keyHash).1 = none := by
  have hp := h.procs p
  have hminted : ∀ face ∈ s.created.faces, face.2 = key.keyHash → face = key.face := by
    intro face hface hhash
    obtain ⟨c, hc, rfl⟩ := List.mem_map.mp hface
    rw [List.inj_on_of_nodup_map h.hashes (h.minted c hc) hkey hhash]
  have hfound : ∀ keys : AdminKeys, (∀ face ∈ keys.faces, face ∈ s.created.faces) →
      key.face ∉ keys.faces →
        (keys.find? fun k => !k.isExpired nowSecs && k.keyHash == key.keyHash) = none := by
    intro keys hcreated hnot
    rw [List.find?_eq_none]
    intro k hk hmatch
    simp only [Bool.and_eq_true, beq_iff_eq] at hmatch
    have hface : k.face ∈ keys.faces := List.mem_map_of_mem hk
    exact hnot (hminted k.face (hcreated _ hface) hmatch.2 ▸ hface)
  simp only [AdminKeyStore.verify]
  split
  · -- The table is read, and the key is not in it.
    have hfaces : ((s.procs p).store.reread s.now (some s.table)).keys.faces = s.table.faces :=
      AdminKeys.faces_converted s.table
    refine hfound _ ?_ ?_
    · rw [hfaces]
      exact fun face hface => ((h.table face).mp hface).1
    · rw [hfaces]
      exact fun hface => ((h.table _).mp hface).2 time hrevoked
  · -- The last read was after the revocation.
    rename_i hrecent
    refine hfound _ hp.created fun hface => ?_
    have hafter := hp.recent hok _ hface time hrevoked
    omega

theorem Sound.held {s : KeyState} (h : s.Sound) : s.Held where
  table := h.table
  refused := fun p nowSecs time _ hkey hrevoked htime hok =>
    h.refused p nowSecs time hkey hrevoked htime hok

end KeyState

/-- **A revoked key stays revoked**, in every run in which no write is of a
table that has changed since it was read. -/
theorem admin_keys_revoked {s : KeyState} (hs : (keySys.restrict current).Reachable s) :
    s.Held := by
  refine (hs.invariant (P := KeyState.Sound) ?_ ?_).held
  · rintro s ⟨hids, hhashes, hprocs, hminted, hcreated, hrevoked⟩
    refine ⟨by rwa [hminted], by rwa [hminted], ?_, hids, ?_, ?_, fun p => ?_, ?_⟩
    · rw [hminted, hcreated]
      exact fun _ hkey => hkey
    · simp [hcreated, hrevoked]
    · simp [hrevoked]
    · rw [hprocs]
      refine ⟨?_, ?_, Nat.le_refl _, ?_, ?_⟩
      · rw [← AdminKeys.ids_faces, AdminKeys.faces_converted, AdminKeys.ids_faces]
        exact hids
      · rw [AdminKeys.faces_converted, hcreated]
        exact fun _ hface => hface
      · rw [hrevoked]
        rintro - face - time ⟨⟩
      · rintro record ⟨⟩
    · intro p q record record' _ hp
      rw [hprocs] at hp
      cases hp
  · rintro s a s' - hsound ⟨⟨hnext, hfresh⟩, hcurrent⟩
    exact hsound.next hnext hfresh hcurrent

/-! ## One key -/

instance (s : KeyState) : (a : KeyAct) → Decidable (a.Fresh s)
  | .begin _ (.create record) _ =>
    inferInstanceAs (Decidable (∀ k ∈ s.minted, k.id ≠ record.id ∧ k.keyHash ≠ record.keyHash))
  | .begin _ (.revoke _) _ => inferInstanceAs (Decidable True)
  | .wait _ => inferInstanceAs (Decidable True)
  | .finish _ _ => inferInstanceAs (Decidable True)
  | .verify _ _ _ _ => inferInstanceAs (Decidable True)

/-- A run over acts whose keys are new. -/
def KeyState.run (s : KeyState) (acts : List KeyAct) : Option KeyState :=
  acts.foldlM (fun s a => if a.Fresh s then s.next a else none) s

def pulled : AdminKeyRow where
  id := "k-1"
  name := "ci"
  keyHash := "h-1"
  keyPrefix := "apk_1"
  role := .admin
  scope := some .all

/-- Both processes know the one key. -/
def oneKey : KeyState where
  table := [pulled]
  procs _ := { store := ⟨[pulled.converted], 0⟩ }
  now := 0
  minted := [pulled]
  created := [pulled]

theorem oneKey_init : keySys.init oneKey :=
  ⟨List.nodup_singleton _, List.nodup_singleton _, fun _ => rfl, rfl, rfl, rfl⟩

theorem oneKey_run {α : Type} (acts : List KeyAct) {view : KeyState → α} {seen : α}
    (h : (oneKey.run acts).map view = some seen) : ∃ s, keySys.Reachable s ∧ view s = seen := by
  obtain ⟨s, hs, hview⟩ := Option.map_eq_some_iff.mp h
  refine ⟨s, Sys.Reachable.foldlM (.init oneKey_init) ?_ hs, hview⟩
  intro s a s' hnext
  rw [Option.ite_none_right_eq_some] at hnext
  exact ⟨hnext.2, hnext.1⟩

/-- The key is pulled on the command line. -/
theorem admin_keys_revoked_once : ∃ s : KeyState, s.Held ∧ s.table = [] ∧
    s.revoked = [("k-1", 0)] := by
  have hbegun : (keySys.restrict current).Reachable
      (oneKey.begun .commandLine (.revoke "k-1") true) :=
    .step (.init oneKey_init) (a := .begin .commandLine (.revoke "k-1") true)
      ⟨⟨rfl, trivial⟩, trivial⟩
  have hdone : (keySys.restrict current).Reachable
      ((oneKey.begun .commandLine (.revoke "k-1") true).finished .commandLine (.revoke "k-1")
        true) := by
    refine .step hbegun (a := .finish .commandLine true) ⟨⟨rfl, trivial⟩, ?_⟩
    intro call hcall
    cases hcall
    rintro - face -
    exact Iff.rfl
  exact ⟨_, admin_keys_revoked hdone, rfl, rfl⟩

/-- The server creates a key while the command line pulls one. -/
def lostRevocation : List KeyAct :=
  [.begin .server (.create { pulled with id := "k-2", keyHash := "h-2" }) true,
    .begin .commandLine (.revoke "k-1") true, .finish .commandLine true, .finish .server true,
    .wait (2 * rereadEvery)]

/-- The pulled key is back in the table, and opens the server again. -/
theorem admin_keys_resurrected : ∃ s, keySys.Reachable s ∧ ¬s.Held ∧
    (s.table.map AdminKeyRow.face, s.revoked) = ([("k-1", "h-1"), ("k-2", "h-2")], [("k-1", 0)]) ∧
      (((s.procs .server).store.verify s.now 0 (some s.table) "h-1").1.map (·.id)) =
        some "k-1" := by
  have hrun : (oneKey.run lostRevocation).map (fun s => ((s.table.map AdminKeyRow.face, s.revoked),
      ((s.procs .server).store.verify s.now 0 (some s.table) "h-1").1.map (·.id))) =
        some (([("k-1", "h-1"), ("k-2", "h-2")], [("k-1", 0)]), some "k-1") := by
    decide +kernel
  obtain ⟨s, hs, hview⟩ := oneKey_run lostRevocation hrun
  obtain ⟨htable, haccepts⟩ := Prod.mk.inj hview
  refine ⟨s, hs, fun hheld => ?_, htable, haccepts⟩
  obtain ⟨hfaces, hrevoked⟩ := Prod.mk.inj htable
  have hface : ("k-1", "h-1") ∈ s.table.map AdminKeyRow.face := by
    rw [hfaces]
    exact List.mem_cons_self
  refine ((hheld.table _).mp hface).2 0 ?_
  rw [hrevoked]
  exact List.mem_cons_self

end Aperio
