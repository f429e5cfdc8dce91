import Aperio.Users

/-!
# The account table under every write

`UserWrite` is one lock region of the account store, whichever handler it
belongs to. What every later result needs of them is said once here: a write
changes nothing, appends one row under a name nobody had, rewrites one row
in place, or takes a row out; so the ids and the names stay distinct.
-/

namespace Aperio

/-! ## Rows and their names -/

/-- An update of the flags leaves who the account is and what it holds. -/
theorem User.updated_ok {u u' out : User} {enabled : Option Bool}
    {password : Option (String × String)} (h : u.updated enabled password = .ok (u', out)) :
    u'.id = u.id ∧ u'.username = u.username ∧ u'.grants = u.grants := by
  simp only [updated] at h
  split at h
  · cases h
    exact ⟨rfl, rfl, rfl⟩
  · split at h
    · cases h
    · cases h
      exact ⟨rfl, rfl, rfl⟩

namespace Users

/-- The ids and the names, row by row. -/
def idNames (users : Users) : List (String × String) :=
  users.map fun u => (u.id, u.username)

/-- Ids are distinct, names are distinct in every letter case, and a name is
stored trimmed. -/
structure Kept (users : Users) : Prop where
  ids : (users.idNames.map (·.1)).Nodup
  names : (users.idNames.map fun a => toAsciiLowercase a.2).Nodup
  trimmed : ∀ a ∈ users.idNames, trim a.2 = a.2

variable {users : Users} {id : String} {u w : User}

theorem mem_idNames (hu : u ∈ users) : (u.id, u.username) ∈ users.idNames :=
  List.mem_map.mpr ⟨u, hu, rfl⟩

theorem exists_of_mem_idNames {p : String × String} (h : p ∈ users.idNames) :
    ∃ u ∈ users, u.id = p.1 ∧ u.username = p.2 := by
  obtain ⟨u, hu, rfl⟩ := List.mem_map.mp h
  exact ⟨u, hu, rfl, rfl⟩

theorem mem_of_get (h : users.get id = some u) : u ∈ users ∧ u.id = id := by
  have hid := List.find?_some h
  exact ⟨List.mem_of_find?_eq_some h, by simpa using hid⟩

namespace Kept

theorem eq_of_id (hk : users.Kept) (hu : u ∈ users) (hw : w ∈ users) (h : u.id = w.id) :
    u = w := by
  have hnodup : (users.map (·.id)).Nodup := by
    have := hk.ids
    simpa [idNames, List.map_map, Function.comp_def] using this
  exact List.inj_on_of_nodup_map hnodup hu hw h

theorem eq_of_name (hk : users.Kept) (hu : u ∈ users) (hw : w ∈ users)
    (h : eqIgnoreAsciiCase u.username w.username = true) : u = w := by
  have hnodup : (users.map fun u => toAsciiLowercase u.username).Nodup := by
    have := hk.names
    simpa [idNames, List.map_map, Function.comp_def] using this
  exact List.inj_on_of_nodup_map hnodup hu hw (by simpa [eqIgnoreAsciiCase] using h)

theorem get_eq (hk : users.Kept) (hu : u ∈ users) : users.get u.id = some u := by
  obtain ⟨w, hw⟩ : ∃ w, users.get u.id = some w := by
    rw [← Option.isSome_iff_exists, Users.get, List.find?_isSome]
    exact ⟨u, hu, by simp⟩
  obtain ⟨hmem, hid⟩ := mem_of_get hw
  rw [hw, hk.eq_of_id hmem hu hid]

theorem hasName_iff (hk : users.Kept) (hu : u ∈ users) (hw : w ∈ users) :
    u.hasName w.username = true ↔ u = w := by
  rw [User.hasName, hk.trimmed _ (mem_idNames hw)]
  constructor
  · exact hk.eq_of_name hu hw
  · rintro rfl
    exact eqIgnoreAsciiCase_refl _

/-- A row is found under its own name while it is enabled. -/
theorem findByUsername_eq (hk : users.Kept) (hw : w ∈ users) :
    users.findByUsername w.username = if w.enabled then some w else none := by
  cases hfind : users.findByUsername w.username with
  | some u =>
      have hprop := List.find?_some hfind
      have hmem := List.mem_of_find?_eq_some hfind
      simp only [Bool.and_eq_true] at hprop
      obtain rfl := (hk.hasName_iff hmem hw).mp hprop.2
      simp [hprop.1]
  | none =>
      rw [findByUsername, List.find?_eq_none] at hfind
      have hself := hfind w hw
      rw [Bool.and_eq_true, (hk.hasName_iff hw hw).mpr rfl] at hself
      simpa using hself

/-- A row answers for its own name while it is disabled. -/
theorem isDisabledUsername_eq (hk : users.Kept) (hw : w ∈ users) :
    users.isDisabledUsername w.username = !w.enabled := by
  rw [Bool.eq_iff_iff, isDisabledUsername, List.any_eq_true]
  constructor
  · rintro ⟨u, hu, hprop⟩
    simp only [Bool.and_eq_true] at hprop
    obtain rfl := (hk.hasName_iff hu hw).mp hprop.2
    exact hprop.1
  · intro h
    exact ⟨w, hw, by rw [Bool.and_eq_true]; exact ⟨h, (hk.hasName_iff hw hw).mpr rfl⟩⟩

end Kept

/-! ## One row rewritten -/

/-- Rewriting the row found under an id to one of the same id and name leaves
the names as they are. -/
theorem idNames_modify :
    ∀ {users : Users} {u u' : User}, users.get id = some u → u'.id = u.id →
      u'.username = u.username → idNames (users.modify id fun _ => u') = users.idNames := by
  intro users
  induction users with
  | nil =>
      intro u u' h _ _
      cases h
  | cons x rest ih =>
      intro u u' h hid hname
      simp only [get, List.find?_cons] at h
      by_cases hx : (x.id == id) = true
      · rw [hx] at h
        obtain rfl := Option.some.inj h
        simp [modify, hx, idNames, hid, hname]
      · simp only [hx] at h
        have hrest := ih h hid hname
        simp only [idNames, modify, hx, Bool.false_eq_true, if_false, List.map_cons] at hrest ⊢
        rw [hrest]

theorem mem_modify :
    ∀ {users : Users} {u' : User} {x : User}, x ∈ users.modify id (fun _ => u') →
      x ∈ users ∨ x = u' := by
  intro users
  induction users with
  | nil =>
      intro u' x h
      cases h
  | cons y rest ih =>
      intro u' x h
      rw [modify] at h
      split at h
      · rcases List.mem_cons.mp h with rfl | h
        · exact Or.inr rfl
        · exact Or.inl (List.mem_cons_of_mem _ h)
      · rcases List.mem_cons.mp h with rfl | h
        · exact Or.inl List.mem_cons_self
        · exact (ih h).imp_left (List.mem_cons_of_mem _)

/-- What a committed change of one row leaves: the table, or the table with
that row rewritten. -/
theorem commit_changeRow {R : Type} {saved : Bool} {f : User → Except UserError (User × R)} :
    (users.commit saved (users.changeRow id f)).2 = users ∨
      ∃ u u' out, users.get id = some u ∧ f u = .ok (u', out) ∧
        (users.commit saved (users.changeRow id f)).2 = users.modify id fun _ => u' := by
  simp only [changeRow]
  cases hget : users.get id with
  | none =>
      exact Or.inl rfl
  | some u =>
      cases hf : f u with
      | error e =>
          exact Or.inl (by simp [hf, commit, Except.map])
      | ok out =>
          cases saved with
          | false =>
              exact Or.inl (by simp [hf, commit, Except.map])
          | true =>
              exact Or.inr ⟨u, out.1, out.2, rfl, hf, by simp [hf, commit, Except.map]⟩

theorem idNames_commit_changeRow {R : Type} {saved : Bool}
    {f : User → Except UserError (User × R)}
    (hf : ∀ u u' out, f u = .ok (u', out) → u'.id = u.id ∧ u'.username = u.username) :
    idNames (users.commit saved (users.changeRow id f)).2 = users.idNames := by
  rcases @commit_changeRow users id R saved f with h | ⟨u, u', out, hget, hfu, h⟩
  · rw [h]
  · rw [h]
    exact idNames_modify hget (hf u u' out hfu).1 (hf u u' out hfu).2

theorem forall_commit_changeRow {R : Type} {saved : Bool}
    {f : User → Except UserError (User × R)} {P : User → Prop} (h : ∀ u ∈ users, P u)
    (hf : ∀ u u' out, P u → f u = .ok (u', out) → P u') :
    ∀ u ∈ (users.commit saved (users.changeRow id f)).2, P u := by
  rcases @commit_changeRow users id R saved f with heq | ⟨w, w', out, hget, hfw, heq⟩
  · rw [heq]
    exact h
  · rw [heq]
    intro u hu
    rcases mem_modify hu with hu | rfl
    · exact h u hu
    · exact hf w _ out (h w (mem_of_get hget).1) hfw

theorem get_modify :
    ∀ {users : Users} {u u' : User}, users.get id = some u → u'.id = id →
      get (users.modify id fun _ => u') id = some u' := by
  intro users
  induction users with
  | nil =>
      intro u u' h _
      cases h
  | cons x rest ih =>
      intro u u' h hid
      by_cases hx : (x.id == id) = true
      · simp [modify, hx, get, hid]
      · have hrest : get rest id = some u := by
          simpa [get, List.find?_cons, hx] using h
        have := ih hrest hid
        simpa [modify, hx, get, List.find?_cons] using this

/-- The rewritten row aside, what is found stays. -/
theorem get_modify_of_ne {id' : String} (hne : id' ≠ id) :
    ∀ {users : Users} {u' : User}, u'.id = id →
      get (users.modify id fun _ => u') id' = users.get id' := by
  intro users
  induction users with
  | nil =>
      intro u' _
      rfl
  | cons x rest ih =>
      intro u' hid
      by_cases hx : (x.id == id) = true
      · have hxid : x.id = id := by simpa using hx
        have hx' : (x.id == id') = false := by simpa [hxid] using hne.symm
        have hu' : (u'.id == id') = false := by simpa [hid] using hne.symm
        simp [modify, hx, get, hx', hu']
      · have hrest := ih hid
        simp only [get] at hrest
        simp [modify, hx, get, List.find?_cons, hrest]

theorem get_append_of_ne {x : User} (hne : id ≠ x.id) : get (users ++ [x]) id = users.get id := by
  have hx : (x.id == id) = false := by simpa using hne.symm
  simp [get, List.find?_append, hx]

theorem get_append_self {x : User} (h : users.get x.id = none) :
    get (users ++ [x]) x.id = some x := by
  simp only [get] at h
  simp [get, List.find?_append, h]

theorem get_filter_of_ne {id' : String} (hne : id' ≠ id) :
    get (users.filter (·.id != id)) id' = users.get id' := by
  rw [get, get, List.find?_filter]
  congr 1
  funext u
  by_cases h : u.id = id'
  · simp [h, hne]
  · simp [h]

theorem get_filter_self : get (users.filter (·.id != id)) id = none := by
  rw [get, List.find?_filter, List.find?_eq_none]
  intro u _
  by_cases h : u.id = id <;> simp [h]

/-- A committed change of the row found under an id is found there. -/
theorem get_commit_changeRow {R : Type} {saved : Bool} (f : User → Except UserError (User × R))
    (hu : users.get id = some u) (hf : ∀ u' out, f u = .ok (u', out) → u'.id = u.id) :
    get (users.commit saved (users.changeRow id f)).2 id = some u ∨
      ∃ u' out, f u = .ok (u', out) ∧
        get (users.commit saved (users.changeRow id f)).2 id = some u' := by
  rcases @commit_changeRow users id R saved f with h | ⟨w, u', out, hw, hfw, h⟩
  · rw [h]
    exact Or.inl hu
  · obtain rfl : w = u := Option.some.inj (hw.symm.trans hu)
    rw [h]
    exact Or.inr ⟨u', out, hfw, get_modify hw ((hf u' out hfw).trans (mem_of_get hw).2)⟩

/-- `users_update_handler` writes the flags and then, where they change, the
grants, under one lock. The two saves succeed or fail each on its own. -/
def edit (users : Users) (saved grantsSaved : Bool) (id : String) (enabled : Option Bool)
    (password : Option (String × String)) (grants : Option (List Grant)) :
    Except UserError User × Users :=
  let out := users.update saved id enabled password
  match out.1, grants with
  | .ok _, some next => out.2.setGrants grantsSaved id next
  | _, _ => out

end Users

/-! ## Every write -/

/-- The writes to what an account signs in with. -/
inductive CredentialWrite where
  | totpBegin (secret : String)
  | totpEnable (codeOk : String → Bool) (codes hashes : List String)
  | totpDisable
  | totpTryAdvanceStep (step : Int)
  | consumeRecovery (hash : String)
  | addPasskey (passkey : StoredPasskey)
  | removePasskey (passkeyId : String)

/-- The table such a write leaves. -/
def CredentialWrite.run (w : CredentialWrite) (saved : Bool) (id : String) (users : Users) :
    Users :=
  match w with
  | .totpBegin secret => (users.totpBegin saved id secret).2
  | .totpEnable codeOk codes hashes => (users.totpEnable saved id codeOk codes hashes).2
  | .totpDisable => (users.totpDisable saved id).2
  | .totpTryAdvanceStep step => (users.totpTryAdvanceStep saved id step).2
  | .consumeRecovery hash => (users.consumeRecovery saved id hash).2
  | .addPasskey passkey => (users.addPasskey saved id passkey).2
  | .removePasskey passkeyId => (users.removePasskey saved id passkeyId).2

inductive UserWrite where
  | create (id username password hash : String) (orgId : Option String) (grants : List Grant)
  | createSso (id username : String) (orgId : Option String) (grants : List Grant)
  | edit (grantsSaved : Bool) (id : String) (enabled : Option Bool)
      (password : Option (String × String)) (grants : Option (List Grant))
  | setGrantsFromLogin (id : String) (grants : List Grant)
  | delete (id : String)
  | credential (id : String) (w : CredentialWrite)

namespace UserWrite

/-- The table a write leaves. -/
def run (w : UserWrite) (saved : Bool) (users : Users) : Users :=
  match w with
  | .create id username password hash orgId grants =>
    (users.createWithGrants saved id username password hash orgId grants).2
  | .createSso id username orgId grants => (users.createSso saved id username orgId grants).2
  | .edit grantsSaved id enabled password grants =>
    (users.edit saved grantsSaved id enabled password grants).2
  | .setGrantsFromLogin id grants => (users.setGrantsFromLogin saved id grants).2
  | .delete id => (users.delete saved id).2
  | .credential id w => w.run saved id users

/-- The id a write gives out. -/
def newId : UserWrite → Option String
  | .create id _ _ _ _ _ => some id
  | .createSso id _ _ _ => some id
  | _ => none

/-- The id a write takes out of the table. -/
def oldId : UserWrite → Bool → Option String
  | .delete id, true => some id
  | _, _ => none

/-- The grants a write asks to put in place. -/
def grants : UserWrite → List Grant
  | .create _ _ _ _ _ grants => grants
  | .createSso _ _ _ grants => grants
  | .edit _ _ _ _ grants => grants.getD []
  | .setGrantsFromLogin _ grants => grants
  | _ => []

end UserWrite

/-- What a write does to the ids and the names. -/
inductive NamesChange (names : List (String × String)) (newId oldId : Option String) :
    List (String × String) → Prop
  | same : NamesChange names newId oldId names
  | appended (id name : String) (hid : newId = some id) (htrim : trim name = name)
      (hfree : ∀ a ∈ names, toAsciiLowercase a.2 ≠ toAsciiLowercase name) :
      NamesChange names newId oldId (names ++ [(id, name)])
  | removed (id : String) (hid : oldId = some id) :
      NamesChange names newId oldId (names.filter fun a => a.1 != id)

/-- The ids of a table come from those it had and from the one given out. -/
theorem NamesChange.id_mem {names after : List (String × String)} {newId oldId : Option String}
    (h : NamesChange names newId oldId after) {ids : List String}
    (hids : ∀ a ∈ names, a.1 ∈ ids) : ∀ a ∈ after, a.1 ∈ newId.toList ++ ids := by
  intro a ha
  simp only [List.mem_append, Option.mem_toList]
  cases h with
  | same =>
      exact Or.inr (hids a ha)
  | appended id name hid htrim hfree =>
      rcases List.mem_append.mp ha with ha | ha
      · exact Or.inr (hids a ha)
      · rw [List.mem_singleton.mp ha, hid]
        exact Or.inl rfl
  | removed id hid =>
      exact Or.inr (hids a (List.mem_filter.mp ha).1)

namespace Users

variable {users : Users} {id : String}

/-- A record is refused, or not saved, or stands at the end of the table
under a trimmed name nobody had. -/
theorem createRecord_cases (saved : Bool) (username : String)
    (password : Option (String × String)) (orgId : Option String) (grants : List Grant) :
    (users.createRecord saved id username password orgId grants).2 = users ∧
        (∃ e, (users.createRecord saved id username password orgId grants).1 = .error e) ∨
      ∃ u : User, u.id = id ∧ u.grants = grants ∧ trim u.username = u.username ∧
        (∀ w ∈ users, toAsciiLowercase w.username ≠ toAsciiLowercase u.username) ∧
        users.createRecord saved id username password orgId grants = (.ok u, users ++ [u]) := by
  simp only [createRecord]
  split
  · exact Or.inl ⟨rfl, _, rfl⟩
  split
  · exact Or.inl ⟨rfl, _, rfl⟩
  split
  · exact Or.inl ⟨rfl, _, rfl⟩
  split
  · exact Or.inl ⟨rfl, _, rfl⟩
  · rename_i hfree hpass
    cases saved with
    | false =>
        exact Or.inl ⟨rfl, _, rfl⟩
    | true =>
        refine Or.inr ⟨User.syncHomeRole
          { id := id, username := trim username, passwordHash := (password.map (·.2)).getD "",
            orgId := orgId, grants := grants }, rfl, rfl, trim_trim username, ?_, rfl⟩
        simp only [List.any_eq_true, not_exists, not_and, eqIgnoreAsciiCase, beq_iff_eq] at hfree
        exact hfree

theorem createRecord_names (saved : Bool) (username : String)
    (password : Option (String × String)) (orgId : Option String) (grants : List Grant) :
    NamesChange users.idNames (some id) none
      (idNames (users.createRecord saved id username password orgId grants).2) := by
  rcases @createRecord_cases users id saved username password orgId grants with
    ⟨h, -⟩ | ⟨u, hid, -, htrim, hfree, h⟩
  · rw [h]
    exact .same
  · have hnames : idNames (users ++ [u]) = users.idNames ++ [(id, u.username)] := by
      simp [idNames, hid]
    rw [h, hnames]
    refine .appended id u.username rfl htrim ?_
    intro a ha
    obtain ⟨w, hw, -, hname⟩ := exists_of_mem_idNames ha
    rw [← hname]
    exact hfree w hw

theorem setGrantsRaw_names (saved : Bool) (grants : List Grant) :
    idNames (users.setGrantsRaw saved id grants).2 = users.idNames := by
  refine idNames_commit_changeRow ?_
  rintro u u' out ⟨⟩
  exact ⟨rfl, rfl⟩

theorem setGrants_names (saved : Bool) (grants : List Grant) :
    idNames (users.setGrants saved id grants).2 = users.idNames := by
  simp only [setGrants]
  split
  · rfl
  · exact setGrantsRaw_names _ _

theorem update_names (saved : Bool) (enabled : Option Bool) (password : Option (String × String)) :
    idNames (users.update saved id enabled password).2 = users.idNames := by
  refine idNames_commit_changeRow ?_
  intro u u' out h
  obtain ⟨hid, hname, -⟩ := User.updated_ok h
  exact ⟨hid, hname⟩

theorem edit_names (saved grantsSaved : Bool) (enabled : Option Bool)
    (password : Option (String × String)) (grants : Option (List Grant)) :
    idNames (users.edit saved grantsSaved id enabled password grants).2 = users.idNames := by
  simp only [edit]
  split
  · rw [setGrants_names, update_names]
  · exact update_names _ _ _

theorem delete_names (saved : Bool) :
    NamesChange users.idNames none (UserWrite.oldId (.delete id) saved)
      (idNames (users.delete saved id).2) := by
  simp only [delete]
  split
  · cases saved with
    | false =>
        exact .same
    | true =>
        have hnames : idNames (users.commit true (.ok (users.filter (·.id != id), ()))).2 =
            users.idNames.filter fun a => a.1 != id := by
          simp [commit, idNames, List.filter_map, Function.comp_def]
        rw [hnames]
        exact .removed id rfl
  · exact .same

end Users

/-- A row change that does not touch who the account is or what it holds
leaves the table, or rewrites that one row. -/
theorem Users.commit_changeRow_kept {R : Type} {users : Users} {id : String} {saved : Bool}
    (f : User → Except UserError (User × R))
    (hf : ∀ u u' out, f u = .ok (u', out) →
      u'.id = u.id ∧ u'.username = u.username ∧ u'.grants = u.grants) :
    (users.commit saved (users.changeRow id f)).2 = users ∨ ∃ u u', users.get id = some u ∧
      u'.id = u.id ∧ u'.username = u.username ∧ u'.grants = u.grants ∧
        (users.commit saved (users.changeRow id f)).2 = users.modify id fun _ => u' := by
  rcases @commit_changeRow users id R saved f with h | ⟨u, u', out, hget, hfu, h⟩
  · exact Or.inl h
  · obtain ⟨hid, hname, hgrants⟩ := hf u u' out hfu
    exact Or.inr ⟨u, u', hget, hid, hname, hgrants, h⟩

/-- A change of credentials leaves the table, or rewrites one row and leaves
who that account is and what it holds. -/
theorem CredentialWrite.run_cases (w : CredentialWrite) (saved : Bool) (id : String)
    (users : Users) :
    w.run saved id users = users ∨ ∃ u u', users.get id = some u ∧ u'.id = u.id ∧
      u'.username = u.username ∧ u'.grants = u.grants ∧
        w.run saved id users = users.modify id fun _ => u' := by
  -- each of the writes is a row change that does not touch these three fields
  cases w with
  | totpBegin secret =>
      refine Users.commit_changeRow_kept _ ?_
      rintro u u' out ⟨⟩
      exact ⟨rfl, rfl, rfl⟩
  | totpEnable codeOk codes hashes =>
      refine Users.commit_changeRow_kept _ ?_
      intro u u' out h
      split at h
      · cases h
      · split at h
        · cases h
          exact ⟨rfl, rfl, rfl⟩
        · cases h
  | totpDisable =>
      refine Users.commit_changeRow_kept _ ?_
      rintro u u' out ⟨⟩
      exact ⟨rfl, rfl, rfl⟩
  | totpTryAdvanceStep step =>
      simp only [run, Users.totpTryAdvanceStep]
      split
      · exact Or.inl rfl
      · split
        · exact Or.inl rfl
        · refine Users.commit_changeRow_kept _ ?_
          rintro u u' out ⟨⟩
          exact ⟨rfl, rfl, rfl⟩
  | consumeRecovery hash =>
      simp only [run, Users.consumeRecovery]
      split
      · exact Or.inl rfl
      · split
        · refine Users.commit_changeRow_kept _ ?_
          rintro u u' out ⟨⟩
          exact ⟨rfl, rfl, rfl⟩
        · exact Or.inl rfl
  | addPasskey passkey =>
      refine Users.commit_changeRow_kept _ ?_
      intro u u' out h
      split at h
      · cases h
      · cases h
        exact ⟨rfl, rfl, rfl⟩
  | removePasskey passkeyId =>
      simp only [run, Users.removePasskey]
      split
      · refine Users.commit_changeRow_kept _ ?_
        rintro u u' out ⟨⟩
        exact ⟨rfl, rfl, rfl⟩
      · exact Or.inl rfl

/-- **What a write does to the ids and the names.** -/
theorem UserWrite.run_names (w : UserWrite) (saved : Bool) (users : Users) :
    NamesChange users.idNames w.newId (w.oldId saved) (w.run saved users).idNames := by
  have hsame : ∀ {users' : Users}, users'.idNames = users.idNames →
      NamesChange users.idNames w.newId (w.oldId saved) users'.idNames := by
    intro users' h
    rw [h]
    exact .same
  cases w with
  | create id username password hash orgId grants =>
      simp only [run, Users.createWithGrants]
      split
      · exact .same
      · exact Users.createRecord_names _ _ _ _ _
  | createSso id username orgId grants =>
      simp only [run, Users.createSso]
      split
      · exact .same
      · exact Users.createRecord_names _ _ _ _ _
  | edit grantsSaved id enabled password grants =>
      exact hsame (Users.edit_names _ _ _ _ _)
  | setGrantsFromLogin id grants =>
      refine hsame ?_
      simp only [run, Users.setGrantsFromLogin]
      split
      · rfl
      · exact Users.setGrantsRaw_names _ _
  | delete id =>
      exact Users.delete_names saved
  | credential id w =>
      rcases w.run_cases saved id users with h | ⟨u, u', hget, hid, hname, -, h⟩
      · exact hsame (by rw [run, h])
      · exact hsame (by rw [run, h, Users.idNames_modify hget hid hname])

/-! ## The grants under every write -/

namespace Users

variable {users : Users} {id : String} {Q : List Grant → Prop}

theorem createRecord_grants {saved : Bool} {username : String}
    {password : Option (String × String)} {orgId : Option String} {grants : List Grant}
    (h : ∀ u ∈ users, Q u.grants) (hq : Q grants) :
    ∀ u ∈ (users.createRecord saved id username password orgId grants).2, Q u.grants := by
  rcases @createRecord_cases users id saved username password orgId grants with
    ⟨heq, -⟩ | ⟨w, -, hgrants, -, -, heq⟩
  · rw [heq]
    exact h
  · rw [heq]
    intro u hu
    rcases List.mem_append.mp hu with hu | hu
    · exact h u hu
    · rw [List.mem_singleton.mp hu, hgrants]
      exact hq

theorem setGrantsRaw_grants {saved : Bool} {grants : List Grant} (h : ∀ u ∈ users, Q u.grants)
    (hq : Q grants) : ∀ u ∈ (users.setGrantsRaw saved id grants).2, Q u.grants := by
  refine forall_commit_changeRow (P := fun u => Q u.grants) h ?_
  rintro u u' out - ⟨⟩
  exact hq

theorem normalizeOr_ok {l out : List Grant} (h : normalizeOr l = .ok out) :
    Grants.normalize l = .ok out := by
  simp only [normalizeOr] at h
  cases hn : Grants.normalize l with
  | error e =>
      rw [hn] at h
      cases h
  | ok out' =>
      rw [hn] at h
      cases h
      rfl

theorem normalizeLogin_ok {l out : List Grant} (h : normalizeLogin l = .ok out) :
    l = [] ∧ out = [] ∨ Grants.normalize l = .ok out := by
  simp only [normalizeLogin] at h
  split at h
  · cases h
    exact Or.inl ⟨‹_›, rfl⟩
  · exact Or.inr (normalizeOr_ok h)

end Users

/-- What holds of the empty list and of the list a write stores keeps holding
of what the rows hold. -/
theorem UserWrite.run_grants {w : UserWrite} {saved : Bool} {users : Users}
    {Q : List Grant → Prop} (hnil : Q []) (hq : ∀ out, Grants.normalize w.grants = .ok out → Q out)
    (h : ∀ u ∈ users, Q u.grants) : ∀ u ∈ w.run saved users, Q u.grants := by
  have hlogin : ∀ out, Users.normalizeLogin w.grants = .ok out → Q out := by
    intro out hout
    rcases Users.normalizeLogin_ok hout with ⟨-, rfl⟩ | hn
    · exact hnil
    · exact hq out hn
  cases w with
  | create id username password hash orgId grants =>
      simp only [run, Users.createWithGrants]
      split
      · exact h
      · rename_i out hout
        exact Users.createRecord_grants h (hq out (Users.normalizeOr_ok hout))
  | createSso id username orgId grants =>
      simp only [run, Users.createSso]
      split
      · exact h
      · rename_i out hout
        exact Users.createRecord_grants h (hlogin out hout)
  | edit grantsSaved id enabled password grants =>
      have hupdate : ∀ u ∈ (users.update saved id enabled password).2, Q u.grants := by
        refine Users.forall_commit_changeRow (P := fun u => Q u.grants) h ?_
        intro u u' out hu hf
        rw [(User.updated_ok hf).2.2]
        exact hu
      simp only [run, Users.edit]
      split
      · rename_i next _
        simp only [Users.setGrants]
        split
        · exact hupdate
        · rename_i out hout
          exact Users.setGrantsRaw_grants hupdate (hq out (Users.normalizeOr_ok hout))
      · exact hupdate
  | setGrantsFromLogin id grants =>
      simp only [run, Users.setGrantsFromLogin]
      split
      · exact h
      · rename_i out hout
        exact Users.setGrantsRaw_grants h (hlogin out hout)
  | delete id =>
      simp only [run, Users.delete]
      split
      · cases saved with
        | false => exact h
        | true => exact fun u hu => h u (List.mem_filter.mp hu).1
      · exact h
  | credential id w =>
      rcases w.run_cases saved id users with heq | ⟨u, u', hget, -, -, hgrants, heq⟩
      · rw [run, heq]
        exact h
      · rw [run, heq]
        intro x hx
        rcases Users.mem_modify hx with hx | rfl
        · exact h x hx
        · rw [hgrants]
          exact h u (Users.mem_of_get hget).1

/-! ## The names stay distinct -/

/-- A change of the names that gives out a free id keeps them distinct. -/
theorem Users.Kept.change {users users' : Users} {newId oldId : Option String} (hk : users.Kept)
    (h : NamesChange users.idNames newId oldId users'.idNames)
    (hfresh : ∀ id, newId = some id → ∀ u ∈ users, u.id ≠ id) : users'.Kept := by
  generalize hnames : users'.idNames = names at h
  have hkept : (names.map (·.1)).Nodup ∧ (names.map fun a => toAsciiLowercase a.2).Nodup ∧
      ∀ a ∈ names, trim a.2 = a.2 := by
    cases h with
    | same =>
        exact ⟨hk.ids, hk.names, hk.trimmed⟩
    | appended id name hid htrim hfree =>
        refine ⟨?_, ?_, ?_⟩
        · rw [List.map_append, List.nodup_append]
          refine ⟨hk.ids, by simp, ?_⟩
          rintro _ ha _ hb rfl
          obtain ⟨a, hmem, ha⟩ := List.mem_map.mp ha
          obtain ⟨u, hu, huid, -⟩ := exists_of_mem_idNames hmem
          simp only [List.map_cons, List.map_nil, List.mem_singleton] at hb
          exact hfresh id hid u hu (by rw [huid, ha, hb])
        · rw [List.map_append, List.nodup_append]
          refine ⟨hk.names, by simp, ?_⟩
          rintro _ ha _ hb rfl
          obtain ⟨a, hmem, ha⟩ := List.mem_map.mp ha
          simp only [List.map_cons, List.map_nil, List.mem_singleton] at hb
          exact hfree a hmem (by rw [ha, hb])
        · intro a ha
          rcases List.mem_append.mp ha with ha | ha
          · exact hk.trimmed a ha
          · rw [List.mem_singleton.mp ha]
            exact htrim
    | removed id hid =>
        have hsub := @List.filter_sublist _ (fun a => a.1 != id) users.idNames
        exact ⟨hk.ids.sublist (hsub.map _), hk.names.sublist (hsub.map _),
          fun a ha => hk.trimmed a (hsub.mem ha)⟩
  subst hnames
  exact ⟨hkept.1, hkept.2.1, hkept.2.2⟩

end Aperio
