import Mathlib.Data.Finset.Card
import Aperio.Server

/-!
# The ceiling over time

Every Ping counts the connections of its process that declare the same
service (`service_connection_over_ceiling`, `tunnel/ws.rs`), and one that
finds the ceiling reached ends its connection. The ended connection stays in
the map, with what it declared, until its own `cleanup` has run
(`tunnel/ws/upgrade.rs`), and until then the Pings of the others count it.

The map is the whole server's, with connections of any process and any
service in it. What is followed here is one service of one process: which
connections ever declared it and which were refused. These two are not in the
source.
-/

namespace Aperio

/-! ## Who declares a service -/

/-- The connections of a process that declare a service. -/
def declaring (clients : Clients) (group : Option String) (service : String) : Finset String :=
  ((clients.entries.filter fun e => e.2.instanceGroup == group &&
    e.2.declaredClientId.any fun other => serviceOf other == service).map (·.1)).toFinset

/-- A handle declares the service. -/
def ClientHandle.Declares (h : ClientHandle) (group : Option String) (service : String) : Prop :=
  h.instanceGroup = group ∧ ∃ d, h.declaredClientId = some d ∧ serviceOf d = service

section

variable {clients : Clients} {group : Option String} {service id k : String} {h : ClientHandle}

theorem mem_declaring : id ∈ declaring clients group service ↔
    ∃ h, clients.lookup id = some h ∧ h.Declares group service := by
  simp only [declaring, List.mem_toFinset, List.mem_map, List.mem_filter, Bool.and_eq_true,
    beq_iff_eq, Option.any_eq_true, ClientHandle.Declares]
  constructor
  · rintro ⟨⟨k, h⟩, ⟨hmem, hgroup, hdecl⟩, rfl⟩
    exact ⟨h, AList.mem_lookup_iff.mpr hmem, hgroup, hdecl⟩
  · rintro ⟨h, hlook, hgroup, hdecl⟩
    exact ⟨⟨id, h⟩, ⟨AList.mem_lookup_iff.mp hlook, hgroup, hdecl⟩, rfl⟩

/-- The count a Ping makes is of the others that declare its service. -/
theorem serviceConnectionOverCeiling_iff (clients : Clients) (id : String)
    (group : Option String) (declaredId : String) (ceiling : Nat) :
    serviceConnectionOverCeiling clients id group declaredId ceiling = true ↔
      ceiling ≤ ((declaring clients group (serviceOf declaredId)).erase id).card := by
  have hcard : ((declaring clients group (serviceOf declaredId)).erase id).card =
      (clients.entries.filter fun e =>
        e.1 != id && e.2.instanceGroup == group && e.2.declaredClientId.any fun other =>
          serviceOf other == serviceOf declaredId).length := by
    rw [← List.length_map (fun e : (_ : String) × ClientHandle => e.1),
      ← List.toFinset_card_of_nodup]
    · congr 1
      ext k
      simp only [Finset.mem_erase, declaring, List.mem_toFinset, List.mem_map, List.mem_filter,
        Bool.and_eq_true, bne_iff_ne, beq_iff_eq, Option.any_eq_true]
      constructor
      · rintro ⟨hne, e, ⟨hmem, hp⟩, rfl⟩
        exact ⟨e, ⟨hmem, ⟨hne, hp.1⟩, hp.2⟩, rfl⟩
      · rintro ⟨e, ⟨hmem, ⟨hne, hgroup⟩, hdecl⟩, rfl⟩
        exact ⟨hne, e, ⟨hmem, hgroup, hdecl⟩, rfl⟩
    · exact (List.filter_sublist.map _).nodup clients.nodupKeys
  rw [serviceConnectionOverCeiling, decide_eq_true_iff, hcard]

end

/-! ## What one Ping does -/

/-- `over_ceiling`, as `on_ping` sets it. -/
def overCeiling (env : Env) (now : Nat) (clients : Clients) (id : String) (p : Ping) : Bool :=
  p.wellSized &&
    match clients.lookup id with
    | none => false
    | some h =>
      match matchDeclarations h.services p.names with
      | .error _ => false
      | .ok matched =>
        serviceConnectionOverCeiling (clients.insert id (declareHandle env now p matched h)) id
          h.instanceGroup p.clientId (h.perms.connectionCeiling h.serverMaxConnections)

section

variable {env : Env} {now : Nat} {clients clients' : Clients} {group : Option String}
  {service id k : String} {p : Ping} {h : ClientHandle}

/-- A connection over the ceiling is closed. -/
theorem onPing_overCeiling (hover : overCeiling env now clients id p = true) :
    (onPing env now clients id p).1 = false := by
  rw [overCeiling, Bool.and_eq_true] at hover
  obtain ⟨hsized, hover⟩ := hover
  rw [onPing, hsized, Bool.not_true, if_neg Bool.false_ne_true]
  cases hid : clients.lookup id with
  | none =>
      rw [hid] at hover
      cases hover
  | some h =>
      rw [hid] at hover
      cases hm : matchDeclarations h.services p.names with
      | error n =>
          simp only [hm] at hover
          cases hover
      | ok matched =>
          simp only [hm] at hover ⊢
          rw [hover]
          rfl

/-- A map that differs in one connection: who declares a service besides
it. -/
theorem declaring_erase_congr (hne : ∀ k, k ≠ id → clients'.lookup k = clients.lookup k) :
    (declaring clients' group service).erase id = (declaring clients group service).erase id := by
  ext k
  simp only [Finset.mem_erase, mem_declaring]
  constructor
  · rintro ⟨hk, h, hlook, hdecl⟩
    exact ⟨hk, h, (hne k hk) ▸ hlook, hdecl⟩
  · rintro ⟨hk, h, hlook, hdecl⟩
    exact ⟨hk, h, (hne k hk).symm ▸ hlook, hdecl⟩

/-- A Ping either leaves the map alone, and is then not over the ceiling, or
its connection declares what the Ping names and nothing else of it that counts
here changes. -/
theorem onPing_declares (env : Env) (now : Nat) (p : Ping) (hid : clients.lookup id = some h) :
    ((onPing env now clients id p).2 = clients ∧ overCeiling env now clients id p = false) ∨
      ∃ h', (onPing env now clients id p).2.lookup id = some h' ∧
        h'.declaredClientId = some p.clientId ∧ h'.instanceGroup = h.instanceGroup ∧
        h'.perms = h.perms ∧ h'.serverMaxConnections = h.serverMaxConnections ∧
        (overCeiling env now clients id p = true ↔
          h.perms.connectionCeiling h.serverMaxConnections ≤
            ((declaring clients h.instanceGroup (serviceOf p.clientId)).erase id).card) := by
  cases hsized : p.wellSized with
  | false =>
      left
      simp [onPing, overCeiling, hsized]
  | true =>
      cases hm : matchDeclarations h.services p.names with
      | error n =>
          left
          simp [onPing, overCeiling, hsized, hid, hm]
      | ok matched =>
          right
          have hins : (clients.insert id (declareHandle env now p matched h)).lookup id =
              some (declareHandle env now p matched h) := AList.lookup_insert _
          have hlook := @settle_lookup_self _ _ env.cfg _ hins
          have hclients : (onPing env now clients id p).2 =
              settle env.cfg (clients.insert id (declareHandle env now p matched h)) id := by
            simp [onPing, hsized, hid, hm]
          rw [← hclients] at hlook
          refine ⟨_, hlook, rfl, rfl, rfl, rfl, ?_⟩
          have hrest : ∀ k, k ≠ id →
              (clients.insert id (declareHandle env now p matched h)).lookup k =
                clients.lookup k := fun k hk => AList.lookup_insert_ne hk
          simp only [overCeiling, hsized, hid, hm, Bool.true_and]
          rw [serviceConnectionOverCeiling_iff, declaring_erase_congr hrest]

end

/-! ## The service over a run -/

structure FanState where
  clients : Clients := ∅
  /-- Every connection id handed out so far. -/
  opened : Finset String := ∅
  /-- The connections whose read loop is over. -/
  ended : Finset String := ∅
  /-- The connections that ever declared the service. -/
  declared : Finset String := ∅
  /-- Those of them that were refused for the ceiling. -/
  refused : Finset String := ∅

inductive FanAct where
  | connect (env : Env) (now : Nat) (id : String) (c : Connect)
  | ping (env : Env) (now : Nat) (id : String) (p : Ping)
  | cleanup (id : String)

/-- The service of the process that is followed, and its ceiling. -/
structure Fan where
  group : Option String
  service : String
  ceiling : Nat

namespace Fan

/-- One event of the map. A connection of the process comes with the ceiling,
and one whose read loop is over sends no more Pings. -/
def step (f : Fan) (s : FanState) : FanAct → Option FanState
  | .connect env now id c =>
    if id ∈ s.opened ∨ (c.instanceGroup = f.group ∧
        c.perms.connectionCeiling env.cfg.connectionsPerService ≠ f.ceiling) then none
    else
      some { s with
        clients := s.clients.insert id (newHandle env.cfg now c)
        opened := insert id s.opened }
  | .ping env now id p =>
    if id ∈ s.ended ∨ s.clients.lookup id = none then none
    else
      let after := onPing env now s.clients id p
      some { s with
        clients := after.2
        ended := if after.1 then s.ended else insert id s.ended
        declared := s.declared ∪ declaring after.2 f.group f.service
        refused :=
          if overCeiling env now s.clients id p ∧ id ∈ declaring after.2 f.group f.service then
            insert id s.refused
          else s.refused }
  | .cleanup id =>
    some { s with clients := s.clients.erase id, ended := insert id s.ended }

/-- The other connections in the map that declare the service. -/
def others (f : Fan) (s : FanState) (id : String) : Finset String :=
  (declaring s.clients f.group f.service).erase id

/-- A connection that has declared the service before is not tipped over the
ceiling by others that were refused and still wait for their cleanup. -/
def Untipped (f : Fan) (s : FanState) : FanAct → Prop
  | .ping _ _ id p => id ∈ s.declared → serviceOf p.clientId = f.service →
      (f.others s id).card < f.ceiling ∨ f.ceiling ≤ (f.others s id \ s.refused).card
  | _ => True

instance (f : Fan) (s : FanState) (act : FanAct) : Decidable (f.Untipped s act) :=
  match act with
  | .ping _ _ id p =>
    inferInstanceAs (Decidable (id ∈ s.declared → serviceOf p.clientId = f.service →
      (f.others s id).card < f.ceiling ∨ f.ceiling ≤ (f.others s id \ s.refused).card))
  | .connect .. => .isTrue trivial
  | .cleanup _ => .isTrue trivial

def sys (f : Fan) : Sys FanState FanAct where
  init s := s = {}
  step s act s' := f.step s act = some s'

/-- The runs in which no Ping is tipped. -/
def untippedSys (f : Fan) : Sys FanState FanAct :=
  f.sys.restrict fun s act _ => f.Untipped s act

end Fan

/-! ## What a run keeps -/

/-- The connections that declare the service and were not refused are within
the ceiling, and once one was refused there are at least as many that ever
declared it and were not. -/
structure Fan.Kept (f : Fan) (s : FanState) : Prop where
  ceilings : ∀ id h, s.clients.lookup id = some h → h.instanceGroup = f.group →
    h.perms.connectionCeiling h.serverMaxConnections = f.ceiling
  seen : declaring s.clients f.group f.service ⊆ s.declared
  refusedDeclared : s.refused ⊆ s.declared
  refusedEnded : s.refused ⊆ s.ended
  within : (declaring s.clients f.group f.service \ s.refused).card ≤ f.ceiling
  filled : s.refused = ∅ ∨ f.ceiling ≤ (s.declared \ s.refused).card

section

variable {f : Fan} {s s' : FanState} {id : String} {h : ClientHandle} {clients : Clients}

theorem declaring_erase (id : String) :
    declaring (s.clients.erase id) f.group f.service =
      (declaring s.clients f.group f.service).erase id := by
  ext k
  rw [Finset.mem_erase, mem_declaring, mem_declaring]
  by_cases hk : k = id
  · subst hk
    simp
  · simp [hk]

theorem declaring_insert_newHandle (env : Env) (now : Nat) (id : String) (c : Connect) :
    declaring (s.clients.insert id (newHandle env.cfg now c)) f.group f.service =
      (declaring s.clients f.group f.service).erase id := by
  ext k
  rw [Finset.mem_erase, mem_declaring, mem_declaring]
  by_cases hk : k = id
  · subst hk
    simp [newHandle, ClientHandle.Declares]
  · simp [hk]

/-- Fewer declare the service than before, and nobody is refused. -/
theorem Fan.Kept.shrink (hs : f.Kept s)
    (hceil : ∀ id h, clients.lookup id = some h → h.instanceGroup = f.group →
      h.perms.connectionCeiling h.serverMaxConnections = f.ceiling)
    (hsub : declaring clients f.group f.service ⊆ declaring s.clients f.group f.service)
    {opened ended : Finset String} (hended : s.ended ⊆ ended) :
    f.Kept { s with clients := clients, opened := opened, ended := ended } where
  ceilings := hceil
  seen := hsub.trans hs.seen
  refusedDeclared := hs.refusedDeclared
  refusedEnded := hs.refusedEnded.trans hended
  within := (Finset.card_le_card (Finset.sdiff_subset_sdiff hsub subset_rfl)).trans hs.within
  filled := hs.filled

theorem kept_connect {env : Env} {now : Nat} {c : Connect} (hs : f.Kept s)
    (hstep : f.step s (.connect env now id c) = some s') : f.Kept s' := by
  simp only [Fan.step] at hstep
  split at hstep
  · cases hstep
  · rename_i hnew
    obtain rfl := Option.some.inj hstep
    refine @Fan.Kept.shrink f s (s.clients.insert id (newHandle env.cfg now c)) hs ?_ ?_ _ _
      subset_rfl
    · intro k h hk hgroup
      by_cases hkid : k = id
      · subst hkid
        rw [AList.lookup_insert] at hk
        obtain rfl := Option.some.inj hk
        by_contra hne
        exact hnew (Or.inr ⟨hgroup, hne⟩)
      · rw [AList.lookup_insert_ne hkid] at hk
        exact hs.ceilings k h hk hgroup
    · rw [declaring_insert_newHandle]
      exact Finset.erase_subset _ _

theorem kept_cleanup (hs : f.Kept s) (hstep : f.step s (.cleanup id) = some s') : f.Kept s' := by
  obtain rfl := Option.some.inj hstep
  refine hs.shrink ?_ ?_ (Finset.subset_insert _ _)
  · intro k h hk hgroup
    by_cases hkid : k = id
    · subst hkid
      simp at hk
    · rw [AList.lookup_erase_ne hkid] at hk
      exact hs.ceilings k h hk hgroup
  · rw [declaring_erase]
    exact Finset.erase_subset _ _

/-- The connections that fill the ceiling when one more is refused: those that
filled it before, unless the refused one was among them. -/
theorem filled_of_refused {declared refused now : Finset String} {c : Nat}
    (hcount : c ≤ (now.erase id).card) (hseen : now.erase id ⊆ declared)
    (hfilled : refused = ∅ ∨ c ≤ (declared \ refused).card)
    (hagain : id ∈ declared → c ≤ (now.erase id \ refused).card) :
    c ≤ ((declared ∪ now) \ insert id refused).card := by
  by_cases hid : id ∈ declared
  · refine (hagain hid).trans (Finset.card_le_card fun k hk => ?_)
    simp only [Finset.mem_sdiff, Finset.mem_erase, Finset.mem_union, Finset.mem_insert] at hk ⊢
    tauto
  · rcases hfilled with rfl | hfilled
    · refine hcount.trans (Finset.card_le_card fun k hk => ?_)
      simp only [Finset.mem_sdiff, Finset.mem_erase, Finset.mem_union, Finset.mem_insert,
        Finset.notMem_empty] at hk ⊢
      tauto
    · refine hfilled.trans (Finset.card_le_card fun k hk => ?_)
      simp only [Finset.mem_sdiff, Finset.mem_union, Finset.mem_insert] at hk ⊢
      refine ⟨Or.inl hk.1, ?_⟩
      rintro (rfl | hk')
      · exact hid hk.1
      · exact hk.2 hk'

/-- The map after a Ping: the ceilings in it are still the process's, and the
other connections that declare the service are the same. -/
theorem ping_ceilings {env : Env} {now : Nat} {p : Ping} (hs : f.Kept s)
    (hid : s.clients.lookup id = some h) :
    ∀ k h', (onPing env now s.clients id p).2.lookup k = some h' → h'.instanceGroup = f.group →
      h'.perms.connectionCeiling h'.serverMaxConnections = f.ceiling := by
  intro k h' hk hgroup
  rcases onPing_declares env now p hid with ⟨hsame, -⟩ | ⟨h₁, hlook, -, hg, hperms, hmax, -⟩
  · rw [hsame] at hk
    exact hs.ceilings k h' hk hgroup
  · by_cases hkid : k = id
    · subst hkid
      obtain rfl := Option.some.inj (hk.symm.trans hlook)
      rw [hperms, hmax]
      exact hs.ceilings k h hid (hg ▸ hgroup)
    · rw [onPing_lookup_ne hkid] at hk
      exact hs.ceilings k h' hk hgroup

theorem declaring_onPing_erase (env : Env) (now : Nat) (p : Ping) :
    (declaring (onPing env now s.clients id p).2 f.group f.service).erase id = f.others s id :=
  declaring_erase_congr fun _ hk => onPing_lookup_ne hk

/-- A Ping for the service is over the ceiling exactly when the others fill
it. -/
theorem overCeiling_iff {env : Env} {now : Nat} {p : Ping} (hs : f.Kept s)
    (hid : s.clients.lookup id = some h)
    (hdecl : id ∈ declaring (onPing env now s.clients id p).2 f.group f.service) :
    (onPing env now s.clients id p).2 = s.clients ∧ overCeiling env now s.clients id p = false ∨
      serviceOf p.clientId = f.service ∧
        (overCeiling env now s.clients id p = true ↔ f.ceiling ≤ (f.others s id).card) := by
  rcases onPing_declares env now p hid with hsame | ⟨h₁, hlook, hcid, hg, -, -, hover⟩
  · exact Or.inl hsame
  · right
    obtain ⟨h₂, hlook₂, hgroup, d, hd, hservice⟩ := mem_declaring.mp hdecl
    obtain rfl := Option.some.inj (hlook.symm.trans hlook₂)
    obtain rfl := Option.some.inj (hcid.symm.trans hd)
    have hgroup' : h.instanceGroup = f.group := hg ▸ hgroup
    refine ⟨hservice, ?_⟩
    rw [hover, hgroup', hservice, hs.ceilings id h hid hgroup']
    rfl

/-- A Ping that is handled, and what the run records of it. -/
theorem step_ping {env : Env} {now : Nat} {p : Ping}
    (hstep : f.step s (.ping env now id p) = some s') :
    (∃ h, s.clients.lookup id = some h) ∧
      s' = { s with
        clients := (onPing env now s.clients id p).2
        ended := if (onPing env now s.clients id p).1 then s.ended else insert id s.ended
        declared :=
          s.declared ∪ declaring (onPing env now s.clients id p).2 f.group f.service
        refused :=
          if overCeiling env now s.clients id p ∧
              id ∈ declaring (onPing env now s.clients id p).2 f.group f.service then
            insert id s.refused
          else s.refused } := by
  simp only [Fan.step] at hstep
  split at hstep
  · cases hstep
  · rename_i hlive
    rw [not_or] at hlive
    exact ⟨Option.ne_none_iff_exists'.mp hlive.2, (Option.some.inj hstep).symm⟩

theorem others_subset : f.others s id ⊆ declaring s.clients f.group f.service :=
  Finset.erase_subset _ _

/-- A Ping that is not refused leaves the service within its ceiling. -/
theorem ping_within {env : Env} {now : Nat} {p : Ping} (hs : f.Kept s)
    (hid : s.clients.lookup id = some h)
    (hacc : ¬(overCeiling env now s.clients id p = true ∧
      id ∈ declaring (onPing env now s.clients id p).2 f.group f.service)) :
    (declaring (onPing env now s.clients id p).2 f.group f.service \ s.refused).card
      ≤ f.ceiling := by
  have hothers := @declaring_onPing_erase f s id env now p
  by_cases hdecl : id ∈ declaring (onPing env now s.clients id p).2 f.group f.service
  · have hnot : ¬overCeiling env now s.clients id p = true := fun hover => hacc ⟨hover, hdecl⟩
    rcases overCeiling_iff hs hid hdecl with ⟨hsame, -⟩ | ⟨-, hiff⟩
    · rw [hsame]
      exact hs.within
    · have hroom : (f.others s id).card < f.ceiling := by
        rw [hiff] at hnot
        omega
      have hcard := Finset.card_erase_add_one hdecl
      rw [hothers] at hcard
      have hle := Finset.card_le_card (@Finset.sdiff_subset _ _
        (declaring (onPing env now s.clients id p).2 f.group f.service) s.refused)
      omega
  · rw [Finset.erase_eq_of_notMem hdecl] at hothers
    rw [hothers]
    exact (Finset.card_le_card (Finset.sdiff_subset_sdiff others_subset subset_rfl)).trans
      hs.within

theorem kept_ping {env : Env} {now : Nat} {p : Ping} (hs : f.Kept s)
    (hstep : f.step s (.ping env now id p) = some s')
    (huntipped : f.Untipped s (.ping env now id p)) : f.Kept s' := by
  obtain ⟨⟨h, hid⟩, rfl⟩ := step_ping hstep
  have hothers := @declaring_onPing_erase f s id env now p
  by_cases hover : overCeiling env now s.clients id p = true ∧
      id ∈ declaring (onPing env now s.clients id p).2 f.group f.service
  · obtain ⟨hover, hdecl⟩ := hover
    have hclosed := onPing_overCeiling hover
    obtain ⟨hservice, hcount⟩ : serviceOf p.clientId = f.service ∧
        f.ceiling ≤ (f.others s id).card := by
      rcases overCeiling_iff hs hid hdecl with ⟨-, hnot⟩ | ⟨hservice, hiff⟩
      · rw [hnot] at hover
        cases hover
      · exact ⟨hservice, hiff.mp hover⟩
    simp only [hover, hdecl, hclosed, and_self, if_true, Bool.false_eq_true, if_false]
    refine ⟨ping_ceilings hs hid, Finset.subset_union_right, ?_, ?_, ?_, Or.inr ?_⟩
    · exact Finset.insert_subset (Finset.mem_union_right _ hdecl)
        (hs.refusedDeclared.trans Finset.subset_union_left)
    · exact Finset.insert_subset_insert _ hs.refusedEnded
    · refine (Finset.card_le_card fun k hk => ?_).trans hs.within
      rw [Finset.mem_sdiff, Finset.mem_insert, not_or] at hk
      have hk' : k ∈ f.others s id := hothers ▸ Finset.mem_erase.mpr ⟨hk.2.1, hk.1⟩
      exact Finset.mem_sdiff.mpr ⟨others_subset hk', hk.2.2⟩
    · refine filled_of_refused (hothers.symm ▸ hcount)
        (hothers.symm ▸ others_subset.trans hs.seen) hs.filled fun hseen => ?_
      rw [hothers]
      rcases huntipped hseen hservice with hroom | hfull
      · omega
      · exact hfull
  · rw [if_neg hover]
    refine ⟨ping_ceilings hs hid, Finset.subset_union_right,
      hs.refusedDeclared.trans Finset.subset_union_left, ?_, ping_within hs hid hover, ?_⟩
    · refine hs.refusedEnded.trans ?_
      split
      · exact subset_rfl
      · exact Finset.subset_insert _ _
    · refine hs.filled.imp_right fun hfilled => hfilled.trans (Finset.card_le_card ?_)
      exact Finset.sdiff_subset_sdiff Finset.subset_union_left subset_rfl

/-- Who is refused for the service by a Ping was refused before, or the others
fill the ceiling. -/
theorem refused_of_ping {env : Env} {now : Nat} {p : Ping} (hs : f.Kept s)
    (hstep : f.step s (.ping env now id p) = some s') (hrefused : id ∈ s'.refused) :
    id ∈ s.refused ∨ f.ceiling ≤ (f.others s id).card := by
  obtain ⟨⟨h, hid⟩, rfl⟩ := step_ping hstep
  simp only at hrefused
  split at hrefused
  · rename_i hover
    right
    rcases overCeiling_iff hs hid hover.2 with ⟨-, hnot⟩ | ⟨-, hiff⟩
    · rw [hnot] at hover
      cases hover.1
    · exact hiff.mp hover.1
  · exact Or.inl hrefused

/-- Beside a connection that was not refused, the others that were not are
below the ceiling. -/
theorem others_below (hs : f.Kept s) (hdecl : id ∈ declaring s.clients f.group f.service)
    (hnot : id ∉ s.refused) : (f.others s id \ s.refused).card < f.ceiling := by
  have hmem : id ∈ declaring s.clients f.group f.service \ s.refused :=
    Finset.mem_sdiff.mpr ⟨hdecl, hnot⟩
  have hcard := Finset.card_erase_add_one hmem
  have hwithin := hs.within
  rw [← Finset.erase_sdiff_comm] at hcard
  show ((declaring s.clients f.group f.service).erase id \ s.refused).card < f.ceiling
  omega

theorem kept_reachable (hs : f.untippedSys.Reachable s) : f.Kept s := by
  refine hs.invariant (P := f.Kept) ?_ ?_
  · rintro _ rfl
    refine ⟨?_, ?_, subset_rfl, subset_rfl, Nat.zero_le _, Or.inl rfl⟩
    · intro id h hid
      cases hid
    · exact Finset.empty_subset _
  · intro s act s' _ hkept hstep
    cases act with
    | connect env now id c => exact kept_connect hkept hstep.1
    | ping env now id p => exact kept_ping hkept hstep.1 hstep.2
    | cleanup id => exact kept_cleanup hkept hstep.1

end

/-- **The ceiling.** In every run in which no connection that declared the
service before is tipped by refused ones, at most as many connections are
refused as declared beyond the ceiling, and a connection that declares the
service and was not refused is not refused by its next Ping for it. -/
theorem connections_within_ceiling (f : Fan) :
    ∀ s, f.untippedSys.Reachable s →
      s.refused.card ≤ s.declared.card - f.ceiling ∧
      ∀ env now id p s', id ∈ declaring s.clients f.group f.service → id ∉ s.refused →
        serviceOf p.clientId = f.service → f.untippedSys.step s (.ping env now id p) s' →
          id ∉ s'.refused := by
  intro s hs
  have hkept := kept_reachable hs
  refine ⟨?_, fun env now id p s' hdecl hnot hservice hstep hrefused => ?_⟩
  · have hcard := Finset.card_sdiff_add_card_eq_card hkept.refusedDeclared
    rcases hkept.filled with hnone | hfilled
    · rw [hnone, Finset.card_empty]
      exact Nat.zero_le _
    · omega
  · have hbelow := others_below hkept hdecl hnot
    rcases refused_of_ping hkept hstep.1 hrefused with hbefore | hcount
    · exact hnot hbefore
    · rcases hstep.2 (hkept.seen hdecl) hservice with hroom | hfull
      · omega
      · omega

/-- One connection for the service. -/
def oneConnection : Fan where
  group := some "p"
  service := "p-web"
  ceiling := 1

def fanConnect : Connect where
  perms := { ClientPerms.ofMaster with maxConnections := some 1 }
  instanceGroup := some "p"

def fanPing (cid : String) : Ping where
  services := [{}]
  clientId := cid

/-- The second connection declares while the first is there. -/
def secondDeclares : List FanAct :=
  [.connect plainEnv 0 "a" fanConnect, .ping plainEnv 1 "a" (fanPing "p-web"),
    .connect plainEnv 2 "b" fanConnect, .ping plainEnv 3 "b" (fanPing "p-web-c2")]

theorem untipped_run {f : Fan} {s : FanState} {acts : List FanAct}
    (h : acts.foldlM (fun s act => if f.Untipped s act then f.step s act else none) {} = some s) :
    f.untippedSys.Reachable s := by
  refine @Sys.Reachable.foldlM _ _ f.untippedSys _ _ _ (.init rfl) acts
    (fun s act s' hnext => ?_) h
  split at hnext
  · rename_i huntipped
    exact ⟨hnext, huntipped⟩
  · cases hnext

/-- The refused connection is cleaned up before the first one's next Ping. -/
theorem connections_within_ceiling_two :
    ∃ s, oneConnection.untippedSys.Reachable s ∧ s.refused = {"b"} ∧
      s.refused.card ≤ s.declared.card - 1 ∧
      ∀ s', oneConnection.untippedSys.step s (.ping plainEnv 4 "a" (fanPing "p-web")) s' →
        "a" ∉ s'.refused := by
  have hrun := @untipped_run oneConnection _ (secondDeclares ++ [.cleanup "b"]) rfl
  obtain ⟨hcount, hkept⟩ := connections_within_ceiling oneConnection _ hrun
  refine ⟨_, hrun, rfl, hcount, fun s' => hkept plainEnv 4 "a" (fanPing "p-web") s' ?_ ?_ rfl⟩
  · decide
  · decide

/-- The refused connection waits for its cleanup, and the first one's next
Ping is refused as well. -/
theorem first_evicted : ∃ s, oneConnection.sys.Reachable s ∧ s.declared.card = 2 ∧
    s.refused = {"a", "b"} ∧ ¬s.refused.card ≤ s.declared.card - oneConnection.ceiling :=
  ⟨_, @Sys.Reachable.foldlM _ _ oneConnection.sys _ _ _ (.init rfl)
    (secondDeclares ++ [.ping plainEnv 4 "a" (fanPing "p-web")])
    (fun _ _ _ hstep => hstep) rfl, rfl, by decide, by decide⟩

end Aperio
