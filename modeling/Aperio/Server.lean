import Aperio.Run
import Aperio.Matching

/-!
# The connection map over time

Connections open, send heartbeats and go, in any order. Each event carries
the application state it is handled in, so a reload of the settings between
two heartbeats is a run like any other.
-/

namespace Aperio

/-! ## What one heartbeat does to the map -/

variable {env : Env} {now : Nat} {clients : Clients} {id k : String} {p : Ping}

theorem settle_lookup_ne {cfg : ServerConfig} (hne : k ≠ id) :
    (settle cfg clients id).lookup k = clients.lookup k := by
  simp only [settle]
  cases clients.lookup id with
  | none =>
      rfl
  | some this =>
      exact AList.lookup_insert_ne hne

theorem settle_lookup_self {cfg : ServerConfig} {h : ClientHandle}
    (hid : clients.lookup id = some h) :
    (settle cfg clients id).lookup id = some
      { h with services := h.services.map fun s => s.marked (verdict cfg clients id s) } := by
  simp only [settle, hid]
  exact AList.lookup_insert _

/-- A heartbeat that reaches a connection either is refused before anything
changes, or declares and settles that connection. -/
theorem onPing_cases (env : Env) (now : Nat) (p : Ping) {h : ClientHandle}
    (hid : clients.lookup id = some h) :
    onPing env now clients id p = (false, clients) ∨
      ∃ matched, p.wellSized = true ∧ matchDeclarations h.services p.names = .ok matched ∧
        (onPing env now clients id p).2 =
          settle env.cfg (clients.insert id (declareHandle env now p matched h)) id := by
  simp only [onPing, hid]
  cases hw : p.wellSized with
  | false =>
      exact Or.inl rfl
  | true =>
      cases hm : matchDeclarations h.services p.names with
      | error n =>
          exact Or.inl rfl
      | ok matched =>
          exact Or.inr ⟨matched, rfl, rfl, rfl⟩

/-- A heartbeat that is accepted declares and settles its connection. -/
theorem onPing_accepted {h : ClientHandle} (hid : clients.lookup id = some h)
    (hacc : (onPing env now clients id p).1 = true) :
    ∃ matched, matchDeclarations h.services p.names = .ok matched ∧
      (onPing env now clients id p).2 =
        settle env.cfg (clients.insert id (declareHandle env now p matched h)) id := by
  rcases onPing_cases env now p hid with hr | ⟨matched, -, hm, hr⟩
  · rw [hr] at hacc
    cases hacc
  · exact ⟨matched, hm, hr⟩

/-- **What an accepted heartbeat leaves.** The connection carries one service
for each entry: the declaration applied to the service its slot stands for,
with the verdict of the settling written to it. -/
theorem onPing_services {h : ClientHandle} (hid : clients.lookup id = some h)
    (hacc : (onPing env now clients id p).1 = true) :
    ∃ matched h', matchDeclarations h.services p.names = .ok matched ∧
      (onPing env now clients id p).2.lookup id = some h' ∧ h'.perms = h.perms ∧
      h'.services.length = p.services.length ∧
      ∀ (i : Nat) (d : ServiceDecl) (m : Option Nat), p.services[i]? = some d →
        matched[i]? = some m → ∃ why, h'.services[i]? =
          some ((applyDeclaration env h.perms d (carriedService h.services m)).marked why) := by
  obtain ⟨matched, hm, hr⟩ := onPing_accepted hid hacc
  have hins : (clients.insert id (declareHandle env now p matched h)).lookup id =
      some (declareHandle env now p matched h) := AList.lookup_insert _
  have hlook := @settle_lookup_self _ _ env.cfg _ hins
  rw [← hr] at hlook
  refine ⟨matched, _, hm, hlook, rfl, ?_, ?_⟩
  · simp [declareHandle_services hm, length_matched hm]
  · intro i d m hd hslot
    simp [declareHandle_services hm, List.getElem?_zipWith, hd, hslot]

/-- A heartbeat leaves every other connection as it was. -/
theorem onPing_lookup_ne (hne : k ≠ id) :
    (onPing env now clients id p).2.lookup k = clients.lookup k := by
  cases hid : clients.lookup id with
  | none =>
      simp only [onPing, hid]
      split <;> rfl
  | some h =>
      rcases onPing_cases env now p hid with hr | ⟨matched, -, -, hr⟩
      · rw [hr]
      · rw [hr, settle_lookup_ne hne, AList.lookup_insert_ne hne]

/-! ## Events -/

inductive Act where
  | connect (id : String) (c : Connect)
  | ping (id : String) (p : Ping)
  | disconnect (id : String)

/-- Something that happens to the map, in the application state it happens
in. A new connection's id is fresh: connecting under a live one changes
nothing. -/
structure Event where
  env : Env
  now : Nat
  act : Act

def serve (clients : Clients) (e : Event) : Clients :=
  match e.act with
  | .connect id c =>
    if id ∈ clients then clients else clients.insert id (newHandle e.env.cfg e.now c)
  | .ping id p => (onPing e.env e.now clients id p).2
  | .disconnect id => clients.erase id

def serveAll (clients : Clients) (events : List Event) : Clients :=
  events.foldl serve clients

@[simp] theorem serveAll_nil : serveAll clients [] = clients := rfl

@[simp] theorem serveAll_cons {e : Event} {events : List Event} :
    serveAll clients (e :: events) = serveAll (serve clients e) events := rfl

/-- An event leaves a live connection alone unless it is one of its own
heartbeats or its end. -/
theorem serve_lookup_other {e : Event} {h : ClientHandle} (hid : clients.lookup id = some h)
    (hping : ∀ p, e.act ≠ .ping id p) (hgone : e.act ≠ .disconnect id) :
    (serve clients e).lookup id = some h := by
  simp only [serve]
  cases hact : e.act with
  | connect k c =>
      simp only
      split
      · exact hid
      · rename_i hk
        have hne : id ≠ k := by
          rintro rfl
          exact hk (AList.lookup_isSome.mp (by rw [hid]; rfl))
        rw [AList.lookup_insert_ne hne, hid]
  | ping k p =>
      have hne : id ≠ k := by
        rintro rfl
        exact hping p hact
      simp only
      rw [onPing_lookup_ne hne, hid]
  | disconnect k =>
      have hne : id ≠ k := by
        rintro rfl
        exact hgone hact
      simp only
      rw [AList.lookup_erase_ne hne, hid]

/-- All heartbeats of `id` in the run are accepted. -/
def PingsAccepted (clients : Clients) (id : String) (events : List Event) : Prop :=
  AtEach events fun pre e => ∀ p, e.act = .ping id p →
    (onPing e.env e.now (serveAll clients pre) id p).1 = true

/-- A connection that is not closed stays live under its token. -/
theorem serveAll_live :
    ∀ (events : List Event) {clients : Clients} {h : ClientHandle},
      clients.lookup id = some h → (∀ e ∈ events, e.act ≠ .disconnect id) →
      PingsAccepted clients id events →
      ∃ h', (serveAll clients events).lookup id = some h' ∧ h'.perms = h.perms := by
  intro events
  induction events with
  | nil =>
      intro clients h hid _ _
      exact ⟨h, hid, rfl⟩
  | cons e rest ih =>
      intro clients h hid hstay hacc
      rw [PingsAccepted, atEach_cons] at hacc
      have hstay' : ∀ e' ∈ rest, e'.act ≠ .disconnect id := fun e' he' =>
        hstay e' (List.mem_cons_of_mem _ he')
      obtain ⟨h₁, hid₁, hp₁⟩ : ∃ h₁, (serve clients e).lookup id = some h₁ ∧
          h₁.perms = h.perms := by
        by_cases hping : ∃ p, e.act = .ping id p
        · obtain ⟨p, hp⟩ := hping
          obtain ⟨-, h₁, -, hlook, hperms, -⟩ := onPing_services hid (hacc.1 p hp)
          refine ⟨h₁, ?_, hperms⟩
          simp only [serve, hp]
          exact hlook
        · exact ⟨h, serve_lookup_other hid (fun p hp => hping ⟨p, hp⟩)
            (hstay e List.mem_cons_self), rfl⟩
      obtain ⟨h', hid', hp'⟩ := ih hid₁ hstay' hacc.2
      exact ⟨h', hid', hp'.trans hp₁⟩

/-- The settings all at their defaults, with no URL parsed. -/
def plainEnv : Env where
  urlParse := fun _ => .ok none

end Aperio
