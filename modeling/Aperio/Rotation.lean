import Aperio.Pick

/-!
# Taking turns

`pick_proxy_client` once more, with the map of cursors it works on. A request
that is neither pinned to a connection nor matched by its affinity cookie
takes the pool's next member and moves the cursor of its route group, modulo
the size of the pool that was left for it. The cursor is the group's, and the
pool is the request's: what the visitor's address, the canary split or a
required process leaves of the route's pool.

The client set is fixed, and so is the pool of the route.
-/

namespace Aperio

/-! ## A pick and its cursor -/

abbrev Cursors := AList fun _ : RouteGroupKey => Nat

def Cursors.get (rr : Cursors) (key : RouteGroupKey) : Nat :=
  (rr.lookup key).getD 0

structure PickRequest where
  path : String
  host : Option String := none
  now : Nat := 0
  args : PickArgs := {}

/-- What is left of the route's pool for a request, or the redirect of a
visitor whom every candidate rejects. -/
def pickPool (pool : List ServiceRef) (clients : Clients) (args : PickArgs) :
    List ServiceRef ⊕ Option String :=
  match filterPoolByIp pool clients args.visitorIp with
  | .inr redirect => .inr redirect
  | .inl pool =>
    let pool := requireClient (applyLbStrategy pool clients args.strategy) args.requirement
    .inl (requireProcess (splitPool pool clients args.canary) clients args.requirement)

/-- The request is served by rotation. -/
def rotates (pool : List ServiceRef) (clients : Clients) (args : PickArgs) : Bool :=
  match args.requirement with
  | some (.client _) => false
  | _ => !(decide (args.strategy = .sticky) &&
      (args.affinity.bind (findAffinityMatch pool clients)).isSome)

/-- `pick_proxy_client`: the outcome, and the cursors it leaves. -/
def pickAt (clients : Clients) (downThreshold : Nat) (rr : Cursors) (req : PickRequest) :
    PickOutcome × Cursors :=
  match selectClientPool clients req.path req.host req.now downThreshold with
  | none => (.noRoute, rr)
  | some (pool, key) =>
    let args := { req.args with cursor := rr.get key }
    (pickProxyClient clients req.path req.host req.now downThreshold args,
      match pickPool pool clients args with
      | .inr _ => rr
      | .inl left =>
        if left ≠ [] ∧ rotates left clients args then
          rr.insert key ((rr.get key + 1) % left.length)
        else rr)

/-- The service a pick chooses. -/
def chosenAt (clients : Clients) (downThreshold : Nat) (rr : Cursors) (req : PickRequest) :
    Option ServiceRef :=
  match selectClientPool clients req.path req.host req.now downThreshold with
  | none => none
  | some (pool, key) =>
    match pickPool pool clients req.args with
    | .inr _ => none
    | .inl left => choose left clients { req.args with cursor := rr.get key }

/-- The cursors after a sequence of requests. -/
def cursorsAfter (clients : Clients) (downThreshold : Nat) (rr : Cursors)
    (reqs : List PickRequest) : Cursors :=
  reqs.foldl (fun rr req => (pickAt clients downThreshold rr req).2) rr

/-- The request rotates through all of the pool. -/
def seesAll (clients : Clients) (pool : List ServiceRef) (req : PickRequest) : Bool :=
  decide (pickPool pool clients req.args = .inl pool) && rotates pool clients req.args

/-- A request that rotates through less than all of the pool leaves the cursor
where the pool has it. -/
def KeepsTurn (clients : Clients) (pool : List ServiceRef) (cursor : Nat) (req : PickRequest) :
    Prop :=
  seesAll clients pool req = false → ∀ left, pickPool pool clients req.args = .inl left →
    left ≠ [] → rotates left clients req.args = true →
      (cursor + 1) % left.length % pool.length = cursor % pool.length

/-- The member of the pool is chosen, and selected, by a request of the
sequence that sees all of it. -/
def Taken (clients : Clients) (downThreshold : Nat) (pool : List ServiceRef) (rr : Cursors)
    (reqs : List PickRequest) (r : ServiceRef) : Prop :=
  ∃ pre req post, reqs = pre ++ req :: post ∧ seesAll clients pool req = true ∧
    chosenAt clients downThreshold (cursorsAfter clients downThreshold rr pre) req = some r ∧
    ∃ h s, clients.lookup r.client = some h ∧ r.get clients = some s ∧
      (pickAt clients downThreshold (cursorsAfter clients downThreshold rr pre) req).1 =
        .selected ⟨r.client, s.serviceName, h.reportedInstanceId⟩

section

variable {clients : Clients} {downThreshold : Nat} {rr : Cursors} {req : PickRequest}
  {pool left : List ServiceRef} {key : RouteGroupKey} {r : ServiceRef}

/-- What a pick selects is the service it chooses. -/
theorem pickAt_fst {h : ClientHandle} {svc : ServiceState}
    (hchosen : chosenAt clients downThreshold rr req = some r)
    (hlook : clients.lookup r.client = some h) (hget : r.get clients = some svc) :
    (pickAt clients downThreshold rr req).1 =
      .selected ⟨r.client, svc.serviceName, h.reportedInstanceId⟩ := by
  unfold chosenAt at hchosen
  split at hchosen
  · cases hchosen
  · rename_i pool key hpool
    unfold pickPool at hchosen
    simp only [pickAt, hpool, pickProxyClient]
    cases hallowed : filterPoolByIp pool clients req.args.visitorIp with
    | inr redirect =>
        rw [hallowed] at hchosen
        cases hchosen
    | inl allowed =>
        rw [hallowed] at hchosen
        simp only at hchosen ⊢
        rw [hchosen]
        simp only [hlook, hget]

/-- The cursors a pick leaves. -/
theorem pickAt_snd
    (hpool : selectClientPool clients req.path req.host req.now downThreshold = some (pool, key))
    (hleft : pickPool pool clients req.args = .inl left) :
    (pickAt clients downThreshold rr req).2 =
      if left ≠ [] ∧ rotates left clients req.args then
        rr.insert key ((rr.get key + 1) % left.length)
      else rr := by
  have hleft' : pickPool pool clients { req.args with cursor := rr.get key } = .inl left := hleft
  simp only [pickAt, hpool, hleft']
  rfl

theorem seesAll_iff : seesAll clients pool req = true ↔
    pickPool pool clients req.args = .inl pool ∧ rotates pool clients req.args = true := by
  simp [seesAll]

/-- A rotating pick takes the member the cursor is at. -/
theorem choose_of_rotates {args : PickArgs} (h : rotates left clients args = true) :
    choose left clients args = left[args.cursor % left.length]? := by
  have hprev : (if args.strategy = .sticky then
      args.affinity.bind (findAffinityMatch left clients) else none) = none := by
    split
    · rename_i hsticky
      by_contra hsome
      have hmatch := Option.isSome_iff_ne_none.mpr hsome
      unfold rotates at h
      split at h
      · cases h
      · simp [hsticky, hmatch] at h
    · rfl
  cases hreq : args.requirement with
  | none => simp only [choose, hreq, hprev, Option.none_or]
  | some req =>
      cases req with
      | client id => simp [rotates, hreq] at h
      | process instanceId => simp only [choose, hreq, hprev, Option.none_or]

/-- Every member of a route's pool is there to be selected. -/
theorem get_of_mem_pool {path : String} {host : Option String} {now : Nat}
    (hpool : selectClientPool clients path host now downThreshold = some (pool, key))
    (hr : r ∈ pool) : ∃ h s, clients.lookup r.client = some h ∧ r.get clients = some s := by
  obtain ⟨cands, rfl, hcands, -⟩ := selectClientPool_spec hpool
  obtain ⟨c, hc, rfl⟩ := List.mem_map.mp hr
  obtain ⟨h, hlook, hsvc, -⟩ := mem_eligibleServices.mp (hcands c hc).1
  exact ⟨h, c.2, hlook, ServiceRef.get_eq_some.mpr ⟨h, hlook, hsvc⟩⟩

/-! ## One turn -/

/-- A request that sees all of the pool takes the member whose turn it is, and
the turn passes on. -/
theorem pickAt_of_seesAll
    (hpool : selectClientPool clients req.path req.host req.now downThreshold = some (pool, key))
    (hall : seesAll clients pool req = true) :
    chosenAt clients downThreshold rr req = pool[rr.get key % pool.length]? ∧
      (pickAt clients downThreshold rr req).2.get key = (rr.get key + 1) % pool.length := by
  obtain ⟨hleft, hrot⟩ := seesAll_iff.mp hall
  have hrot' : rotates pool clients { req.args with cursor := rr.get key } = true := hrot
  refine ⟨?_, ?_⟩
  · simp only [chosenAt, hpool, hleft]
    exact choose_of_rotates hrot'
  · rw [pickAt_snd hpool hleft, if_pos ⟨selectClientPool_ne_nil hpool, hrot⟩, Cursors.get,
      AList.lookup_insert]
    rfl

/-- Any other request that keeps the turn leaves it as it was. -/
theorem pickAt_of_keepsTurn
    (hpool : selectClientPool clients req.path req.host req.now downThreshold = some (pool, key))
    (hall : seesAll clients pool req = false) (hkeeps : KeepsTurn clients pool (rr.get key) req) :
    (pickAt clients downThreshold rr req).2.get key % pool.length = rr.get key % pool.length := by
  cases hleft : pickPool pool clients req.args with
  | inr redirect =>
      have hleft' : pickPool pool clients { req.args with cursor := rr.get key } =
          .inr redirect := hleft
      simp only [pickAt, hpool, hleft']
  | inl left =>
      rw [pickAt_snd hpool hleft]
      split
      · rename_i hmoves
        rw [Cursors.get, AList.lookup_insert]
        exact hkeeps hall left hleft hmoves.1 hmoves.2
      · rfl

end

/-! ## Rounds -/

/-- Every place comes up within a round, wherever the round starts. -/
theorem exists_turn {n place : Nat} (start : Nat) (h : place < n) :
    ∃ i < n, (start + i) % n = place := by
  refine ⟨(place + (n - start % n)) % n, Nat.mod_lt _ (by omega), ?_⟩
  have hstart : start % n < n := Nat.mod_lt _ (by omega)
  have hsplit : (start + (place + (n - start % n))) % n =
      (place + n * (start / n) + n) % n := by
    have hdiv := Nat.div_add_mod start n
    congr 1
    omega
  rw [Nat.add_mod_mod, hsplit, Nat.add_mod_right, Nat.add_mul_mod_self_left]
  exact Nat.mod_eq_of_lt h

section

variable {clients : Clients} {downThreshold : Nat} {pool : List ServiceRef} {key : RouteGroupKey}

/-- The `i`-th request that sees all of the pool takes the `i`-th turn. -/
theorem turn_taken {reqs : List PickRequest} : ∀ {rr : Cursors} {i : Nat},
    (∀ req ∈ reqs, selectClientPool clients req.path req.host req.now downThreshold =
      some (pool, key)) →
    (AtEach reqs fun pre req => KeepsTurn clients pool
      ((cursorsAfter clients downThreshold rr pre).get key) req) →
    i < (reqs.filter (seesAll clients pool)).length →
    ∃ pre req post, reqs = pre ++ req :: post ∧ seesAll clients pool req = true ∧
      chosenAt clients downThreshold (cursorsAfter clients downThreshold rr pre) req =
        pool[(rr.get key + i) % pool.length]? := by
  induction reqs with
  | nil =>
      intro rr i _ _ hi
      cases hi
  | cons req rest ih =>
      intro rr i hroute hkeeps hi
      rw [atEach_cons] at hkeeps
      have hpool := hroute req List.mem_cons_self
      have hroute' := fun req' hreq' => hroute req' (List.mem_cons_of_mem _ hreq')
      cases hall : seesAll clients pool req with
      | true =>
          obtain ⟨hchosen, hcursor⟩ := @pickAt_of_seesAll _ _ rr _ _ _ hpool hall
          cases i with
          | zero => exact ⟨[], req, rest, rfl, hall, hchosen⟩
          | succ i =>
              rw [List.filter_cons_of_pos hall, List.length_cons] at hi
              obtain ⟨pre, req', post, hsplit, hall', hturn⟩ :=
                @ih (pickAt clients downThreshold rr req).2 i hroute' hkeeps.2 (by omega)
              refine ⟨req :: pre, req', post, by rw [hsplit, List.cons_append], hall', ?_⟩
              rw [hcursor, Nat.mod_add_mod] at hturn
              have hnext : rr.get key + 1 + i = rr.get key + (i + 1) := by omega
              rw [hnext] at hturn
              exact hturn
      | false =>
          rw [List.filter_cons_of_neg (by simp [hall])] at hi
          have hcursor := @pickAt_of_keepsTurn _ _ rr _ _ _ hpool hall hkeeps.1
          obtain ⟨pre, req', post, hsplit, hall', hturn⟩ :=
            @ih (pickAt clients downThreshold rr req).2 i hroute' hkeeps.2 hi
          refine ⟨req :: pre, req', post, by rw [hsplit, List.cons_append], hall', ?_⟩
          rw [Nat.add_mod, hcursor, ← Nat.add_mod] at hturn
          exact hturn

end

/-- **No starvation.** On a route with a fixed pool, in every sequence of
requests in which none that rotates through less than all of the pool moves
the turn, twice as many requests that see all of the pool as it has members
take every member of it. -/
theorem rotation_takes_all {clients : Clients} {downThreshold : Nat} {pool : List ServiceRef}
    {key : RouteGroupKey} (rr : Cursors) {reqs : List PickRequest}
    (hroute : ∀ req ∈ reqs, selectClientPool clients req.path req.host req.now downThreshold =
      some (pool, key))
    (hkeeps : AtEach reqs fun pre req => KeepsTurn clients pool
      ((cursorsAfter clients downThreshold rr pre).get key) req)
    (hcount : 2 * pool.length ≤ (reqs.filter (seesAll clients pool)).length) :
    ∀ r ∈ pool, Taken clients downThreshold pool rr reqs r := by
  intro r hr
  obtain ⟨place, hplace⟩ := List.mem_iff_getElem?.mp hr
  have hlt : place < pool.length := (List.getElem?_eq_some_iff.mp hplace).1
  obtain ⟨i, hi, hturn⟩ := exists_turn (rr.get key) hlt
  obtain ⟨pre, req, post, hsplit, hall, hchosen⟩ :=
    @turn_taken clients downThreshold pool key reqs rr i hroute hkeeps (by omega)
  rw [hturn, hplace] at hchosen
  have hpool := hroute req (by rw [hsplit]; exact List.mem_append_right _ List.mem_cons_self)
  obtain ⟨h, s, hlook, hget⟩ := get_of_mem_pool hpool hr
  exact ⟨pre, req, post, hsplit, hall, hchosen, h, s, hlook, hget, pickAt_fst hchosen hlook hget⟩

/-! ### Two replicas of one site -/

def replica (id : String) : ClientHandle :=
  { newHandle {} 0 { perms := ClientPerms.ofMaster } with
    lastPingAt := some 0
    reportedInstanceId := some id
    services := [{ declaredHostname := some "app.test" }] }

def twoReplicas : Clients :=
  ((∅ : Clients).insert "b" (replica "b")).insert "a" (replica "a")

def anyReplica : PickRequest where
  path := "/"
  host := some "app.test"

/-- The request waits for one process to come back. -/
def onlyReplica (id : String) : PickRequest :=
  { anyReplica with args := { requirement := some (.process id) } }

def replicaPool : List ServiceRef :=
  [⟨"a", 0⟩, ⟨"b", 0⟩]

def replicaKey : RouteGroupKey :=
  (some "app.test", none)

theorem twoReplicas_pool : selectClientPool twoReplicas "/" (some "app.test") 0 15 =
    some (replicaPool, replicaKey) := by
  decide

theorem seesAll_anyReplica : seesAll twoReplicas replicaPool anyReplica = true := by
  decide

theorem keepsTurn_anyReplica (cursor : Nat) :
    KeepsTurn twoReplicas replicaPool cursor anyReplica := by
  intro hnot
  rw [seesAll_anyReplica] at hnot
  cases hnot

/-- Four requests that may go to either replica reach both. -/
theorem rotation_takes_all_replicas :
    Taken twoReplicas 15 replicaPool ∅ (List.replicate 4 anyReplica) ⟨"a", 0⟩ ∧
      Taken twoReplicas 15 replicaPool ∅ (List.replicate 4 anyReplica) ⟨"b", 0⟩ := by
  have hall : ∀ req ∈ List.replicate 4 anyReplica, req = anyReplica := fun _ hreq =>
    List.eq_of_mem_replicate hreq
  have htaken := @rotation_takes_all twoReplicas 15 replicaPool replicaKey ∅
    (List.replicate 4 anyReplica) ?_ ?_ (by decide)
  · exact ⟨htaken _ (by decide), htaken _ (by decide)⟩
  · intro req hreq
    rw [hall req hreq]
    exact twoReplicas_pool
  · intro pre req post hsplit
    have hreq : req ∈ List.replicate 4 anyReplica := by
      rw [hsplit]
      exact List.mem_append_right _ List.mem_cons_self
    rw [hall req hreq]
    exact keepsTurn_anyReplica _

/-- Between any two requests that may go to either replica comes one that
waits for the first. It rotates a pool of one and puts the cursor back: every
request goes to the first replica. -/
def interleaved : List PickRequest :=
  [anyReplica, onlyReplica "a", anyReplica, onlyReplica "a", anyReplica, onlyReplica "a",
    anyReplica]

theorem second_replica_starves :
    (∀ req ∈ interleaved, selectClientPool twoReplicas req.path req.host req.now 15 =
      some (replicaPool, replicaKey)) ∧
    2 * replicaPool.length ≤ (interleaved.filter (seesAll twoReplicas replicaPool)).length ∧
    (AtEach interleaved fun pre req =>
      chosenAt twoReplicas 15 (cursorsAfter twoReplicas 15 ∅ pre) req = some ⟨"a", 0⟩) ∧
    ¬ Taken twoReplicas 15 replicaPool ∅ interleaved ⟨"b", 0⟩ := by
  have hfirst : AtEach interleaved fun pre req =>
      chosenAt twoReplicas 15 (cursorsAfter twoReplicas 15 ∅ pre) req = some ⟨"a", 0⟩ := by
    simp only [interleaved, atEach_cons]
    exact ⟨by decide, by decide, by decide, by decide, by decide, by decide, by decide,
      atEach_nil⟩
  refine ⟨?_, by decide, hfirst, ?_⟩
  · intro req hreq
    simp only [interleaved, List.mem_cons, List.not_mem_nil, or_false] at hreq
    obtain rfl | rfl | rfl | rfl | rfl | rfl | rfl := hreq <;> exact twoReplicas_pool
  · rintro ⟨pre, req, post, hsplit, -, hchosen, -⟩
    rw [hfirst pre req post hsplit] at hchosen
    exact absurd hchosen (by decide)

end Aperio
