import Aperio.AlertRules
import Aperio.Run

/-!
# The alert ticker

`alerts.rs`: every fifteen seconds the ticker takes one reading of the server
and says what is wrong and what no longer is. The operator's rules come
first, then the share of failed requests, then the services that are down.

Whether an alert is outstanding is kept in three places: with the rule, in a
flag for the error rate, and in a map for the services. The map forgets a
service that has been down for a day past the threshold, with the alert that
is outstanding for it; and nothing keeps an operator from naming a rule
`error_rate`. `Remembered` is a tick that forgets nobody.
-/

namespace Aperio

/-! ## What is read and what is said -/

inductive Availability where
  | up
  | degraded
  | down
deriving Repr, DecidableEq

/-- The thresholds. A `clientDown` within a day of the longest `Duration` is left
out: the ticker would panic on `client_down + 24 h`. -/
structure AlertConfig where
  errorRatePct : ℚ := 0
  window : Nat := 0
  minRequests : Nat := 0
  clientDown : Nat := 0

/-- What one tick finds: the instant, the metrics that can be read, the
requests counted so far, and the services there are. -/
structure Reading where
  now : Nat
  metric : Metric → Option ℚ := fun _ => none
  successful : Nat := 0
  failed : Nat := 0
  live : String → Option Availability := fun _ => none

inductive AlertEvent where
  | triggered
  | resolved
deriving Repr, DecidableEq

/-- What an event is about. -/
structure AlertKey where
  kind : String
  service : Option String := none
deriving Repr, DecidableEq

/-- The events emitted so far, of each kind and service. -/
abbrev AlertLog := AlertKey → List AlertEvent

def AlertLog.emit (log : AlertLog) (key : AlertKey) (events : List AlertEvent) : AlertLog :=
  Function.update log key (log key ++ events)

def Transition.event : Transition → AlertEvent
  | .fired => .triggered
  | .resolved => .resolved

/-- A cumulative count. -/
structure Sample where
  taken : Nat
  total : Nat
  failed : Nat
deriving Repr, DecidableEq

/-- What the ticker keeps. A service that is not in `downAlerted` has no
alert. -/
structure Ticker where
  samples : List Sample := []
  errorAlertActive : Bool := false
  lastOk : String → Option Nat := fun _ => none
  downAlerted : String → Bool := fun _ => false
  tracker : String → RuleState := fun _ => {}

structure Alerting where
  ticker : Ticker := {}
  log : AlertLog := fun _ => []

/-! ## One tick -/

def day : Nat := seconds (24 * 3600)

namespace Reading

variable (m : Reading)

/-- The service is there and not down. -/
def ok (service : String) : Bool :=
  (m.live service).any (· != .down)

/-- A rule whose metric cannot be read keeps quiet. -/
def observed (rule : Rule) (state : RuleState) : RuleState × Option Transition :=
  match m.metric rule.metric with
  | none => (state, none)
  | some value => rule.observe value m.now state

def observeRule (s : Alerting) (rule : Rule) : Alerting :=
  let out := m.observed rule (s.ticker.tracker rule.name)
  { ticker := { s.ticker with tracker := Function.update s.ticker.tracker rule.name out.1 }
    log := s.log.emit ⟨rule.name, none⟩ (out.2.map Transition.event).toList }

def rulesTick (rules : AlertRules) (s : Alerting) : Alerting :=
  rules.rules.foldl m.observeRule s

/-- The samples inside the window, with the one of this tick. -/
def samples (cfg : AlertConfig) (s : List Sample) : List Sample :=
  let sample : Sample := ⟨m.now, m.successful + m.failed, m.failed⟩
  (s ++ [sample]).dropWhile fun s => decide (cfg.window < m.now - s.taken)

/-- The share of the failed requests is over the bound; a share of nothing is,
where something failed. -/
def rateExceeds (cfg : AlertConfig) (failed total : Nat) : Bool :=
  if total = 0 then decide (0 < failed)
  else decide (cfg.errorRatePct ≤ (failed : ℚ) / total * 100)

/-- It is well below. -/
def rateClears (cfg : AlertConfig) (failed total : Nat) : Bool :=
  total != 0 && decide ((failed : ℚ) / total * 100 < cfg.errorRatePct * (4 / 5))

/-- What the requests inside the window decide. -/
def rateEvent (cfg : AlertConfig) (samples : List Sample) (active : Bool) :
    Option AlertEvent :=
  match samples.head?, samples.getLast? with
  | some first, some last =>
    let total := last.total - first.total
    let failed := last.failed - first.failed
    if total < cfg.minRequests then none
    else if !active && rateExceeds cfg failed total then some .triggered
    else if active && rateClears cfg failed total then some .resolved
    else none
  | _, _ => none

def errorRateTick (cfg : AlertConfig) (s : Alerting) : Alerting :=
  if cfg.errorRatePct ≤ 0 then s
  else
    let samples := m.samples cfg s.ticker.samples
    let event := rateEvent cfg samples s.ticker.errorAlertActive
    { ticker :=
        { s.ticker with
          samples := samples
          errorAlertActive := (event.map (· == .triggered)).getD s.ticker.errorAlertActive }
      log := s.log.emit ⟨"error_rate", none⟩ event.toList }

/-- When the service was last seen, after this tick has seen it or not. One
that is down when it is first seen counts from there. -/
def seenOk (lastOk : Option Nat) (service : String) : Option Nat :=
  match m.live service with
  | none => lastOk
  | some .down => some (lastOk.getD m.now)
  | some _ => some m.now

/-- What a service that is known decides. -/
def downEvent (cfg : AlertConfig) (seen : Option Nat) (alerted : Bool) (service : String) :
    Option AlertEvent :=
  seen.bind fun seenOk =>
    if m.ok service then if alerted then some .resolved else none
    else if !alerted && decide (cfg.clientDown ≤ m.now - seenOk) then some .triggered
    else none

/-- The service is not forgotten. -/
def keeps (cfg : AlertConfig) (seen : Option Nat) : Bool :=
  seen.all fun seenOk => decide (m.now - seenOk < cfg.clientDown + day)

/-- Every service alone. -/
def clientDownTick (cfg : AlertConfig) (s : Alerting) : Alerting :=
  if cfg.clientDown = 0 then s
  else
    let seen (service : String) : Option Nat := m.seenOk (s.ticker.lastOk service) service
    let event (service : String) : Option AlertEvent :=
      m.downEvent cfg (seen service) (s.ticker.downAlerted service) service
    { ticker :=
        { s.ticker with
          lastOk := fun service => (seen service).filter fun _ => m.keeps cfg (seen service)
          downAlerted := fun service =>
            ((event service).map (· == .triggered)).getD (s.ticker.downAlerted service) &&
              m.keeps cfg (seen service) }
      log := fun key =>
        match key.service with
        | some service =>
          if key.kind = "client_down" then s.log key ++ (event service).toList else s.log key
        | none => s.log key }

def tick (cfg : AlertConfig) (rules : AlertRules) (s : Alerting) : Alerting :=
  m.clientDownTick cfg (m.errorRateTick cfg (m.rulesTick rules s))

end Reading

/-- A run of the ticker over what it reads, the first reading first. -/
def alertRun (cfg : AlertConfig) (rules : AlertRules) (readings : List Reading) : Alerting :=
  readings.foldl (fun s m => m.tick cfg rules s) {}

/-! ## Events in pairs -/

/-- The events alternate, and the first is a trigger. -/
def InTurn (events : List AlertEvent) : Prop :=
  ∀ i e, events[i]? = some e → e = if i % 2 = 0 then .triggered else .resolved

/-- The events alternate, and the flag says whether the last alert is
outstanding. -/
structure FollowsFlag (events : List AlertEvent) (flag : Bool) : Prop where
  alternates : InTurn events
  parity : events.length % 2 = flag.toNat

theorem followsFlag_nil : FollowsFlag [] false where
  alternates := by
    intro i e h
    cases h
  parity := rfl

/-- An event that turns the flag over is the next one. -/
theorem FollowsFlag.emit {events : List AlertEvent} {flag : Bool}
    (h : FollowsFlag events flag) (event : Option AlertEvent)
    (htriggered : event = some .triggered → flag = false)
    (hresolved : event = some .resolved → flag = true) :
    FollowsFlag (events ++ event.toList) ((event.map (· == .triggered)).getD flag) := by
  cases event with
  | none => simpa using h
  | some e =>
      have hlast : e = if events.length % 2 = 0 then .triggered else .resolved := by
        rw [h.parity]
        cases e with
        | triggered =>
            rw [htriggered rfl]
            rfl
        | resolved =>
            rw [hresolved rfl]
            rfl
      refine ⟨?_, ?_⟩
      · intro i x hx
        rw [Option.toList_some, List.getElem?_append] at hx
        split at hx
        · exact h.alternates i x hx
        · rename_i hge
          have hi : i - events.length = 0 := by
            by_contra hne
            rw [List.getElem?_eq_none (by simpa using Nat.one_le_iff_ne_zero.mpr hne)] at hx
            cases hx
          rw [hi] at hx
          obtain rfl : e = x := by simpa using hx
          rw [hlast, show i = events.length by omega]
      · rw [Option.toList_some, List.length_append, List.length_singleton, Nat.add_mod, h.parity]
        cases e with
        | triggered =>
            rw [htriggered rfl]
            rfl
        | resolved =>
            rw [hresolved rfl]
            rfl

theorem FollowsFlag.last {events : List AlertEvent} {flag : Bool} (h : FollowsFlag events flag)
    (hlast : events.getLast? = some .triggered) : flag = true := by
  rw [List.getLast?_eq_getElem?] at hlast
  have hodd := h.alternates _ _ hlast
  have hpos : events.length ≠ 0 := by
    intro hzero
    rw [List.length_eq_zero_iff.mp hzero] at hlast
    cases hlast
  cases flag with
  | true => rfl
  | false =>
      have hparity := h.parity
      rw [Bool.toNat_false] at hparity
      rw [if_neg (by omega)] at hodd
      cases hodd

/-! ## What one tick emits -/

section Tick

variable {cfg : AlertConfig} {rules : AlertRules} {m : Reading} {s : Alerting}

theorem Rule.observe_follows {rule : Rule} {value : ℚ} {now : Nat} {state : RuleState}
    {events : List AlertEvent} (h : FollowsFlag events state.firing) :
    FollowsFlag (events ++ ((rule.observe value now state).2.map Transition.event).toList)
      (rule.observe value now state).1.firing := by
  rcases rule.observe_cases value now state with ⟨-, hc⟩ | ⟨-, -, hc⟩ | ⟨-, -, hc⟩
  · rw [hc]
    simpa using h
  · rw [hc]
    simpa using h
  · rw [hc]
    cases hfiring : state.firing with
    | true =>
        rw [hfiring] at h
        exact h.emit (some .resolved) (by rintro ⟨⟩) fun _ => rfl
    | false =>
        rw [hfiring] at h
        exact h.emit (some .triggered) (fun _ => rfl) (by rintro ⟨⟩)

theorem Reading.observed_follows {rule : Rule} {state : RuleState} {events : List AlertEvent}
    (h : FollowsFlag events state.firing) :
    FollowsFlag (events ++ ((m.observed rule state).2.map Transition.event).toList)
      (m.observed rule state).1.firing := by
  rw [Reading.observed]
  cases m.metric rule.metric with
  | none => simpa using h
  | some value => exact Rule.observe_follows h

/-- Every rule of a list of different names is observed once, and nothing else
changes. -/
theorem foldl_observeRule (rules : List Rule) (hnames : (rules.map (·.name)).Nodup)
    (s : Alerting) :
    (∀ rule ∈ rules,
      (rules.foldl m.observeRule s).ticker.tracker rule.name =
          (m.observed rule (s.ticker.tracker rule.name)).1 ∧
        (rules.foldl m.observeRule s).log ⟨rule.name, none⟩ = s.log ⟨rule.name, none⟩ ++
          ((m.observed rule (s.ticker.tracker rule.name)).2.map Transition.event).toList) ∧
      (∀ name ∉ rules.map (·.name),
        (rules.foldl m.observeRule s).ticker.tracker name = s.ticker.tracker name) ∧
      (∀ key, (∀ rule ∈ rules, key ≠ ⟨rule.name, none⟩) →
        (rules.foldl m.observeRule s).log key = s.log key) ∧
      (rules.foldl m.observeRule s).ticker.errorAlertActive = s.ticker.errorAlertActive ∧
      (rules.foldl m.observeRule s).ticker.lastOk = s.ticker.lastOk ∧
      (rules.foldl m.observeRule s).ticker.downAlerted = s.ticker.downAlerted := by
  induction rules generalizing s with
  | nil => exact ⟨by rintro _ ⟨⟩, fun _ _ => rfl, fun _ _ => rfl, rfl, rfl, rfl⟩
  | cons rule rest ih =>
      rw [List.map_cons, List.nodup_cons] at hnames
      obtain ⟨hrules, hother, hlog, hactive, hlast, halerted⟩ := ih hnames.2 (m.observeRule s rule)
      have hapart : ∀ name, name ≠ rule.name →
          (m.observeRule s rule).ticker.tracker name = s.ticker.tracker name :=
        fun name hne => Function.update_of_ne hne _ _
      have hkey : ∀ key : AlertKey, key ≠ ⟨rule.name, none⟩ →
          (m.observeRule s rule).log key = s.log key :=
        fun key hne => Function.update_of_ne hne _ _
      simp only [List.foldl_cons]
      refine ⟨?_, ?_, ?_, hactive, hlast, halerted⟩
      · intro r hr
        rcases List.mem_cons.mp hr with rfl | hr
        · rw [hother r.name hnames.1, hlog ⟨r.name, none⟩ ?_]
          · exact ⟨Function.update_self _ _ _, Function.update_self _ _ _⟩
          · rintro q hq heq
            exact hnames.1 ((AlertKey.mk.inj heq).1 ▸ List.mem_map_of_mem hq)
        · have hne : r.name ≠ rule.name := by
            intro heq
            exact hnames.1 (heq ▸ List.mem_map_of_mem hr)
          obtain ⟨htracker, hevents⟩ := hrules r hr
          rw [hapart r.name hne] at htracker hevents
          rw [hkey ⟨r.name, none⟩ fun heq => hne (AlertKey.mk.inj heq).1] at hevents
          exact ⟨htracker, hevents⟩
      · intro name hname
        rw [List.map_cons, List.mem_cons, not_or] at hname
        rw [hother name hname.2, hapart name hname.1]
      · intro key hne
        rw [hlog key fun r hr => hne r (List.mem_cons_of_mem _ hr),
          hkey key (hne rule List.mem_cons_self)]

variable (cfg) in
/-- The error rate triggers only without an alert, and resolves only one. -/
theorem rateEvent_follows (samples : List Sample) {active : Bool} {events : List AlertEvent}
    (h : FollowsFlag events active) :
    FollowsFlag (events ++ (Reading.rateEvent cfg samples active).toList)
      (((Reading.rateEvent cfg samples active).map (· == .triggered)).getD active) := by
  refine h.emit _ ?_ ?_
  · intro hevent
    simp only [Reading.rateEvent] at hevent
    split at hevent
    · split at hevent
      · cases hevent
      · split at hevent
        · rename_i htriggers
          simp only [Bool.and_eq_true, Bool.not_eq_true'] at htriggers
          exact htriggers.1
        · split at hevent
          · cases hevent
          · cases hevent
    · cases hevent
  · intro hevent
    simp only [Reading.rateEvent] at hevent
    split at hevent
    · split at hevent
      · cases hevent
      · split at hevent
        · cases hevent
        · split at hevent
          · rename_i hresolves
            simp only [Bool.and_eq_true] at hresolves
            exact hresolves.1
          · cases hevent
    · cases hevent

variable (cfg m s) in
/-- What the three parts of a tick leave alone. -/
theorem errorRateTick_frame :
    (m.errorRateTick cfg s).ticker.tracker = s.ticker.tracker ∧
      (m.errorRateTick cfg s).ticker.lastOk = s.ticker.lastOk ∧
      (m.errorRateTick cfg s).ticker.downAlerted = s.ticker.downAlerted ∧
      ∀ key : AlertKey, (key ≠ ⟨"error_rate", none⟩ ∨ cfg.errorRatePct ≤ 0) →
        (m.errorRateTick cfg s).log key = s.log key := by
  rw [Reading.errorRateTick]
  split
  · exact ⟨rfl, rfl, rfl, fun _ _ => rfl⟩
  · rename_i hon
    exact ⟨rfl, rfl, rfl, fun key hkey =>
      Function.update_of_ne (hkey.resolve_right hon) _ _⟩

variable (cfg m s) in
theorem clientDownTick_frame :
    (m.clientDownTick cfg s).ticker.tracker = s.ticker.tracker ∧
      (m.clientDownTick cfg s).ticker.errorAlertActive = s.ticker.errorAlertActive ∧
      ∀ kind, (m.clientDownTick cfg s).log ⟨kind, none⟩ = s.log ⟨kind, none⟩ := by
  rw [Reading.clientDownTick]
  split
  · exact ⟨rfl, rfl, fun _ => rfl⟩
  · exact ⟨rfl, rfl, fun _ => rfl⟩

/-- No service has been down or gone for a day past the threshold. -/
def Remembered (cfg : AlertConfig) (s : Alerting) (m : Reading) : Prop :=
  ∀ service seen, m.seenOk (s.ticker.lastOk service) service = some seen →
    m.now - seen < cfg.clientDown + day

/-- Where nobody is forgotten, a tick is one look at every service. -/
theorem clientDownTick_remembered (hon : cfg.clientDown ≠ 0) (h : Remembered cfg s m)
    (service : String) :
    let event := m.downEvent cfg (m.seenOk (s.ticker.lastOk service) service)
      (s.ticker.downAlerted service) service
    (m.clientDownTick cfg s).ticker.lastOk service =
        m.seenOk (s.ticker.lastOk service) service ∧
      (m.clientDownTick cfg s).ticker.downAlerted service =
        (event.map (· == .triggered)).getD (s.ticker.downAlerted service) ∧
      (m.clientDownTick cfg s).log ⟨"client_down", some service⟩ =
        s.log ⟨"client_down", some service⟩ ++ event.toList := by
  have hkeeps : m.keeps cfg (m.seenOk (s.ticker.lastOk service) service) = true := by
    rw [Reading.keeps, Option.all_eq_true]
    intro seen hseen
    simpa using h service seen hseen
  simp only [Reading.clientDownTick, if_neg hon, hkeeps, Bool.and_true, if_true, and_true]
  cases m.seenOk (s.ticker.lastOk service) service with
  | none => rfl
  | some seen => rfl

end Tick

/-! ## Over whole runs -/

section Runs

variable {cfg : AlertConfig} {rules : AlertRules} {readings : List Reading} {m : Reading}

theorem alertRun_snoc : alertRun cfg rules (readings ++ [m]) =
    m.tick cfg rules (alertRun cfg rules readings) := by
  simp only [alertRun, List.foldl_append, List.foldl_cons, List.foldl_nil]

/-- Where the error rate is watched, no rule has its name. -/
def RulesNamed (cfg : AlertConfig) (rules : AlertRules) : Prop :=
  0 < cfg.errorRatePct → ∀ rule ∈ rules.rules, rule.name ≠ "error_rate"

/-- Every event goes with the flag it is decided by. -/
structure Alerting.Sound (cfg : AlertConfig) (rules : AlertRules) (s : Alerting) : Prop where
  rule : ∀ rule ∈ rules.rules,
    FollowsFlag (s.log ⟨rule.name, none⟩) (s.ticker.tracker rule.name).firing
  rate : 0 < cfg.errorRatePct →
    FollowsFlag (s.log ⟨"error_rate", none⟩) s.ticker.errorAlertActive
  down : ∀ service,
    FollowsFlag (s.log ⟨"client_down", some service⟩) (s.ticker.downAlerted service)
  known : ∀ service, s.ticker.downAlerted service = true → s.ticker.lastOk service ≠ none
  quiet : ∀ key : AlertKey, (∀ rule ∈ rules.rules, key ≠ ⟨rule.name, none⟩) →
    (0 < cfg.errorRatePct → key ≠ ⟨"error_rate", none⟩) →
    (∀ service, key ≠ ⟨"client_down", some service⟩) → s.log key = []

/-- What a rule emits in a tick is what it decides. -/
theorem tick_rule {s : Alerting} (hnamed : RulesNamed cfg rules) {rule : Rule}
    (hrule : rule ∈ rules.rules) :
    (m.tick cfg rules s).ticker.tracker rule.name =
        (m.observed rule (s.ticker.tracker rule.name)).1 ∧
      (m.tick cfg rules s).log ⟨rule.name, none⟩ = s.log ⟨rule.name, none⟩ ++
        ((m.observed rule (s.ticker.tracker rule.name)).2.map Transition.event).toList := by
  obtain ⟨hrules, -⟩ := foldl_observeRule (m := m) rules.rules rules.names s
  obtain ⟨htracker, -, -, hlog⟩ := errorRateTick_frame cfg m (m.rulesTick rules s)
  obtain ⟨hdown, -, hkinds⟩ := clientDownTick_frame cfg m
    (m.errorRateTick cfg (m.rulesTick rules s))
  have hkey : (⟨rule.name, none⟩ : AlertKey) ≠ ⟨"error_rate", none⟩ ∨ cfg.errorRatePct ≤ 0 := by
    by_cases hon : 0 < cfg.errorRatePct
    · exact .inl fun heq => hnamed hon rule hrule (AlertKey.mk.inj heq).1
    · exact .inr (Rat.not_lt.mp hon)
  rw [Reading.tick, hdown, hkinds, htracker, hlog _ hkey]
  exact hrules rule hrule

/-- What a service decides follows the alert that is outstanding for it. -/
theorem downEvent_follows {seen : Option Nat} {alerted : Bool} {service : String}
    {events : List AlertEvent} (h : FollowsFlag events alerted) :
    FollowsFlag (events ++ (m.downEvent cfg seen alerted service).toList)
      (((m.downEvent cfg seen alerted service).map (· == .triggered)).getD alerted) := by
  refine h.emit _ ?_ ?_
  · intro hevent
    obtain ⟨seenOk, -, hdecides⟩ := Option.bind_eq_some_iff.mp hevent
    split at hdecides
    · split at hdecides
      · cases hdecides
      · cases hdecides
    · split at hdecides
      · rename_i htriggers
        simp only [Bool.and_eq_true, Bool.not_eq_true'] at htriggers
        exact htriggers.1
      · cases hdecides
  · intro hevent
    obtain ⟨seenOk, -, hdecides⟩ := Option.bind_eq_some_iff.mp hevent
    split at hdecides
    · split at hdecides
      · assumption
      · cases hdecides
    · split at hdecides
      · cases hdecides
      · cases hdecides

theorem rulesTick_sound {s : Alerting} (h : s.Sound cfg rules) (hnamed : RulesNamed cfg rules) :
    (m.rulesTick rules s).Sound cfg rules := by
  obtain ⟨hrules, -, hquiet, hactive, hlast, halerted⟩ :=
    foldl_observeRule (m := m) rules.rules rules.names s
  change (m.rulesTick rules s).ticker.errorAlertActive = _ at hactive
  change (m.rulesTick rules s).ticker.lastOk = _ at hlast
  change (m.rulesTick rules s).ticker.downAlerted = _ at halerted
  have hservice : ∀ service : String, ∀ rule ∈ rules.rules,
      (⟨"client_down", some service⟩ : AlertKey) ≠ ⟨rule.name, none⟩ := by
    rintro service rule - heq
    cases (AlertKey.mk.inj heq).2
  refine ⟨?_, ?_, ?_, ?_, ?_⟩
  · intro rule hrule
    obtain ⟨htracker, hlog⟩ := hrules rule hrule
    rw [show (m.rulesTick rules s).log ⟨rule.name, none⟩ = _ from hlog,
      show (m.rulesTick rules s).ticker.tracker rule.name = _ from htracker]
    exact Reading.observed_follows (h.rule rule hrule)
  · intro hon
    rw [show (m.rulesTick rules s).log ⟨"error_rate", none⟩ = _ from hquiet _ ?_, hactive]
    · exact h.rate hon
    · rintro rule hrule heq
      exact hnamed hon rule hrule (AlertKey.mk.inj heq).1.symm
  · intro service
    rw [show (m.rulesTick rules s).log ⟨"client_down", some service⟩ = _ from
      hquiet _ (hservice service), halerted]
    exact h.down service
  · rw [halerted, hlast]
    exact h.known
  · intro key hrule hrate hdown
    rw [show (m.rulesTick rules s).log key = _ from hquiet key hrule]
    exact h.quiet key hrule hrate hdown

theorem errorRateTick_sound {s : Alerting} (h : s.Sound cfg rules) (hnamed : RulesNamed cfg rules) :
    (m.errorRateTick cfg s).Sound cfg rules := by
  obtain ⟨htracker, hlast, halerted, hlog⟩ := errorRateTick_frame cfg m s
  refine ⟨?_, ?_, ?_, ?_, ?_⟩
  · intro rule hrule
    rw [htracker, hlog]
    · exact h.rule rule hrule
    · by_cases hon : 0 < cfg.errorRatePct
      · exact .inl fun heq => hnamed hon rule hrule (AlertKey.mk.inj heq).1
      · exact .inr (Rat.not_lt.mp hon)
  · intro hon
    have hevents := rateEvent_follows cfg (m.samples cfg s.ticker.samples) (h.rate hon)
    rw [Reading.errorRateTick, if_neg (Rat.not_le.mpr hon)]
    simp only [AlertLog.emit, Function.update_self]
    exact hevents
  · intro service
    rw [halerted, hlog _ (.inl fun heq => by cases (AlertKey.mk.inj heq).2)]
    exact h.down service
  · rw [halerted, hlast]
    exact h.known
  · intro key hrule hrate hdown
    rw [hlog key]
    · exact h.quiet key hrule hrate hdown
    · by_cases hon : 0 < cfg.errorRatePct
      · exact .inl (hrate hon)
      · exact .inr (Rat.not_lt.mp hon)

theorem clientDownTick_sound {s : Alerting} (h : s.Sound cfg rules)
    (hremembered : Remembered cfg s m) : (m.clientDownTick cfg s).Sound cfg rules := by
  obtain ⟨htracker, hactive, hkinds⟩ := clientDownTick_frame cfg m s
  by_cases hoff : cfg.clientDown = 0
  · rw [Reading.clientDownTick, if_pos hoff]
    exact h
  have hlook := clientDownTick_remembered hoff hremembered
  refine ⟨?_, ?_, ?_, ?_, ?_⟩
  · intro rule hrule
    rw [hkinds, htracker]
    exact h.rule rule hrule
  · intro hon
    rw [hkinds, hactive]
    exact h.rate hon
  · intro service
    obtain ⟨-, halerted, hlog⟩ := hlook service
    rw [halerted, hlog]
    exact downEvent_follows (h.down service)
  · intro service halerted
    obtain ⟨hseen, hflag, -⟩ := hlook service
    rw [hseen]
    intro hnone
    have hlast : s.ticker.lastOk service = none := by
      simp only [Reading.seenOk] at hnone
      split at hnone
      · exact hnone
      · cases hnone
      · cases hnone
    rw [hnone] at hflag
    rw [hflag] at halerted
    exact h.known service (by simpa [Reading.downEvent] using halerted) hlast
  · intro key hrule hrate hdown
    obtain ⟨kind, service⟩ := key
    cases service with
    | none =>
        rw [hkinds]
        exact h.quiet _ hrule hrate hdown
    | some service =>
        have hkind : kind ≠ "client_down" := by
          rintro rfl
          exact hdown service rfl
        simp only [Reading.clientDownTick, if_neg hoff, if_neg hkind]
        exact h.quiet _ hrule hrate hdown

theorem tick_sound {s : Alerting} (h : s.Sound cfg rules) (hnamed : RulesNamed cfg rules)
    (hremembered : Remembered cfg s m) : (m.tick cfg rules s).Sound cfg rules := by
  refine clientDownTick_sound (errorRateTick_sound (rulesTick_sound h hnamed) hnamed) ?_
  obtain ⟨-, -, -, -, hseen, -⟩ := foldl_observeRule (m := m) rules.rules rules.names s
  obtain ⟨-, hlast, -⟩ := errorRateTick_frame cfg m (m.rulesTick rules s)
  rw [Remembered, hlast, show (m.rulesTick rules s).ticker.lastOk = _ from hseen]
  exact hremembered

/-- The readings a run is about come one after the other, no two sources of
events have one name, and nobody is forgotten. -/
structure Watched (cfg : AlertConfig) (rules : AlertRules) (readings : List Reading) : Prop where
  named : RulesNamed cfg rules
  remembered : AtEach readings fun before m => Remembered cfg (alertRun cfg rules before) m

theorem Watched.before {before after : List Reading} (h : Watched cfg rules (before ++ after)) :
    Watched cfg rules before where
  named := h.named
  remembered := by
    intro pre m post hcut
    exact h.remembered pre m (post ++ after) (by rw [hcut]; simp)

theorem alertRun_sound (h : Watched cfg rules readings) :
    (alertRun cfg rules readings).Sound cfg rules := by
  induction readings using List.reverseRecOn with
  | nil =>
      exact ⟨fun _ _ => followsFlag_nil, fun _ => followsFlag_nil, fun _ => followsFlag_nil,
        fun _ h => absurd h Bool.false_ne_true, fun _ _ _ _ => rfl⟩
  | append_singleton before m ih =>
      rw [alertRun_snoc]
      exact tick_sound (ih h.before) h.named (atEach_append.mp h.remembered).2

/-- Every event is the next of its kind and service. -/
theorem alertRun_alternates (h : Watched cfg rules readings) (key : AlertKey) :
    InTurn ((alertRun cfg rules readings).log key) := by
  have hsound := alertRun_sound h
  by_cases hrule : ∃ rule ∈ rules.rules, key = ⟨rule.name, none⟩
  · obtain ⟨rule, hmem, rfl⟩ := hrule
    exact (hsound.rule rule hmem).alternates
  by_cases hrate : 0 < cfg.errorRatePct ∧ key = ⟨"error_rate", none⟩
  · rw [hrate.2]
    exact (hsound.rate hrate.1).alternates
  by_cases hdown : ∃ service, key = ⟨"client_down", some service⟩
  · obtain ⟨service, rfl⟩ := hdown
    exact (hsound.down service).alternates
  rw [hsound.quiet key (fun rule hmem heq => hrule ⟨rule, hmem, heq⟩)
    (fun hon heq => hrate ⟨hon, heq⟩) fun service heq => hdown ⟨service, heq⟩]
  exact followsFlag_nil.alternates

/-! ## One outage -/

variable (cfg) in
/-- A service that is not ok triggers where no alert is outstanding, or does
nothing. -/
theorem downEvent_of_gone (seen : Option Nat) (alerted : Bool) {service : String}
    (h : m.ok service = false) :
    m.downEvent cfg seen alerted service = none ∨
      (alerted = false ∧ m.downEvent cfg seen alerted service = some .triggered) := by
  cases seen with
  | none => exact .inl rfl
  | some seenOk =>
      simp only [Reading.downEvent, Option.bind_some, h, Bool.false_eq_true, if_false]
      split
      · rename_i htriggers
        simp only [Bool.and_eq_true, Bool.not_eq_true'] at htriggers
        exact .inr ⟨htriggers.1, rfl⟩
      · exact .inl rfl

theorem downEvent_of_ok {seen : Option Nat} {alerted : Bool} {service : String}
    (h : m.ok service = true) (halerted : alerted = true) (hseen : seen.isSome = true) :
    m.downEvent cfg seen alerted service = some .resolved := by
  obtain ⟨seenOk, rfl⟩ := Option.isSome_iff_exists.mp hseen
  simp only [Reading.downEvent, Option.bind_some, h, halerted, if_true]

/-- What a service decides reaches its log and its alert as it is. -/
theorem alertRun_service {before : List Reading} (h : Watched cfg rules (before ++ [m]))
    (hon : cfg.clientDown ≠ 0) (service : String) :
    let s := alertRun cfg rules before
    let event := m.downEvent cfg (m.seenOk (s.ticker.lastOk service) service)
      (s.ticker.downAlerted service) service
    (alertRun cfg rules (before ++ [m])).ticker.downAlerted service =
        (event.map (· == .triggered)).getD (s.ticker.downAlerted service) ∧
      (alertRun cfg rules (before ++ [m])).log ⟨"client_down", some service⟩ =
        s.log ⟨"client_down", some service⟩ ++ event.toList := by
  intro s event
  obtain ⟨-, -, hquiet, -, hseen, halerted⟩ :=
    foldl_observeRule (m := m) rules.rules rules.names s
  obtain ⟨-, hlast', halerted', hlog'⟩ :=
    errorRateTick_frame cfg m (m.rulesTick rules s)
  have hlast : (m.errorRateTick cfg (m.rulesTick rules s)).ticker.lastOk = s.ticker.lastOk :=
    hlast'.trans hseen
  have hflag : (m.errorRateTick cfg (m.rulesTick rules s)).ticker.downAlerted =
      s.ticker.downAlerted := halerted'.trans halerted
  have hlog : (m.errorRateTick cfg (m.rulesTick rules s)).log ⟨"client_down", some service⟩ =
      s.log ⟨"client_down", some service⟩ := by
    rw [hlog' _ (.inl fun heq => by cases (AlertKey.mk.inj heq).2)]
    refine hquiet _ ?_
    rintro rule - heq
    cases (AlertKey.mk.inj heq).2
  have hremembered : Remembered cfg (m.errorRateTick cfg (m.rulesTick rules s)) m := by
    rw [Remembered, hlast]
    exact (atEach_append.mp h.remembered).2
  obtain ⟨-, hnext, hevents⟩ := clientDownTick_remembered hon hremembered service
  rw [hlast, hflag] at hnext hevents
  rw [hlog] at hevents
  rw [alertRun_snoc]
  exact ⟨hnext, hevents⟩

/-- Nothing is said of any service where none is watched. -/
theorem alertRun_unwatched (hoff : cfg.clientDown = 0) (service : String) :
    (alertRun cfg rules readings).log ⟨"client_down", some service⟩ = [] := by
  induction readings using List.reverseRecOn with
  | nil => rfl
  | append_singleton before m ih =>
      obtain ⟨-, -, hquiet, -⟩ :=
        foldl_observeRule (m := m) rules.rules rules.names (alertRun cfg rules before)
      obtain ⟨-, -, -, hlog⟩ := errorRateTick_frame cfg m
        (m.rulesTick rules (alertRun cfg rules before))
      rw [alertRun_snoc, Reading.tick, Reading.clientDownTick, if_pos hoff,
        hlog _ (.inl fun heq => by cases (AlertKey.mk.inj heq).2)]
      refine (hquiet _ ?_).trans ih
      rintro rule - heq
      cases (AlertKey.mk.inj heq).2

/-- While a service is down or gone it is triggered for once at most, and not
again where an alert is outstanding. -/
theorem alertRun_outage {before during : List Reading}
    (h : Watched cfg rules (before ++ during)) (hon : cfg.clientDown ≠ 0) (service : String)
    (hdown : ∀ m ∈ during, m.ok service = false) :
    ((alertRun cfg rules (before ++ during)).ticker.downAlerted service =
        (alertRun cfg rules before).ticker.downAlerted service ∧
      (alertRun cfg rules (before ++ during)).log ⟨"client_down", some service⟩ =
        (alertRun cfg rules before).log ⟨"client_down", some service⟩) ∨
    ((alertRun cfg rules (before ++ during)).ticker.downAlerted service = true ∧
      (alertRun cfg rules (before ++ during)).log ⟨"client_down", some service⟩ =
        (alertRun cfg rules before).log ⟨"client_down", some service⟩ ++ [.triggered]) := by
  induction during using List.reverseRecOn with
  | nil => exact .inl (by simp)
  | append_singleton during m ih =>
      rw [← List.append_assoc] at h ⊢
      obtain ⟨hflag, hlog⟩ := alertRun_service h hon service
      have hgone := hdown m (by simp)
      have hih := ih h.before fun m' hm' => hdown m' (List.mem_append_left _ hm')
      rcases downEvent_of_gone cfg
          (m.seenOk ((alertRun cfg rules (before ++ during)).ticker.lastOk service) service)
          ((alertRun cfg rules (before ++ during)).ticker.downAlerted service)
          hgone with hnone | ⟨hquiet, htriggered⟩
      · rw [hnone] at hflag hlog
        rw [hflag, hlog]
        simpa using hih
      · rw [htriggered] at hflag hlog
        rcases hih with ⟨-, hsame⟩ | ⟨hactive, -⟩
        · refine .inr ⟨hflag, ?_⟩
          rw [hlog, hsame]
          rfl
        · rw [hactive] at hquiet
          cases hquiet

/-! ## A rule's span -/

/-- The readings since which the rule's value has been on the other side. -/
def OnOtherSide (rule : Rule) (readings : List Reading) (state : RuleState) : Prop :=
  ∀ since, state.since = some since → ∃ before first rest, readings = before ++ first :: rest ∧
    first.now = since ∧
    ∀ m ∈ first :: rest, ∀ value, m.metric rule.metric = some value →
      rule.breached value = !state.firing

theorem observed_onOtherSide {rule : Rule} {state : RuleState}
    (h : OnOtherSide rule readings state) :
    OnOtherSide rule (readings ++ [m]) (m.observed rule state).1 := by
  intro since hsince
  cases hmetric : m.metric rule.metric with
  | none =>
      simp only [Reading.observed, hmetric] at hsince ⊢
      obtain ⟨before, first, rest, hcut, hfirst, hside⟩ := h since hsince
      refine ⟨before, first, rest ++ [m], by rw [hcut]; simp, hfirst, ?_⟩
      intro m' hm' value hvalue
      rw [← List.cons_append] at hm'
      rcases List.mem_append.mp hm' with hm' | hm'
      · exact hside m' hm' value hvalue
      · rw [List.mem_singleton.mp hm', hmetric] at hvalue
        cases hvalue
  | some value =>
      simp only [Reading.observed, hmetric] at hsince ⊢
      rcases rule.observe_cases value m.now state with
        ⟨-, hc⟩ | ⟨hother, -, hc⟩ | ⟨-, -, hc⟩
      · rw [hc] at hsince
        cases hsince
      · rw [hc] at hsince ⊢
        have hlast : ∀ v, m.metric rule.metric = some v → rule.breached v = !state.firing := by
          intro v hv
          rw [hmetric] at hv
          rwa [← Option.some.inj hv]
        cases hstart : state.since with
        | none =>
            rw [hstart] at hsince
            refine ⟨readings, m, [], rfl, Option.some.inj hsince, ?_⟩
            intro m' hm'
            rw [List.mem_singleton.mp hm']
            exact hlast
        | some start =>
            rw [hstart] at hsince
            obtain ⟨before, first, rest, hcut, hfirst, hside⟩ := h start hstart
            refine ⟨before, first, rest ++ [m], by rw [hcut]; simp,
              hfirst.trans (Option.some.inj hsince), ?_⟩
            intro m' hm'
            rw [← List.cons_append] at hm'
            rcases List.mem_append.mp hm' with hm' | hm'
            · exact hside m' hm'
            · rw [List.mem_singleton.mp hm']
              exact hlast
      · rw [hc] at hsince
        cases hsince

variable (readings) in
theorem alertRun_onOtherSide (hnamed : RulesNamed cfg rules) {rule : Rule}
    (hrule : rule ∈ rules.rules) :
    OnOtherSide rule readings ((alertRun cfg rules readings).ticker.tracker rule.name) := by
  induction readings using List.reverseRecOn with
  | nil =>
      intro since h
      cases h
  | append_singleton before m ih =>
      rw [alertRun_snoc, (tick_rule hnamed hrule).1]
      exact observed_onOtherSide ih

/-- A rule that decides has been on that side for its span. -/
theorem observed_sustained {rule : Rule} {state : RuleState} {decided : Transition}
    (hside : OnOtherSide rule readings state)
    (horder : (readings ++ [m]).Pairwise (·.now ≤ ·.now))
    (h : (m.observed rule state).2 = some decided) :
    ∀ m' ∈ readings ++ [m], m' = m ∨ m.now < m'.now + rule.sustain →
      ∀ value, m'.metric rule.metric = some value →
        rule.breached value = (decided.event == .triggered) := by
  obtain ⟨hsorted, -, hlast⟩ := List.pairwise_append.mp horder
  have hle : ∀ m' ∈ readings, m'.now ≤ m.now := fun m' hm' => hlast m' hm' m (by simp)
  cases hmetric : m.metric rule.metric with
  | none =>
      simp only [Reading.observed, hmetric] at h
      cases h
  | some value =>
      simp only [Reading.observed, hmetric] at h
      rcases rule.observe_cases value m.now state with ⟨-, hc⟩ | ⟨-, -, hc⟩ | ⟨hother, hspan, hc⟩
      · rw [hc] at h
        cases h
      · rw [hc] at h
        cases h
      rw [hc, Option.some.injEq] at h
      have hdecided : (decided.event == .triggered) = !state.firing := by
        rw [← h]
        cases state.firing with
        | true => rfl
        | false => rfl
      rw [hdecided]
      have hself : ∀ v, m.metric rule.metric = some v → rule.breached v = !state.firing := by
        intro v hv
        rw [hmetric] at hv
        rwa [← Option.some.inj hv]
      intro m' hm' hnear
      rcases List.mem_append.mp hm' with hmem | hmem
      · rcases hnear with rfl | hnear
        · exact hself
        · have hm'le := hle m' hmem
          cases hstart : state.since with
          | none =>
              rw [hstart, Option.getD_none] at hspan
              omega
          | some start =>
              rw [hstart, Option.getD_some] at hspan
              obtain ⟨before, first, rest, hcut, hfirst, hsame⟩ := hside start hstart
              rw [hcut] at hmem
              rcases List.mem_append.mp hmem with hearlier | hrest
              · have hbefore : m'.now ≤ first.now := by
                  rw [hcut, List.pairwise_append] at hsorted
                  exact hsorted.2.2 m' hearlier first List.mem_cons_self
                omega
              · exact hsame m' hrest
      · rw [List.mem_singleton.mp hmem]
        exact hself

/-! ## Alerts come in pairs -/

/-- Of each kind and service the events alternate; a service that is down or
gone causes one trigger, and one that is seen again after it a resolution; and
a rule decides only what its whole span was. -/
structure AlertsPaired (cfg : AlertConfig) (rules : AlertRules) (readings : List Reading) :
    Prop where
  alternate : ∀ key, InTurn ((alertRun cfg rules readings).log key)
  once : ∀ service before during, readings = before ++ during →
    (∀ m ∈ during, m.ok service = false) →
    ∃ events, (alertRun cfg rules readings).log ⟨"client_down", some service⟩ =
      (alertRun cfg rules before).log ⟨"client_down", some service⟩ ++ events ∧
        events.count .triggered ≤ 1
  resolved : ∀ service before m, readings = before ++ [m] → m.ok service = true →
    ((alertRun cfg rules before).log ⟨"client_down", some service⟩).getLast? =
      some .triggered →
    (alertRun cfg rules readings).log ⟨"client_down", some service⟩ =
      (alertRun cfg rules before).log ⟨"client_down", some service⟩ ++ [.resolved]
  sustained : ∀ rule ∈ rules.rules, ∀ before m e, readings = before ++ [m] →
    (alertRun cfg rules readings).log ⟨rule.name, none⟩ =
      (alertRun cfg rules before).log ⟨rule.name, none⟩ ++ [e] →
    ∀ m' ∈ readings, m' = m ∨ m.now < m'.now + rule.sustain →
      ∀ value, m'.metric rule.metric = some value →
        rule.breached value = (e == .triggered)

/-- **Alerts come in pairs**, in every run that forgets nobody and whose rules
leave the error rate its name. -/
theorem alerts_paired (h : Watched cfg rules readings)
    (horder : readings.Pairwise (·.now ≤ ·.now)) : AlertsPaired cfg rules readings where
  alternate := alertRun_alternates h
  once := by
    rintro service before during rfl hdown
    by_cases hoff : cfg.clientDown = 0
    · refine ⟨[], ?_, by decide⟩
      rw [alertRun_unwatched hoff, alertRun_unwatched hoff]
      rfl
    rcases alertRun_outage h hoff service hdown with ⟨-, hsame⟩ | ⟨-, honce⟩
    · exact ⟨[], by rw [hsame, List.append_nil], by decide⟩
    · exact ⟨[.triggered], honce, by decide⟩
  resolved := by
    rintro service before m rfl hok hlast
    have hon : cfg.clientDown ≠ 0 := by
      intro hoff
      rw [alertRun_unwatched hoff] at hlast
      cases hlast
    have hsound := alertRun_sound h.before
    have halerted := (hsound.down service).last hlast
    obtain ⟨-, hlog⟩ := alertRun_service h hon service
    rw [hlog, downEvent_of_ok hok halerted]
    · rfl
    · obtain ⟨seen, hseen⟩ := Option.ne_none_iff_exists'.mp (hsound.known service halerted)
      rw [hseen, Reading.seenOk]
      split
      · rfl
      · rfl
      · rfl
  sustained := by
    rintro rule hrule before m e rfl hlog
    rw [alertRun_snoc, (tick_rule h.named hrule).2, List.append_cancel_left_eq] at hlog
    have hside := alertRun_onOtherSide before h.named hrule
    cases hdecided : (m.observed rule ((alertRun cfg rules before).ticker.tracker rule.name)).2 with
    | none =>
        rw [hdecided] at hlog
        cases hlog
    | some decided =>
        rw [hdecided] at hlog
        obtain rfl : decided.event = e := by simpa using hlog
        exact observed_sustained hside horder hdecided

end Runs

/-! ## One service, watched for a minute -/

def minute : AlertConfig where
  clientDown := seconds 60

/-- What a tick finds of the service. -/
def appAt (secs : Nat) (found : Option Availability) : Reading where
  now := seconds secs
  live service := if service = "app" then found else none

def appKey : AlertKey := ⟨"client_down", some "app"⟩

/-- A day is never past the threshold within the first one. -/
theorem remembered_of_first_day {cfg : AlertConfig} {s : Alerting} {m : Reading}
    (h : m.now < day) : Remembered cfg s m := by
  intro service seen _
  omega

/-- A service that is gone for a minute and back. -/
def blip : List Reading :=
  [appAt 0 (some .up), appAt 60 none, appAt 75 none, appAt 90 (some .up)]

theorem alerts_paired_blip : AlertsPaired minute {} blip ∧
    (alertRun minute {} blip).log appKey = [.triggered, .resolved] := by
  have hnamed : RulesNamed minute {} := by
    rintro - rule ⟨⟩
  refine ⟨alerts_paired ⟨hnamed, ?_⟩ (by decide +kernel), by decide +kernel⟩
  intro before m after hcut
  have hday : ∀ m ∈ blip, m.now < day := by decide +kernel
  exact remembered_of_first_day (hday m (by rw [hcut]; simp))

/-- A service that stays down for more than a day. -/
def longOutage : List Reading :=
  [appAt 0 (some .down), appAt 60 (some .down), appAt 86460 (some .down),
    appAt 86475 (some .down), appAt 86535 (some .down)]

/-- One that is gone for as long and comes back. -/
def longAbsence : List Reading :=
  [appAt 0 (some .up), appAt 60 none, appAt 86460 none, appAt 86475 (some .up)]

/-- A rule with the built-in rule's name. -/
def errorRateRule : AlertRules where
  rules := [⟨"error_rate", .connectedClients, 0, true, 0⟩]
  names := by decide

/-- A client connects while every request fails. -/
def busyFailure : List Reading :=
  [{ now := 0, metric := fun _ => some 1 },
    { now := seconds 15, metric := fun _ => some 1, failed := 20 }]

/-- A long outage triggers twice, a long absence is never resolved, and a rule
may trigger under the built-in rule's name. -/
theorem alerts_unpaired :
    ¬(∀ cfg rules readings, readings.Pairwise (·.now ≤ ·.now) →
      AlertsPaired cfg rules readings) ∧
    (alertRun minute {} longOutage).log appKey = [.triggered, .triggered] ∧
    (alertRun minute {} longAbsence).log appKey = [.triggered] ∧
    (alertRun { errorRatePct := 5, window := seconds 300, minRequests := 20 } errorRateRule
      busyFailure).log ⟨"error_rate", none⟩ = [.triggered, .triggered] := by
  have htwice : (alertRun minute {} longOutage).log appKey = [.triggered, .triggered] := by
    decide +kernel
  refine ⟨fun h => ?_, htwice, by decide +kernel, by decide +kernel⟩
  have hpaired := (h minute {} longOutage (by decide +kernel)).alternate appKey 1 .triggered
  rw [htwice] at hpaired
  exact absurd (hpaired rfl) (by decide)

end Aperio
