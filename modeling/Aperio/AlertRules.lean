import Mathlib.Data.List.Nodup
import Mathlib.Data.Rat.Defs
import Mathlib.Logic.Function.Basic
import Aperio.Results
import Aperio.Text

/-!
# Alert rules

`alert_rules.rs`: the rules an operator writes, and the tracker that says when
one fires and when it resolves. A rule changes its mind only after it has
looked at the other side of its bound for a whole span. Times are in
nanoseconds.
-/

namespace Aperio

/-! ## Rules -/

inductive Metric where
  | connectedClients
  | pendingRequests
  | storeBytes
  | rssBytes
deriving Repr, DecidableEq

def Metric.parse (raw : String) : Option Metric :=
  let raw := toAsciiLowercase (trim raw)
  if raw = "connected_clients" ∨ raw = "clients" then some .connectedClients
  else if raw = "pending_requests" ∨ raw = "pending" then some .pendingRequests
  else if raw = "store_bytes" ∨ raw = "disk_bytes" then some .storeBytes
  else if raw = "rss_bytes" ∨ raw = "memory_bytes" then some .rssBytes
  else none

def Metric.asStr : Metric → String
  | .connectedClients => "connected_clients"
  | .pendingRequests => "pending_requests"
  | .storeBytes => "store_bytes"
  | .rssBytes => "rss_bytes"

/-- An entry as it is written; a bound that is not a finite number is
`none` inside. -/
structure RuleRaw where
  name : String
  metric : String
  above : Option (Option ℚ) := none
  below : Option (Option ℚ) := none
  forSecs : Option Nat := none

structure Rule where
  name : String
  metric : Metric
  threshold : ℚ
  above : Bool
  sustain : Nat
deriving DecidableEq

/-- The value is on the firing side of the bound. -/
def Rule.breached (r : Rule) (value : ℚ) : Bool :=
  if r.above then decide (r.threshold < value) else decide (value < r.threshold)

def seconds (n : Nat) : Nat := n * 1000000000

/-- The compiled rules. A name is an alert's kind, so no two have the same. -/
structure AlertRules where
  rules : List Rule := []
  names : (rules.map (·.name)).Nodup := by exact List.nodup_nil

namespace AlertRules

/-- One entry, the `n`th, behind the rules before it. -/
def compileRule (n : Nat) (r : RuleRaw) (rules : List Rule) :
    Except String { rule : Rule // rule.name ∉ rules.map (·.name) } :=
  let at_ (what : String) : String :=
    "alert_rules #" ++ toString n ++ " (" ++ r.name ++ "): " ++ what
  let name := trim r.name
  if name = "" then .error ("alert_rules #" ++ toString n ++ ": `name` is required")
  else if hname : name ∈ rules.map (·.name) then
    .error (at_ ("another rule already has this name; the name becomes the alert's kind, " ++
      "so it has to be unique"))
  else
    match Metric.parse r.metric with
    | none =>
      .error (at_ ("`" ++ r.metric ++
        "` is not a metric (connected_clients, pending_requests, store_bytes, rss_bytes)"))
    | some metric =>
      let bound : Except String (Option ℚ × Bool) :=
        match r.above, r.below with
        | some _, some _ => .error (at_ "set `above` or `below`, not both")
        | none, none => .error (at_ "needs `above` or `below`")
        | some v, none => .ok (v, true)
        | none, some v => .ok (v, false)
      match bound with
      | .error e => .error e
      | .ok (none, _) => .error (at_ "the threshold is not a number")
      | .ok (some threshold, above) =>
        .ok ⟨{ name := name, metric := metric, threshold := threshold, above := above
               sustain := seconds (r.forSecs.getD 0) }, hname⟩

/-- The entries from the `n`th on, behind the rules before them. -/
def compileFrom (n : Nat) (before : AlertRules) : List RuleRaw → Except String AlertRules
  | [] => .ok before
  | r :: rest =>
    match compileRule n r before.rules with
    | .error e => .error e
    | .ok ⟨rule, hname⟩ =>
      compileFrom (n + 1)
        { rules := before.rules ++ [rule]
          names := by
            rw [List.map_append, List.map_singleton, List.nodup_append]
            refine ⟨before.names, List.nodup_singleton _, ?_⟩
            rintro a ha b hb rfl
            rw [List.mem_singleton.mp hb] at ha
            exact hname ha } rest

def compile (raw : List RuleRaw) : Except String AlertRules :=
  compileFrom 1 {} raw

end AlertRules

/-! ## The tracker -/

/-- How long the value has been on the other side, and whether an alert is
outstanding. -/
structure RuleState where
  since : Option Nat := none
  firing : Bool := false
deriving Repr, DecidableEq

inductive Transition where
  | fired
  | resolved
deriving Repr, DecidableEq

/-- One observation, and what it decides. A value on the side the rule is on
stops the clock. -/
def Rule.observe (r : Rule) (value : ℚ) (now : Nat) (state : RuleState) :
    RuleState × Option Transition :=
  if r.breached value = state.firing then ({ state with since := none }, none)
  else
    let since := state.since.getD now
    if now - since < r.sustain then ({ state with since := some since }, none)
    else
      ({ since := none, firing := r.breached value },
        some (if r.breached value then .fired else .resolved))

/-- What an observation does, case by case. -/
theorem Rule.observe_cases (r : Rule) (value : ℚ) (now : Nat) (state : RuleState) :
    (r.breached value = state.firing ∧
      r.observe value now state = ({ state with since := none }, none)) ∨
    (r.breached value = !state.firing ∧ now - state.since.getD now < r.sustain ∧
      r.observe value now state = ({ state with since := some (state.since.getD now) }, none)) ∨
    (r.breached value = !state.firing ∧ r.sustain ≤ now - state.since.getD now ∧
      r.observe value now state = ({ since := none, firing := !state.firing },
        some (if state.firing then .resolved else .fired))) := by
  by_cases hside : r.breached value = state.firing
  · refine .inl ⟨hside, ?_⟩
    rw [observe, if_pos hside]
  have hother : r.breached value = !state.firing := Bool.eq_not.mpr hside
  by_cases hspan : now - state.since.getD now < r.sustain
  · refine .inr (.inl ⟨hother, hspan, ?_⟩)
    simp only [observe, if_neg hside, if_pos hspan]
  · refine .inr (.inr ⟨hother, Nat.not_lt.mp hspan, ?_⟩)
    simp only [observe, if_neg hspan, hother]
    cases state.firing with
    | true => rfl
    | false => rfl

end Aperio
