import Aperio.Client
import Aperio.MessageBus

/-!
# Topics and grants

Topic filters as both ends read them (`topic_matches` of the shared crate),
and what a token's own filters permit (`covers`, `may_use_topic` of the
server). The two walk the levels of different things, a filter against a
topic and a filter against a filter.

`grant_sound` is how they fit together: what a permitted filter matches, the
granted one matches too, the `$` namespace included. On a topic itself the
two are the same question (`covers_eq_topicMatches`).
-/

namespace Aperio

/-! ## Filters -/

/-- The loop of `topic_matches`. -/
def levelsMatch : List String → List String → Bool
  | [], ts => ts.isEmpty
  | f :: _, [] => f == "#"
  | f :: fs, t :: ts =>
    if f = "#" then true else if f = "+" ∨ f = t then levelsMatch fs ts else false

def topicMatches (filter topic : String) : Bool :=
  if startsWith topic "$" && !startsWith filter "$" then false
  else levelsMatch (split filter '/') (split topic '/')

example : topicMatches "a/#" "a" = true ∧ topicMatches "#" "$aperio/x" = false := by decide

/-- What is wrong with one level of a filter, `last` being whether it is the
last one. -/
def levelRefusal (level : String) (last : Bool) : Option String :=
  if level.toList.contains '#' && level != "#" then
    some ("`#` must be a level of its own, not part of `" ++ level ++ "`")
  else if level.toList.contains '+' && level != "+" then
    some ("`+` must be a level of its own, not part of `" ++ level ++ "`")
  else if level == "#" && !last then some "`#` is only allowed as the last level of a filter"
  else none

/-- The first refusal, level by level. -/
def levelsRefusal : List String → Option String
  | [] => none
  | level :: rest => (levelRefusal level rest.isEmpty).or (levelsRefusal rest)

def validateTopicFilter (filter : String) : Except String Unit := do
  refuseIf (filter == "") "a topic filter cannot be empty"
  refuseIf (decide (512 < filter.utf8ByteSize))
    ("topic filter is too long (" ++ toString filter.utf8ByteSize ++ " > 512)")
  match levelsRefusal (split filter '/') with
  | some why => .error why
  | none => pure ()

/-! ## Grants -/

/-- The loop of `covers`. -/
def levelsCover : List String → List String → Bool
  | [], as => as.isEmpty
  | g :: _, [] => g == "#"
  | g :: gs, a :: as =>
    if g = "#" then true else if (g = "+" ∧ a ≠ "#") ∨ g = a then levelsCover gs as else false

/-- Whether the filter `granted` permits everything `asked` could match. -/
def covers (granted asked : String) : Bool :=
  if startsWith asked "$" && !startsWith granted "$" then false
  else levelsCover (split granted '/') (split asked '/')

/-- The permissions of a connection, with the topics of its token. -/
structure TopicPerms extends ClientPerms where
  topics : List String
deriving DecidableEq

def mayUseTopic (perms : TopicPerms) (filter : String) : Bool :=
  perms.master || perms.topics.any (covers · filter)

/-! ## Level by level -/

theorem levelsMatch_hash (fs ts : List String) : levelsMatch ("#" :: fs) ts = true := by
  cases ts <;> simp [levelsMatch]

theorem levelsMatch_of_cover {gs as ts : List String} (hcover : levelsCover gs as = true)
    (hmatch : levelsMatch as ts = true) : levelsMatch gs ts = true := by
  induction gs generalizing as ts with
  | nil =>
      cases as with
      | nil => exact hmatch
      | cons a as => cases hcover
  | cons g gs ih =>
      by_cases hg : g = "#"
      · rw [hg]
        exact levelsMatch_hash gs ts
      cases as with
      | nil => exact absurd (by simpa [levelsCover] using hcover) hg
      | cons a as =>
          simp only [levelsCover, hg, if_false, Bool.if_false_right, Bool.and_eq_true,
            decide_eq_true_eq] at hcover
          obtain ⟨hlevel, hrest⟩ := hcover
          -- an asked `#` is met by a granted `#` only
          have ha : a ≠ "#" := by
            rcases hlevel with ⟨-, hne⟩ | rfl
            · exact hne
            · exact hg
          cases ts with
          | nil => exact absurd (by simpa [levelsMatch] using hmatch) ha
          | cons t ts =>
              simp only [levelsMatch, ha, hg, if_false, Bool.if_false_right, Bool.and_eq_true,
                decide_eq_true_eq] at hmatch ⊢
              refine ⟨?_, ih hrest hmatch.2⟩
              rcases hlevel with ⟨hplus, -⟩ | rfl
              · exact .inl hplus
              · exact hmatch.1

/-- A filter that does not begin with `$` reaches no topic that does. -/
theorem topicMatches_iff {filter topic : String} :
    topicMatches filter topic = true ↔
      (startsWith topic "$" = true → startsWith filter "$" = true) ∧
        levelsMatch (split filter '/') (split topic '/') = true := by
  unfold topicMatches
  cases startsWith topic "$" <;> cases startsWith filter "$" <;> simp

theorem covers_iff {granted asked : String} :
    covers granted asked = true ↔
      (startsWith asked "$" = true → startsWith granted "$" = true) ∧
        levelsCover (split granted '/') (split asked '/') = true := by
  unfold covers
  cases startsWith asked "$" <;> cases startsWith granted "$" <;> simp

theorem topicMatches_of_covers {granted asked topic : String} (hcover : covers granted asked = true)
    (hmatch : topicMatches asked topic = true) : topicMatches granted topic = true := by
  rw [covers_iff] at hcover
  rw [topicMatches_iff] at hmatch ⊢
  exact ⟨fun h => hcover.1 (hmatch.1 h), levelsMatch_of_cover hcover.2 hmatch.2⟩

/-- Topics have no wildcard levels, so the two walks take the same turns. -/
theorem levelsCover_eq_levelsMatch {gs ts : List String} (h : "#" ∉ ts) :
    levelsCover gs ts = levelsMatch gs ts := by
  induction gs generalizing ts with
  | nil => rfl
  | cons g gs ih =>
      cases ts with
      | nil => rfl
      | cons t ts =>
          rw [List.mem_cons, not_or] at h
          have ht : t ≠ "#" := Ne.symm h.1
          rw [levelsCover, levelsMatch, ih h.2]
          simp only [ht, ne_eq, not_false_eq_true, and_true]

theorem hash_notMem_of_validateTopic {topic : String} (h : validateTopic topic = .ok ()) :
    '#' ∉ topic.toList := by
  unfold validateTopic at h
  obtain ⟨-, h⟩ := refuseIf_bind.mp h
  obtain ⟨-, h⟩ := refuseIf_bind.mp h
  unfold refuseIf at h
  split at h
  · cases h
  · rename_i hnot
    simp only [Bool.or_eq_true, not_or, List.contains_iff_mem] at hnot
    exact hnot.1

theorem covers_eq_topicMatches {topic : String} (h : validateTopic topic = .ok ())
    (granted : String) : covers granted topic = topicMatches granted topic := by
  have hlevels : "#" ∉ split topic '/' := by
    intro hmem
    exact hash_notMem_of_validateTopic h (mem_of_mem_split hmem (by decide)).1
  rw [Bool.eq_iff_iff, covers_iff, topicMatches_iff, levelsCover_eq_levelsMatch hlevels]

/-- A permitted filter matches only topics the token may use. -/
theorem mayUseTopic_of_match {perms : TopicPerms} {filter topic : String}
    (hmay : mayUseTopic perms filter = true) (htopic : validateTopic topic = .ok ())
    (hmatch : topicMatches filter topic = true) : mayUseTopic perms topic = true := by
  simp only [mayUseTopic, Bool.or_eq_true, List.any_eq_true] at hmay ⊢
  refine hmay.imp_right ?_
  rintro ⟨granted, hmem, hcover⟩
  refine ⟨granted, hmem, ?_⟩
  rw [covers_eq_topicMatches htopic]
  exact topicMatches_of_covers hcover hmatch

/-! ## Headline: grants are sound -/

/-- Whatever a covered filter matches, the granted one matches; so a
subscription that is permitted delivers nothing outside the token's grants. -/
theorem grant_sound (perms : TopicPerms) (granted asked topic : String) :
    (covers granted asked = true → topicMatches asked topic = true →
        topicMatches granted topic = true) ∧
      (mayUseTopic perms asked = true → topicMatches asked topic = true →
        perms.master = true ∨ ∃ g ∈ perms.topics, topicMatches g topic = true) := by
  refine ⟨topicMatches_of_covers, ?_⟩
  intro hmay hmatch
  simp only [mayUseTopic, Bool.or_eq_true, List.any_eq_true] at hmay
  refine hmay.imp_right ?_
  rintro ⟨g, hmem, hcover⟩
  exact ⟨g, hmem, topicMatches_of_covers hcover hmatch⟩

/-- A token for the server's own events, and a subscription to some of
them. -/
theorem grant_sound_events :
    validateTopicFilter "$aperio/#" = .ok () ∧ validateTopicFilter "$aperio/+/up" = .ok () ∧
      topicMatches "$aperio/#" "$aperio/client/up" = true := by
  refine ⟨by decide +kernel, by decide +kernel, ?_⟩
  exact (grant_sound { ClientPerms.ofMaster with topics := [] } "$aperio/#" "$aperio/+/up"
    "$aperio/client/up").1 (by decide +kernel) (by decide +kernel)

end Aperio
