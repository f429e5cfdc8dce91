import Aperio.Run
import Aperio.Text
import Mathlib.Data.List.DropRight
import Mathlib.Data.List.Sort

/-!
# The log of webhook deliveries

`DeliveryLog` of `store/webhooks.rs`. A delivery is recorded when it is over,
with its payload cut to a number of bytes; the log is written whole after
every change and sorted by the start of the deliveries when it is loaded.

Cutting panics inside a character, and what is over later may have started
earlier: `deliveries_recorded` is about the runs in which neither comes up.
-/

namespace Aperio

/-! ## Cutting a text -/

def byteLength : List Char → Nat
  | [] => 0
  | c :: cs => c.utf8Size + byteLength cs

/-- The characters that take up so many bytes, or all where there are no more;
none if that many end inside a character. -/
def takeBytes : Nat → List Char → Option (List Char)
  | 0, _ => some []
  | _, [] => some []
  | n, c :: cs =>
    if c.utf8Size ≤ n then (takeBytes (n - c.utf8Size) cs).map (c :: ·) else none

/-- `String::truncate`, which panics off a character boundary. -/
def truncate (s : String) (newLen : Nat) : Option String :=
  (takeBytes newLen s.toList).map String.ofList

/-- The longest text of at most so many bytes that `s` starts with. -/
def LongestPrefix (cap : Nat) (s t : String) : Prop :=
  t.toList <+: s.toList ∧ (utf8Bytes t).length ≤ cap ∧
    ∀ u : String, u.toList <+: s.toList → (utf8Bytes u).length ≤ cap → u.toList <+: t.toList

/-- The text is short enough, or has a character boundary at the cap. -/
def Cuts (cap : Nat) (s : String) : Prop :=
  (utf8Bytes s).length ≤ cap ∨ ∃ t : String, t.toList <+: s.toList ∧ (utf8Bytes t).length = cap

theorem byteLength_cons (c : Char) (cs : List Char) :
    byteLength (c :: cs) = c.utf8Size + byteLength cs :=
  rfl

theorem byteLength_append (a b : List Char) :
    byteLength (a ++ b) = byteLength a + byteLength b := by
  induction a with
  | nil => simp [byteLength]
  | cons c a ih => rw [List.cons_append, byteLength_cons, byteLength_cons, ih, Nat.add_assoc]

theorem byteLength_replicate (n : Nat) (c : Char) :
    byteLength (List.replicate n c) = n * c.utf8Size := by
  induction n with
  | zero => simp [byteLength]
  | succ n ih => rw [List.replicate_succ, byteLength_cons, ih, Nat.succ_mul, Nat.add_comm]

theorem length_utf8Bytes (s : String) : (utf8Bytes s).length = byteLength s.toList := by
  rw [utf8Bytes]
  induction s.toList with
  | nil => rfl
  | cons c cs ih =>
      rw [List.flatMap_cons, List.length_append, ih, String.length_utf8EncodeChar, byteLength_cons]

theorem eq_nil_of_byteLength {cs : List Char} (h : byteLength cs = 0) : cs = [] := by
  cases cs with
  | nil => rfl
  | cons c cs =>
      have hpos := c.utf8Size_pos
      rw [byteLength_cons] at h
      omega

theorem takeBytes_cons {n : Nat} {c : Char} {cs : List Char} (h : c.utf8Size ≤ n) :
    takeBytes n (c :: cs) = (takeBytes (n - c.utf8Size) cs).map (c :: ·) := by
  have hpos := c.utf8Size_pos
  cases n with
  | zero => omega
  | succ n =>
      rw [takeBytes.eq_def]
      exact if_pos h

/-- Whole characters in front are passed over. -/
theorem takeBytes_skip {a b : List Char} {n : Nat} :
    takeBytes (byteLength a + n) (a ++ b) = (takeBytes n b).map (a ++ ·) := by
  induction a with
  | nil => simp [byteLength]
  | cons c a ih =>
      have hle : c.utf8Size ≤ byteLength (c :: a) + n := by
        rw [byteLength_cons]
        omega
      have hrest : byteLength (c :: a) + n - c.utf8Size = byteLength a + n := by
        rw [byteLength_cons]
        omega
      rw [List.cons_append, takeBytes_cons hle, hrest, ih, Option.map_map]
      rfl

/-- Where a cut can be made, it is made there. -/
theorem takeBytes_append {a b : List Char} : takeBytes (byteLength a) (a ++ b) = some a := by
  have hskip := @takeBytes_skip a b 0
  rw [Nat.add_zero] at hskip
  rw [hskip]
  cases b <;> simp [takeBytes]

theorem takeBytes_all {n : Nat} {cs : List Char} (h : byteLength cs ≤ n) :
    takeBytes n cs = some cs := by
  obtain ⟨k, rfl⟩ := Nat.exists_eq_add_of_le h
  have hskip := @takeBytes_skip cs [] k
  rw [List.append_nil] at hskip
  rw [hskip]
  cases k <;> simp [takeBytes]

/-- A cut inside a character panics. -/
theorem takeBytes_none {a b : List Char} {c : Char} {n : Nat} (hpos : 0 < n)
    (h : n < c.utf8Size) : takeBytes (byteLength a + n) (a ++ c :: b) = none := by
  obtain ⟨k, rfl⟩ := Nat.exists_eq_add_of_lt hpos
  have hinside : takeBytes (0 + k + 1) (c :: b) = none := by
    rw [takeBytes.eq_def]
    exact if_neg (by omega)
  rw [takeBytes_skip, hinside, Option.map_none]

/-- A prefix of exactly the cap leaves room for no more. -/
theorem longestPrefix_of_length {cap : Nat} {s t : String} (hbegins : t.toList <+: s.toList)
    (hlength : (utf8Bytes t).length = cap) : LongestPrefix cap s t := by
  refine ⟨hbegins, hlength.le, ?_⟩
  intro u hu hle
  rcases List.prefix_or_prefix_of_prefix hu hbegins with hut | ⟨rest, hrest⟩
  · exact hut
  · rw [length_utf8Bytes] at hlength hle
    rw [← hrest, byteLength_append] at hle
    obtain rfl := eq_nil_of_byteLength (show byteLength rest = 0 by omega)
    have heq : t.toList = u.toList := by rw [← hrest, List.append_nil]
    exact heq ▸ List.prefix_rfl

theorem longestPrefix_self {cap : Nat} {s : String} (h : (utf8Bytes s).length ≤ cap) :
    LongestPrefix cap s s :=
  ⟨List.prefix_rfl, h, fun _ hu _ => hu⟩

/-- What is cut where it can be is the longest prefix. -/
theorem truncate_of_cuts {cap : Nat} {s : String} (h : Cuts cap s) :
    ∃ t, truncate s cap = some t ∧ LongestPrefix cap s t := by
  rcases h with hshort | ⟨t, hbegins, hlength⟩
  · refine ⟨s, ?_, longestPrefix_self hshort⟩
    rw [truncate, takeBytes_all (length_utf8Bytes s ▸ hshort), Option.map_some,
      String.ofList_toList]
  · refine ⟨t, ?_, longestPrefix_of_length hbegins hlength⟩
    obtain ⟨rest, hrest⟩ := hbegins
    rw [truncate, ← hrest, ← hlength, length_utf8Bytes, takeBytes_append, Option.map_some,
      String.ofList_toList]

/-! ## The log -/

def deliveryBodyCap : Nat := 8 * 1024

def deliveryLogCap : Nat := 500

/-- A delivery that is over; `createdAt` is the second it was started in. -/
structure Delivery where
  id : String
  webhookId : String
  body : String
  createdAt : Nat
deriving Repr, DecidableEq

namespace DeliveryLog

/-- The newest so many. -/
def drain (deliveries : List Delivery) (keep : Nat) : List Delivery :=
  if keep < deliveries.length then deliveries.drop (deliveries.length - keep) else deliveries

def push (deliveries : List Delivery) (delivery : Delivery) : Option (List Delivery) :=
  (truncate delivery.body deliveryBodyCap).map fun body =>
    drain (deliveries ++ [{ delivery with body }]) deliveryLogCap

/-- Rows come back in the order they were inserted; the sort is stable. -/
def load (rows : List Delivery) : List Delivery :=
  rows.insertionSort fun a b => a.createdAt ≤ b.createdAt

def list (deliveries : List Delivery) (webhookId : Option String) (limit : Nat) : List Delivery :=
  (deliveries.reverse.filter fun d => webhookId.all (d.webhookId == ·)).take limit

theorem drain_eq {deliveries : List Delivery} {keep : Nat} :
    drain deliveries keep = deliveries.rtake keep := by
  rw [drain, List.rtake]
  split
  · rfl
  · rw [Nat.sub_eq_zero_of_le (by omega), List.drop_zero]

end DeliveryLog

/-! ## Runs -/

/-- The log, and the rows of its table. `panicked` counts the deliveries whose
recording panicked. For the statement, `finished` are the deliveries that are
over, with their payloads, less what the disk guard dropped, and `written`
what these were at the last write that succeeded. -/
structure DeliveryState where
  log : List Delivery := []
  table : List Delivery := []
  saved : Bool := true
  panicked : Nat := 0
  finished : List Delivery := []
  written : List Delivery := []

inductive DeliveryAct where
  | finish (delivery : Delivery) (saved : Bool)
  | truncateOldest (keep : Nat) (saved : Bool)
  | restart

namespace DeliveryState

variable (s : DeliveryState)

/-- One transaction writes the log whole, or fails and is logged. -/
def persist (saved : Bool) : DeliveryState :=
  if saved then { s with table := s.log, saved := true, written := s.finished }
  else { s with saved := false }

def act : DeliveryAct → DeliveryState
  | .finish delivery saved =>
    match DeliveryLog.push s.log delivery with
    | some log => { s with log, finished := s.finished ++ [delivery] }.persist saved
    | none => { s with panicked := s.panicked + 1, finished := s.finished ++ [delivery] }
  | .truncateOldest keep saved =>
    if s.log.length ≤ keep then s
    else
      { s with
        log := DeliveryLog.drain s.log keep
        finished := s.finished.rtake keep }.persist saved
  | .restart =>
    { s with log := DeliveryLog.load s.table, saved := true, finished := s.written }

/-- A delivery as it is recorded. -/
def Records (d delivery : Delivery) : Prop :=
  d = { delivery with body := d.body } ∧ LongestPrefix deliveryBodyCap delivery.body d.body

/-- Nothing panicked, and the log holds the most recent deliveries that the
guard did not drop, as they are recorded. -/
structure Recorded : Prop where
  panicked : s.panicked = 0
  recent : List.Forall₂ Records s.log (s.finished.rtake deliveryLogCap)

/-- What the steps of a run must meet: a payload that is cut has a character
boundary at the cap, and the rows that are loaded were recorded in the order
the deliveries were started in. -/
def InOrder (s : DeliveryState) (a : DeliveryAct) (_ : DeliveryState) : Prop :=
  match a with
  | .finish delivery _ => Cuts deliveryBodyCap delivery.body
  | .truncateOldest .. => True
  | .restart => s.table.Pairwise fun a b => a.createdAt ≤ b.createdAt

end DeliveryState

def deliverySys : Sys DeliveryState DeliveryAct where
  init s := s = {}
  step s a s' := s' = s.act a

namespace DeliveryState

variable {s s' : DeliveryState} {a : DeliveryAct}

/-- The log is right, and so are the rows for what was written. -/
structure Kept (s : DeliveryState) : Prop where
  panicked : s.panicked = 0
  log : List.Forall₂ Records s.log (s.finished.rtake deliveryLogCap)
  table : List.Forall₂ Records s.table (s.written.rtake deliveryLogCap)
  current : s.saved = true → s.table = s.log ∧ s.written = s.finished

theorem Kept.persist (h : List.Forall₂ Records s.log (s.finished.rtake deliveryLogCap))
    (hpanicked : s.panicked = 0)
    (htable : List.Forall₂ Records s.table (s.written.rtake deliveryLogCap)) (saved : Bool) :
    (s.persist saved).Kept := by
  unfold DeliveryState.persist
  cases saved with
  | true => exact ⟨hpanicked, h, h, fun _ => ⟨rfl, rfl⟩⟩
  | false => exact ⟨hpanicked, h, htable, fun h => absurd h Bool.false_ne_true⟩

theorem rtake_rtake {α : Type} {l : List α} {n m : Nat} :
    (l.rtake n).rtake m = l.rtake (min n m) := by
  simp only [List.rtake, List.drop_drop, List.length_drop]
  congr 1
  omega

theorem rtake_concat {α : Type} {l : List α} {x : α} {n : Nat} :
    (l.rtake n ++ [x]).rtake n = (l ++ [x]).rtake n := by
  cases n with
  | zero => simp [List.rtake_zero]
  | succ n => rw [List.rtake_concat_succ, List.rtake_concat_succ, rtake_rtake,
      Nat.min_eq_right (Nat.le_succ n)]

theorem forall₂_rtake {α β : Type} {R : α → β → Prop} {l : List α} {m : List β} {n : Nat}
    (h : List.Forall₂ R l m) : List.Forall₂ R (l.rtake n) (m.rtake n) := by
  rw [List.rtake, List.rtake, h.length_eq]
  exact List.forall₂_drop _ h

/-- A load finds rows in order as they were. -/
theorem load_eq {rows : List Delivery}
    (h : rows.Pairwise fun a b => a.createdAt ≤ b.createdAt) : DeliveryLog.load rows = rows :=
  h.insertionSort_eq

/-- A delivery whose cut panics is lost. -/
theorem act_finish_none {delivery : Delivery} {saved : Bool}
    (h : DeliveryLog.push s.log delivery = none) : s.act (.finish delivery saved) =
      { s with panicked := s.panicked + 1, finished := s.finished ++ [delivery] } := by
  simp only [act, h]

theorem Kept.step (h : s.Kept) (horder : s.InOrder a (s.act a)) : (s.act a).Kept := by
  cases a with
  | finish delivery saved =>
      obtain ⟨body, htruncate, hlongest⟩ := truncate_of_cuts horder
      have hpush : DeliveryLog.push s.log delivery =
          some (DeliveryLog.drain (s.log ++ [{ delivery with body }]) deliveryLogCap) := by
        rw [DeliveryLog.push, htruncate, Option.map_some]
      simp only [act, hpush]
      have hrecords : Records { delivery with body } delivery := ⟨rfl, hlongest⟩
      have happend := List.rel_append h.log (List.Forall₂.cons hrecords .nil)
      have hrecent := forall₂_rtake (n := deliveryLogCap) happend
      rw [rtake_concat, ← DeliveryLog.drain_eq] at hrecent
      refine Kept.persist ?_ ?_ ?_ saved
      · exact hrecent
      · exact h.panicked
      · exact h.table
  | truncateOldest keep saved =>
      by_cases hfew : s.log.length ≤ keep
      · simp only [act, if_pos hfew]
        exact h
      · simp only [act, if_neg hfew]
        have hrecent := forall₂_rtake (n := keep) h.log
        rw [rtake_rtake, Nat.min_comm, ← rtake_rtake, ← DeliveryLog.drain_eq] at hrecent
        refine Kept.persist ?_ ?_ ?_ saved
        · exact hrecent
        · exact h.panicked
        · exact h.table
  | restart =>
      simp only [act, load_eq horder]
      exact ⟨h.panicked, h.table, h.table, fun _ => ⟨rfl, rfl⟩⟩

theorem Kept.of_reachable (h : (deliverySys.restrict InOrder).Reachable s) : s.Kept := by
  refine h.invariant ?_ ?_
  · rintro _ rfl
    exact ⟨rfl, .nil, .nil, fun _ => ⟨rfl, rfl⟩⟩
  · rintro s a _ - h ⟨rfl, horder⟩
    exact h.step horder

end DeliveryState

/-- In every run in which cuts fall on character boundaries and what is loaded
was recorded in the order it was started in, every delivery is recorded, the
log holds the most recent ones, and a restart after a write that succeeded
lists what was listed before. -/
theorem deliveries_recorded (s : DeliveryState)
    (hs : (deliverySys.restrict DeliveryState.InOrder).Reachable s) :
    s.Recorded ∧ ∀ s', (deliverySys.restrict DeliveryState.InOrder).step s .restart s' →
      s.saved = true → ∀ webhookId limit,
        DeliveryLog.list s'.log webhookId limit = DeliveryLog.list s.log webhookId limit := by
  have h := DeliveryState.Kept.of_reachable hs
  refine ⟨⟨h.panicked, h.log⟩, ?_⟩
  rintro _ ⟨rfl, horder⟩ hsaved webhookId limit
  have hlog : (s.act .restart).log = s.log := by
    rw [← (h.current hsaved).1]
    exact DeliveryState.load_eq horder
  rw [hlog]

namespace DeliveryState

def ping : Delivery where
  id := "1"
  webhookId := "w"
  body := "{}"
  createdAt := 10

def pong : Delivery where
  id := "2"
  webhookId := "w"
  body := "{}"
  createdAt := 11

/-- A payload with a character across the cap. -/
def straddling : Delivery :=
  { ping with body := String.ofList (List.replicate 8191 'a' ++ ['é']) }

theorem truncate_straddling : truncate straddling.body deliveryBodyCap = none := by
  have hsum : byteLength (List.replicate 8191 'a') = 8191 := by
    rw [byteLength_replicate]
    rfl
  have hnone := @takeBytes_none (List.replicate 8191 'a') [] 'é' 1 (by decide) (by decide)
  rw [hsum] at hnone
  rw [truncate, straddling, String.toList_ofList]
  change (takeBytes (8191 + 1) _).map _ = none
  rw [hnone, Option.map_none]

end DeliveryState

theorem deliveries_recorded_two : ∃ s : DeliveryState,
    s.log = [DeliveryState.ping, DeliveryState.pong] ∧ s.Recorded ∧
      DeliveryLog.list (s.act .restart).log none 10 = [DeliveryState.pong, DeliveryState.ping] := by
  have hshort : ∀ d : Delivery, d.body = "{}" → Cuts deliveryBodyCap d.body := by
    intro d hd
    rw [hd]
    exact Or.inl (by decide)
  have h₀ : (deliverySys.restrict DeliveryState.InOrder).Reachable {} := .init rfl
  have h₁ := Sys.Reachable.step (a := DeliveryAct.finish DeliveryState.ping true) h₀
    ⟨rfl, hshort DeliveryState.ping rfl⟩
  have h₂ := Sys.Reachable.step (a := DeliveryAct.finish DeliveryState.pong true) h₁
    ⟨rfl, hshort DeliveryState.pong rfl⟩
  obtain ⟨hrecorded, hrestart⟩ := deliveries_recorded _ h₂
  have hlog : ((({} : DeliveryState).act (.finish DeliveryState.ping true)).act
      (.finish DeliveryState.pong true)).table = [DeliveryState.ping, DeliveryState.pong] := by
    decide +kernel
  have horder : DeliveryState.InOrder ((({} : DeliveryState).act
      (.finish DeliveryState.ping true)).act (.finish DeliveryState.pong true)) .restart {} := by
    rw [DeliveryState.InOrder, hlog]
    decide
  have hlist := hrestart _ ⟨rfl, horder⟩ (by decide +kernel) none 10
  refine ⟨_, by decide +kernel, hrecorded, hlist.trans (by decide +kernel)⟩

/-- A payload whose cut falls inside a character panics and is not recorded,
and a delivery that is over after one that started later changes places with
it at a restart. -/
theorem deliveries_unrecorded :
    (∃ s, deliverySys.Reachable s ∧ s.panicked = 1 ∧ s.log = []) ∧
    ∃ s, deliverySys.Reachable s ∧ s.saved = true ∧
      DeliveryLog.list s.log none 10 = [DeliveryState.ping, DeliveryState.pong] ∧
      DeliveryLog.list (s.act .restart).log none 10 =
        [DeliveryState.pong, DeliveryState.ping] := by
  have h₀ : deliverySys.Reachable {} := .init rfl
  constructor
  · have hpush : DeliveryLog.push ({} : DeliveryState).log DeliveryState.straddling = none := by
      rw [DeliveryLog.push, DeliveryState.truncate_straddling, Option.map_none]
    have h₁ := h₀.step (a := .finish DeliveryState.straddling true) rfl
    rw [DeliveryState.act_finish_none hpush] at h₁
    exact ⟨_, h₁, rfl, rfl⟩
  · have h₁ := h₀.step (a := .finish DeliveryState.pong true) rfl
    have h₂ := h₁.step (a := .finish DeliveryState.ping true) rfl
    exact ⟨_, h₂, by decide +kernel, by decide +kernel, by decide +kernel⟩

end Aperio
