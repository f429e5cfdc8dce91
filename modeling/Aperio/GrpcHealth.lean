import Mathlib.Tactic.Ring
import Aperio.ByteOrder
import Aperio.Protobuf
import Aperio.Text

/-!
# gRPC health checking

`health_request_frame` and `health_response_status` of the client's
`proxy/h2.rs`: one message of one field each way, written and read by hand. The
encoder writes the length of the name as one byte; the decoder does not look at
the length its frame announces. Against the wire format (`Aperio.Protobuf`) this
module says for which names the frame carries the name, and for which bodies the
answer is that of the message announced.
-/

namespace Aperio

open Protobuf

/-! ## The request -/

/-- A `HealthCheckRequest{ service }`. -/
def healthRequest (service : String) : List UInt8 :=
  if service = "" then []
  else 0x0a :: UInt8.ofNat (utf8Bytes service).length :: utf8Bytes service

/-- The message behind a gRPC length prefix. -/
def healthRequestFrame (service : String) : List UInt8 :=
  let msg := healthRequest service
  0 :: (beBytes 4 msg.length ++ msg)

/-! ## The response -/

/-- The loop of the decoder; `value` is a `u64`. -/
def healthStatusLoop : List UInt8 → Nat → Nat → Option Nat
  | [], _, _ => none
  | byte :: rest, value, shift =>
    let value := value ||| ((byte &&& 0x7f).toNat <<< shift) % 2 ^ 64
    if byte &&& 0x80 = 0 then some value
    else
      let shift := shift + 7
      if 63 < shift then none else healthStatusLoop rest value shift

/-- `health_response_status`. -/
def healthResponseStatus (body : List UInt8) : Option Nat :=
  if body.length < 5 then none
  else
    match body.drop 5 with
    | [] => none
    | tag :: rest => if tag ≠ 0x08 then none else healthStatusLoop rest 0 0

example : healthResponseStatus [0, 0, 0, 0, 3, 0x08, 0xac, 0x02] = some 300 := by decide

/-! ## The frame of a message -/

/-- The length a frame's header announces. -/
def announcedLength (frame : List UInt8) : Nat :=
  ofBeBytes ((frame.drop 1).take 4)

/-- As much of the message announced as is there. -/
def announcedMessage (frame : List UInt8) : List UInt8 :=
  (frame.drop 5).take (announcedLength frame)

/-- The frame is one message, announced at its length, and the message says the
name: in field 1, or by being empty. -/
def CarriesName (service : String) : Prop :=
  let frame := healthRequestFrame service
  frame.head? = some 0 ∧ announcedLength frame = (frame.drop 5).length ∧
    (service = "" → frame.drop 5 = []) ∧
    ∃ fields, readMessage (frame.drop 5) = some fields ∧ bytesField 1 fields = utf8Bytes service

/-- A status on the wire: field 1 as a varint of ten bytes at most, first in the
message. -/
def SaysStatus (msg : List UInt8) (status : Nat) : Prop :=
  ∃ v rest after, msg = 0x08 :: rest ∧ readVarint 10 rest = some (v, after) ∧
    v % 2 ^ 64 = status

/-- The answer is what the announced message says, and nothing behind the
message changes it. -/
def AnswersMessage (body : List UInt8) : Prop :=
  (∀ status, healthResponseStatus body = some status ↔
    SaysStatus (announcedMessage body) status) ∧
  ∀ body' : List UInt8, body'.take 5 = body.take 5 →
    announcedMessage body' = announcedMessage body →
    healthResponseStatus body' = healthResponseStatus body

/-- The message decides the answer without its length: it does not start as a
status, or its varint ends, or is too long. -/
def Decided (msg : List UInt8) : Prop :=
  ∃ tag rest, msg = tag :: rest ∧
    (tag ≠ 0x08 ∨ (∃ b ∈ rest.take 10, b < 0x80) ∨ 10 ≤ rest.length)

/-! ## Names -/

theorem announcedLength_frame (service : String) :
    announcedLength (healthRequestFrame service) =
      (healthRequest service).length % 256 ^ 4 := by
  rw [announcedLength, healthRequestFrame, List.drop_succ_cons, List.drop_zero,
    List.take_left' (length_beBytes 4 _), ofBeBytes, beBytes, List.reverse_reverse,
    ofLeBytes_leBytes]

theorem drop_frame (service : String) :
    (healthRequestFrame service).drop 5 = healthRequest service := by
  rw [healthRequestFrame, List.drop_succ_cons, List.drop_left' (length_beBytes 4 _)]

/-- A field of a tag and a length of one byte each. -/
theorem readMessage_single {n : Nat} {data : List UInt8} (hn : n = data.length) (h : n < 128) :
    readMessage (0x0a :: UInt8.ofNat n :: data) = some [(1, .lengthDelimited data)] := by
  have hbyte : (UInt8.ofNat n).toNat = n := by
    rw [UInt8.toNat_ofNat']
    omega
  have hsmall : UInt8.ofNat n < 0x80 := by
    rw [UInt8.lt_iff_toNat_lt, hbyte]
    exact h
  have hdata : readBytes n data = some (data, []) := by
    rw [readBytes, if_pos hn.le, hn, List.take_length, List.drop_length]
  have hvalue : readValue 2 (UInt8.ofNat n :: data) = some (.lengthDelimited data, []) := by
    simp only [readValue, readVarint_small hsmall, hbyte, Option.bind_some, hdata, Option.map_some]
  have hfield : readField (0x0a :: UInt8.ofNat n :: data) =
      some ((1, .lengthDelimited data), []) := by
    rw [readField, readVarint_small (by decide), Option.bind_some]
    dsimp only
    rw [show (0x0a : UInt8).toNat = 10 from rfl]
    simp [hvalue]
  rw [readMessage, List.length_cons, readFields, hfield, Option.bind_some]
  cases (UInt8.ofNat n :: data).length <;> rfl

/-- **A frame carries the names of fewer than 128 bytes**: one byte cannot say
another length. -/
theorem carriesName_iff (service : String) :
    CarriesName service ↔ (utf8Bytes service).length < 128 := by
  constructor
  · rintro ⟨-, -, -, fields, hfields, hname⟩
    by_contra hlong
    rw [not_lt] at hlong
    have hne : bytesField 1 fields ≠ [] := by
      rw [hname]
      intro hnil
      rw [hnil] at hlong
      simp at hlong
    have hmem := mem_of_bytesField hne
    rw [hname] at hmem
    have hsize := readFields_length hfields hmem hlong
    have hservice : service ≠ "" := by
      rintro rfl
      simp [utf8Bytes] at hlong
    rw [drop_frame, healthRequest, if_neg hservice, List.length_cons, List.length_cons] at hsize
    omega
  · intro hshort
    have hlen : (healthRequest service).length ≤ (utf8Bytes service).length + 2 := by
      unfold healthRequest
      split <;> simp
    refine ⟨rfl, ?_, fun hempty => ?_, ?_⟩
    · rw [announcedLength_frame, drop_frame]
      omega
    · rw [drop_frame, healthRequest, if_pos hempty]
    · rw [drop_frame]
      by_cases hempty : service = ""
      · subst hempty
        exact ⟨[], rfl, rfl⟩
      · rw [healthRequest, if_neg hempty]
        exact ⟨_, readMessage_single rfl hshort, rfl⟩

/-! ## The loop -/

theorem low_seven (byte : UInt8) : (byte &&& 0x7f).toNat = byte.toNat % 128 := by
  rw [UInt8.toNat_and]
  exact Nat.and_two_pow_sub_one_eq_mod byte.toNat 7

theorem high_bit (byte : UInt8) : byte &&& 0x80 = 0 ↔ byte < 0x80 := by
  have hall : ∀ n : Fin 256, UInt8.ofNat n.val &&& 0x80 = 0 ↔ UInt8.ofNat n.val < 0x80 := by
    decide +kernel
  have hbyte := hall ⟨byte.toNat, byte.toNat_lt⟩
  rwa [UInt8.ofNat_toNat] at hbyte

/-- Seven bits put on top, of which a `u64` keeps what fits. -/
theorem or_shifted {value x shift : Nat} (hvalue : value < 2 ^ shift) (hshift : shift ≤ 64) :
    value ||| (x <<< shift) % 2 ^ 64 = (value + x * 2 ^ shift) % 2 ^ 64 := by
  have hsplit : (2 : Nat) ^ 64 = 2 ^ (64 - shift) * 2 ^ shift := by
    rw [← pow_add, Nat.sub_add_cancel hshift]
  have hmod : (x <<< shift) % 2 ^ 64 = (x % 2 ^ (64 - shift)) <<< shift := by
    rw [Nat.shiftLeft_eq, Nat.shiftLeft_eq, hsplit, Nat.mul_mod_mul_right]
  have hlow : (value + x * 2 ^ shift) % 2 ^ shift = value := by
    rw [Nat.add_mul_mod_self_right, Nat.mod_eq_of_lt hvalue]
  have hhigh : (value + x * 2 ^ shift) / 2 ^ shift = x := by
    rw [Nat.add_mul_div_right _ _ (Nat.two_pow_pos shift), Nat.div_eq_of_lt hvalue, Nat.zero_add]
  rw [hmod, Nat.or_comm, ← Nat.shiftLeft_add_eq_or_of_lt hvalue, Nat.shiftLeft_eq, hsplit,
    Nat.mul_comm (2 ^ (64 - shift)), Nat.mod_mul, hlow, hhigh]
  ring

/-- **The loop reads a varint**: after `k` bytes it stands `7 * k` bits high and
takes `10 - k` more. -/
theorem healthStatusLoop_eq {bytes : List UInt8} {value k : Nat} (hk : k < 10)
    (hvalue : value < 2 ^ (7 * k)) :
    healthStatusLoop bytes value (7 * k) =
      (readVarint (10 - k) bytes).map fun (v, _) => (value + v * 2 ^ (7 * k)) % 2 ^ 64 := by
  induction bytes generalizing value k with
  | nil =>
      obtain ⟨left, hleft⟩ := Nat.exists_eq_add_of_lt hk
      rw [hleft, show k + left + 1 - k = left + 1 by omega]
      rfl
  | cons byte rest ih =>
      obtain ⟨left, hleft⟩ : ∃ left, 10 - k = left + 1 := ⟨9 - k, by omega⟩
      have hor := or_shifted (x := byte.toNat % 128) hvalue (by omega)
      rw [healthStatusLoop, hleft]
      simp only [low_seven, hor]
      by_cases hlast : byte < 0x80
      · have hbyte : byte.toNat % 128 = byte.toNat :=
          Nat.mod_eq_of_lt (UInt8.lt_iff_toNat_lt.mp hlast)
        rw [if_pos ((high_bit byte).mpr hlast), readVarint_small hlast, hbyte]
        rfl
      · rw [if_neg (mt (high_bit byte).mp hlast), readVarint_more hlast, Option.map_map]
        by_cases hend : k = 9
        · subst hend
          obtain rfl : left = 0 := by omega
          rfl
        · have hnext : value + byte.toNat % 128 * 2 ^ (7 * k) < 2 ^ (7 * (k + 1)) := by
            have hpow : (2 : Nat) ^ (7 * (k + 1)) = 128 * 2 ^ (7 * k) := by
              rw [Nat.mul_succ, pow_add]
              ring
            have hseven : byte.toNat % 128 ≤ 127 := by omega
            have := Nat.mul_le_mul_right (2 ^ (7 * k)) hseven
            omega
          have hfits : 2 ^ (7 * (k + 1)) ≤ 2 ^ 64 :=
            Nat.pow_le_pow_right (by decide) (by omega)
          rw [Nat.mod_eq_of_lt (hnext.trans_le hfits), if_neg (by omega),
            show 7 * k + 7 = 7 * (k + 1) from rfl, ih (by omega) hnext,
            show 10 - (k + 1) = left by omega]
          congr 1
          funext ⟨w, after⟩
          simp only [Function.comp_apply]
          congr 1
          rw [Nat.mul_succ, pow_add]
          ring

/-! ## Bodies -/

/-- What the code makes of a message. -/
def messageStatus (msg : List UInt8) : Option Nat :=
  match msg with
  | [] => none
  | tag :: rest =>
    if tag ≠ 0x08 then none else (readVarint 10 rest).map fun (v, _) => v % 2 ^ 64

theorem healthResponseStatus_eq (body : List UInt8) :
    healthResponseStatus body = messageStatus (body.drop 5) := by
  have hloop (rest : List UInt8) :
      healthStatusLoop rest 0 0 = (readVarint 10 rest).map fun (v, _) => v % 2 ^ 64 := by
    have hstart : healthStatusLoop rest 0 (7 * 0) =
        (readVarint (10 - 0) rest).map fun (v, _) => (0 + v * 2 ^ (7 * 0)) % 2 ^ 64 :=
      healthStatusLoop_eq (by decide) (by decide)
    simpa using hstart
  unfold healthResponseStatus
  split
  · rename_i hshort
    rw [List.drop_of_length_le (by omega), messageStatus]
  · cases body.drop 5 with
    | nil => rfl
    | cons tag rest =>
        dsimp only [messageStatus]
        rw [hloop]

theorem messageStatus_iff {msg : List UInt8} {status : Nat} :
    messageStatus msg = some status ↔ SaysStatus msg status := by
  constructor
  · intro h
    cases msg with
    | nil => cases h
    | cons tag rest =>
        rw [messageStatus] at h
        split at h
        · cases h
        · rename_i htag
          obtain ⟨⟨v, after⟩, hv, heq⟩ := Option.map_eq_some_iff.mp h
          rw [not_not] at htag
          exact ⟨v, rest, after, by rw [htag], hv, heq⟩
  · rintro ⟨v, rest, after, rfl, hv, rfl⟩
    rw [messageStatus, if_neg (by decide), hv]
    rfl

/-- A message that decides does so with anything behind it. -/
theorem Decided.append {msg : List UInt8} (h : Decided msg) (more : List UInt8) :
    messageStatus (msg ++ more) = messageStatus msg := by
  obtain ⟨tag, rest, rfl, htag | hends⟩ := h
  · rw [List.cons_append, messageStatus, messageStatus, if_pos htag, if_pos htag]
  · have hsame : (readVarint 10 (rest ++ more)).map (·.1) = (readVarint 10 rest).map (·.1) := by
      cases hread : readVarint 10 rest with
      | some v =>
          rw [readVarint_append more hread]
          rfl
      | none =>
          have hlong : 10 ≤ rest.length := by
            rcases hends with hends | hlong
            · rw [← readVarint_isSome, hread] at hends
              cases hends
            · exact hlong
          rw [readVarint_eq_none_append more hread hlong]
    have hstatus := congrArg (Option.map (· % 2 ^ 64)) hsame
    rw [Option.map_map, Option.map_map] at hstatus
    rw [List.cons_append, messageStatus, messageStatus]
    split
    · rfl
    · exact hstatus

/-- One that does not decide answers nothing, and would with more behind it. -/
theorem exists_of_not_decided {msg : List UInt8} (h : ¬Decided msg) :
    messageStatus msg = none ∧ ∃ more, messageStatus (msg ++ more) ≠ none := by
  cases msg with
  | nil => exact ⟨rfl, [0x08, 0x00], by decide⟩
  | cons tag rest =>
      have hopen : ¬(tag ≠ 0x08 ∨ (∃ b ∈ rest.take 10, b < 0x80) ∨ 10 ≤ rest.length) :=
        fun hor => h ⟨tag, rest, rfl, hor⟩
      simp only [not_or, not_not] at hopen
      obtain ⟨rfl, hends, hlen⟩ := hopen
      have hnone : readVarint 10 rest = none := by
        rwa [← Option.not_isSome_iff_eq_none, readVarint_isSome]
      refine ⟨by rw [messageStatus, if_neg (by decide), hnone]; rfl, [0x00], ?_⟩
      have hsome : (readVarint 10 (rest ++ [0x00])).isSome := by
        rw [readVarint_isSome]
        refine ⟨0x00, ?_, by decide⟩
        rw [List.take_of_length_le (by rw [List.length_append, List.length_singleton]; omega)]
        simp
      obtain ⟨v, hv⟩ := Option.isSome_iff_exists.mp hsome
      rw [List.cons_append, messageStatus, if_neg (by decide), hv]
      simp

theorem announcedLength_take (body : List UInt8) :
    announcedLength (body.take 5) = announcedLength body := by
  rw [announcedLength, announcedLength, List.drop_take, List.take_take, Nat.min_self]

theorem announcedLength_congr {body body' : List UInt8} (h : body'.take 5 = body.take 5) :
    announcedLength body' = announcedLength body := by
  rw [← announcedLength_take, h, announcedLength_take]

/-- A body whose message is cut short holds nothing else. -/
theorem drop_eq_of_short {body body' : List UInt8} (hhead : body'.take 5 = body.take 5)
    (hmsg : announcedMessage body' = announcedMessage body)
    (hshort : body.length < 5 + announcedLength body) : body'.drop 5 = body.drop 5 := by
  rw [announcedMessage, announcedMessage, announcedLength_congr hhead] at hmsg
  have hall : (body.drop 5).take (announcedLength body) = body.drop 5 :=
    List.take_of_length_le (by rw [List.length_drop]; omega)
  rw [hall] at hmsg
  by_cases hfive : body.length < 5
  · have hlen := congrArg List.length hhead
    rw [List.length_take, List.length_take] at hlen
    rw [List.drop_of_length_le (by omega), List.drop_of_length_le (by omega)]
  · have hlen := congrArg List.length hmsg
    rw [List.length_take, List.length_drop, List.length_drop] at hlen
    rw [← hmsg, List.take_of_length_le (by rw [List.length_drop]; omega)]

/-- **The answer is that of the announced message** where that message is cut
short by the body, or decides it. -/
theorem answersMessage_iff (body : List UInt8) :
    AnswersMessage body ↔
      body.length < 5 + announcedLength body ∨ Decided (announcedMessage body) := by
  constructor
  · rintro ⟨-, hsame⟩
    by_contra hneither
    obtain ⟨hfull, hopen⟩ := not_or.mp hneither
    obtain ⟨hnone, more, hmore⟩ := exists_of_not_decided hopen
    rw [not_lt] at hfull
    have hhead : (body.take 5).length = 5 := List.length_take_of_le (by omega)
    have hmsg : (announcedMessage body).length = announcedLength body :=
      List.length_take_of_le (by rw [List.length_drop]; omega)
    -- the same header and message, with nothing and with more behind them
    have hbody (more : List UInt8) : messageStatus (announcedMessage body ++ more) =
        healthResponseStatus body := by
      have htake : (body.take 5 ++ (announcedMessage body ++ more)).take 5 = body.take 5 :=
        List.take_left' hhead
      have hdrop : (body.take 5 ++ (announcedMessage body ++ more)).drop 5 =
          announcedMessage body ++ more := List.drop_left' hhead
      rw [← hsame _ htake ?_, healthResponseStatus_eq, hdrop]
      rw [announcedMessage, announcedLength_congr htake, hdrop, List.take_left' hmsg]
    have hempty := hbody []
    rw [List.append_nil, hnone] at hempty
    exact hmore ((hbody more).trans hempty.symm)
  · intro h
    have hmessage : ∀ body' : List UInt8, body'.take 5 = body.take 5 →
        announcedMessage body' = announcedMessage body →
        healthResponseStatus body' = messageStatus (announcedMessage body) := by
      intro body' hhead hmsg
      rw [healthResponseStatus_eq]
      rcases h with hshort | hdecided
      · rw [drop_eq_of_short hhead hmsg hshort, announcedMessage,
          List.take_of_length_le (by rw [List.length_drop]; omega)]
      · rw [← List.take_append_drop (announcedLength body') (body'.drop 5)]
        rw [← hmsg] at hdecided ⊢
        exact hdecided.append _
    refine ⟨fun status => ?_, fun body' hhead hmsg => ?_⟩
    · rw [hmessage body rfl rfl, messageStatus_iff]
    · rw [hmessage body' hhead hmsg, hmessage body rfl rfl]

/-- Which names reach the backend, and which answers come from what it said. -/
theorem grpc_health_messages (service : String) (body : List UInt8) :
    (CarriesName service ↔ (utf8Bytes service).length < 128) ∧
    (AnswersMessage body ↔
      body.length < 5 + announcedLength body ∨ Decided (announcedMessage body)) :=
  ⟨carriesName_iff service, answersMessage_iff body⟩

/-- A name of 128 bytes is not carried, and a frame that announces no byte is
read as serving. -/
theorem grpc_health_messages_long :
    ¬CarriesName (String.ofList (List.replicate 128 'a')) ∧
    healthResponseStatus [0, 0, 0, 0, 0, 0x08, 0x01] = some 1 ∧
    announcedMessage [0, 0, 0, 0, 0, 0x08, 0x01] = [] ∧
    ¬AnswersMessage [0, 0, 0, 0, 0, 0x08, 0x01] := by
  refine ⟨?_, by decide, by decide, ?_⟩
  · have hletter : (String.utf8EncodeChar 'a').length = 1 := by decide
    rw [carriesName_iff, utf8Bytes, String.toList_ofList, List.flatMap_replicate,
      List.length_flatten]
    simp [hletter]
  · rintro ⟨hanswer, -⟩
    obtain ⟨v, rest, after, hempty, -⟩ := (hanswer 1).mp (by decide)
    cases hempty

end Aperio
