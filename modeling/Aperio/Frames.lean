import Aperio.ByteOrder
import Aperio.Utf8

/-!
# Binary frames

The byte layouts of `protocol.rs`. A chunk frame is a tag, the length of an id
in one byte, the id and a payload. A full frame is a chunk frame whose payload
is an envelope, behind its length in four bytes, and a body. The client has
the same functions once more in its own `protocol.rs`.

When a connection has negotiated compression, each side's writer sends texts
deflated and full frames under a second tag with the payload deflated, and the
other side's reader undoes it. zlib is a parameter: `Zlib.Lawful` is what the
two sides rely on.
-/

namespace Aperio

/-! ## The layouts -/

def frameRequestChunk : UInt8 := 1

def frameResponseChunk : UInt8 := 2

def frameResponseFull : UInt8 := 3

def frameResponseFullZlib : UInt8 := 4

def frameRequestFull : UInt8 := 5

def frameRequestFullZlib : UInt8 := 6

def frameTcpData : UInt8 := 7

def frameUdpDatagram : UInt8 := 8

def frameWsDataBin : UInt8 := 9

/-- An id that does not fit its length byte is not framed. -/
def encodeBinaryFrame (tag : UInt8) (id : String) (payload : Bytes) : Option Bytes :=
  let idBytes := utf8Bytes id
  if 255 < idBytes.length then none
  else some (tag :: UInt8.ofNat idBytes.length :: (idBytes ++ payload))

def decodeBinaryFrame : Bytes → Option (UInt8 × String × Bytes)
  | tag :: idLen :: rest =>
    if rest.length < idLen.toNat then none
    else (fromUtf8 (rest.take idLen.toNat)).map fun id => (tag, id, rest.drop idLen.toNat)
  | _ => none

def encodeFullRequestFrame (tag : UInt8) (id json : String) (body : Bytes) : Option Bytes :=
  let idBytes := utf8Bytes id
  let jsonBytes := utf8Bytes json
  if 255 < idBytes.length then none
  else
    some (tag :: UInt8.ofNat idBytes.length ::
      (idBytes ++ leBytes 4 jsonBytes.length ++ jsonBytes ++ body))

def splitFullResponse (payload : Bytes) : Option (String × Bytes) :=
  if payload.length < 4 then none
  else
    let jsonLen := ofLeBytes (payload.take 4)
    let rest := payload.drop 4
    if rest.length < jsonLen then none
    else (fromUtf8 (rest.take jsonLen)).map fun json => (json, rest.drop jsonLen)

/-! ## Round trips -/

section

variable {tag : UInt8} {id json : String} {payload body data : Bytes}

theorem decodeBinaryFrame_cons (hid : (utf8Bytes id).length ≤ 255) :
    decodeBinaryFrame (tag :: UInt8.ofNat (utf8Bytes id).length :: (utf8Bytes id ++ payload)) =
      some (tag, id, payload) := by
  have hlen : (UInt8.ofNat (utf8Bytes id).length).toNat = (utf8Bytes id).length :=
    toNat_uint8_ofNat (by omega)
  rw [decodeBinaryFrame, hlen, if_neg (by rw [List.length_append]; omega), List.take_left,
    List.drop_left, fromUtf8_utf8Bytes]
  rfl

theorem encodeBinaryFrame_eq_some (hid : (utf8Bytes id).length ≤ 255) :
    encodeBinaryFrame tag id payload =
      some (tag :: UInt8.ofNat (utf8Bytes id).length :: (utf8Bytes id ++ payload)) := by
  simp only [encodeBinaryFrame]
  rw [if_neg (by omega)]

/-- What decodes is a tag, a length byte and that many bytes of an id. -/
theorem decodeBinaryFrame_eq_some (h : decodeBinaryFrame data = some (tag, id, payload)) :
    (utf8Bytes id).length ≤ 255 ∧
      data = tag :: UInt8.ofNat (utf8Bytes id).length :: (utf8Bytes id ++ payload) := by
  match data, h with
  | tag' :: idLen :: rest, h =>
      rw [decodeBinaryFrame] at h
      split at h
      · cases h
      · rename_i hlong
        obtain ⟨id', hid, hparts⟩ := Option.map_eq_some_iff.mp h
        simp only [Prod.mk.injEq] at hparts
        obtain ⟨rfl, rfl, rfl⟩ := hparts
        have hbytes := fromUtf8_eq_some.mp hid
        have hlen : (utf8Bytes id').length = idLen.toNat := by
          rw [hbytes, List.length_take]
          omega
        have hbyte := idLen.toNat_lt
        refine ⟨by omega, ?_⟩
        rw [hlen, hbytes, List.take_append_drop]
        simp

theorem encodeFullRequestFrame_eq (tag : UInt8) (id json : String) (body : Bytes) :
    encodeFullRequestFrame tag id json body =
      encodeBinaryFrame tag id (leBytes 4 (utf8Bytes json).length ++ utf8Bytes json ++ body) := by
  simp only [encodeFullRequestFrame, encodeBinaryFrame, List.append_assoc]

/-- An envelope whose length fits four bytes is split off again. -/
theorem splitFullResponse_join (hjson : (utf8Bytes json).length < 2 ^ 32) :
    splitFullResponse (leBytes 4 (utf8Bytes json).length ++ utf8Bytes json ++ body) =
      some (json, body) := by
  have hlen : ofLeBytes (leBytes 4 (utf8Bytes json).length) = (utf8Bytes json).length := by
    rw [ofLeBytes_leBytes]
    exact Nat.mod_eq_of_lt hjson
  have htake : (leBytes 4 (utf8Bytes json).length ++ (utf8Bytes json ++ body)).take 4 =
      leBytes 4 (utf8Bytes json).length := List.take_left' (length_leBytes 4 _)
  have hdrop : (leBytes 4 (utf8Bytes json).length ++ (utf8Bytes json ++ body)).drop 4 =
      utf8Bytes json ++ body := List.drop_left' (length_leBytes 4 _)
  simp only [splitFullResponse, List.append_assoc, htake, hdrop, hlen]
  rw [if_neg, if_neg, List.take_left, List.drop_left, fromUtf8_utf8Bytes]
  · rfl
  · rw [List.length_append]
    omega
  · rw [List.length_append, length_leBytes]
    omega

end

end Aperio
