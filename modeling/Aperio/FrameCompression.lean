import Aperio.Frames

/-!
# Compressed frames

What a writer makes of an outgoing message on a connection that negotiated
compression, and what the reader at the other end makes of it. Server to
client that is `writer_transform` (`tunnel/ws.rs`) and the read loop of the
client's `service/dispatch.rs`; client to server it is the writer of the
client's `service/writer.rs` and `decode_incoming` (`tunnel/ws/response.rs`).
The two are one definition each with a `Direction`, which is the tags of the
direction and what its reader does with a payload that does not inflate.

Both readers inflate at most one byte more than their bound, to see that it
was exceeded. `max_out as u64 + 1` is a 64-bit sum, and the bound can be the
largest 64-bit number.
-/

namespace Aperio

/-! ## zlib -/

/-- The encoder at its fast level, and the decoder read up to a number of
bytes. -/
structure Zlib where
  deflate : Bytes → Bytes
  inflate : Bytes → Nat → Option Bytes

structure Zlib.Lawful (z : Zlib) : Prop where
  inflates : ∀ data limit, z.inflate (z.deflate data) limit = some (data.take limit)
  header : ∀ data, (z.deflate data).head? = some 0x78

/-- `max_out as u64 + 1`. -/
def readLimit (maxOut : Nat) : Nat := (maxOut + 1) % 2 ^ 64

def compressFrame (z : Zlib) (text : String) : Bytes :=
  z.deflate (utf8Bytes text)

def decompressFrame (z : Zlib) (data : Bytes) (maxOut : Nat) : Option String :=
  match (z.inflate data (readLimit maxOut)).bind fromUtf8 with
  | none => none
  | some out => if maxOut < (utf8Bytes out).length then none else some out

/-- Deflating that does not make a payload smaller is not used. -/
def deflatePayload (z : Zlib) (payload : Bytes) : Option Bytes :=
  let out := z.deflate payload
  if out.length < payload.length then some out else none

def inflatePayload (z : Zlib) (data : Bytes) (maxOut : Nat) : Option Bytes :=
  match z.inflate data (readLimit maxOut) with
  | none => none
  | some out => if maxOut < out.length then none else some out

/-! ## The two directions -/

/-- A WebSocket message. The kinds that carry no frame are one. -/
inductive SocketMessage where
  | text (t : String)
  | binary (b : Bytes)
  | other

/-- What a reader makes of a message: a delivery to a stream, an envelope with
the body that came beside it, or nothing. -/
inductive Incoming where
  | chunk (id : String) (payload : Bytes)
  | tcp (id : String) (payload : Bytes)
  | udp (id : String) (payload : Bytes)
  | ws (id : String) (payload : Bytes)
  | envelope (json : String) (body : Option Bytes)
  | dropped
deriving DecidableEq

structure Direction where
  chunkTag : UInt8
  fullTag : UInt8
  zlibTag : UInt8
  /-- The payload that is read in place of one that does not inflate. -/
  uninflated : Bytes → Bytes
  distinct : [chunkTag, fullTag, zlibTag, frameTcpData, frameUdpDatagram, frameWsDataBin,
    0x78].Nodup

/-- The writer's transformation. -/
def Direction.transform (d : Direction) (z : Zlib) (compress : Bool) (msg : SocketMessage) :
    SocketMessage :=
  if !compress then msg
  else
    match msg with
    | .text t => .binary (compressFrame z t)
    | .binary b =>
      if b.head? = some d.fullTag then
        match decodeBinaryFrame b with
        | none => .binary b
        | some (_, id, payload) =>
          match deflatePayload z payload with
          | none => .binary b
          | some deflated =>
            match encodeBinaryFrame d.zlibTag id deflated with
            | none => .binary b
            | some frame => .binary frame
      else .binary b
    | .other => .other

/-- An envelope and its body, out of a payload. -/
def fullIncoming (payload : Bytes) : Incoming :=
  match splitFullResponse payload with
  | some (json, body) => .envelope json (some body)
  | none => .dropped

/-- A frame of no tag is a compressed text. -/
def textIncoming (z : Zlib) (b : Bytes) (maxInflated : Nat) : Incoming :=
  match decompressFrame z b maxInflated with
  | some text => .envelope text none
  | none => .dropped

/-- The reader's decoding. -/
def Direction.decode (d : Direction) (z : Zlib) (maxInflated : Nat) : SocketMessage → Incoming
  | .text t => .envelope t none
  | .binary b =>
    match decodeBinaryFrame b with
    | none => textIncoming z b maxInflated
    | some (tag, id, payload) =>
      if tag = d.chunkTag then .chunk id payload
      else if tag = frameTcpData then .tcp id payload
      else if tag = frameUdpDatagram then .udp id payload
      else if tag = frameWsDataBin then .ws id payload
      else if tag = d.fullTag then fullIncoming payload
      else if tag = d.zlibTag then
        fullIncoming ((inflatePayload z payload maxInflated).getD (d.uninflated payload))
      else textIncoming z b maxInflated
  | .other => .dropped

/-- Server to client: the client reads on with the payload as it came. -/
def serverToClient : Direction where
  chunkTag := frameRequestChunk
  fullTag := frameRequestFull
  zlibTag := frameRequestFullZlib
  uninflated payload := payload
  distinct := by decide

/-- Client to server: the server reads on with nothing. -/
def clientToServer : Direction where
  chunkTag := frameResponseChunk
  fullTag := frameResponseFull
  zlibTag := frameResponseFullZlib
  uninflated _ := []
  distinct := by decide

def writerTransform (z : Zlib) (msg : SocketMessage) (compress : Bool) : SocketMessage :=
  serverToClient.transform z compress msg

/-- The writer of the client. -/
def clientTransform (z : Zlib) (msg : SocketMessage) (compress : Bool) : SocketMessage :=
  clientToServer.transform z compress msg

/-- The client's bound, from its `max_message_size`. -/
def dispatchBound (maxMessageSize : Nat) : Nat :=
  min (maxMessageSize * 4) (2 ^ 64 - 1)

/-- The server's, from its `max_body_size`. -/
def maxInflated (maxBodySize : Nat) : Nat :=
  max (min (maxBodySize * 4) (2 ^ 64 - 1)) (8 * 1024 * 1024)

def dispatchIncoming (z : Zlib) (maxMessageSize : Nat) (msg : SocketMessage) : Incoming :=
  serverToClient.decode z (dispatchBound maxMessageSize) msg

def decodeIncoming (z : Zlib) (maxBodySize : Nat) (msg : SocketMessage) : Incoming :=
  clientToServer.decode z (maxInflated maxBodySize) msg

/-! ## Inflating what was deflated -/

section

variable {z : Zlib} {d : Direction} {bound : Nat} {data b payload : Bytes} {id t : String}

/-- Below the largest bound the limit is past everything within the bound. -/
theorem take_readLimit (hlt : bound < 2 ^ 64 - 1) (hle : data.length ≤ bound) :
    data.take (readLimit bound) = data := by
  apply List.take_of_length_le
  rw [readLimit, Nat.mod_eq_of_lt (by omega)]
  omega

/-- At the largest bound the limit is nothing. -/
theorem readLimit_max : readLimit (2 ^ 64 - 1) = 0 := by decide

theorem inflatePayload_deflate (hz : z.Lawful) (hlt : bound < 2 ^ 64 - 1)
    (hle : data.length ≤ bound) : inflatePayload z (z.deflate data) bound = some data := by
  simp only [inflatePayload, hz.inflates, take_readLimit hlt hle]
  rw [if_neg (by omega)]

theorem inflatePayload_deflate_max (hz : z.Lawful) :
    inflatePayload z (z.deflate data) (2 ^ 64 - 1) = some [] := by
  simp only [inflatePayload, hz.inflates, readLimit_max, List.take_zero]
  rfl

theorem decompressFrame_compressFrame (hz : z.Lawful) (hlt : bound < 2 ^ 64 - 1)
    (hle : (utf8Bytes t).length ≤ bound) : decompressFrame z (compressFrame z t) bound = some t := by
  simp only [decompressFrame, compressFrame, hz.inflates, take_readLimit hlt hle,
    Option.bind_some, fromUtf8_utf8Bytes]
  rw [if_neg (by omega)]

theorem decompressFrame_compressFrame_max (hz : z.Lawful) :
    decompressFrame z (compressFrame z t) (2 ^ 64 - 1) = some "" := by
  have hempty : fromUtf8 [] = some "" := fromUtf8_utf8Bytes ""
  simp only [decompressFrame, compressFrame, hz.inflates, readLimit_max, List.take_zero,
    Option.bind_some, hempty]
  rfl

/-- Which tags a reader tells apart: its own three from each other, from the
shared ones and from the first byte of a zlib stream. -/
theorem Direction.apart (d : Direction) :
    (d.chunkTag ≠ d.fullTag ∧ d.chunkTag ≠ d.zlibTag ∧ d.chunkTag ≠ 0x78) ∧
    (d.fullTag ≠ d.zlibTag ∧ d.fullTag ≠ frameTcpData ∧ d.fullTag ≠ frameUdpDatagram ∧
      d.fullTag ≠ frameWsDataBin ∧ d.fullTag ≠ 0x78) ∧
    (d.zlibTag ≠ frameTcpData ∧ d.zlibTag ≠ frameUdpDatagram ∧ d.zlibTag ≠ frameWsDataBin ∧
      d.zlibTag ≠ 0x78) := by
  have hdistinct := d.distinct
  simp only [List.nodup_cons, List.mem_cons, List.not_mem_nil, or_false, not_or] at hdistinct
  obtain ⟨⟨hfull, hzlib, -, -, -, hhead⟩, hfulls, hzlibs, -⟩ := hdistinct
  exact ⟨⟨hfull, hzlib, hhead⟩, hfulls, hzlibs⟩

/-- A zlib stream is none of the tagged frames. -/
theorem decode_of_header (hhead : b.head? = some 0x78) :
    d.decode z bound (.binary b) = textIncoming z b bound := by
  obtain ⟨⟨-, -, hchunk⟩, ⟨-, -, -, -, hfull⟩, -, -, -, hzlib⟩ := d.apart
  simp only [Direction.decode]
  split
  · rfl
  · rename_i tag id payload hdec
    obtain ⟨-, rfl⟩ := decodeBinaryFrame_eq_some hdec
    obtain rfl := Option.some.inj hhead
    rw [if_neg (Ne.symm hchunk), if_neg (by decide), if_neg (by decide), if_neg (by decide),
      if_neg (Ne.symm hfull), if_neg (Ne.symm hzlib)]

theorem decode_full (hdec : decodeBinaryFrame b = some (d.fullTag, id, payload)) :
    d.decode z bound (.binary b) = fullIncoming payload := by
  obtain ⟨⟨hchunk, -⟩, ⟨-, htcp, hudp, hws, -⟩, -⟩ := d.apart
  simp only [Direction.decode, hdec]
  rw [if_neg (Ne.symm hchunk), if_neg htcp, if_neg hudp, if_neg hws, if_pos trivial]

theorem decode_zlib (hdec : decodeBinaryFrame b = some (d.zlibTag, id, payload)) :
    d.decode z bound (.binary b) =
      fullIncoming ((inflatePayload z payload bound).getD (d.uninflated payload)) := by
  obtain ⟨⟨-, hchunk, -⟩, ⟨hfull, -⟩, htcp, hudp, hws, -⟩ := d.apart
  simp only [Direction.decode, hdec]
  rw [if_neg (Ne.symm hchunk), if_neg htcp, if_neg hudp, if_neg hws, if_neg (Ne.symm hfull),
    if_pos trivial]

/-! ## The same message -/

/-- What there is to inflate is within the bound. -/
def Direction.Within (d : Direction) (bound : Nat) : SocketMessage → Prop
  | .text t => (utf8Bytes t).length ≤ bound
  | .binary b => ∀ id payload, decodeBinaryFrame b = some (d.fullTag, id, payload) →
      payload.length ≤ bound
  | .other => True

/-- The message is empty, or goes out as it is, or is a full frame that a
reader drops. -/
def Direction.NothingToLose (d : Direction) (z : Zlib) : SocketMessage → Prop
  | .text t => t = ""
  | .binary b => ∀ id payload, decodeBinaryFrame b = some (d.fullTag, id, payload) →
      deflatePayload z payload = none ∨ splitFullResponse payload = none
  | .other => True

theorem fullIncoming_eq_dropped : fullIncoming payload = .dropped ↔
    splitFullResponse payload = none := by
  unfold fullIncoming
  cases h : splitFullResponse payload with
  | none => simp
  | some r => simp

/-- A full frame that deflates goes out under the other tag. -/
theorem transform_full {deflated : Bytes}
    (hdec : decodeBinaryFrame b = some (d.fullTag, id, payload))
    (hdefl : deflatePayload z payload = some deflated) :
    ∃ frame, d.transform z true (.binary b) = .binary frame ∧
      decodeBinaryFrame frame = some (d.zlibTag, id, deflated) := by
  obtain ⟨hid, rfl⟩ := decodeBinaryFrame_eq_some hdec
  refine ⟨_, ?_, decodeBinaryFrame_cons hid⟩
  simp only [Direction.transform, Bool.not_true, Bool.false_eq_true, if_false, List.head?_cons,
    if_true, hdec, hdefl, encodeBinaryFrame_eq_some hid]

/-- Every other binary message goes out as it is. -/
theorem transform_other
    (h : ∀ id payload, decodeBinaryFrame b = some (d.fullTag, id, payload) →
      deflatePayload z payload = none) :
    d.transform z true (.binary b) = .binary b := by
  simp only [Direction.transform, Bool.not_true, Bool.false_eq_true, if_false]
  split
  · rename_i hhead
    cases hdec : decodeBinaryFrame b with
    | none => rfl
    | some r =>
        obtain ⟨tag, id, payload⟩ := r
        have htag : tag = d.fullTag := by
          obtain ⟨-, rfl⟩ := decodeBinaryFrame_eq_some hdec
          exact Option.some.inj hhead
        subst htag
        simp only [h id payload hdec]
  · rfl

/-- What a full frame that deflates becomes at the other end. -/
theorem decode_transform_full {deflated : Bytes} (hz : z.Lawful)
    (hdec : decodeBinaryFrame b = some (d.fullTag, id, payload))
    (hdefl : deflatePayload z payload = some deflated) :
    (bound < 2 ^ 64 - 1 → payload.length ≤ bound →
      d.decode z bound (d.transform z true (.binary b)) = fullIncoming payload) ∧
    d.decode z (2 ^ 64 - 1) (d.transform z true (.binary b)) = .dropped := by
  obtain ⟨frame, hframe, hdec'⟩ := transform_full hdec hdefl
  have hdeflated : deflated = z.deflate payload := by
    simp only [deflatePayload] at hdefl
    split at hdefl
    · exact (Option.some.inj hdefl).symm
    · cases hdefl
  rw [hframe]
  refine ⟨fun hlt hle => ?_, ?_⟩
  · rw [decode_zlib hdec', hdeflated, inflatePayload_deflate hz hlt hle]
    rfl
  · rw [decode_zlib hdec', hdeflated, inflatePayload_deflate_max hz]
    rfl

/-- **One direction.** A message within the bound reads the same compressed as
not exactly when the bound is not the largest, or there is nothing to lose. -/
theorem decode_transform_iff {msg : SocketMessage} (hz : z.Lawful) (hbound : bound ≤ 2 ^ 64 - 1)
    (hin : d.Within bound msg) :
    d.decode z bound (d.transform z true msg) = d.decode z bound (d.transform z false msg) ↔
      bound < 2 ^ 64 - 1 ∨ d.NothingToLose z msg := by
  have hoff : d.transform z false msg = msg := rfl
  rw [hoff]
  have hcases : bound < 2 ^ 64 - 1 ∨ bound = 2 ^ 64 - 1 := by omega
  cases msg with
  | other => simp [Direction.transform, Direction.NothingToLose]
  | text t =>
      have hon : d.transform z true (.text t) = .binary (compressFrame z t) := rfl
      have hhead : (compressFrame z t).head? = some 0x78 := hz.header _
      rw [hon, decode_of_header hhead]
      rcases hcases with hlt | rfl
      · simp only [textIncoming, decompressFrame_compressFrame hz hlt hin, hlt, true_or, iff_true]
        rfl
      · simp only [textIncoming, decompressFrame_compressFrame_max hz, Direction.decode,
          Direction.NothingToLose, lt_irrefl, false_or, Incoming.envelope.injEq, and_true]
        exact eq_comm
  | binary b =>
      by_cases hplain : ∀ id payload, decodeBinaryFrame b = some (d.fullTag, id, payload) →
          deflatePayload z payload = none
      · rw [transform_other hplain]
        simp only [true_iff]
        exact Or.inr fun id payload hdec => Or.inl (hplain id payload hdec)
      · simp only [not_forall] at hplain
        obtain ⟨id, payload, hdec, hdefl⟩ := hplain
        obtain ⟨deflated, hdefl⟩ := Option.ne_none_iff_exists'.mp hdefl
        have hon := @decode_transform_full z d bound b payload id deflated hz hdec hdefl
        rcases hcases with hlt | rfl
        · rw [hon.1 hlt (hin id payload hdec), decode_full hdec]
          simp only [hlt, true_or]
        · rw [hon.2, decode_full hdec, eq_comm, fullIncoming_eq_dropped]
          simp only [Direction.NothingToLose, lt_irrefl, false_or]
          constructor
          · intro hsplit id' payload' hdec'
            rw [hdec] at hdec'
            simp only [Option.some.injEq, Prod.mk.injEq, true_and] at hdec'
            obtain ⟨rfl, rfl⟩ := hdec'
            exact Or.inr hsplit
          · intro hnothing
            rcases hnothing id payload hdec with hnone | hsplit
            · rw [hdefl] at hnone
              cases hnone
            · exact hsplit

end

/-! ## The codec -/

/-- **Frames.** What is framed decodes to itself and what decodes is framed to
itself; an envelope below `2 ^ 32` bytes and its body come out of a full frame
as they went in. A message within the bound of the reader at the other end
reads the same with compression on as off exactly when the size that bound is
made of is below `2 ^ 62`, or there is nothing to lose. -/
theorem frame_codec {z : Zlib} (hz : z.Lawful) :
    (∀ tag id payload, (utf8Bytes id).length ≤ 255 →
      ∃ frame, encodeBinaryFrame tag id payload = some frame ∧
        decodeBinaryFrame frame = some (tag, id, payload)) ∧
    (∀ data tag id payload, decodeBinaryFrame data = some (tag, id, payload) →
      encodeBinaryFrame tag id payload = some data) ∧
    (∀ tag id json body, (utf8Bytes id).length ≤ 255 → (utf8Bytes json).length < 2 ^ 32 →
      ∃ frame payload, encodeFullRequestFrame tag id json body = some frame ∧
        decodeBinaryFrame frame = some (tag, id, payload) ∧
        splitFullResponse payload = some (json, body)) ∧
    (∀ maxMessageSize msg, serverToClient.Within (dispatchBound maxMessageSize) msg →
      (dispatchIncoming z maxMessageSize (writerTransform z msg true) =
          dispatchIncoming z maxMessageSize (writerTransform z msg false) ↔
        maxMessageSize < 2 ^ 62 ∨ serverToClient.NothingToLose z msg)) ∧
    ∀ maxBodySize msg, clientToServer.Within (maxInflated maxBodySize) msg →
      (decodeIncoming z maxBodySize (clientTransform z msg true) =
          decodeIncoming z maxBodySize (clientTransform z msg false) ↔
        maxBodySize < 2 ^ 62 ∨ clientToServer.NothingToLose z msg) := by
  refine ⟨?_, ?_, ?_, ?_, ?_⟩
  · intro tag id payload hid
    exact ⟨_, encodeBinaryFrame_eq_some hid, decodeBinaryFrame_cons hid⟩
  · intro data tag id payload hdec
    obtain ⟨hid, rfl⟩ := decodeBinaryFrame_eq_some hdec
    exact encodeBinaryFrame_eq_some hid
  · intro tag id json body hid hjson
    refine ⟨_, _, ?_, decodeBinaryFrame_cons hid, splitFullResponse_join hjson⟩
    rw [encodeFullRequestFrame_eq, encodeBinaryFrame_eq_some hid]
  · intro maxMessageSize msg hin
    have hbound : dispatchBound maxMessageSize < 2 ^ 64 - 1 ↔ maxMessageSize < 2 ^ 62 := by
      rw [dispatchBound]
      omega
    rw [← hbound]
    exact decode_transform_iff hz (Nat.min_le_right _ _) hin
  · intro maxBodySize msg hin
    have hbound : maxInflated maxBodySize < 2 ^ 64 - 1 ↔ maxBodySize < 2 ^ 62 := by
      rw [maxInflated]
      omega
    have hle : maxInflated maxBodySize ≤ 2 ^ 64 - 1 := by
      rw [maxInflated]
      omega
    rw [← hbound]
    exact decode_transform_iff hz hle hin

/-- A zlib that is the real one on the text `hi`. -/
def hiZlib : Zlib where
  deflate data :=
    if data = [104, 105] then [0x78, 0x01, 0xcb, 0xc8, 0x04, 0x00, 0x01, 0x3b, 0x00, 0xd2]
    else 0x78 :: 0x02 :: data
  inflate data limit :=
    if data = [0x78, 0x01, 0xcb, 0xc8, 0x04, 0x00, 0x01, 0x3b, 0x00, 0xd2] then
      some ([104, 105].take limit)
    else
      match data with
      | 0x78 :: 0x02 :: rest => some (rest.take limit)
      | _ => none

theorem hiZlib_lawful : hiZlib.Lawful where
  inflates := by
    intro data limit
    by_cases hdata : data = [104, 105]
    · subst hdata
      rfl
    · simp [hiZlib, hdata]
  header := by
    intro data
    by_cases hdata : data = [104, 105]
    · subst hdata
      rfl
    · simp [hiZlib, hdata]

theorem frame_codec_hi :
    dispatchIncoming hiZlib (2 ^ 20) (writerTransform hiZlib (.text "hi") true) =
      dispatchIncoming hiZlib (2 ^ 20) (writerTransform hiZlib (.text "hi") false) := by
  obtain ⟨-, -, -, htoClient, -⟩ := frame_codec hiZlib_lawful
  refine (htoClient (2 ^ 20) (.text "hi") ?_).mpr (Or.inl (by decide))
  show (utf8Bytes "hi").length ≤ dispatchBound (2 ^ 20)
  decide

/-- With the largest bound a text arrives empty. -/
theorem largest_bound_loses :
    serverToClient.Within (dispatchBound (2 ^ 62)) (.text "hi") ∧
      dispatchIncoming hiZlib (2 ^ 62) (writerTransform hiZlib (.text "hi") true) =
        .envelope "" none ∧
      dispatchIncoming hiZlib (2 ^ 62) (writerTransform hiZlib (.text "hi") false) =
        .envelope "hi" none := by
  refine ⟨?_, ?_, ?_⟩
  · show (utf8Bytes "hi").length ≤ dispatchBound (2 ^ 62)
    decide
  · decide
  · decide

end Aperio
