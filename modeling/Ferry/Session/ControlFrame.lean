import Ferry.Base.Framing
import Ferry.Base.Utf8
import Ferry.Service.Message
import Ferry.Transfer.FrameCodec

/-!
# Control frames

`FerryEnvelope`, `encode_frame` and `decode_frame`, and `_send_plain` and `_recv_plain`, which carry the
handshake.  `json.dumps` and `json.loads` are parameters.
-/

namespace Ferry.Protocol

open Text

/-- `json.dumps` of a dictionary and `json.loads`. -/
structure JsonCodec where
  dumps : Payload → Text
  loads : Text → Except PyError JsonValue

def magicBytes : Bytes := [0x46, 0x59]
def maxControlFrameSize : ℕ := 1048576
def protocolVersion : ℤ := 1

/-- `FerryEnvelope`: nothing checks the types of its fields. -/
structure FerryEnvelope where
  type : JsonValue
  payload : JsonValue
  protocolVersion : JsonValue
  messageId : JsonValue
  replyTo : JsonValue
  timestamp : JsonValue

/-- What the functions raise. -/
inductive FrameError
  | encodeSurrogate
  | payloadLength (length : ℕ)
  | invalidMagic (magic : Bytes)
  | frameLength (length : ℕ)
  | invalidUtf8
  | envelope (e : PyError)
  | incompleteRead (read : Bytes) (expected : ℕ)
  deriving DecidableEq

namespace FerryEnvelope

def toDict (envelope : FerryEnvelope) : Payload :=
  [(lit "protocol_version", envelope.protocolVersion), (lit "message_id", envelope.messageId),
   (lit "reply_to", envelope.replyTo), (lit "timestamp", envelope.timestamp), (lit "type", envelope.type),
   (lit "payload", envelope.payload)]

/-- `from_dict`, where `fresh` is a new UUID and `now` the time in milliseconds. -/
def fromDict (fresh : Text) (now : ℤ) (data : Payload) : Except PyError FerryEnvelope := do
  let type ← require (.key (lit "type")) (data.get "type")
  return {
    protocolVersion := (data.get "protocol_version").getD (.int Protocol.protocolVersion)
    messageId := (data.get "message_id").getD (.str fresh)
    replyTo := (data.get "reply_to").getD .null
    timestamp := (data.get "timestamp").getD (.int now)
    type
    payload := (data.get "payload").getD (.obj [] (lit "\x7b\x7d")) }

def fromJson (json : JsonCodec) (fresh : Text) (now : ℤ) (text : Text) : Except PyError FerryEnvelope := do
  let data ← json.loads text
  fromDict fresh now (← data.fields)

theorem fromDict_toDict (fresh : Text) (now : ℤ) (envelope : FerryEnvelope) :
    fromDict fresh now envelope.toDict = .ok envelope := rfl

end FerryEnvelope

section

variable (json : JsonCodec) (fresh : Text) (now : ℤ)

def encodeFrame (envelope : FerryEnvelope) : Except FrameError Bytes := do
  let payload ← require .encodeSurrogate (utf8Encode (json.dumps envelope.toDict))
  rejectIf (maxControlFrameSize < payload.length) (.payloadLength payload.length)
  return magicBytes ++ toBigEndian 4 payload.length ++ payload

/-- Decode the payload of a frame. -/
def fromBytes (payload : Bytes) : Except FrameError FerryEnvelope := do
  let text ← require .invalidUtf8 (utf8Decode payload)
  (FerryEnvelope.fromJson json fresh now text).mapError .envelope

def decodeFrame : Decoder FrameError UInt8 FerryEnvelope := fun buffer ↦ do
  if buffer.length < 6 then
    return (none, 0)
  rejectIf (buffer.take 2 ≠ magicBytes) (.invalidMagic (buffer.take 2))
  let length := ofBigEndian ((buffer.drop 2).take 4)
  rejectIf (maxControlFrameSize < length) (.frameLength length)
  if buffer.length < 6 + length then
    return (none, 0)
  return (some (← fromBytes json fresh now ((buffer.drop 6).take length)), 6 + length)

/-- `StreamReader.readexactly`: the next `n` bytes of a stream, and the rest. -/
def readExactly (n : ℕ) (stream : Bytes) : Except FrameError (Bytes × Bytes) := do
  rejectIf (stream.length < n) (.incompleteRead stream n)
  return (stream.take n, stream.drop n)

/-- `_recv_plain` on the bytes that the peer sends until it closes. -/
def recvPlain (stream : Bytes) : Except FrameError (FerryEnvelope × Bytes) := do
  let (header, stream) ← readExactly 6 stream
  rejectIf (header.take 2 ≠ magicBytes) (.invalidMagic (header.take 2))
  let length := ofBigEndian ((header.drop 2).take 4)
  rejectIf (maxControlFrameSize < length) (.frameLength length)
  let (payload, stream) ← readExactly length stream
  return (← fromBytes json fresh now payload, stream)

end

/-! ## The layout of a frame -/

def layoutControl (payload : Bytes) : Bytes := magicBytes ++ toBigEndian 4 payload.length ++ payload

section Layout

variable (payload rest : Bytes)

theorem length_layoutControl : (layoutControl payload).length = 6 + payload.length := by
  rw [layoutControl, List.length_append, List.length_append, length_toBigEndian]
  rfl

theorem take_layoutControl : (layoutControl payload ++ rest).take 2 = magicBytes := rfl

theorem lengthField_layoutControl (h : payload.length ≤ maxControlFrameSize) :
    ofBigEndian (((layoutControl payload ++ rest).drop 2).take 4) = payload.length := by
  have hfield : ((layoutControl payload ++ rest).drop 2).take 4 = toBigEndian 4 payload.length := by
    rw [layoutControl, List.append_assoc, List.append_assoc]
    exact List.take_left' (length_toBigEndian 4 _)
  rw [hfield, ofBigEndian_toBigEndian]
  exact lt_of_le_of_lt h (by decide)

theorem drop_layoutControl : (layoutControl payload ++ rest).drop 6 = payload ++ rest := by
  rw [layoutControl, List.append_assoc]
  refine List.drop_left' ?_
  rw [List.length_append, length_toBigEndian]
  rfl

end Layout

variable {json : JsonCodec} {envelope : FerryEnvelope} {frame : Bytes}

theorem encodeFrame_eq_ok : encodeFrame json envelope = .ok frame ↔
    ∃ payload, utf8Encode (json.dumps envelope.toDict) = some payload ∧
      payload.length ≤ maxControlFrameSize ∧ frame = layoutControl payload := by
  unfold encodeFrame
  simp only [bind_eq_ok, require_eq_ok, rejectIf_eq_ok, not_lt]
  constructor
  · rintro ⟨payload, hpayload, -, hlimit, hframe⟩
    exact ⟨payload, hpayload, hlimit, (Except.ok.inj hframe).symm⟩
  · rintro ⟨payload, hpayload, hlimit, rfl⟩
    exact ⟨payload, hpayload, (), hlimit, rfl⟩

/-- `json.loads` undoes `json.dumps` on the dictionary of an envelope. -/
def JsonCodec.Undoes (json : JsonCodec) (envelope : FerryEnvelope) : Prop :=
  ∃ text, json.loads (json.dumps envelope.toDict) = .ok (.obj envelope.toDict text)

section Decoding

variable {fresh : Text} {now : ℤ} (hjson : json.Undoes envelope)
include hjson

theorem fromBytes_eq_ok {payload : Bytes}
    (hpayload : utf8Encode (json.dumps envelope.toDict) = some payload) :
    fromBytes json fresh now payload = .ok envelope := by
  obtain ⟨text, hloads⟩ := hjson
  unfold fromBytes FerryEnvelope.fromJson
  simp only [bind_eq_ok, require_eq_ok, mapError_eq_ok]
  exact ⟨_, utf8Decode_of_utf8Encode hpayload, _, hloads, _, rfl, FerryEnvelope.fromDict_toDict _ _ _⟩

variable (hframe : encodeFrame json envelope = .ok frame)
include hframe

/-- A frame is decoded at the front of any buffer that holds it, and waited for before. -/
theorem isFrame_encodeFrame : (decodeFrame json fresh now).IsFrame frame envelope := by
  obtain ⟨payload, hpayload, hlimit, rfl⟩ := encodeFrame_eq_ok.mp hframe
  have hlength := length_layoutControl payload
  refine ⟨?_, fun rest ↦ ?_, fun part hpart hne ↦ ?_⟩
  · intro hnil
    rw [hnil, List.length_nil] at hlength
    omega
  · have hheader : ¬(layoutControl payload ++ rest).length < 6 := by
      rw [List.length_append, hlength]
      omega
    have hwhole : ¬(layoutControl payload ++ rest).length < 6 + payload.length := by
      rw [List.length_append, hlength]
      omega
    unfold decodeFrame
    simp only [lengthField_layoutControl payload rest hlimit, take_layoutControl, drop_layoutControl,
      List.take_left, fromBytes_eq_ok hjson hpayload, if_neg hheader, if_neg hwhole, hlength, rejectIf,
      ne_eq, not_true_eq_false, if_false, if_neg (not_lt.mpr hlimit), bind, Except.bind, pure, Except.pure]
  · obtain ⟨tail, htail⟩ := hpart
    have hshort : part.length < 6 + payload.length := by
      have htailed : tail ≠ [] := by
        rintro rfl
        exact hne (by rw [← htail, List.append_nil])
      have hpos := List.length_pos_iff.mpr htailed
      rw [← hlength, ← htail, List.length_append]
      omega
    unfold decodeFrame
    by_cases hheader : part.length < 6
    · rw [if_pos hheader]
      rfl
    · have hmagic : part.take 2 = magicBytes := by
        rw [← take_layoutControl payload [], List.append_nil, ← htail,
          List.take_append_of_le_length (by omega)]
      have hfield : ofBigEndian ((part.drop 2).take 4) = payload.length := by
        rw [← lengthField_layoutControl payload [] hlimit, List.append_nil, ← htail,
          List.drop_append_of_le_length (by omega),
          List.take_append_of_le_length (by rw [List.length_drop]; omega)]
      simp only [hmagic, hfield, if_neg hheader, if_pos hshort, rejectIf, ne_eq, not_true_eq_false, if_false,
        if_neg (not_lt.mpr hlimit), bind, Except.bind, pure, Except.pure]

/-- `_recv_plain` takes a frame from the front of the stream. -/
theorem recvPlain_encodeFrame (rest : Bytes) :
    recvPlain json fresh now (frame ++ rest) = .ok (envelope, rest) := by
  obtain ⟨payload, hpayload, hlimit, rfl⟩ := encodeFrame_eq_ok.mp hframe
  have hlength := length_layoutControl payload
  have hheader : readExactly 6 (layoutControl payload ++ rest) =
      .ok ((layoutControl payload ++ rest).take 6, payload ++ rest) := by
    have hlong : ¬(layoutControl payload ++ rest).length < 6 := by
      rw [List.length_append, hlength]
      omega
    rw [readExactly, rejectIf, if_neg hlong, drop_layoutControl]
    rfl
  have hpayloadRead : readExactly payload.length (payload ++ rest) = .ok (payload, rest) := by
    have hlong : ¬(payload ++ rest).length < payload.length := by
      rw [List.length_append]
      omega
    rw [readExactly, rejectIf, if_neg hlong, List.take_left, List.drop_left]
    rfl
  have hmagic : ((layoutControl payload ++ rest).take 6).take 2 = magicBytes := rfl
  have hfield : ofBigEndian ((((layoutControl payload ++ rest).take 6).drop 2).take 4) =
      payload.length := by
    rw [← lengthField_layoutControl payload rest hlimit, List.drop_take, List.take_take]
    rfl
  unfold recvPlain
  simp only [hheader, hmagic, hfield, hpayloadRead, fromBytes_eq_ok hjson hpayload, rejectIf, ne_eq,
    not_true_eq_false, if_false, if_neg (not_lt.mpr hlimit), bind, Except.bind, pure, Except.pure]

end Decoding

/-! ## Streams of frames -/

theorem forall₂_of_mapM {envelopes : List FerryEnvelope} {frames : List Bytes}
    (hframes : envelopes.mapM (encodeFrame json) = .ok frames) {R : Bytes → FerryEnvelope → Prop}
    (h : ∀ envelope ∈ envelopes, ∀ frame, encodeFrame json envelope = .ok frame → R frame envelope) :
    List.Forall₂ R frames envelopes := by
  induction envelopes generalizing frames with
  | nil =>
    obtain rfl := Except.ok.inj hframes
    exact .nil
  | cons envelope envelopes ih =>
    rw [List.mapM_cons] at hframes
    obtain ⟨frame, hframe, hrest⟩ := bind_eq_ok.mp hframes
    obtain ⟨later, hlater, hconcat⟩ := bind_eq_ok.mp hrest
    obtain rfl := Except.ok.inj hconcat
    exact .cons (h envelope List.mem_cons_self frame hframe)
      (ih hlater fun e he ↦ h e (List.mem_cons_of_mem envelope he))

/-- Frames within the limit are decoded whole and only whole; a buffer that is filled by reads of any
sizes yields the envelopes of the stream in order, and so does `_recv_plain`, which then waits for the
header of the next frame. -/
theorem control_frame_codec (json : JsonCodec) (fresh : Text) (now : ℤ) (envelopes : List FerryEnvelope)
    (frames : List Bytes) (hjson : ∀ envelope ∈ envelopes, json.Undoes envelope)
    (hframes : envelopes.mapM (encodeFrame json) = .ok frames) :
    (∀ envelope ∈ envelopes, ∀ frame, encodeFrame json envelope = .ok frame →
      (∀ rest, decodeFrame json fresh now (frame ++ rest) = .ok (some envelope, frame.length)) ∧
        ∀ part, part <+: frame → part ≠ frame → decodeFrame json fresh now part = .ok (none, 0)) ∧
      (∀ reads : List Bytes, reads.flatten = frames.flatten →
        (decodeFrame json fresh now).feed [] reads = .ok (envelopes, [])) ∧
      readUntilError (recvPlain json fresh now) (envelopes.length + 1) frames.flatten =
        (envelopes, some (.incompleteRead [] 6)) := by
  have hframe (envelope) (hmem : envelope ∈ envelopes) (frame)
      (hencoded : encodeFrame json envelope = .ok frame) :
      (decodeFrame json fresh now).IsFrame frame envelope :=
    isFrame_encodeFrame (hjson envelope hmem) hencoded
  refine ⟨fun envelope hmem frame hencoded ↦ ?_, fun reads hreads ↦ ?_, ?_⟩
  · have h := hframe envelope hmem frame hencoded
    exact ⟨h.whole, h.cut⟩
  · exact Decoder.feed_flatten rfl (forall₂_of_mapM hframes hframe) rfl hreads
  · have hend : recvPlain json fresh now [] = .error (.incompleteRead [] 6) := rfl
    exact readUntilError_flatten hend (forall₂_of_mapM hframes fun envelope hmem frame hencoded rest ↦
      recvPlain_encodeFrame (hjson envelope hmem) hencoded rest) (Nat.lt_succ_self _)

/-- A cancel message, and a codec that knows it. -/
def sampleEnvelope : FerryEnvelope where
  type := .str (lit "TRANSFER_CANCEL")
  payload := .obj [] (lit "\x7b\x7d")
  protocolVersion := .int 1
  messageId := .str (lit "m")
  replyTo := .null
  timestamp := .int 0

def sampleJson : Text :=
  lit "\x7b\"protocol_version\": 1, \"message_id\": \"m\", \"reply_to\": null, \"timestamp\": 0, " ++
    lit "\"type\": \"TRANSFER_CANCEL\", \"payload\": \x7b\x7d\x7d"

/-- `str` of the dictionary. -/
def sampleRepr : Text :=
  lit "\x7b'protocol_version': 1, 'message_id': 'm', 'reply_to': None, 'timestamp': 0, " ++
    lit "'type': 'TRANSFER_CANCEL', 'payload': \x7b\x7d\x7d"

def sampleCodec : JsonCodec where
  dumps := fun _ ↦ sampleJson
  loads := fun text ↦ if text = sampleJson then .ok (.obj sampleEnvelope.toDict sampleRepr) else .error .type

def sampleFrame : Bytes := layoutControl ((utf8Encode sampleJson).getD [])

/-- Two frames in two reads, the first of which ends within the length of the first frame. -/
theorem control_frame_codec_sample :
    (decodeFrame sampleCodec [] 0).feed []
        [sampleFrame.take 4, sampleFrame.drop 4 ++ sampleFrame] =
      .ok ([sampleEnvelope, sampleEnvelope], []) := by
  have hjson : ∀ envelope ∈ [sampleEnvelope, sampleEnvelope], sampleCodec.Undoes envelope := by
    intro envelope hmem
    rw [List.mem_cons, List.mem_singleton, or_self] at hmem
    subst envelope
    exact ⟨sampleRepr, by simp [sampleCodec]⟩
  have hframes : [sampleEnvelope, sampleEnvelope].mapM (encodeFrame sampleCodec) =
      .ok [sampleFrame, sampleFrame] := by decide +kernel
  refine (control_frame_codec sampleCodec [] 0 _ _ hjson hframes).2.1 _ ?_
  rw [List.flatten_cons, List.flatten_cons, List.flatten_nil, List.append_nil, ← List.append_assoc,
    List.take_append_drop, List.flatten_cons, List.flatten_cons, List.flatten_nil, List.append_nil]

end Ferry.Protocol
