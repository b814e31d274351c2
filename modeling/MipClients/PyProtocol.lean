import MipClients.Framing
import MipClients.Wire

/-! The Python client's codec and decoding loop (`mip_client/__init__.py`): `_build_header`,
`_parse_header`, `_parse_message`, `_process_frame` and `_handle_data`, with callbacks that neither
raise nor call the client, and a CLOSE frame recorded as a request (the code creates a task). -/
namespace MipClients
namespace Py

open StreamDecoder
open Wire (FrameType Message Emission)

def magic : ℕ := 0x4D534950
def version : ℕ := 1
abbrev headerSize : ℕ := 24
def msgKindEvent : ℕ := 0x0001

structure FrameHeader where
  magic : ℕ
  version : ℕ
  flags : ℕ
  frameType : FrameType
  msgKind : ℕ
  payloadLength : ℕ
  msgId : ℕ
  deriving DecidableEq

abbrev MIPMessage := Message FrameHeader

structure MIPError where
  message : String
  code : Option ℕ := none
  raw : Option (List UInt8) := none
  deriving DecidableEq

/-- Only errors of the server carry the raw payload. -/
def MIPError.fault (error : MIPError) : Wire.Fault :=
  if error.raw.isSome then .server error.message.toList else .client

/-- The exceptions that received bytes can raise. -/
inductive Raised
  | valueError
  | unicodeDecodeError
  deriving DecidableEq

/-- One integer of `struct.pack`, which raises on a value that does not fit. -/
def pack (w n : ℕ) : Option (List UInt8) :=
  if n < 256 ^ w then some (BigEndian.bytes w n) else none

/-- The `Q` of the header format. -/
def packId (n : ℤ) : Option (List UInt8) := if 0 ≤ n then pack 8 n.toNat else none

/-- `_send_close` leaves the message id to `_build_header`, which then generates it first. -/
def buildHeader (frameType payloadLength flags : ℕ) (msgId : ℤ) : Option (List UInt8) := do
  let magic ← pack 4 magic
  let version ← pack 1 version
  let flags ← pack 1 flags
  let frameType ← pack 2 frameType
  let msgKind ← pack 2 msgKindEvent
  let reserved ← pack 2 0
  let payloadLength ← pack 4 payloadLength
  let msgId ← packId msgId
  return magic ++ version ++ flags ++ frameType ++ msgKind ++ reserved ++ payloadLength ++ msgId

/-- The frame `_send_frame` puts together once it has its message id. -/
def frameBytes (frameType : ℕ) (payload : List UInt8) (flags : ℕ) (msgId : ℤ) :
    Option (List UInt8) := do
  let header ← buildHeader frameType payload.length flags msgId
  return header ++ payload

/-- `FrameType(frame_type)` raises on a number that is none of its members. -/
def parseHeader (buffer : Vector UInt8 headerSize) : Except Raised FrameHeader :=
  match FrameType.ofCode (BigEndian.field buffer.toList 6 2) with
  | none => .error .valueError
  | some frameType => .ok {
      magic := BigEndian.field buffer.toList 0 4
      version := BigEndian.field buffer.toList 4 1
      flags := BigEndian.field buffer.toList 5 1
      frameType := frameType
      msgKind := BigEndian.field buffer.toList 8 2
      payloadLength := BigEndian.field buffer.toList 12 4
      msgId := BigEndian.field buffer.toList 16 8 }

/-- `bytes.decode("utf-8")`. -/
def decode (bytes : List UInt8) : Except Raised Utf8.Text :=
  match Utf8.decodeStrict bytes with
  | none => .error .unicodeDecodeError
  | some text => .ok text

def parseMessage (header : FrameHeader) (payload : List UInt8) :
    Except Raised (Option MIPMessage) :=
  if payload.length < 2 then .ok none
  else
    let topicLength := BigEndian.field payload 0 2
    if payload.length < 2 + topicLength then .ok none
    else do
      let topic ← decode ((payload.drop 2).take topicLength)
      let message ← decode (payload.drop (2 + topicLength))
      return some { header := header, topic := topic, message := message }

/-- The callbacks after the raw frame one, unless an exception comes first. -/
def dispatch (header : FrameHeader) (payload : List UInt8) :
    Except Raised (List (Emission FrameHeader MIPError)) :=
  match header.frameType with
  | .event | .publish => do
    match ← parseMessage header payload with
    | some msg => return (if header.frameType = .event then [.event msg] else []) ++ [.message msg]
    | none => return []
  | .ack => .ok [.ack header.msgId]
  | .pong => .ok [.pong]
  | .error => do
    let errorMsg ← decode payload
    return [.error { message := String.ofList errorMsg, raw := some payload }]
  | .close => .ok [.close]
  | _ => .ok []

/-- `_process_frame`: the frame callback, then the rest; an exception leaves the frame in the
buffer. -/
def processFrame (header : FrameHeader) (payload : List UInt8) :
    Act (Emission FrameHeader MIPError) :=
  match dispatch header payload with
  | .error _ => .fail [.frame header payload]
  | .ok out => .frame (.frame header payload :: out)

/-- The loop of `_handle_data`: a wrong magic is reported and stays at the front of the buffer. -/
def framing : Framing UInt8 (Emission FrameHeader MIPError) where
  size := headerSize
  size_pos := by decide
  good header := BigEndian.field header.toList 0 4 = magic
  length header := BigEndian.field header.toList 12 4
  bad header := [.error
    { message := "Invalid magic number", code := some (BigEndian.field header.toList 0 4) }]
  keeps := true
  act header payload := match parseHeader header with
    | .error _ => .fail []
    | .ok header => processFrame header payload

/-- The chunks of one connection, handed to `_handle_data` one after the other until the first
exception ends the read loop. -/
def handleChunks (chunks : List (List UInt8)) : Result UInt8 (Emission FrameHeader MIPError) :=
  feed framing.decoder [] chunks

def FrameHeader.info (h : FrameHeader) : Wire.FrameInfo :=
  ⟨h.frameType.code,h.flags,h.msgKind,h.payloadLength,h.msgId⟩

theorem parseMessage_eq (header : FrameHeader) (payload : List UInt8) :
    parseMessage header payload = match Wire.splitPayload payload with
      | none => .ok none
      | some p => do
        let topic ← decode p.1
        let message ← decode p.2
        return some ⟨header,topic,message⟩ := by
  unfold parseMessage Wire.splitPayload
  dsimp only
  split_ifs <;> rfl

/-! Frames within the range of the header fields. -/

def headerOf (f : Wire.Frame) : FrameHeader :=
  ⟨magic,version,f.flags,f.frameType,msgKindEvent,f.payload.length,f.msgId⟩

theorem pack_of_lt {w n : ℕ} (h : n < 256 ^ w) : pack w n = some (BigEndian.bytes w n) := if_pos h

@[simp] theorem pack_eq_some_iff {w n : ℕ} {bs : List UInt8} :
    pack w n = some bs ↔ n < 256 ^ w ∧ BigEndian.bytes w n = bs := by
  simp [pack]

theorem packId_of_lt {n : ℕ} (h : n < 2 ^ 64) : packId n = some (BigEndian.bytes 8 n) := by
  rw [packId,if_pos (Int.natCast_nonneg n)]
  exact pack_of_lt h

theorem frameBytes_eq (f : Wire.Frame) :
    frameBytes f.frameType.code f.payload f.flags f.msgId = some f.bytes := by
  have hf := f.flags_lt
  have hmagic : BigEndian.bytes 4 magic = Wire.magicBytes := by decide
  have hversion : BigEndian.bytes 1 version = [1] := by decide
  have hflags : BigEndian.bytes 1 f.flags = [UInt8.ofNat f.flags] := rfl
  simp only [frameBytes,buildHeader]
  rw [pack_of_lt (by decide),pack_of_lt (by decide),pack_of_lt (by omega),
    pack_of_lt f.frameType.code_lt,pack_of_lt (by decide),pack_of_lt (by decide),
    pack_of_lt f.payload_lt,packId_of_lt f.msgId_lt,hmagic,hversion,hflags]
  simp [Wire.Frame.bytes,Wire.headerBytes,Wire.eventKind,msgKindEvent]

theorem field_frameBytes {frameType : ℕ} {payload : List UInt8} {flags : ℕ} {msgId : ℤ}
    {bytes : List UInt8} (h : frameBytes frameType payload flags msgId = some bytes) :
    BigEndian.field bytes 6 2 = frameType := by
  simp only [frameBytes,buildHeader,Option.bind_eq_bind,Option.bind_eq_some_iff,
    pack_eq_some_iff,Option.pure_def,Option.some.injEq] at h
  obtain ⟨header,⟨magic,⟨-,rfl⟩,version,⟨-,rfl⟩,flags,⟨-,rfl⟩,frameType,⟨hlt,rfl⟩,rest⟩,rfl⟩ := h
  obtain ⟨msgKind,-,reserved,-,payloadLength,-,msgId,-,rfl⟩ := rest
  simp only [List.append_assoc]
  rw [← List.append_assoc,← List.append_assoc]
  exact BigEndian.field_bytes (by simp) hlt

theorem length_lt_of_frameBytes {frameType : ℕ} {payload : List UInt8} {flags : ℕ} {msgId : ℤ}
    {bytes : List UInt8} (h : frameBytes frameType payload flags msgId = some bytes) :
    payload.length < 2 ^ 32 := by
  simp only [frameBytes,buildHeader,Option.bind_eq_bind,Option.bind_eq_some_iff,
    pack_eq_some_iff] at h
  obtain ⟨header,⟨-,-,-,-,-,-,-,-,-,-,-,-,payloadLength,⟨hlt,-⟩,-⟩,-⟩ := h
  exact hlt

@[simp] theorem parseHeader_header (f : Wire.Frame) : parseHeader f.header = .ok (headerOf f) := by
  have hf := f.flags_lt
  simp only [parseHeader,f.header_toList,headerOf]
  rw [Wire.field_magic,Wire.field_version,Wire.field_flags _ (by omega),
    Wire.field_frameType _ f.frameType.code_lt,Wire.field_msgKind _ (by decide),
    Wire.field_payloadLength _ f.payload_lt,Wire.field_msgId _ f.msgId_lt,
    FrameType.ofCode_code]
  rfl

theorem good_header (f : Wire.Frame) : framing.good f.header = true := by
  simp only [framing,f.header_toList,Wire.field_magic]
  rfl

theorem length_header (f : Wire.Frame) : framing.length f.header = f.payload.length := by
  simp only [framing,f.header_toList]
  exact Wire.field_payloadLength _ f.payload_lt

theorem act_header (f : Wire.Frame) :
    framing.act f.header f.payload = processFrame (headerOf f) f.payload := by
  simp only [framing,parseHeader_header]

theorem processFrame_calls (f : Wire.Frame) (hclose : f.frameType ≠ .close) (htext : f.TextValid) :
    ∃ out, processFrame (headerOf f) f.payload = .frame out ∧
      out.map (Emission.map FrameHeader.info MIPError.fault) = f.calls := by
  have hinfo : (headerOf f).info = f.info := rfl
  have hid : (headerOf f).msgId = f.msgId := rfl
  have htype : (headerOf f).frameType = f.frameType := rfl
  unfold Wire.Frame.TextValid at htext
  unfold processFrame dispatch Wire.Frame.calls
  rw [htype]
  cases ht : f.frameType <;> simp only [ht] at htext hclose ⊢
  case event | publish =>
    rw [parseMessage_eq]
    cases hs : Wire.splitPayload f.payload with
    | none =>
      refine ⟨_,rfl,?_⟩
      simp [Emission.map,hinfo,Wire.Frame.message?,hs]
    | some p =>
      have hv := htext p.1 p.2 hs
      simp only [decode,hv.1.decodeStrict_eq,hv.2.decodeStrict_eq]
      refine ⟨_,rfl,?_⟩
      simp [Emission.map,Wire.Message.map,hinfo,Wire.Frame.message?,hs]
  case error =>
    simp only [decode,htext.decodeStrict_eq]
    refine ⟨_,rfl,?_⟩
    simp [Emission.map,hinfo,MIPError.fault]
  all_goals simp_all [Emission.map]

end Py
end MipClients
