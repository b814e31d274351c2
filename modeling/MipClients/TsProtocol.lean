import MipClients.Framing
import MipClients.Wire

/-! The TypeScript client's codec and decoding loop (`index.ts`): `buildHeader`, `parseHeader`,
`parseMessage`, `processFrame` and `handleData`, the last with listeners that neither throw nor call
the client, and a CLOSE frame recorded as a request instead of being acted on. -/
namespace MipClients
namespace Ts

open StreamDecoder
open Wire (FrameType Message Emission)

def magic : ℕ := 0x4d534950
def version : ℕ := 1
abbrev headerSize : ℕ := 24
def msgKindEvent : ℕ := 0x0001

structure FrameHeader where
  magic : ℕ
  version : ℕ
  flags : ℕ
  frameType : ℕ
  msgKind : ℕ
  payloadLength : ℕ
  msgId : ℕ
  deriving DecidableEq

abbrev MIPMessage := Message FrameHeader

structure MIPError where
  code : Option ℕ := none
  message : String
  raw : Option (List UInt8) := none
  deriving DecidableEq

/-- Only errors of the server carry the raw payload. -/
def MIPError.fault (error : MIPError) : Wire.Fault :=
  if error.raw.isSome then .server error.message.toList else .client

/-- `writeUInt8`, `writeUInt16BE` and `writeUInt32BE` throw a RangeError on a value that does not
fit. -/
def writeUInt (w n : ℕ) : Option (List UInt8) :=
  if n < 256 ^ w then some (BigEndian.bytes w n) else none

def writeBigUInt64BE (n : ℤ) : Option (List UInt8) :=
  if 0 ≤ n then writeUInt 8 n.toNat else none

/-- `sendClose` leaves the message id to `buildHeader`, which then generates it first. -/
def buildHeader (frameType payloadLength flags : ℕ) (msgId : ℤ) : Option (List UInt8) := do
  let magic ← writeUInt 4 magic
  let version ← writeUInt 1 version
  let flags ← writeUInt 1 flags
  let frameType ← writeUInt 2 frameType
  let msgKind ← writeUInt 2 msgKindEvent
  let reserved ← writeUInt 2 0
  let payloadLength ← writeUInt 4 payloadLength
  let msgId ← writeBigUInt64BE msgId
  return magic ++ version ++ flags ++ frameType ++ msgKind ++ reserved ++ payloadLength ++ msgId

/-- The frame `sendFrame` puts together once it has its message id. -/
def frameBytes (frameType : ℕ) (payload : List UInt8) (flags : ℕ) (msgId : ℤ) :
    Option (List UInt8) := do
  let header ← buildHeader frameType payload.length flags msgId
  return header ++ payload

def parseHeader (buffer : Vector UInt8 headerSize) : FrameHeader where
  magic := BigEndian.field buffer.toList 0 4
  version := BigEndian.field buffer.toList 4 1
  flags := BigEndian.field buffer.toList 5 1
  frameType := BigEndian.field buffer.toList 6 2
  msgKind := BigEndian.field buffer.toList 8 2
  payloadLength := BigEndian.field buffer.toList 12 4
  msgId := BigEndian.field buffer.toList 16 8

def parseMessage (header : FrameHeader) (payload : List UInt8) : Option MIPMessage :=
  if payload.length < 2 then none
  else
    let topicLength := BigEndian.field payload 0 2
    if payload.length < 2 + topicLength then none
    else some {
      header := header
      topic := Utf8.decodeLossy ((payload.drop 2).take topicLength)
      message := Utf8.decodeLossy (payload.drop (2 + topicLength)) }

def processFrame (header : FrameHeader) (payload : List UInt8) :
    List (Emission FrameHeader MIPError) :=
  .frame header payload ::
    if header.frameType = FrameType.event.code ∨ header.frameType = FrameType.publish.code then
      match parseMessage header payload with
      | some msg =>
        (if header.frameType = FrameType.event.code then [.event msg] else []) ++ [.message msg]
      | none => []
    else if header.frameType = FrameType.ack.code then [.ack header.msgId]
    else if header.frameType = FrameType.pong.code then [.pong]
    else if header.frameType = FrameType.error.code then
      [.error { message := String.ofList (Utf8.decodeLossy payload), raw := some payload }]
    else if header.frameType = FrameType.close.code then [.close]
    else []

/-- The loop of `handleData`: a wrong magic is reported and stays at the front of the buffer. -/
def framing : Framing UInt8 (Emission FrameHeader MIPError) where
  size := headerSize
  size_pos := by decide
  good header := BigEndian.field header.toList 0 4 = magic
  length header := BigEndian.field header.toList 12 4
  bad header := [.error
    { message := "Invalid magic number", code := some (BigEndian.field header.toList 0 4) }]
  keeps := true
  act header payload := .frame (processFrame (parseHeader header) payload)

/-- The chunks of one connection, handed to `handleData` one after the other. -/
def handleChunks (chunks : List (List UInt8)) : Result UInt8 (Emission FrameHeader MIPError) :=
  feed framing.decoder [] chunks

def FrameHeader.info (h : FrameHeader) : Wire.FrameInfo :=
  ⟨h.frameType,h.flags,h.msgKind,h.payloadLength,h.msgId⟩

theorem parseMessage_eq (header : FrameHeader) (payload : List UInt8) :
    parseMessage header payload = (Wire.splitPayload payload).map fun p =>
      ⟨header,Utf8.decodeLossy p.1,Utf8.decodeLossy p.2⟩ := by
  unfold parseMessage Wire.splitPayload
  dsimp only
  split_ifs <;> rfl

/-! Frames within the range of the header fields. -/

def headerOf (f : Wire.Frame) : FrameHeader :=
  ⟨magic,version,f.flags,f.frameType.code,msgKindEvent,f.payload.length,f.msgId⟩

theorem writeUInt_of_lt {w n : ℕ} (h : n < 256 ^ w) : writeUInt w n = some (BigEndian.bytes w n) :=
  if_pos h

@[simp] theorem writeUInt_eq_some_iff {w n : ℕ} {bs : List UInt8} :
    writeUInt w n = some bs ↔ n < 256 ^ w ∧ BigEndian.bytes w n = bs := by
  simp [writeUInt]

theorem writeBigUInt64BE_of_lt {n : ℕ} (h : n < 2 ^ 64) :
    writeBigUInt64BE n = some (BigEndian.bytes 8 n) := by
  rw [writeBigUInt64BE,if_pos (Int.natCast_nonneg n)]
  exact writeUInt_of_lt h

theorem frameBytes_eq (f : Wire.Frame) :
    frameBytes f.frameType.code f.payload f.flags f.msgId = some f.bytes := by
  have hf := f.flags_lt
  have hmagic : BigEndian.bytes 4 magic = Wire.magicBytes := by decide
  have hversion : BigEndian.bytes 1 version = [1] := by decide
  have hflags : BigEndian.bytes 1 f.flags = [UInt8.ofNat f.flags] := rfl
  simp only [frameBytes,buildHeader]
  rw [writeUInt_of_lt (by decide),writeUInt_of_lt (by decide),writeUInt_of_lt (by omega),
    writeUInt_of_lt f.frameType.code_lt,writeUInt_of_lt (by decide),writeUInt_of_lt (by decide),
    writeUInt_of_lt f.payload_lt,writeBigUInt64BE_of_lt f.msgId_lt,hmagic,hversion,hflags]
  simp [Wire.Frame.bytes,Wire.headerBytes,Wire.eventKind,msgKindEvent]

theorem field_frameBytes {frameType : ℕ} {payload : List UInt8} {flags : ℕ} {msgId : ℤ}
    {bytes : List UInt8} (h : frameBytes frameType payload flags msgId = some bytes) :
    BigEndian.field bytes 6 2 = frameType := by
  simp only [frameBytes,buildHeader,Option.bind_eq_bind,Option.bind_eq_some_iff,
    writeUInt_eq_some_iff,Option.pure_def,Option.some.injEq] at h
  obtain ⟨header,⟨magic,⟨-,rfl⟩,version,⟨-,rfl⟩,flags,⟨-,rfl⟩,frameType,⟨hlt,rfl⟩,rest⟩,rfl⟩ := h
  obtain ⟨msgKind,-,reserved,-,payloadLength,-,msgId,-,rfl⟩ := rest
  simp only [List.append_assoc]
  rw [← List.append_assoc,← List.append_assoc]
  exact BigEndian.field_bytes (by simp) hlt

theorem length_lt_of_frameBytes {frameType : ℕ} {payload : List UInt8} {flags : ℕ} {msgId : ℤ}
    {bytes : List UInt8} (h : frameBytes frameType payload flags msgId = some bytes) :
    payload.length < 2 ^ 32 := by
  simp only [frameBytes,buildHeader,Option.bind_eq_bind,Option.bind_eq_some_iff,
    writeUInt_eq_some_iff] at h
  obtain ⟨header,⟨-,-,-,-,-,-,-,-,-,-,-,-,payloadLength,⟨hlt,-⟩,-⟩,-⟩ := h
  exact hlt

@[simp] theorem parseHeader_header (f : Wire.Frame) : parseHeader f.header = headerOf f := by
  have hf := f.flags_lt
  simp only [parseHeader,f.header_toList,headerOf]
  rw [Wire.field_magic,Wire.field_version,Wire.field_flags _ (by omega),
    Wire.field_frameType _ f.frameType.code_lt,Wire.field_msgKind _ (by decide),
    Wire.field_payloadLength _ f.payload_lt,Wire.field_msgId _ f.msgId_lt]
  rfl

theorem good_header (f : Wire.Frame) : framing.good f.header = true := by
  simp only [framing,f.header_toList,Wire.field_magic]
  rfl

theorem length_header (f : Wire.Frame) : framing.length f.header = f.payload.length := by
  simp only [framing,f.header_toList]
  exact Wire.field_payloadLength _ f.payload_lt

theorem act_header (f : Wire.Frame) :
    framing.act f.header f.payload = .frame (processFrame (headerOf f) f.payload) := by
  simp only [framing,parseHeader_header]

theorem processFrame_calls (f : Wire.Frame) (hclose : f.frameType ≠ .close) (htext : f.TextValid) :
    (processFrame (headerOf f) f.payload).map (Emission.map FrameHeader.info MIPError.fault) =
      f.calls := by
  have hinfo : (headerOf f).info = f.info := rfl
  have hid : (headerOf f).msgId = f.msgId := rfl
  have htype : (headerOf f).frameType = f.frameType.code := rfl
  unfold Wire.Frame.TextValid at htext
  unfold processFrame Wire.Frame.calls
  rw [htype]
  cases ht : f.frameType <;> simp only [ht] at htext hclose ⊢ <;>
    simp only [Wire.FrameType.code]
  case event | publish =>
    rw [parseMessage_eq]
    cases hs : Wire.splitPayload f.payload with
    | none => simp [Emission.map,hinfo,Wire.Frame.message?,hs]
    | some p =>
      have hv := htext p.1 p.2 hs
      simp [Emission.map,Wire.Message.map,hinfo,Wire.Frame.message?,hs,hv.1.decodeLossy_eq,
        hv.2.decodeLossy_eq]
  case error => simp [Emission.map,hinfo,MIPError.fault,htext.decodeLossy_eq]
  all_goals simp_all [Emission.map]

end Ts
end MipClients
