import MipClients.BigEndian
import MipClients.Utf8

/-! The MSIP wire format as the three clients share it: frame and message kinds, the 24-byte header
layout, the topic/message payload, and what a received frame calls for. Nothing here is executed by
a client; the client modules are compared with it. -/
namespace MipClients
namespace Wire

open Utf8 (Text)

abbrev headerSize : ℕ := 24

def magicBytes : List UInt8 := [0x4D,0x53,0x49,0x50]

inductive FrameType
  | hello | subscribe | unsubscribe | publish | event | ack | error | ping | pong | close
  deriving DecidableEq, Repr

def FrameType.code : FrameType → ℕ
  | .hello => 0x0001
  | .subscribe => 0x0002
  | .unsubscribe => 0x0003
  | .publish => 0x0004
  | .event => 0x0005
  | .ack => 0x0006
  | .error => 0x0007
  | .ping => 0x0008
  | .pong => 0x0009
  | .close => 0x000A

def FrameType.ofCode : ℕ → Option FrameType
  | 0x0001 => some .hello
  | 0x0002 => some .subscribe
  | 0x0003 => some .unsubscribe
  | 0x0004 => some .publish
  | 0x0005 => some .event
  | 0x0006 => some .ack
  | 0x0007 => some .error
  | 0x0008 => some .ping
  | 0x0009 => some .pong
  | 0x000A => some .close
  | _ => none

@[simp] theorem FrameType.ofCode_code (t : FrameType) : FrameType.ofCode t.code = some t := by
  cases t <;> rfl

theorem FrameType.code_of_ofCode {n : ℕ} {t : FrameType} (h : FrameType.ofCode n = some t) :
    t.code = n := by
  unfold FrameType.ofCode at h
  split at h <;> cases h <;> rfl

theorem FrameType.ofCode_eq_none_iff (n : ℕ) :
    FrameType.ofCode n = none ↔ ¬(1 ≤ n ∧ n ≤ 10) := by
  unfold FrameType.ofCode
  split <;> grind

theorem FrameType.code_lt (t : FrameType) : t.code < 256 ^ 2 := by
  cases t <;> decide

/-- The only message kind the clients send. -/
def eventKind : ℕ := 0x0001

/-- A frame a client may be asked to send: its flags are made of the three defined bits, and its
length and id fit their header fields. -/
structure Frame where
  frameType : FrameType
  flags : ℕ
  msgId : ℕ
  payload : List UInt8
  flags_lt : flags < 8
  msgId_lt : msgId < 2 ^ 64
  payload_lt : payload.length < 2 ^ 32

/-- Magic, version, flags, frame type, message kind, reserved, payload length, message id. -/
def headerBytes (frameType flags msgKind payloadLength msgId : ℕ) : List UInt8 :=
  magicBytes ++ ([1,UInt8.ofNat flags] ++ (BigEndian.bytes 2 frameType ++
    (BigEndian.bytes 2 msgKind ++ (BigEndian.bytes 2 0 ++
      (BigEndian.bytes 4 payloadLength ++ BigEndian.bytes 8 msgId)))))

def Frame.bytes (f : Frame) : List UInt8 :=
  headerBytes f.frameType.code f.flags eventKind f.payload.length f.msgId ++ f.payload

@[simp] theorem length_headerBytes (t f k l i : ℕ) :
    (headerBytes t f k l i).length = headerSize := by
  simp [headerBytes,magicBytes,headerSize]

def Frame.header (f : Frame) : Vector UInt8 headerSize :=
  ⟨(headerBytes f.frameType.code f.flags eventKind f.payload.length f.msgId).toArray,by simp⟩

@[simp] theorem Frame.header_toList (f : Frame) : f.header.toList =
    headerBytes f.frameType.code f.flags eventKind f.payload.length f.msgId ++ [] := by
  simp [Frame.header]

theorem Frame.bytes_eq (f : Frame) : f.bytes = f.header.toList ++ f.payload := by
  simp [Frame.bytes,Frame.header]

/-! Reading the fields of a header back, whatever follows it. -/

section HeaderFields

variable {t f k l i : ℕ} (rest : List UInt8)

@[simp] theorem take_magic : (headerBytes t f k l i ++ rest).take 4 = magicBytes := by
  simp [headerBytes,magicBytes]

@[simp] theorem field_magic : BigEndian.field (headerBytes t f k l i ++ rest) 0 4 = 0x4D534950 := by
  rw [BigEndian.field,List.drop_zero,take_magic]
  rfl

@[simp] theorem field_version : BigEndian.field (headerBytes t f k l i ++ rest) 4 1 = 1 := by
  simp [headerBytes,magicBytes,BigEndian.field,BigEndian.value]

theorem field_flags (h : f < 256) : BigEndian.field (headerBytes t f k l i ++ rest) 5 1 = f := by
  simp [headerBytes,magicBytes,BigEndian.field,BigEndian.value,Nat.mod_eq_of_lt h]

theorem field_frameType (h : t < 256 ^ 2) :
    BigEndian.field (headerBytes t f k l i ++ rest) 6 2 = t := by
  have hs : headerBytes t f k l i ++ rest = (magicBytes ++ [1,UInt8.ofNat f]) ++
      (BigEndian.bytes 2 t ++ (BigEndian.bytes 2 k ++ (BigEndian.bytes 2 0 ++
        (BigEndian.bytes 4 l ++ (BigEndian.bytes 8 i ++ rest))))) := by
    simp [headerBytes,List.append_assoc]
  rw [hs]
  exact BigEndian.field_bytes (by simp [magicBytes]) h

theorem field_msgKind (h : k < 256 ^ 2) :
    BigEndian.field (headerBytes t f k l i ++ rest) 8 2 = k := by
  have hs : headerBytes t f k l i ++ rest = (magicBytes ++ [1,UInt8.ofNat f] ++
      BigEndian.bytes 2 t) ++ (BigEndian.bytes 2 k ++ (BigEndian.bytes 2 0 ++
        (BigEndian.bytes 4 l ++ (BigEndian.bytes 8 i ++ rest)))) := by
    simp [headerBytes,List.append_assoc]
  rw [hs]
  exact BigEndian.field_bytes (by simp [magicBytes]) h

theorem field_payloadLength (h : l < 256 ^ 4) :
    BigEndian.field (headerBytes t f k l i ++ rest) 12 4 = l := by
  have hs : headerBytes t f k l i ++ rest = (magicBytes ++ [1,UInt8.ofNat f] ++
      BigEndian.bytes 2 t ++ BigEndian.bytes 2 k ++ BigEndian.bytes 2 0) ++
        (BigEndian.bytes 4 l ++ (BigEndian.bytes 8 i ++ rest)) := by
    simp [headerBytes,List.append_assoc]
  rw [hs]
  exact BigEndian.field_bytes (by simp [magicBytes]) h

theorem field_msgId (h : i < 256 ^ 8) :
    BigEndian.field (headerBytes t f k l i ++ rest) 16 8 = i := by
  have hs : headerBytes t f k l i ++ rest = (magicBytes ++ [1,UInt8.ofNat f] ++
      BigEndian.bytes 2 t ++ BigEndian.bytes 2 k ++ BigEndian.bytes 2 0 ++
        BigEndian.bytes 4 l) ++ (BigEndian.bytes 8 i ++ rest) := by
    simp [headerBytes,List.append_assoc]
  rw [hs]
  exact BigEndian.field_bytes (by simp [magicBytes]) h

end HeaderFields

/-- The topic and message bytes of an EVENT or PUBLISH payload. -/
def splitPayload (p : List UInt8) : Option (List UInt8 × List UInt8) :=
  if p.length < 2 then none
  else if p.length < 2 + BigEndian.field p 0 2 then none
  else some ((p.drop 2).take (BigEndian.field p 0 2),p.drop (2 + BigEndian.field p 0 2))

/-- A payload splits into a topic and a message exactly when it is the topic's 16-bit length,
the topic and the message, in this order. -/
theorem splitPayload_eq_some_iff (p t m : List UInt8) :
    splitPayload p = some (t,m) ↔
      t.length < 2 ^ 16 ∧ p = BigEndian.bytes 2 t.length ++ (t ++ m) := by
  unfold splitPayload
  constructor
  · intro h
    split_ifs at h with h1 h2
    simp only [Option.some.injEq,Prod.mk.injEq] at h
    obtain ⟨rfl,rfl⟩ := h
    have hlt : BigEndian.field p 0 2 < 2 ^ 16 := BigEndian.field_lt p 0 2
    have htop : ((p.drop 2).take (BigEndian.field p 0 2)).length = BigEndian.field p 0 2 := by
      rw [List.length_take,List.length_drop]
      omega
    have hhead : BigEndian.bytes 2 (BigEndian.field p 0 2) = p.take 2 :=
      BigEndian.bytes_field (by omega)
    refine ⟨by rw [htop]; exact hlt,?_⟩
    rw [htop,hhead,← List.drop_drop,List.take_append_drop,List.take_append_drop]
  · rintro ⟨ht,rfl⟩
    have hf : BigEndian.field ([] ++ (BigEndian.bytes 2 t.length ++ (t ++ m))) 0 2 = t.length :=
      BigEndian.field_bytes rfl ht
    rw [List.nil_append] at hf
    have hd : (BigEndian.bytes 2 t.length ++ (t ++ m)).drop 2 = t ++ m :=
      List.drop_left' (BigEndian.length_bytes 2 _)
    have hlen : (BigEndian.bytes 2 t.length ++ (t ++ m)).length = 2 + (t.length + m.length) := by
      rw [List.length_append,List.length_append,BigEndian.length_bytes]
    rw [hf,hlen,if_neg (by omega),if_neg (by omega),← List.drop_drop,hd]
    simp

/-! What a received frame calls for. -/

structure Message (H : Type) where
  header : H
  topic : Text
  message : Text
  deriving DecidableEq

/-- A callback invocation of a receiver, or (`close`) its request to handle a CLOSE frame. -/
inductive Emission (H E : Type)
  | frame (header : H) (payload : List UInt8)
  | event (msg : Message H)
  | message (msg : Message H)
  | ack (msgId : ℕ)
  | pong
  | error (error : E)
  | close
  deriving DecidableEq

variable {H H' E E' : Type}

def Message.map (f : H → H') (m : Message H) : Message H' := ⟨f m.header,m.topic,m.message⟩

def Emission.map (f : H → H') (g : E → E') : Emission H E → Emission H' E'
  | .frame h p => .frame (f h) p
  | .event m => .event (m.map f)
  | .message m => .message (m.map f)
  | .ack i => .ack i
  | .pong => .pong
  | .error e => .error (g e)
  | .close => .close

def Emission.frame? : Emission H E → Option (H × List UInt8)
  | .frame h p => some (h,p)
  | _ => none

/-- The header fields the callbacks report, as numbers. -/
structure FrameInfo where
  frameType : ℕ
  flags : ℕ
  msgKind : ℕ
  payloadLength : ℕ
  msgId : ℕ
  deriving DecidableEq

/-- An error is the server's, with its text, or the client's own. -/
inductive Fault
  | server (text : Text)
  | client
  deriving DecidableEq

/-- Everything but the client's own complaints. -/
def Emission.fromServer (fault : E → Fault) : Emission H E → Bool
  | .error e => fault e ≠ .client
  | _ => true

def Frame.info (f : Frame) : FrameInfo :=
  ⟨f.frameType.code,f.flags,eventKind,f.payload.length,f.msgId⟩

/-- The text parts of EVENT, PUBLISH and ERROR payloads are valid UTF-8. -/
def Frame.TextValid (f : Frame) : Prop :=
  match f.frameType with
  | .event | .publish => ∀ t m, splitPayload f.payload = some (t,m) → Utf8.Valid t ∧ Utf8.Valid m
  | .error => Utf8.Valid f.payload
  | _ => True

def Frame.message? (f : Frame) : Option (Message FrameInfo) :=
  (splitPayload f.payload).map fun p => ⟨f.info,Utf8.text p.1,Utf8.text p.2⟩

/-- The callbacks a received frame calls for, in order. -/
def Frame.calls (f : Frame) : List (Emission FrameInfo Fault) :=
  .frame f.info f.payload :: match f.frameType with
    | .event => f.message?.elim [] fun m => [.event m,.message m]
    | .publish => f.message?.elim [] fun m => [.message m]
    | .ack => [.ack f.msgId]
    | .pong => [.pong]
    | .error => [.error (.server (Utf8.text f.payload))]
    | .close => [.close]
    | .hello | .subscribe | .unsubscribe | .ping => []

/-- Each frame calls the raw frame callback exactly once. -/
theorem Frame.calls_frame? (f : Frame) :
    f.calls.filterMap Emission.frame? = [(f.info,f.payload)] := by
  unfold Frame.calls
  cases f.frameType <;> cases f.message? <;> rfl

end Wire
end MipClients
