import MipClients.PyTasks
import MipClients.Transition
import MipClients.TsHandlers

/-! `publish` of the TypeScript and the Python client: it raises and leaves the socket alone, or it
writes one frame that says what was published. -/
namespace MipClients

open Transition (run)
open Utf8 (Text)
open Wire (FrameType)

/-- A frame in which the TypeScript client would read the id, the topic and the message. -/
def Ts.ParsesBack (topic message : Text) (msgId : ℤ) (frame : List UInt8) : Prop :=
  ∃ (v : Vector UInt8 Ts.headerSize) (payload : List UInt8), frame = v.toList ++ payload ∧
    (Ts.parseHeader v).payloadLength = payload.length ∧
    (Ts.parseHeader v).frameType = FrameType.publish.code ∧ (Ts.parseHeader v).msgId = msgId ∧
    Ts.parseMessage (Ts.parseHeader v) payload = some ⟨Ts.parseHeader v,topic,message⟩

def Py.ParsesBack (topic message : Text) (msgId : ℤ) (frame : List UInt8) : Prop :=
  ∃ (v : Vector UInt8 Py.headerSize) (header : Py.FrameHeader) (payload : List UInt8),
    frame = v.toList ++ payload ∧ Py.parseHeader v = .ok header ∧
    header.payloadLength = payload.length ∧ header.frameType = .publish ∧ header.msgId = msgId ∧
    Py.parseMessage header payload = .ok (some ⟨header,topic,message⟩)

namespace Publish

/-- A call raises and no connection has been written to, or it returns an id and one frame has been
written to its connection. -/
def AllOrNothing (result : Option ℤ) (c : ℕ) (before after : ℕ → List (List UInt8))
    (parses : ℤ → List UInt8 → Prop) : Prop :=
  result = none ∧ after = before ∨ ∃ msgId frame, result = some msgId ∧
    after = Function.update before c (before c ++ [frame]) ∧ parses msgId frame

def TooLong (topic message : Text) : Prop :=
  65535 < (Utf8.encode topic).length ∨
    2 ^ 32 - 1 < 2 + (Utf8.encode topic).length + (Utf8.encode message).length

instance (topic message : Text) : Decidable (TooLong topic message) :=
  inferInstanceAs (Decidable (_ ∨ _))

def payload (topic message : Text) : List UInt8 :=
  BigEndian.bytes 2 (Utf8.encode topic).length ++ Utf8.encode topic ++ Utf8.encode message

theorem length_payload (topic message : Text) : (payload topic message).length =
    2 + (Utf8.encode topic).length + (Utf8.encode message).length := by
  rw [payload,List.length_append,List.length_append,BigEndian.length_bytes]

theorem splitPayload_payload {topic : Text} (h : (Utf8.encode topic).length < 2 ^ 16)
    (message : Text) : Wire.splitPayload (payload topic message) =
      some (Utf8.encode topic,Utf8.encode message) :=
  (Wire.splitPayload_eq_some_iff _ _ _).mpr ⟨h,List.append_assoc _ _ _⟩

section Frame

variable {f : Wire.Frame} {topic message : Text}

theorem ts_parsesBack (htype : f.frameType = .publish)
    (hsplit : Wire.splitPayload f.payload = some (Utf8.encode topic,Utf8.encode message)) :
    Ts.ParsesBack topic message f.msgId f.bytes := by
  refine ⟨f.header,f.payload,f.bytes_eq,?_,?_,?_,?_⟩ <;> rw [Ts.parseHeader_header]
  · rfl
  · rw [Ts.headerOf,htype]
  · rfl
  · rw [Ts.parseMessage_eq,hsplit]
    simp

theorem py_parsesBack (htype : f.frameType = .publish)
    (hsplit : Wire.splitPayload f.payload = some (Utf8.encode topic,Utf8.encode message)) :
    Py.ParsesBack topic message f.msgId f.bytes := by
  refine ⟨f.header,Py.headerOf f,f.payload,f.bytes_eq,Py.parseHeader_header f,rfl,htype,rfl,?_⟩
  rw [Py.parseMessage_eq,hsplit]
  simp only [Py.decode,Utf8.decodeStrict_encode]
  rfl

end Frame

def frame {topic message : Text} {flags : ℕ} {msgId : ℤ} (hflags : flags < 8)
    (hid : msgId < 2 ^ 64) (hpayload : (payload topic message).length < 2 ^ 32) : Wire.Frame where
  frameType := .publish
  flags := flags
  msgId := msgId.toNat
  payload := payload topic message
  flags_lt := hflags
  msgId_lt := by omega
  payload_lt := hpayload

theorem tooLong_iff (topic message : Text) : TooLong topic message ↔
    ¬((Utf8.encode topic).length < 2 ^ 16 ∧ (payload topic message).length < 2 ^ 32) := by
  rw [TooLong,length_payload]
  omega

section Client

variable {topic message : Text} {flags : ℕ} {msgId : ℤ}

/-- The frame of a `publish` cannot be put together, or it parses back: for any function that makes the
frames of the format, and none with a payload too long for its length field. -/
theorem frameBytes_cases {make : ℕ → List UInt8 → ℕ → ℤ → Option (List UInt8)}
    {parses : ℤ → List UInt8 → Prop}
    (hmake : ∀ f : Wire.Frame, make f.frameType.code f.payload f.flags f.msgId = some f.bytes)
    (hshort : ∀ {frameType payload flags msgId bytes},
      make frameType payload flags msgId = some bytes → payload.length < 2 ^ 32)
    (hparses : ∀ {f : Wire.Frame}, f.frameType = .publish →
      Wire.splitPayload f.payload = some (Utf8.encode topic,Utf8.encode message) →
      parses f.msgId f.bytes)
    (hflags : flags < 8) (hid : 0 ≤ msgId ∧ msgId < 2 ^ 64)
    (ht : (Utf8.encode topic).length < 2 ^ 16) :
    (make FrameType.publish.code (payload topic message) flags msgId = none ∧
      TooLong topic message) ∨
    ∃ bytes, make FrameType.publish.code (payload topic message) flags msgId = some bytes ∧
      ¬TooLong topic message ∧ parses msgId bytes := by
  rw [tooLong_iff]
  by_cases hfits : (payload topic message).length < 2 ^ 32
  · have hframe := hmake (frame hflags hid.2 hfits)
    have hback := hparses (f := frame hflags hid.2 hfits) rfl (splitPayload_payload ht message)
    simp only [frame,Int.toNat_of_nonneg hid.1] at hframe hback
    exact .inr ⟨_,hframe,not_not.mpr ⟨ht,hfits⟩,hback⟩
  · refine .inl ⟨Option.eq_none_iff_forall_ne_some.mpr fun bytes hbytes => ?_,fun h => hfits h.2⟩
    exact hfits (hshort hbytes)

theorem ts_frameBytes (hflags : flags < 8) (hid : 0 ≤ msgId ∧ msgId < 2 ^ 64)
    (ht : (Utf8.encode topic).length < 2 ^ 16) :
    (Ts.frameBytes FrameType.publish.code (payload topic message) flags msgId = none ∧
      TooLong topic message) ∨
    ∃ bytes, Ts.frameBytes FrameType.publish.code (payload topic message) flags msgId =
      some bytes ∧ ¬TooLong topic message ∧ Ts.ParsesBack topic message msgId bytes :=
  frameBytes_cases Ts.frameBytes_eq Ts.length_lt_of_frameBytes ts_parsesBack hflags hid ht

theorem py_frameBytes (hflags : flags < 8) (hid : 0 ≤ msgId ∧ msgId < 2 ^ 64)
    (ht : (Utf8.encode topic).length < 2 ^ 16) :
    (Py.frameBytes FrameType.publish.code (payload topic message) flags msgId = none ∧
      TooLong topic message) ∨
    ∃ bytes, Py.frameBytes FrameType.publish.code (payload topic message) flags msgId =
      some bytes ∧ ¬TooLong topic message ∧ Py.ParsesBack topic message msgId bytes :=
  frameBytes_cases Py.frameBytes_eq Py.length_lt_of_frameBytes py_parsesBack hflags hid ht

end Client

theorem tooLong_of_topic {topic : Text} (ht : ¬(Utf8.encode topic).length < 2 ^ 16)
    (message : Text) : TooLong topic message :=
  (tooLong_iff topic message).mpr fun hfits => ht hfits.1

section Outcome

variable {topic message : Text} {c : ℕ} {before after : ℕ → List (List UInt8)}
  {parses : ℤ → List UInt8 → Prop}

theorem allOrNothing_raised (hsame : after = before) (hlong : TooLong topic message) :
    AllOrNothing none c before after parses ∧ ((none : Option ℤ) = none ↔ TooLong topic message) :=
  ⟨.inl ⟨rfl,hsame⟩,iff_of_true rfl hlong⟩

theorem allOrNothing_returned {msgId : ℤ} {bytes : List UInt8}
    (hwritten : after = Function.update before c (before c ++ [bytes]))
    (hparses : parses msgId bytes) (hfits : ¬TooLong topic message) :
    AllOrNothing (some msgId) c before after parses ∧
      (some msgId = none ↔ TooLong topic message) :=
  ⟨.inr ⟨msgId,bytes,rfl,hwritten,hparses⟩,iff_of_false (Option.some_ne_none msgId) hfits⟩

end Outcome

theorem ts_write_written {s : Ts.State} {i : ℕ} (hopen : (s.sockets i).destroyed = false)
    (bytes : List UInt8) : (fun j => ((s.write i bytes).sockets j).written) =
      Function.update (fun j => (s.sockets j).written) i ((s.sockets i).written ++ [bytes]) := by
  funext j
  by_cases hj : j = i
  · subst hj
    simp [Ts.State.write,hopen]
  · simp [Ts.State.write,hj]

theorem py_write_written {s : Py.State} {c : ℕ} (hopen : (s.connections c).closed = false)
    (bytes : List UInt8) : (fun j => ((s.write c bytes).connections j).written) =
      Function.update (fun j => (s.connections j).written) c
        ((s.connections c).written ++ [bytes]) := by
  funext j
  by_cases hj : j = c
  · subst hj
    simp [Py.State.write,hopen]
  · simp [Py.State.write,hj]

theorem ts_publish {s : Ts.State} {i : ℕ} (hsocket : s.socket = some i)
    (hconnected : s.connected = true) (hopen : (s.sockets i).destroyed = false)
    (topic message : Text) {flags : ℕ} (hflags : flags < 8) {now : ℤ}
    (hid : 0 ≤ (s.generateMsgId now).1 ∧ (s.generateMsgId now).1 < 2 ^ 64) :
    AllOrNothing (s.publish topic (Utf8.encode message) flags now).1.toOption i
      (fun j => (s.sockets j).written)
      (fun j => ((s.publish topic (Utf8.encode message) flags now).2.sockets j).written)
      (Ts.ParsesBack topic message) ∧
    ((s.publish topic (Utf8.encode message) flags now).1.toOption = none ↔
      TooLong topic message) := by
  unfold Ts.State.publish
  by_cases ht : (Utf8.encode topic).length < 2 ^ 16
  · rw [Ts.writeUInt_of_lt ht]
    unfold Ts.State.sendFrame
    rw [hsocket,hconnected]
    dsimp only
    obtain ⟨hnone,hlong⟩ | ⟨bytes,hbytes,hfits,hparses⟩ : _ ∨ ∃ bytes, _ ∧
        ¬TooLong topic message ∧ _ := ts_frameBytes hflags hid ht
    · rw [payload] at hnone
      rw [hnone]
      exact allOrNothing_raised rfl hlong
    · rw [payload] at hbytes
      rw [hbytes]
      have hwritten := ts_write_written (s := (s.generateMsgId now).2) hopen bytes
      exact allOrNothing_returned hwritten hparses hfits
  · have hnone : Ts.writeUInt 2 (Utf8.encode topic).length = none := if_neg ht
    rw [hnone]
    exact allOrNothing_raised rfl (tooLong_of_topic ht message)

theorem py_publish {s : Py.State} {c : ℕ} (hwriter : s.writer = some c)
    (hconnected : s.connected = true) (hopen : (s.connections c).closed = false)
    (topic message : Text) {flags : ℕ} (hflags : flags < 8) {now : ℤ}
    (hid : 0 ≤ (s.generateMsgId now).1 ∧ (s.generateMsgId now).1 < 2 ^ 64) :
    AllOrNothing (s.publish topic (Utf8.encode message) flags now).1.toOption c
      (fun j => (s.connections j).written)
      (fun j => ((s.publish topic (Utf8.encode message) flags now).2.connections j).written)
      (Py.ParsesBack topic message) ∧
    ((s.publish topic (Utf8.encode message) flags now).1.toOption = none ↔
      TooLong topic message) := by
  unfold Py.State.publish
  by_cases ht : (Utf8.encode topic).length < 2 ^ 16
  · rw [Py.pack_of_lt ht]
    unfold Py.State.sendFrame
    rw [hwriter,hconnected]
    dsimp only
    obtain ⟨hnone,hlong⟩ | ⟨bytes,hbytes,hfits,hparses⟩ : _ ∨ ∃ bytes, _ ∧
        ¬TooLong topic message ∧ _ := py_frameBytes hflags hid ht
    · rw [payload] at hnone
      rw [hnone]
      exact allOrNothing_raised rfl hlong
    · rw [payload] at hbytes
      rw [hbytes]
      have hwritten := py_write_written (s := (s.generateMsgId now).2) hopen bytes
      exact allOrNothing_returned hwritten hparses hfits
  · have hnone : Py.pack 2 (Utf8.encode topic).length = none := if_neg ht
    rw [hnone]
    exact allOrNothing_raised rfl (tooLong_of_topic ht message)

/-- On a connected client of either kind, with flags made of the defined bits and an id that fits its
field, `publish` is all or nothing; and it raises exactly when a part is too long for its length
field. -/
theorem publish_allOrNothing (topic message : Text) (flags : ℕ) (hflags : flags < 8) (now : ℤ) :
    (∀ (s : Ts.State) (i : ℕ), s.socket = some i → s.connected = true →
      (s.sockets i).destroyed = false →
      0 ≤ (s.generateMsgId now).1 ∧ (s.generateMsgId now).1 < 2 ^ 64 →
      AllOrNothing (s.publish topic (Utf8.encode message) flags now).1.toOption i
        (fun j => (s.sockets j).written)
        (fun j => ((s.publish topic (Utf8.encode message) flags now).2.sockets j).written)
        (Ts.ParsesBack topic message) ∧
      ((s.publish topic (Utf8.encode message) flags now).1.toOption = none ↔
        TooLong topic message)) ∧
    ∀ (s : Py.State) (c : ℕ), s.writer = some c → s.connected = true →
      (s.connections c).closed = false →
      0 ≤ (s.generateMsgId now).1 ∧ (s.generateMsgId now).1 < 2 ^ 64 →
      AllOrNothing (s.publish topic (Utf8.encode message) flags now).1.toOption c
        (fun j => (s.connections j).written)
        (fun j => ((s.publish topic (Utf8.encode message) flags now).2.connections j).written)
        (Py.ParsesBack topic message) ∧
      ((s.publish topic (Utf8.encode message) flags now).1.toOption = none ↔
        TooLong topic message) :=
  ⟨fun _ _ hsocket hconnected hopen hid =>
      ts_publish hsocket hconnected hopen topic message hflags hid,
    fun _ _ hwriter hconnected hopen hid =>
      py_publish hwriter hconnected hopen topic message hflags hid⟩

/-- A short message on a client that has just connected is published. -/
theorem publish_allOrNothing_short :
    (∃ s ∈ run Ts.step (Ts.init {}) [.call .connect 0,.host (.connect 0),.listenersReturn 0],
      (s.publish ['t'] (Utf8.encode ['m']) 0 7).1.toOption ≠ none) ∧
    ∃ s ∈ run Py.step (Py.init {}) [.connectCall,.opened 0 [] none 0],
      (s.publish ['t'] (Utf8.encode ['m']) 0 7).1.toOption ≠ none := by
  have hfits : ¬TooLong ['t'] ['m'] := by decide
  have hts : ∃ s ∈ run Ts.step (Ts.init {})
      [.call .connect 0,.host (.connect 0),.listenersReturn 0],
      s.socket = some 0 ∧ s.connected = true ∧ (s.sockets 0).destroyed = false ∧
        0 ≤ (s.generateMsgId 7).1 ∧ (s.generateMsgId 7).1 < 2 ^ 64 := by
    decide +kernel
  have hpy : ∃ s ∈ run Py.step (Py.init {}) [.connectCall,.opened 0 [] none 0],
      s.writer = some 0 ∧ s.connected = true ∧ (s.connections 0).closed = false ∧
        0 ≤ (s.generateMsgId 7).1 ∧ (s.generateMsgId 7).1 < 2 ^ 64 := by
    decide +kernel
  have hall := publish_allOrNothing ['t'] ['m'] 0 (by decide) 7
  obtain ⟨s,hs,hsocket,hconnected,hopen,hid⟩ := hts
  obtain ⟨u,hu,hwriter,hconnected',hopen',hid'⟩ := hpy
  exact ⟨⟨s,hs,fun hno => hfits ((hall.1 s 0 hsocket hconnected hopen hid).2.mp hno)⟩,
    u,hu,fun hno => hfits ((hall.2 u 0 hwriter hconnected' hopen' hid').2.mp hno)⟩

end Publish
end MipClients
