import MipClients.Interoperability
import MipClients.PyTasks
import MipClients.RustClient
import MipClients.TsHandlers

/-! The payloads of EVENT and PUBLISH frames in the three clients, on bytes: what `parse_message`,
`parseMessage` and `_parse_message` cut out of a payload before they decode it, and what `publish`
puts together once it has encoded its arguments. -/
namespace MipClients

open Utf8 (Text)
open Wire (FrameType)

section Parsers

variable {β : Type}

/-- `parse_message` with `decode` in the place of `String::from_utf8_lossy`. -/
def Rust.parseWith (decode : List UInt8 → β) (payload : List UInt8) : Option (β × β) :=
  if payload.length < 2 then none
  else
    let topicLength := BigEndian.field payload 0 2
    if payload.length < 2 + topicLength then none
    else some (decode ((payload.drop 2).take topicLength),decode (payload.drop (2 + topicLength)))

/-- `parseMessage` with `decode` in the place of `toString("utf-8")`. -/
def Ts.parseWith (decode : List UInt8 → β) (payload : List UInt8) : Option (β × β) :=
  if payload.length < 2 then none
  else
    let topicLength := BigEndian.field payload 0 2
    if payload.length < 2 + topicLength then none
    else some (decode ((payload.drop 2).take topicLength),decode (payload.drop (2 + topicLength)))

/-- `_parse_message` with `decode`, which may raise, in the place of `decode("utf-8")`. -/
def Py.parseWith (decode : List UInt8 → Except Py.Raised β) (payload : List UInt8) :
    Except Py.Raised (Option (β × β)) :=
  if payload.length < 2 then .ok none
  else
    let topicLength := BigEndian.field payload 0 2
    if payload.length < 2 + topicLength then .ok none
    else do
      let topic ← decode ((payload.drop 2).take topicLength)
      let message ← decode (payload.drop (2 + topicLength))
      return some (topic,message)

end Parsers

theorem Rust.parseMessage_eq_parseWith (header : Rust.Header) (payload : List UInt8) :
    Rust.parseMessage header payload = (Rust.parseWith Utf8.decodeLossy payload).map fun p =>
      ⟨header,p.1,p.2⟩ := by
  unfold Rust.parseMessage Rust.parseWith
  dsimp only
  split_ifs <;> rfl

theorem Ts.parseMessage_eq_parseWith (header : Ts.FrameHeader) (payload : List UInt8) :
    Ts.parseMessage header payload = (Ts.parseWith Utf8.decodeLossy payload).map fun p =>
      ⟨header,p.1,p.2⟩ := by
  unfold Ts.parseMessage Ts.parseWith
  dsimp only
  split_ifs <;> rfl

theorem Py.parseMessage_eq_parseWith (header : Py.FrameHeader) (payload : List UInt8) :
    Py.parseMessage header payload = (Py.parseWith Py.decode payload).map fun r =>
      r.map fun p => ⟨header,p.1,p.2⟩ := by
  unfold Py.parseMessage Py.parseWith
  dsimp only
  split_ifs
  · rfl
  · rfl
  · cases Py.decode ((payload.drop 2).take (BigEndian.field payload 0 2)) with
    | error e => rfl
    | ok topic =>
      cases Py.decode (payload.drop (2 + BigEndian.field payload 0 2)) with
      | error e => rfl
      | ok message => rfl

/-! A parser hands its slices to the decoder, and otherwise does not look at what it returns. -/

section Slices

variable {β : Type}

theorem Rust.parseWith_eq (decode : List UInt8 → β) (payload : List UInt8) :
    Rust.parseWith decode payload =
      (Rust.parseWith id payload).map fun p => (decode p.1,decode p.2) := by
  unfold Rust.parseWith
  dsimp only
  split_ifs <;> rfl

theorem Ts.parseWith_eq (decode : List UInt8 → β) (payload : List UInt8) :
    Ts.parseWith decode payload =
      (Ts.parseWith id payload).map fun p => (decode p.1,decode p.2) := by
  unfold Ts.parseWith
  dsimp only
  split_ifs <;> rfl

theorem Py.parseWith_eq (decode : List UInt8 → Except Py.Raised β) (payload : List UInt8) :
    Py.parseWith decode payload = (Py.parseWith .ok payload).bind fun r => match r with
      | none => .ok none
      | some p => do
        let topic ← decode p.1
        let message ← decode p.2
        return some (topic,message) := by
  unfold Py.parseWith
  dsimp only
  split_ifs <;> rfl

end Slices

/-- `publish`'s payload, its topic and message encoded: the topic's length is cast to a `u16`. -/
def Rust.payloadOf (topic message : List UInt8) : List UInt8 :=
  BigEndian.bytes 2 (topic.length % 2 ^ 16) ++ topic ++ message

/-- `writeUInt16BE` throws on a length it cannot write. -/
def Ts.payloadOf (topic message : List UInt8) : Option (List UInt8) :=
  (Ts.writeUInt 2 topic.length).map fun length => length ++ topic ++ message

/-- `struct.pack(">H", …)` raises on a length it cannot write. -/
def Py.payloadOf (topic message : List UInt8) : Option (List UInt8) :=
  (Py.pack 2 topic.length).map fun length => length ++ topic ++ message

namespace Client

abbrev Header : Client → Type
  | .rust => Rust.Header
  | .ts => Ts.FrameHeader
  | .python => Py.FrameHeader

def NoMessage : (c : Client) → c.Header → List UInt8 → Prop
  | .rust, header, payload => Rust.parseMessage header payload = none
  | .ts, header, payload => Ts.parseMessage header payload = none
  | .python, header, payload => Py.parseMessage header payload = .ok none

/-- The topic and message bytes that the client's parser cuts out of a payload: what it would return
if decoding changed nothing. -/
def slices : Client → List UInt8 → Option (List UInt8 × List UInt8)
  | .rust, payload => Rust.parseWith id payload
  | .ts, payload => Ts.parseWith id payload
  | .python, payload => match Py.parseWith .ok payload with
    | .ok slices => slices
    | .error _ => none

def Decodes : Client → Prop
  | .rust => ∀ header payload, Rust.parseMessage header payload =
      (slices .rust payload).map fun p => ⟨header,Utf8.decodeLossy p.1,Utf8.decodeLossy p.2⟩
  | .ts => ∀ header payload, Ts.parseMessage header payload =
      (slices .ts payload).map fun p => ⟨header,Utf8.decodeLossy p.1,Utf8.decodeLossy p.2⟩
  | .python => ∀ header payload, Py.parseMessage header payload =
      match slices .python payload with
      | none => .ok none
      | some p => do
        let topic ← Py.decode p.1
        let message ← Py.decode p.2
        return some ⟨header,topic,message⟩

/-- The payload that the client's `publish` builds from the bytes of a topic and a message, if it
does not throw. -/
def payloadOf : Client → List UInt8 → List UInt8 → Option (List UInt8)
  | .rust, topic, message => some (Rust.payloadOf topic message)
  | .ts, topic, message => Ts.payloadOf topic message
  | .python, topic, message => Py.payloadOf topic message

def Publishes : Client → Prop
  | .rust => ∀ topic message flags, (Rust.Call.publish topic message flags).frame =
      (.publish,Rust.payloadOf (Utf8.encode topic) (Utf8.encode message),flags)
  | .ts => ∀ (s : Ts.State) topic message flags now, s.publish topic message flags now =
      match Ts.payloadOf (Utf8.encode topic) message with
      | some payload => s.sendFrame FrameType.publish.code payload flags now
      | none => (.error .rangeError,s)
  | .python => ∀ (s : Py.State) topic message flags now, s.publish topic message flags now =
      match Py.payloadOf (Utf8.encode topic) message with
      | some payload => s.sendFrame .publish payload flags now
      | none => (.error .structError,s)

theorem py_parseWith_ok (payload : List UInt8) :
    Py.parseWith .ok payload = .ok (Wire.splitPayload payload) := by
  unfold Py.parseWith Wire.splitPayload
  dsimp only
  split_ifs <;> rfl

theorem slices_eq (c : Client) (payload : List UInt8) :
    c.slices payload = Wire.splitPayload payload := by
  cases c with
  | rust => rfl
  | ts => rfl
  | python => simp only [slices,py_parseWith_ok]

theorem decodes (c : Client) : c.Decodes := by
  cases c with
  | rust =>
    intro header payload
    rw [Rust.parseMessage_eq_parseWith,Rust.parseWith_eq,Option.map_map]
    rfl
  | ts =>
    intro header payload
    rw [Ts.parseMessage_eq_parseWith,Ts.parseWith_eq,Option.map_map]
    rfl
  | python =>
    intro header payload
    rw [Py.parseMessage_eq_parseWith,Py.parseWith_eq,py_parseWith_ok,slices_eq]
    cases Wire.splitPayload payload with
    | none => rfl
    | some p =>
      cases ht : Py.decode p.1 with
      | error e => simp [ht,bind,Except.bind,Except.map]
      | ok topic =>
        cases hm : Py.decode p.2 <;> simp [ht,hm,bind,Except.bind,Except.map,pure,Except.pure]

theorem publishes (c : Client) : c.Publishes := by
  cases c with
  | rust => exact fun _ _ _ => rfl
  | ts =>
    intro s topic message flags now
    rw [Ts.State.publish,Ts.payloadOf]
    cases Ts.writeUInt 2 (Utf8.encode topic).length <;> rfl
  | python =>
    intro s topic message flags now
    rw [Py.State.publish,Py.payloadOf]
    cases Py.pack 2 (Utf8.encode topic).length <;> rfl

/-- Decoding, also where it raises, does not turn slices into no message. -/
theorem noMessage_iff (c : Client) (header : c.Header) (payload : List UInt8) :
    c.NoMessage header payload ↔ c.slices payload = none := by
  have hdecodes := c.decodes
  cases c with
  | rust => rw [NoMessage,hdecodes,Option.map_eq_none_iff]
  | ts => rw [NoMessage,hdecodes,Option.map_eq_none_iff]
  | python =>
    rw [NoMessage,hdecodes]
    cases slices .python payload with
    | none => simp
    | some p =>
      refine iff_of_false ?_ (by simp)
      cases ht : Py.decode p.1 with
      | error e => simp [ht,bind,Except.bind]
      | ok topic => cases hm : Py.decode p.2 <;> simp [ht,hm,bind,Except.bind,pure,Except.pure]

theorem splitPayload_eq_none_iff (payload : List UInt8) : Wire.splitPayload payload = none ↔
    payload.length < 2 ∨ payload.length < 2 + BigEndian.field payload 0 2 := by
  unfold Wire.splitPayload
  split_ifs with hshort hlong
  · simp [hshort]
  · simp [hlong]
  · simp [hshort,hlong]

theorem payloadOf_eq (c : Client) {t : List UInt8} (ht : t.length < 256 ^ 2) (m : List UInt8) :
    c.payloadOf t m = some (BigEndian.bytes 2 t.length ++ t ++ m) := by
  cases c with
  | rust => simp only [payloadOf,Rust.payloadOf,Nat.mod_eq_of_lt (show t.length < 2 ^ 16 from ht)]
  | ts => simp only [payloadOf,Ts.payloadOf,Ts.writeUInt_of_lt ht,Option.map_some]
  | python => simp only [payloadOf,Py.payloadOf,Py.pack_of_lt ht,Option.map_some]

/-- The payloads with a message are the topic length, the topic and the message: the client's parser
rejects exactly those that are too short, takes the others apart into what they are made of, and
takes out of a published payload what was put into it. -/
structure PayloadGrammar (c : Client) : Prop where
  decodes : c.Decodes
  publishes : c.Publishes
  noMessage_iff_short : ∀ header payload, c.NoMessage header payload ↔
    payload.length < 2 ∨ payload.length < 2 + BigEndian.field payload 0 2
  slices_of_message : ∀ header payload, ¬c.NoMessage header payload →
    ∃ t m, c.slices payload = some (t,m)
  eq_of_slices : ∀ payload t m, c.slices payload = some (t,m) →
    t.length ≤ 65535 ∧ payload = BigEndian.bytes 2 t.length ++ t ++ m
  slices_payloadOf : ∀ t m, t.length ≤ 65535 →
    ∃ payload, c.payloadOf t m = some payload ∧ c.slices payload = some (t,m)

theorem payloadGrammar (c : Client) : c.PayloadGrammar where
  decodes := c.decodes
  publishes := c.publishes
  noMessage_iff_short header payload := by
    rw [noMessage_iff,slices_eq,splitPayload_eq_none_iff]
  slices_of_message header payload h := by
    rw [noMessage_iff] at h
    obtain ⟨p,hp⟩ := Option.ne_none_iff_exists'.mp h
    exact ⟨p.1,p.2,hp⟩
  eq_of_slices payload t m h := by
    rw [slices_eq,Wire.splitPayload_eq_some_iff,← List.append_assoc] at h
    exact ⟨Nat.le_of_lt_succ h.1,h.2⟩
  slices_payloadOf t m h := by
    have hlt : t.length < 256 ^ 2 := Nat.lt_succ_of_le h
    refine ⟨_,c.payloadOf_eq hlt m,?_⟩
    rw [slices_eq,Wire.splitPayload_eq_some_iff,← List.append_assoc]
    exact ⟨hlt,rfl⟩

/-- All three clients follow the one grammar, and agree on every payload. -/
theorem payloads_agree : (∀ c : Client, c.PayloadGrammar) ∧
    ∀ (c c' : Client) (payload : List UInt8), c.slices payload = c'.slices payload ∧
      ∀ header header', c.NoMessage header payload ↔ c'.NoMessage header' payload := by
  refine ⟨payloadGrammar,fun c c' payload => ?_⟩
  have hslices : c.slices payload = c'.slices payload := by rw [slices_eq,slices_eq]
  refine ⟨hslices,fun header header' => ?_⟩
  rw [noMessage_iff,noMessage_iff,hslices]

end Client
end MipClients
