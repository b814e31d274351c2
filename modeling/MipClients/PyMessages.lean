import MipClients.PyWriting

/-! From `publish` on a Python client to the message callbacks of whoever reads its connection. -/
namespace MipClients
namespace Py

open StreamDecoder Transition
open Utf8 (Text)
open Wire (Emission Frame FrameType)

/-- The calls of the publishing interface: no raw frames, messages that are text, defined flags. -/
def Call.Plain : Call → Prop
  | .publish _ message flags => Utf8.Valid message ∧ flags < 8
  | .sendRawFrame _ _ _ => False
  | _ => True

namespace State

/-- What a call publishes on a connection: the topic and message of a `publish` that returns an id
while the client has the connection's writer, and the writer is open. -/
def notes (s : State) (c : ℕ) (now : ℤ) : Call → List (Text × Text)
  | .publish topic message flags =>
    match (s.publish topic message flags now).1 with
    | .ok _ =>
      if s.writer = some c ∧ (s.connections c).closed = false then [(topic,Utf8.text message)]
      else []
    | .error _ => []
  | _ => []

def callsPublish (c : ℕ) : State → List (Call × ℤ) → List (Text × Text)
  | _, [] => []
  | s, (k,now) :: l => s.notes c now k ++ callsPublish c (s.call now k) l

def publishes (s : State) (c : ℕ) : Event → List (Text × Text)
  | .call k now => s.notes c now k
  | .opened _ connectCalls _ _ => s.establish.callsPublish c connectCalls
  | _ => []

end State

variable {s : State} {c : ℕ}

/-- No other frame of the client's can be taken for a PUBLISH, or for an EVENT or ERROR. -/
theorem tells_wire {frameType : FrameType} (htype : frameType ∉ [.publish,.event,.error])
    (payload : List UInt8) {flags : ℕ} (hflags : flags < 8) (msgId : ℤ) :
    Tells (s.wire c (frameBytes frameType.code payload flags msgId)) [] := by
  unfold State.wire
  split_ifs
  · cases h : frameBytes frameType.code payload flags msgId with
    | none => exact .nil
    | some bytes =>
      obtain ⟨f,rfl,hf,-⟩ := exists_frame h hflags
      exact .of_frame (.of_type (hf ▸ htype))
  · exact .nil

theorem frame_of_publish {topic : Text} {message length : List UInt8}
    (hlength : pack 2 (Utf8.encode topic).length = some length) (hvalid : Utf8.Valid message)
    {flags : ℕ} (hflags : flags < 8) {msgId : ℤ} {bytes : List UInt8}
    (h : frameBytes FrameType.publish.code (length ++ Utf8.encode topic ++ message) flags msgId =
      some bytes) : ∃ f : Frame, f.bytes = bytes ∧ f.Says (some (topic,Utf8.text message)) := by
  obtain ⟨hlt,rfl⟩ := pack_eq_some_iff.mp hlength
  obtain ⟨f,hf,htype,hpayload⟩ := exists_frame h hflags
  refine ⟨f,hf,.of_publish htype ?_ hvalid⟩
  rw [hpayload,Wire.splitPayload_eq_some_iff,List.append_assoc]
  exact ⟨hlt,rfl⟩

theorem tells_publish (topic : Text) {message : List UInt8} {flags : ℕ} (now : ℤ)
    (hvalid : Utf8.Valid message) (hflags : flags < 8) :
    Tells (s.wire c (s.bytes now (.publish topic message flags)))
      (s.notes c now (.publish topic message flags)) := by
  cases hlength : pack 2 (Utf8.encode topic).length with
  | none =>
    simp only [State.bytes,State.notes,State.publish,Call.frame,hlength,Option.map_none,
      Option.bind_none,s.wire_none]
    exact .nil
  | some length =>
    simp only [State.bytes,State.notes,State.publish,Call.frame,hlength,Option.map_some,
      Option.bind_some]
    rcases s.sendFrame_cases FrameType.publish (length ++ Utf8.encode topic ++ message) flags
      now with
      ⟨h,hno⟩ | ⟨h,hb⟩ | ⟨d,bytes,hd,hconn,hb,h⟩ <;> rw [h]
    · rw [s.wire_unconnected hno]
      exact .nil
    · rw [hb,s.wire_none]
      exact .nil
    · obtain ⟨f,rfl,hf⟩ := frame_of_publish hlength hvalid hflags hb
      rw [State.wire,hconn,hb]
      by_cases hopen : s.writer = some c ∧ (s.connections c).closed = false
      · rw [if_pos ⟨hopen.1,rfl,hopen.2⟩,if_pos hopen]
        exact .of_frame hf
      · rw [if_neg fun h => hopen ⟨h.1,h.2.2⟩,if_neg hopen]
        exact .nil

theorem tells_call {k : Call} (hk : k.Plain) (now : ℤ) :
    Tells (s.wire c (s.bytes now k)) (s.notes c now k) := by
  have hack (requireAck : Bool) : (if requireAck then flagsAckRequired else flagsNone) < 8 := by
    cases requireAck <;> decide
  cases k with
  | publish topic message flags => exact tells_publish topic now hk.1 hk.2
  | sendRawFrame => exact hk.elim
  | subscribe topic requireAck =>
    exact tells_wire (by decide) _ (hack requireAck) _
  | unsubscribe topic requireAck =>
    exact tells_wire (by decide) _ (hack requireAck) _
  | ping => exact tells_wire (by decide) _ (Nat.zero_lt_succ 7) _

theorem tells_calls {l : List (Call × ℤ)} (hl : ∀ k ∈ l, k.1.Plain) :
    Tells (s.callsWrite c l) (s.callsPublish c l) := by
  induction l generalizing s with
  | nil => exact .nil
  | cons k l ih =>
    rw [List.forall_mem_cons] at hl
    exact (tells_call hl.1 k.2).append (ih hl.2)

/-- What is written tells what is published, and leaves nothing of it out. -/
theorem tells_event {e : Event} (he : e.Calls Call.Plain) :
    Tells (s.writes c e) (s.publishes c e) := by
  cases e with
  | call k now => exact tells_call he now
  | disconnectCall now =>
    simp only [State.writes]
    split_ifs
    · exact tells_wire (by decide) _ (Nat.zero_lt_succ 7) _
    · exact .nil
  | wake i now =>
    simp only [State.writes]
    split_ifs
    · exact tells_wire (by decide) _ (Nat.zero_lt_succ 7) _
    · exact .nil
  | opened i connectCalls raised now =>
    have hcalls : Tells (s.establish.callsWrite c connectCalls)
        (s.establish.callsPublish c connectCalls) := tells_calls he
    refine List.append_nil (s.publishes c (.opened i connectCalls raised now)) ▸ hcalls.append ?_
    split_ifs
    · exact tells_wire (by decide) _ (Nat.zero_lt_succ 7) _
    · exact .nil
  | _ => exact .nil

theorem tells_written {options : Options} {events : List Event}
    (hcalls : ∀ e ∈ events, e.Calls Call.Plain) {s : State}
    (hs : run step (init options) events = some s) (c : ℕ) : Tells (s.connections c).written
      ((steps step (init options) events).flatMap fun p => p.1.publishes c p.2) := by
  rw [written_eq hs c]
  exact .flatMap fun p hp => tells_event (hcalls p.2 (mem_of_mem_steps hp))

end Py
end MipClients
