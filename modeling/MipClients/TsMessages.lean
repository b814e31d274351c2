import MipClients.TsWriting

/-! From `publish` on a TypeScript client to the message callbacks of whoever reads its socket. -/
namespace MipClients
namespace Ts

open StreamDecoder Transition
open Utf8 (Text)
open Wire (Emission Frame FrameType)

/-- The calls of the publishing interface: no raw frames, messages that are text, defined flags. -/
def Call.Plain : Call → Prop
  | .publish _ message flags => Utf8.Valid message ∧ flags < 8
  | .sendRawFrame _ _ _ => False
  | _ => True

theorem Event.Calls.imp {P Q : Call → Prop} (hPQ : ∀ c, P c → Q c) {e : Event} (h : e.Calls P) :
    e.Calls Q := by
  cases e with
  | call c now => exact hPQ c h
  | _ => trivial

theorem Call.Plain.fits {c : Call} (h : c.Plain) : c.Fits := by
  cases c with
  | publish topic message flags => exact h.2
  | sendRawFrame frameType payload flags => exact h.elim
  | _ => trivial

/-- What an event publishes on a socket: the topic and message of a `publish` that returns an id
while the client has the socket, and the socket has not been destroyed. -/
def State.publishes (s : State) (i : ℕ) : Event → List (Text × Text)
  | .call (.publish topic message flags) now =>
    match (s.publish topic message flags now).1 with
    | .ok _ =>
      if s.socket = some i ∧ (s.sockets i).destroyed = false then [(topic,Utf8.text message)]
      else []
    | .error _ => []
  | _ => []

def Event.silent : Event → Bool
  | .call (.publish _ _ _) _ => false
  | _ => true

/-- Nothing else that is sent can be taken for a PUBLISH, or for an EVENT or ERROR. -/
theorem State.composes_silent {s : State} {e : Event} (he : e.Calls Call.Plain)
    (hsilent : e.silent = true) {x : ℕ × List UInt8 × ℕ} (hx : s.composes e = some x) :
    x.1 ∉ [FrameType.publish.code,FrameType.event.code,FrameType.error.code] := by
  have hother : ∀ frameType ∈ [FrameType.hello,.subscribe,.unsubscribe,.ping,.close],
      frameType.code ∉ [FrameType.publish.code,FrameType.event.code,FrameType.error.code] := by
    decide
  unfold State.composes at hx
  split at hx
  · next c now =>
    cases c with
    | connect => cases hx
    | publish => cases hsilent
    | sendRawFrame => exact he.elim
    | disconnect =>
      cases hx
      exact hother .close (by decide)
    | subscribe =>
      cases hx
      exact hother .subscribe (by decide)
    | unsubscribe =>
      cases hx
      exact hother .unsubscribe (by decide)
    | ping =>
      cases hx
      exact hother .ping (by decide)
  · cases hx
    exact hother .ping (by decide)
  · split at hx <;> cases hx
    exact hother .hello (by decide)
  · cases hx

theorem not_mem_of_code {frameType : FrameType}
    (h : frameType.code ∉ [FrameType.publish.code,FrameType.event.code,FrameType.error.code]) :
    frameType ∉ [.publish,.event,.error] := by
  cases frameType with
  | publish | event | error => exact absurd (by decide) h
  | _ => decide

theorem frame_of_publish {topic : Text} {message length : List UInt8}
    (hlength : writeUInt 2 (Utf8.encode topic).length = some length) (hvalid : Utf8.Valid message)
    {flags : ℕ} (hflags : flags < 8) {msgId : ℤ} {bytes : List UInt8}
    (h : frameBytes FrameType.publish.code (length ++ Utf8.encode topic ++ message) flags msgId =
      some bytes) : ∃ f : Frame, f.bytes = bytes ∧ f.Says (some (topic,Utf8.text message)) := by
  obtain ⟨hlt,rfl⟩ := writeUInt_eq_some_iff.mp hlength
  obtain ⟨f,hf,htype,hpayload⟩ := exists_frame h hflags
  refine ⟨f,hf,.of_publish htype ?_ hvalid⟩
  rw [hpayload,Wire.splitPayload_eq_some_iff,List.append_assoc]
  exact ⟨hlt,rfl⟩

variable {s : State} {i : ℕ}

theorem tells_of_nil {e : Event} (hw : s.writes i e = []) (hp : s.publishes i e = []) :
    Tells (s.writes i e) (s.publishes i e) := by
  rw [hw,hp]
  exact .nil

theorem tells_silent {e : Event} (he : e.Calls Call.Plain) (hsilent : e.silent = true) :
    Tells (s.writes i e) (s.publishes i e) := by
  have hmeans : ∀ bytes ∈ s.writes i e, ∃ f : Frame, f.bytes = bytes ∧ f.Says none := by
    intro bytes hbytes
    obtain ⟨x,hx,f,hf,htype,-⟩ := State.exists_frame (he.imp fun _ => Call.Plain.fits) hbytes
    have hcode := State.composes_silent he hsilent hx
    rw [← htype] at hcode
    exact ⟨f,hf,.of_type (not_mem_of_code hcode)⟩
  have hnone : s.publishes i e = [] := by
    unfold State.publishes
    split
    · cases hsilent
    · rfl
  refine ⟨fun bytes hbytes => ?_,?_⟩
  · obtain ⟨f,rfl,hf⟩ := hmeans bytes hbytes
    exact ⟨f,rfl,hf.published ▸ hf⟩
  · rw [hnone,List.filterMap_eq_nil_iff]
    intro bytes hbytes
    obtain ⟨f,rfl,hf⟩ := hmeans bytes hbytes
    exact hf.published

theorem tells_publish (topic : Text) {message : List UInt8} {flags : ℕ} (now : ℤ)
    (hvalid : Utf8.Valid message) (hflags : flags < 8) :
    Tells (s.writes i (.call (.publish topic message flags) now))
      (s.publishes i (.call (.publish topic message flags) now)) := by
  cases hlength : writeUInt 2 (Utf8.encode topic).length with
  | none =>
    refine tells_of_nil (State.writes_nil ?_ i) ?_
    · simp [State.frame?,State.composes,Call.frame,hlength]
    · simp [State.publishes,State.publish,hlength]
  | some length =>
    have hwrites : s.writes i (.call (.publish topic message flags) now) =
        s.wire i (frameBytes FrameType.publish.code (length ++ Utf8.encode topic ++ message) flags
          (s.generateMsgId now).1) := by
      simp [State.writes,State.frame?,State.composes,Call.frame,hlength,Event.now?]
    have hpublish : s.publish topic message flags now = s.sendFrame FrameType.publish.code
        (length ++ Utf8.encode topic ++ message) flags now := by
      simp [State.publish,hlength]
    rcases s.sendFrame_cases FrameType.publish.code (length ++ Utf8.encode topic ++ message)
      flags now with ⟨h,hno⟩ | ⟨h,hb⟩ | ⟨j,bytes,hj,hc,hb,h⟩ <;> rw [h] at hpublish
    · exact tells_of_nil (hwrites.trans (State.wire_unconnected hno _))
        (by simp only [State.publishes,hpublish])
    · refine tells_of_nil ?_ (by simp only [State.publishes,hpublish])
      rw [hwrites,hb,State.wire]
      simp
    · obtain ⟨f,rfl,hf⟩ := frame_of_publish hlength hvalid hflags hb
      rw [State.wire,hc,hb] at hwrites
      by_cases hlive : s.socket = some i ∧ (s.sockets i).destroyed = false
      · rw [if_pos ⟨hlive.1,rfl,hlive.2⟩] at hwrites
        simp only [hwrites,State.publishes,hpublish,if_pos hlive]
        exact .of_frame hf
      · rw [if_neg fun h => hlive ⟨h.1,h.2.2⟩] at hwrites
        exact tells_of_nil hwrites (by simp only [State.publishes,hpublish,if_neg hlive])

/-- What is written tells what is published, and leaves nothing of it out. -/
theorem tells_event {e : Event} (he : e.Calls Call.Plain) :
    Tells (s.writes i e) (s.publishes i e) := by
  cases hsilent : e.silent with
  | true => exact tells_silent he hsilent
  | false =>
    unfold Event.silent at hsilent
    split at hsilent
    · exact tells_publish _ _ he.1 he.2
    · cases hsilent

theorem tells_written {options : Options} {events : List Event}
    (hcalls : ∀ e ∈ events, e.Calls Call.Plain) {s : State}
    (hs : run step (init options) events = some s) (i : ℕ) : Tells (s.sockets i).written
      ((steps step (init options) events).flatMap fun p => p.1.publishes i p.2) := by
  rw [written_eq hs i]
  exact .flatMap fun p hp => tells_event (hcalls p.2 (mem_of_mem_steps hp))

/-- In every run of calls of the publishing interface: each of the three clients that has read any
beginning of what a socket has been given has had its message callback called with a beginning of
the topics and messages of the `publish` calls that returned an id while the socket was the client's
and not destroyed, in their order, and with all of them once it has read everything. -/
theorem published_heard (options : Options) (events : List Event)
    (hcalls : ∀ e ∈ events, e.Calls Call.Plain) :
    ∀ s ∈ run step (init options) events, ∀ i (receiver : Client) (chunks : List (List UInt8)),
      (chunks.flatten <+: (s.sockets i).written.flatten →
        (receiver.receive chunks).out.filterMap Emission.message? <+:
          (steps step (init options) events).flatMap fun p => p.1.publishes i p.2) ∧
      (chunks.flatten = (s.sockets i).written.flatten →
        (receiver.receive chunks).out.filterMap Emission.message? =
          (steps step (init options) events).flatMap fun p => p.1.publishes i p.2) := by
  intro s hs i receiver chunks
  exact (tells_written hcalls hs i).heard receiver chunks

theorem published_heard_one : ∃ s ∈ run step (init {}) disconnectedRun,
    ∀ (receiver : Client) (chunks : List (List UInt8)),
      chunks.flatten = (s.sockets 0).written.flatten →
      (receiver.receive chunks).out.filterMap Emission.message? = [(['t'],['m'])] := by
  have hrun : (run step (init {}) disconnectedRun).isSome ∧
      ((steps step (init {}) disconnectedRun).flatMap fun p => p.1.publishes 0 p.2) =
        [(['t'],['m'])] := by
    decide +kernel
  have hplain : ∀ e ∈ disconnectedRun, e.Calls Call.Plain := by
    simp only [disconnectedRun,List.forall_mem_cons]
    exact ⟨trivial,trivial,trivial,⟨⟨['m'],rfl⟩,by decide⟩,fun _ h => (by cases h)⟩
  obtain ⟨s,hs⟩ := Option.isSome_iff_exists.mp hrun.1
  refine ⟨s,hs,fun receiver chunks hchunks => ?_⟩
  rw [(published_heard {} disconnectedRun hplain s hs 0 receiver chunks).2 hchunks,hrun.2]

end Ts
end MipClients
