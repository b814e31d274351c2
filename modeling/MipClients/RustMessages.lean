import MipClients.Messages
import MipClients.RustShutdown

/-! From `publish` on a Rust client to the message callbacks of whoever reads its connection: on a
connection that has been shut down in order, each receiver's message callback is called with the
topics and messages of the successful `publish` calls and nothing else. -/
namespace MipClients

open Utf8 (Text)
open Wire (Emission Frame FrameType FrameInfo Fault)

namespace Rust

open State Transition

def Call.note : Call → Option (Text × Text)
  | .publish topic message _ => some (topic,message)
  | _ => none

/-- The calls of the publishing interface: no raw frames, defined flags, and a payload and a topic
that fit their length fields. -/
def Call.Plain (call : Call) : Prop :=
  call.Fits ∧ match call with
    | .publish topic _ _ => (Utf8.encode topic).length < 2 ^ 16
    | .sendRawFrame _ _ _ => False
    | _ => True

instance : DecidablePred Call.Plain
  | .publish _ _ _ => inferInstanceAs (Decidable (_ ∧ _))
  | .sendRawFrame _ _ _ => inferInstanceAs (Decidable (_ ∧ False))
  | .subscribe _ _ | .unsubscribe _ _ | .ping => inferInstanceAs (Decidable (_ ∧ True))

def published (c : ℕ) (xs : List (Call × Outcome)) : List (Text × Text) :=
  xs.filterMap fun x => match x.2 with
    | .ok d _ => if d = c then x.1.note else none
    | .notConnected => none

theorem publishPayload_eq {topic : Text} (h : (Utf8.encode topic).length < 2 ^ 16)
    (message : Text) :
    publishPayload topic message = Publish.payload topic message := by
  rw [publishPayload,Nat.mod_eq_of_lt h]
  rfl

theorem Call.Plain.exists_frame {call : Call} (h : call.Plain) (msgId : UInt64) :
    ∃ f : Frame, f.bytes = call.bytes msgId ∧ f.Says call.note := by
  obtain ⟨⟨hflags,hlength⟩,hplain⟩ := h
  obtain ⟨f,hf,htype,hpayload⟩ := Rust.exists_frame call.frame.1 hflags hlength msgId
  refine ⟨f,hf,?_⟩
  cases call with
  | publish topic message flags =>
    have hsplit : Wire.splitPayload f.payload =
        some (Utf8.encode topic,Utf8.encode message) := by
      rw [hpayload]
      exact (congrArg Wire.splitPayload (publishPayload_eq hplain message)).trans
        (Publish.splitPayload_payload hplain message)
    have hmeans := Frame.Says.of_publish htype hsplit ⟨message,rfl⟩
    rwa [Utf8.text_encode] at hmeans
  | sendRawFrame frameType payload flags => exact hplain.elim
  | subscribe topic requireAck =>
    have htype : f.frameType = .subscribe := htype
    exact .of_type (by rw [htype]; decide)
  | unsubscribe topic requireAck =>
    have htype : f.frameType = .unsubscribe := htype
    exact .of_type (by rw [htype]; decide)
  | ping => exact .of_type (by rw [htype]; decide)

/-- What is published by a command in a channel, and by which caller. -/
def publication? : Source × List UInt8 → Option (ℕ × Text × Text)
  | (.caller k,data) => (published? data).map (k,·)
  | _ => none

def Readable (source : Source) (f : Frame) : Prop :=
  f.Says ((publication? (source,f.bytes)).map Prod.snd)

theorem Readable.of_type {source : Source} {f : Frame} {frameType : FrameType}
    (h : f.frameType = frameType) (hs : ∀ k, source ≠ .caller k)
    (ht : frameType ∉ [.publish,.event,.error]) : Readable source f := by
  have hnone : (publication? (source,f.bytes)).map Prod.snd = none := by
    cases source with
    | caller k => exact absurd rfl (hs k)
    | _ => rfl
  rw [Readable,hnone]
  exact .of_type (h ▸ ht)

theorem Composed.readable {clientId : Text} (hid : (Utf8.encode clientId).length < 2 ^ 32)
    {source : Source} {data : List UInt8} (h : Composed clientId Call.Plain source data) :
    ∃ f : Frame, f.bytes = data ∧ Readable source f := by
  have hnone : FrameFlags.none.Defined := by decide
  cases h with
  | hello msgId =>
    obtain ⟨f,hf,htype,-⟩ := Rust.exists_frame .hello hnone hid msgId
    exact ⟨f,hf,.of_type htype nofun (by decide)⟩
  | close msgId =>
    obtain ⟨f,hf,htype,-⟩ := exists_header_frame .close msgId
    exact ⟨f,hf,.of_type htype nofun (by decide)⟩
  | ping msgId =>
    obtain ⟨f,hf,htype,-⟩ := exists_header_frame .ping msgId
    exact ⟨f,hf,.of_type htype nofun (by decide)⟩
  | caller k call msgId hplain =>
    obtain ⟨f,hf,hmeans⟩ := hplain.exists_frame msgId
    refine ⟨f,hf,hmeans.textValid,hmeans.not_event,?_⟩
    rw [publication?,Option.map_map]
    exact Option.map_id'.symm

theorem filterMap_publication (k : ℕ) (xs : List (Source × List UInt8)) :
    ((xs.filterMap publication?).filter fun x => x.1 = k).map Prod.snd =
      ((xs.filter fun x => x.1 = .caller k).map Prod.snd).filterMap published? := by
  induction xs with
  | nil => rfl
  | cons x xs ih =>
    obtain ⟨source,data⟩ := x
    cases source with
    | caller j =>
      cases hp : published? data <;> by_cases hj : j = k <;>
        simpa [publication?,hp,hj] using ih
    | _ =>
      rw [List.filterMap_cons_none (by rfl)]
      simpa using ih

theorem published_eq (c : ℕ) {xs : List (Call × Outcome)} (h : ∀ x ∈ xs, x.1.Plain) :
    (returnedFrames c xs).filterMap published? = published c xs := by
  rw [returnedFrames,published,List.filterMap_filterMap]
  refine List.filterMap_congr fun x hx => ?_
  cases x.2 with
  | notConnected => rfl
  | ok d msgId =>
    dsimp only
    split_ifs
    · obtain ⟨f,hf,hmeans⟩ := (h x hx).exists_frame msgId
      rw [← hf]
      exact hmeans.published
    · rfl

/-- What has been published on a connection and written to it, and by which callers. -/
def State.delivered (s : State) (c : ℕ) : List (ℕ × Text × Text) :=
  (s.connections c).written.filterMap publication?

theorem State.filter_delivered (s : State) (c k : ℕ) :
    ((s.delivered c).filter fun x => x.1 = k).map Prod.snd =
      ((s.connections c).writtenFor k).filterMap published? := by
  rw [delivered,filterMap_publication,Connection.writtenFor]

namespace Composing

variable {clientId : Text} {s : State}

/-- What has been written tells what has been published, and leaves nothing of it out. -/
theorem tells (hI : Composing clientId Call.Plain s) (hid : (Utf8.encode clientId).length < 2 ^ 32)
    (c : ℕ) : Tells ((s.connections c).written.map Prod.snd) ((s.delivered c).map Prod.snd) := by
  obtain ⟨sent,hsent,hreadable⟩ := hI.exists_sent (R := Readable) (fun _ _ h => h.readable hid) c
  have hframes : (s.connections c).written.map Prod.snd = sent.map fun x => x.2.bytes := by
    rw [← hsent,List.map_map]
    rfl
  refine ⟨fun bytes hbytes => ?_,?_⟩
  · rw [hframes,List.mem_map] at hbytes
    obtain ⟨x,hx,rfl⟩ := hbytes
    have hx := hreadable x hx
    exact ⟨x.2,rfl,hx.published ▸ hx⟩
  · rw [hframes,State.delivered,← hsent,List.filterMap_map,List.filterMap_map,List.map_filterMap]
    exact List.filterMap_congr fun x hx => (hreadable x hx).published

/-- On a connection that has been shut down in order all of it has. -/
theorem delivered_eq (hI : Composing clientId Call.Plain s) (hD : Draining s) {c : ℕ}
    (hw : (s.connections c).write = .closing ∨ (s.connections c).write = .ended false) (k : ℕ) :
    ((s.delivered c).filter fun x => x.1 = k).map Prod.snd = published c (s.returned k) := by
  rw [s.filter_delivered,hD.callers_written hI.streams hw,published_eq c (hI.returned k)]

end Composing

/-- In every run in which the sending methods borrow the client, send no raw frames and are given
topics and messages that fit: on a connection whose write half has been shut down with no write
having failed, each of the three clients that has read the stream to its end has had its message
callback called with exactly the topics and messages of the `publish` calls that returned an id
there, those of each caller in their order. -/
theorem publishes_delivered (options : MIPClientOptions) (events : List Event)
    (hid : (Utf8.encode options.clientId).length < 2 ^ 32)
    (hB : ∀ p ∈ steps Rust.step (init options) events, Lent p.1 p.2)
    (hcalls : ∀ p ∈ steps Rust.step (init options) events, p.2.Starts Call.Plain) :
    ∀ s ∈ states Rust.step (init options) events, ∀ c,
      (s.connections c).write = .closing ∨ (s.connections c).write = .ended false →
      ∃ delivered : List (ℕ × Text × Text),
        (∀ k, (delivered.filter fun x => x.1 = k).map Prod.snd = published c (s.returned k)) ∧
        ∀ (receiver : Client) (chunks : List (List UInt8)),
          chunks.flatten = ((s.connections c).written.map Prod.snd).flatten →
          (receiver.receive chunks).out.filterMap Emission.message? = delivered.map Prod.snd := by
  intro s hs c hw
  have hC := composing hcalls s hs
  have hD : Draining s := invariant_of_steps (C := Lent) (fun _ _ _ hI hC h => hI.step hC h)
    (draining_init options) hB s hs
  exact ⟨s.delivered c,hC.delivered_eq hD hw,fun receiver chunks hchunks =>
    ((hC.tells hid c).heard receiver chunks).2 hchunks⟩

theorem publishes_delivered_one : ∃ s ∈ run Rust.step (init {}) deliveredRun,
    ∃ delivered : List (ℕ × Text × Text),
      (delivered.filter fun x => x.1 = 0).map Prod.snd = [(['t'],['m'])] ∧
      ∀ (receiver : Client) (chunks : List (List UInt8)),
        chunks.flatten = ((s.connections 0).written.map Prod.snd).flatten →
        (receiver.receive chunks).out.filterMap Emission.message? = delivered.map Prod.snd := by
  have hrun : ∃ s ∈ run Rust.step (init {}) deliveredRun,
      (s.connections 0).write = .ended false ∧ published 0 (s.returned 0) = [(['t'],['m'])] := by
    decide +kernel
  obtain ⟨s,hs,hw,hpublished⟩ := hrun
  obtain ⟨delivered,hcaller,hread⟩ := publishes_delivered {} deliveredRun (by decide)
    (by decide +kernel) (by decide +kernel) s (run_mem_states hs) 0 (.inr hw)
  exact ⟨s,hs,delivered,(hcaller 0).trans hpublished,hread⟩

end Rust
end MipClients
