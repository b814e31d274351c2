import MipClients.PyMessages
import MipClients.RustMessages
import MipClients.RustReceive
import MipClients.TsDecoding
import MipClients.TsMessages

/-! From `publish` on one client to the message callbacks of another: each is at work in any
interleaving of its own calls, tasks and host events, and what is between them passes the bytes on
in their order. -/
namespace MipClients

open Transition
open Utf8 (Text)
open Wire (Emission)

def alone (notes : List (Text × Text)) (caller : ℕ) : List (Text × Text) :=
  if caller = 0 then notes else []

/-- A client that publishes: what it has written to a connection, what each caller has published
there, and whether the connection has been shut down in order, so that nothing is left in a channel.
The sending methods of the Rust client are called side by side, each while it borrows the client. -/
inductive Publishes : List (List UInt8) → (ℕ → List (Text × Text)) → Prop → Prop
  | rust (options : Rust.MIPClientOptions) (events : List Rust.Event)
      (hid : (Utf8.encode options.clientId).length < 2 ^ 32)
      (hlent : ∀ p ∈ steps Rust.step (Rust.init options) events, Rust.Lent p.1 p.2)
      (hcalls : ∀ p ∈ steps Rust.step (Rust.init options) events, p.2.Starts Rust.Call.Plain)
      {s : Rust.State} (hs : s ∈ states Rust.step (Rust.init options) events) (c : ℕ) :
      Publishes ((s.connections c).written.map Prod.snd)
        (fun caller => Rust.published c (s.returned caller))
        ((s.connections c).write = .closing ∨ (s.connections c).write = .ended false)
  | ts (options : Ts.Options) (events : List Ts.Event)
      (hcalls : ∀ e ∈ events, e.Calls Ts.Call.Plain) {s : Ts.State}
      (hs : s ∈ run Ts.step (Ts.init options) events) (i : ℕ) :
      Publishes (s.sockets i).written (alone
        ((steps Ts.step (Ts.init options) events).flatMap fun p => p.1.publishes i p.2)) True
  | python (options : Py.Options) (events : List Py.Event)
      (hcalls : ∀ e ∈ events, e.Calls Py.Call.Plain) {s : Py.State}
      (hs : s ∈ run Py.step (Py.init options) events) (c : ℕ) :
      Publishes (s.connections c).written (alone
        ((steps Py.step (Py.init options) events).flatMap fun p => p.1.publishes c p.2)) True

/-- A client that reads: the chunks it has been handed on its latest connection, or on any in the
Rust client, what its message callbacks have been called with for them, and whether it is through
with them. -/
inductive Receives : List (List UInt8) → List (Text × Text) → Prop → Prop
  | rust (options : Rust.MIPClientOptions) (events : List Rust.Event)
      {x : Rust.State × (ℕ → List (List UInt8))}
      (hx : x ∈ states Rust.readingStep (Rust.init options,fun _ => []) events) (c : ℕ) :
      Receives (x.2 c) ((x.1.connections c).emitted.filterMap Emission.message?)
        (x.1.connections c).CaughtUp
  | ts (options : Ts.Options) (events : List Ts.Event)
      (hU : ∀ p ∈ steps Ts.step (Ts.init options) events, Ts.Undisturbed p.1 p.2)
      {x : Ts.State × Stream} (hx : x ∈ states Ts.decodingStep (Ts.init options,{}) events) :
      Receives x.2.chunks ((x.1.emissions.drop x.2.base).filterMap Emission.message?)
        (x.1.cont = none)
  | python (options : Py.Options) (events : List Py.Event) {x : Py.State × Stream}
      (hx : x ∈ states Py.decodingStep (Py.init options,{}) events) :
      Receives x.2.chunks ((x.1.received.drop x.2.base).filterMap Emission.message?) True

section

variable {written chunks : List (List UInt8)} {callers : ℕ → List (Text × Text)}
  {notes messages : List (Text × Text)} {whole through : Prop}

/-- The message callbacks of a client at work are those of the decoder for what it was handed. -/
theorem Receives.heard (h : Receives chunks messages through) (htells : Tells written notes)
    (hchunks : chunks.flatten <+: written.flatten) : ∃ receiver : Client,
      messages <+: (receiver.receive chunks).out.filterMap Emission.message? ∧
      (through → messages = (receiver.receive chunks).out.filterMap Emission.message?) := by
  cases h with
  | rust options events hx c =>
    have hI := (Rust.receiving options events _ hx).decoded c
    have hreceive := (congrArg (List.filterMap Emission.message?) hI.emits).trans
      (Emission.filterMap_message?_map Rust.Header.info Rust.MIPError.fault _).symm
    rw [List.filterMap_append] at hreceive
    refine ⟨.rust,⟨_,hreceive⟩,fun hup => ?_⟩
    rw [Rust.handleData_of_waits (hI.waits hup)] at hreceive
    exact (List.append_nil _).symm.trans hreceive
  | ts options events hU hx =>
    have hI := invariant_of_steps (I := Ts.Decoding) (C := fun x e => Ts.Undisturbed x.1 e)
      (fun _ _ _ hI hC h => hI.step hC h) ⟨Nat.zero_le _,rfl,rfl⟩
      ((forall_steps_recorded (C := Ts.Undisturbed) _ _ events).mpr hU) _ hx
    have hemits := congrArg (List.filterMap Emission.message?) hI.emits
    rw [List.filterMap_append,filterMap_message?_filter _ fun _ => rfl,
      filterMap_message?_filter _ fun _ => rfl] at hemits
    have hreceive := hemits.trans (Emission.filterMap_message?_map Ts.FrameHeader.info
      Ts.MIPError.fault _).symm
    refine ⟨.ts,⟨_,hreceive⟩,fun hidle => ?_⟩
    rw [Ts.State.rest,hidle] at hreceive
    exact (List.append_nil _).symm.trans hreceive
  | python options events hx =>
    have hI := Transition.invariant (I := Py.Decoding) (fun _ _ _ hI h => hI.step h)
      ⟨Nat.zero_le _,fun _ => ⟨rfl,rfl⟩⟩ events _ hx
    have hraised := htells.not_raised .python hchunks
    have hsame : _ = (Client.python.receive _).out.filterMap Emission.message? :=
      (congrArg (List.filterMap Emission.message?) (hI.decoded hraised).1).trans
        (Emission.filterMap_message?_map _ _ _).symm
    exact ⟨.python,hsame ▸ List.prefix_refl _,fun _ => hsame⟩

end

end MipClients
