import MipClients.PyProtocol
import MipClients.RustHandleData
import MipClients.TsProtocol

/-! Interoperability: whatever one of the three clients sends, each of them receives, in any
chunks. -/
namespace MipClients

open StreamDecoder
open Wire (Frame FrameInfo Fault Emission)

inductive Client
  | rust | ts | python
  deriving DecidableEq

namespace Client

def encode : Client → Frame → Option (List UInt8)
  | .rust, f => some (Rust.encodeFrame f)
  | .ts, f => Ts.frameBytes f.frameType.code f.payload f.flags f.msgId
  | .python, f => Py.frameBytes f.frameType.code f.payload f.flags f.msgId

/-- The client's data handler fed with the chunks of a connection, its header and error types
read as numbers and texts. -/
def receive : Client → List (List UInt8) → Result UInt8 (Emission FrameInfo Fault)
  | .rust, chunks => (Rust.readChunks chunks).map (Emission.map Rust.Header.info
      Rust.MIPError.fault)
  | .ts, chunks => (Ts.handleChunks chunks).map (Emission.map Ts.FrameHeader.info
      Ts.MIPError.fault)
  | .python, chunks => (Py.handleChunks chunks).map (Emission.map Py.FrameHeader.info
      Py.MIPError.fault)

theorem encode_eq (c : Client) (f : Frame) : c.encode f = some f.bytes := by
  cases c with
  | rust => exact congrArg some (Rust.encodeFrame_eq f)
  | ts => exact Ts.frameBytes_eq f
  | python => exact Py.frameBytes_eq f

theorem encode_all (c : Client) (frames : List Frame) :
    frames.mapM c.encode = some (frames.map Frame.bytes) := by
  induction frames with
  | nil => rfl
  | cons f fs ih => simp [encode_eq,ih]

theorem receive_eq (c : Client) {frames : List Frame} {next : Frame}
    (hclose : ∀ f ∈ frames, f.frameType ≠ .close) (htext : ∀ f ∈ frames, f.TextValid)
    {tail rest : List UInt8} (ht : next.bytes = tail ++ rest) (hr : rest ≠ [])
    {chunks : List (List UInt8)} (hchunks : chunks.flatten = frames.flatMap Frame.bytes ++ tail) :
    c.receive chunks = ⟨frames.flatMap Frame.calls,tail,false⟩ := by
  have hbytes : Frame.bytes = fun f => f.header.toList ++ f.payload := funext Frame.bytes_eq
  rw [hbytes] at ht hchunks
  have hmap : ∀ {H E : Type} (report : Frame → List (Emission H E)) (g : H → FrameInfo)
      (e : E → Fault), (∀ f ∈ frames, (report f).map (Emission.map g e) = f.calls) →
      (frames.flatMap report).map (Emission.map g e) = frames.flatMap Frame.calls := by
    intro H E report g e h
    rw [List.map_flatMap]
    exact List.flatMap_congr h
  cases c with
  | rust =>
    have hfeed := Framing.feed_frames (F := Rust.framing) (fun f : Frame => Rust.good_header f)
      (fun f => Rust.length_header f) (fun f _ => Rust.act_header f) ht hr hchunks
    rw [receive,Rust.readChunks,hfeed,Result.map]
    rw [hmap _ _ _ fun f hf => Rust.processFrame_calls f (hclose f hf) (htext f hf)]
  | ts =>
    have hfeed := Framing.feed_frames (F := Ts.framing) (fun f : Frame => Ts.good_header f)
      (fun f => Ts.length_header f) (fun f _ => Ts.act_header f) ht hr hchunks
    rw [receive,Ts.handleChunks,hfeed,Result.map]
    rw [hmap _ _ _ fun f hf => Ts.processFrame_calls f (hclose f hf) (htext f hf)]
  | python =>
    have hact : ∀ f ∈ frames, Py.framing.act f.header f.payload =
        .frame (Py.processFrame (Py.headerOf f) f.payload).out := by
      intro f hf
      obtain ⟨out,hout,-⟩ := Py.processFrame_calls f (hclose f hf) (htext f hf)
      rw [Py.act_header,hout]
      rfl
    have hcalls : ∀ f ∈ frames, (Py.processFrame (Py.headerOf f) f.payload).out.map
        (Emission.map Py.FrameHeader.info Py.MIPError.fault) = f.calls := by
      intro f hf
      obtain ⟨out,hout,hcalls⟩ := Py.processFrame_calls f (hclose f hf) (htext f hf)
      rw [hout]
      exact hcalls
    have hfeed := Framing.feed_frames (F := Py.framing) (fun f : Frame => Py.good_header f)
      (fun f => Py.length_header f) hact ht hr hchunks
    rw [receive,Py.handleChunks,hfeed,Result.map]
    rw [hmap _ _ _ hcalls]

/-- Every client's frames, followed by a proper prefix of one more and cut into any chunks, make
every client's handler call the raw frame callback once per complete frame, in order and with what
was sent, and make all the callbacks the frames call for and no others. -/
theorem interoperable (sender receiver : Client) (frames : List Frame) (next : Frame)
    (hclose : ∀ f ∈ frames, f.frameType ≠ .close) (htext : ∀ f ∈ frames, f.TextValid) :
    ∃ (encoded : List (List UInt8)) (last : List UInt8),
      frames.mapM sender.encode = some encoded ∧ sender.encode next = some last ∧
      ∀ (tail rest : List UInt8) (chunks : List (List UInt8)), last = tail ++ rest → rest ≠ [] →
        chunks.flatten = encoded.flatten ++ tail →
        ((receiver.receive chunks).out.filterMap Emission.frame? =
            frames.map fun f => (f.info,f.payload)) ∧
          receiver.receive chunks = ⟨frames.flatMap Frame.calls,tail,false⟩ := by
  refine ⟨frames.map Frame.bytes,next.bytes,encode_all sender frames,encode_eq sender next,?_⟩
  intro tail rest chunks hlast hrest hchunks
  have h := receive_eq receiver hclose htext hlast hrest (by rw [hchunks,List.flatMap_def])
  refine ⟨?_,h⟩
  rw [h,List.filterMap_flatMap]
  simp only [Frame.calls_frame?]
  exact List.map_eq_flatMap.symm

def eventFrame : Frame where
  frameType := .event
  flags := 1
  msgId := 7
  payload := [0,1,97,98]
  flags_lt := by decide
  msgId_lt := by decide
  payload_lt := by decide

theorem eventFrame_textValid : eventFrame.TextValid := by
  intro t m h
  have hs : Wire.splitPayload eventFrame.payload =
      some (Utf8.encode ['a'],Utf8.encode ['b']) := by decide
  rw [hs] at h
  simp only [Option.some.injEq,Prod.mk.injEq] at h
  exact ⟨⟨_,h.1⟩,⟨_,h.2⟩⟩

theorem interoperable_eventFrame :
    ∃ (encoded : List (List UInt8)) (last : List UInt8),
      [eventFrame,eventFrame].mapM Client.ts.encode = some encoded ∧
      Client.ts.encode eventFrame = some last ∧
      ∀ (tail rest : List UInt8) (chunks : List (List UInt8)), last = tail ++ rest → rest ≠ [] →
        chunks.flatten = encoded.flatten ++ tail →
        ((Client.python.receive chunks).out.filterMap Emission.frame? =
            [eventFrame,eventFrame].map fun f => (f.info,f.payload)) ∧
          Client.python.receive chunks = ⟨[eventFrame,eventFrame].flatMap Frame.calls,tail,false⟩ :=
  interoperable .ts .python [eventFrame,eventFrame] eventFrame (by decide)
    (by intro f hf; simp at hf; rw [hf]; exact eventFrame_textValid)

end Client

end MipClients
