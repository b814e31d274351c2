import Mathlib.Data.Set.List
import MipClients.Interoperability

/-! What a receiver has called when it has read a part of a stream of frames, wherever the part ends
and however it came in chunks. The stream may hold CLOSE frames and text that is not UTF-8. -/
namespace MipClients

open StreamDecoder
open Wire (Frame FrameInfo Fault Emission)

/-- A part of a stream of blocks ends behind some of them, or inside the next. -/
theorem StreamDecoder.exists_cut {α β : Type*} {block : β → List α} {xs : List β} {s : List α}
    (h : s <+: xs.flatMap block) : ∃ whole later tail, xs = whole ++ later ∧
      s = whole.flatMap block ++ tail ∧
      (tail = [] ∨ ∃ next after rest, later = next :: after ∧ block next = tail ++ rest ∧
        rest ≠ []) := by
  induction xs generalizing s with
  | nil => exact ⟨[],[],[],rfl,List.prefix_nil.mp h,.inl rfl⟩
  | cons x xs ih =>
    obtain ⟨t,ht⟩ := h
    rw [List.flatMap_cons] at ht
    rcases List.append_eq_append_iff.mp ht with ⟨a,hx,-⟩ | ⟨c,rfl,hc⟩
    · cases a with
      | nil =>
        rw [List.append_nil] at hx
        exact ⟨[x],xs,[],rfl,by simp [hx],.inl rfl⟩
      | cons b a => exact ⟨[],x :: xs,s,rfl,rfl,.inr ⟨x,xs,b :: a,rfl,hx,nofun⟩⟩
    · obtain ⟨whole,later,tail,rfl,rfl,hcut⟩ := ih ⟨t,hc.symm⟩
      exact ⟨x :: whole,later,tail,rfl,by simp,hcut⟩

theorem StreamDecoder.exists_blocks {α β : Type*} {block : β → α} {P : β → Prop} {xs : List α}
    (h : ∀ x ∈ xs, ∃ b, block b = x ∧ P b) : ∃ bs : List β, bs.map block = xs ∧ ∀ b ∈ bs, P b := by
  let blocks : {b : β // P b} → α := fun b => block b.1
  have hblocks : xs ∈ Set.range (List.map blocks) := by
    rw [Set.range_list_map]
    intro x hx
    obtain ⟨b,hb,hP⟩ := h x hx
    exact ⟨⟨b,hP⟩,hb⟩
  obtain ⟨bs,hbs⟩ := hblocks
  refine ⟨bs.map Subtype.val,by rw [List.map_map]; exact hbs,fun b hb => ?_⟩
  obtain ⟨y,-,rfl⟩ := List.mem_map.mp hb
  exact y.2

theorem Wire.Emission.frame?_map {H H' E E' : Type} (g : H → H') (k : E → E') (e : Emission H E) :
    (e.map g k).frame? = e.frame?.map fun p => (g p.1,p.2) := by
  cases e <;> rfl

theorem Wire.Emission.filterMap_frame?_map {H H' E E' : Type} (g : H → H') (k : E → E')
    (l : List (Emission H E)) : (l.map (Emission.map g k)).filterMap Emission.frame? =
      (l.filterMap Emission.frame?).map fun p => (g p.1,p.2) := by
  rw [List.filterMap_map,List.map_filterMap]
  exact List.filterMap_congr fun e _ => e.frame?_map g k

/-! The raw frame callback comes once for every frame, whatever its type and text. -/

theorem Rust.processFrame_frame? (header : Rust.Header) (payload : List UInt8) :
    (Rust.processFrame header payload).filterMap Emission.frame? = [(header,payload)] := by
  unfold Rust.processFrame
  cases header.frameType <;> cases Rust.parseMessage header payload <;> rfl

theorem Ts.processFrame_frame? (header : Ts.FrameHeader) (payload : List UInt8) :
    (Ts.processFrame header payload).filterMap Emission.frame? = [(header,payload)] := by
  unfold Ts.processFrame
  cases Ts.parseMessage header payload <;> dsimp only <;> split_ifs <;> rfl

/-- The stream of the latest connection: its chunks, and how many emissions were before it. -/
structure Stream where
  chunks : List (List UInt8) := []
  base : ℕ := 0

/-- The record of a run: a connection that opens starts another stream. -/
def Stream.next (r : Stream) (opened : Prop) [Decidable opened] (emitted : ℕ)
    (data : Option (List UInt8)) : Stream :=
  if opened then { base := emitted } else { r with chunks := r.chunks ++ data.toList }

namespace Client

/-- The calls that a receiver makes for a frame: the Rust client only logs a CLOSE. -/
def calls (c : Client) (f : Frame) : List (Emission FrameInfo Fault) :=
  if c = .rust then f.calls.filter (· ≠ .close) else f.calls

theorem calls_eq (c : Client) {f : Frame} (h : f.frameType ≠ .close) : c.calls f = f.calls := by
  have hne : ∀ e ∈ f.calls, e ≠ .close := by
    intro e he
    unfold Wire.Frame.calls at he
    cases ht : f.frameType <;> simp only [ht] at he h <;> cases hm : f.message? <;>
      simp_all
    all_goals rcases he with rfl | rfl | rfl <;> nofun
  unfold calls
  split_ifs
  · exact List.filter_eq_self.mpr fun e he => by simpa using hne e he
  · rfl

theorem rust_calls {f : Frame} (htext : f.TextValid) :
    (Rust.processFrame (Rust.headerOf f) f.payload).map (Emission.map Rust.Header.info
      Rust.MIPError.fault) = calls .rust f := by
  by_cases hclose : f.frameType = .close
  · have htype : (Rust.headerOf f).frameType = .close := hclose
    simp only [Rust.processFrame,htype,calls,Wire.Frame.calls,hclose,List.map_cons,List.map_nil,
      Emission.map,Rust.info_headerOf f]
    rfl
  · rw [Rust.processFrame_calls f hclose htext,calls_eq .rust hclose]

theorem ts_calls {f : Frame} (htext : f.TextValid) :
    (Ts.processFrame (Ts.headerOf f) f.payload).map (Emission.map Ts.FrameHeader.info
      Ts.MIPError.fault) = calls .ts f := by
  by_cases hclose : f.frameType = .close
  · have htype : (Ts.headerOf f).frameType = Wire.FrameType.close.code :=
      congrArg Wire.FrameType.code hclose
    have hcalls : calls .ts f = [.frame f.info f.payload,.close] := by
      simp only [calls,Wire.Frame.calls,hclose]
      rfl
    rw [hcalls]
    unfold Ts.processFrame
    rw [htype]
    rfl
  · rw [Ts.processFrame_calls f hclose htext,calls_eq .ts hclose]

theorem python_calls {f : Frame} (htext : f.TextValid) :
    ∃ out, Py.processFrame (Py.headerOf f) f.payload = .frame out ∧
      out.map (Emission.map Py.FrameHeader.info Py.MIPError.fault) = calls .python f := by
  by_cases hclose : f.frameType = .close
  · have htype : (Py.headerOf f).frameType = .close := hclose
    have hcalls : calls .python f = [.frame f.info f.payload,.close] := by
      simp only [calls,Wire.Frame.calls,hclose]
      rfl
    refine ⟨[.frame (Py.headerOf f) f.payload,.close],?_,hcalls.symm⟩
    simp only [Py.processFrame,Py.dispatch,htype]
  · obtain ⟨out,hout,hcalls⟩ := Py.processFrame_calls f hclose htext
    exact ⟨out,hout,hcalls.trans (calls_eq .python hclose).symm⟩

theorem calls_frame? (c : Client) (f : Frame) :
    (c.calls f).filterMap Emission.frame? = [(f.info,f.payload)] := by
  unfold calls
  split_ifs
  · unfold Wire.Frame.calls
    cases f.frameType <;> cases f.message? <;> rfl
  · exact f.calls_frame?

/-- What the clients make of whole frames and a proper prefix of one more. The Python client raises
on text that is not UTF-8. -/
theorem receive_frames (c : Client) {sent : List Frame} {next : Frame}
    (htext : c = .python → ∀ f ∈ sent, f.TextValid) {tail rest : List UInt8}
    (ht : next.bytes = tail ++ rest) (hr : rest ≠ []) {chunks : List (List UInt8)}
    (hchunks : chunks.flatten = sent.flatMap Frame.bytes ++ tail) :
    (c.receive chunks).out.filterMap Emission.frame? = sent.map (fun f => (f.info,f.payload)) ∧
      (c.receive chunks).buffer = tail ∧ (c.receive chunks).raised = false ∧
      ((∀ f ∈ sent, f.TextValid) → (c.receive chunks).out = sent.flatMap c.calls) := by
  have hbytes : Frame.bytes = fun f => f.header.toList ++ f.payload := funext Frame.bytes_eq
  rw [hbytes] at ht hchunks
  have hmap : ∀ {H E : Type} (report : Frame → List (Emission H E)) (g : H → FrameInfo)
      (e : E → Fault), (∀ f ∈ sent, f.TextValid → (report f).map (Emission.map g e) = c.calls f) →
      (∀ f ∈ sent, f.TextValid) →
      (sent.flatMap report).map (Emission.map g e) = sent.flatMap c.calls := by
    intro H E report g e h hvalid
    rw [List.map_flatMap]
    exact List.flatMap_congr fun f hf => h f hf (hvalid f hf)
  have hframes : ∀ {H E : Type} (report : Frame → List (Emission H E)) (g : H → FrameInfo)
      (e : E → Fault), (∀ f ∈ sent, ((report f).map (Emission.map g e)).filterMap Emission.frame? =
        [(f.info,f.payload)]) →
      ((sent.flatMap report).map (Emission.map g e)).filterMap Emission.frame? =
        sent.map fun f => (f.info,f.payload) := by
    intro H E report g e h
    rw [List.map_flatMap,List.filterMap_flatMap,List.map_eq_flatMap]
    exact List.flatMap_congr h
  cases c with
  | rust =>
    have hfeed := Framing.feed_frames (F := Rust.framing) (fun f : Frame => Rust.good_header f)
      (fun f => Rust.length_header f) (fun f _ => Rust.act_header f) ht hr hchunks
    rw [receive,Rust.readChunks,hfeed,Result.map]
    refine ⟨hframes _ _ _ fun f _ => ?_,rfl,rfl,hmap _ _ _ fun f _ => rust_calls⟩
    rw [Emission.filterMap_frame?_map,Rust.processFrame_frame?,List.map_singleton,
      Rust.info_headerOf]
  | ts =>
    have hfeed := Framing.feed_frames (F := Ts.framing) (fun f : Frame => Ts.good_header f)
      (fun f => Ts.length_header f) (fun f _ => Ts.act_header f) ht hr hchunks
    rw [receive,Ts.handleChunks,hfeed,Result.map]
    refine ⟨hframes _ _ _ fun f _ => ?_,rfl,rfl,hmap _ _ _ fun f _ => ts_calls⟩
    rw [Emission.filterMap_frame?_map,Ts.processFrame_frame?,List.map_singleton]
    rfl
  | python =>
    have hvalid := htext rfl
    have hact : ∀ f ∈ sent, Py.framing.act f.header f.payload =
        .frame (Py.processFrame (Py.headerOf f) f.payload).out := by
      intro f hf
      obtain ⟨out,hout,-⟩ := python_calls (hvalid f hf)
      rw [Py.act_header,hout]
      rfl
    have hcalls : ∀ f ∈ sent, (Py.processFrame (Py.headerOf f) f.payload).out.map
        (Emission.map Py.FrameHeader.info Py.MIPError.fault) = calls .python f := by
      intro f hf
      obtain ⟨out,hout,hcalls⟩ := python_calls (hvalid f hf)
      rw [hout]
      exact hcalls
    have hfeed := Framing.feed_frames (F := Py.framing) (fun f : Frame => Py.good_header f)
      (fun f => Py.length_header f) hact ht hr hchunks
    rw [receive,Py.handleChunks,hfeed,Result.map]
    refine ⟨hframes _ _ _ fun f hf => ?_,rfl,rfl,hmap _ _ _ fun f hf _ => hcalls f hf⟩
    rw [hcalls f hf,calls_frame?]

/-- What a client has called for the part of a stream that it has read: the raw frame callback once
for each frame that has arrived whole, in order and with what was sent, and, where all text is
valid, all the calls of these frames and no others. The next frame's bytes wait in the buffer. -/
def Reads (c : Client) (sent : List Frame) : Prop :=
  ∀ chunks : List (List UInt8), chunks.flatten <+: sent.flatMap Frame.bytes →
    ∃ whole later tail, sent = whole ++ later ∧
      chunks.flatten = whole.flatMap Frame.bytes ++ tail ∧
      (tail = [] ∨ ∃ next after rest, later = next :: after ∧ next.bytes = tail ++ rest ∧
        rest ≠ []) ∧
      (c.receive chunks).out.filterMap Emission.frame? =
        whole.map (fun f => (f.info,f.payload)) ∧
      (c.receive chunks).buffer = tail ∧ (c.receive chunks).raised = false ∧
      ((∀ f ∈ whole, f.TextValid) → (c.receive chunks).out = whole.flatMap c.calls)

theorem receive_all (c : Client) {sent : List Frame}
    (htext : c = .python → ∀ f ∈ sent, f.TextValid) {chunks : List (List UInt8)}
    (hchunks : chunks.flatten = sent.flatMap Frame.bytes) :
    (c.receive chunks).out.filterMap Emission.frame? = sent.map (fun f => (f.info,f.payload)) ∧
      (c.receive chunks).buffer = [] ∧ (c.receive chunks).raised = false ∧
      ((∀ f ∈ sent, f.TextValid) → (c.receive chunks).out = sent.flatMap c.calls) := by
  have hne : eventFrame.bytes ≠ [] := by
    rw [Wire.Frame.bytes,eventFrame]
    exact fun h => by cases h
  exact c.receive_frames htext (List.nil_append _).symm hne
    (hchunks.trans (List.append_nil _).symm)

theorem reads (c : Client) {sent : List Frame} (htext : c = .python → ∀ f ∈ sent, f.TextValid) :
    c.Reads sent := by
  intro chunks hread
  obtain ⟨whole,later,tail,rfl,hchunks,hcut⟩ := exists_cut hread
  have hwhole : c = .python → ∀ f ∈ whole, f.TextValid := fun hc f hf =>
    htext hc f (List.mem_append_left later hf)
  have hnext : ∃ next rest, Frame.bytes next = tail ++ rest ∧ rest ≠ [] := by
    rcases hcut with rfl | ⟨next,after,rest,-,ht,hr⟩
    · have hne : eventFrame.bytes ≠ [] := by
        rw [Wire.Frame.bytes,eventFrame]
        exact fun h => by cases h
      exact ⟨eventFrame,_,rfl,hne⟩
    · exact ⟨next,rest,ht,hr⟩
  obtain ⟨next,rest,ht,hr⟩ := hnext
  obtain ⟨hframes,hbuffer,hraised,hcalls⟩ := c.receive_frames hwhole ht hr hchunks
  exact ⟨whole,later,tail,rfl,hchunks,hcut,hframes,hbuffer,hraised,hcalls⟩

end Client
end MipClients
