import MipClients.Framing
import MipClients.RustProtocol

/-! The Rust client's receive path (`client/internals.rs`): `handle_data`, `process_frame` and
`parse_message`. One emission stands for the call of every callback registered for it, in the order
of registration; the read task runs one `handle_data` after the other on its own buffer. -/
namespace MipClients
namespace Rust

open StreamDecoder
open Wire (FrameType Message Emission)
open Utf8 (Text)

inductive MIPError
  | connection (error : String)
  | io
  | notConnected
  | invalidMagic (magic : ℕ)
  | protocol (error : String)
  | maxReconnectAttempts (attempts : UInt32)
  | serverError (error : Text)
  deriving DecidableEq

def MIPError.fault : MIPError → Wire.Fault
  | .serverError error => .server error
  | _ => .client

abbrev MIPMessage := Message Header

def parseMessage (header : Header) (payload : List UInt8) : Option MIPMessage :=
  if payload.length < 2 then none
  else
    let topicLength := BigEndian.field payload 0 2
    if payload.length < 2 + topicLength then none
    else some {
      header := header
      topic := Utf8.decodeLossy ((payload.drop 2).take topicLength)
      message := Utf8.decodeLossy (payload.drop (2 + topicLength)) }

def processFrame (header : Header) (payload : List UInt8) : List (Emission Header MIPError) :=
  .frame header payload :: match header.frameType with
    | .event | .publish => match parseMessage header payload with
      | some msg => (if header.frameType = .event then [.event msg] else []) ++ [.message msg]
      | none => []
    | .ack => [.ack header.msgId.toNat]
    | .pong => [.pong]
    | .error => [.error (.serverError (Utf8.decodeLossy payload))]
    | .close => []
    | _ => []

/-- The loop of `handle_data`: a bad magic empties the buffer, and a header that `try_from` rejects
is drained alone once its payload has arrived. -/
def framing : Framing UInt8 (Emission Header MIPError) where
  size := headerSize
  size_pos := by decide
  good header := header.toList.take 4 = msipMagic.toList
  length header := BigEndian.field header.toList 12 4
  bad header := [.error (.invalidMagic (BigEndian.field header.toList 0 4))]
  keeps := false
  act header payload := match Header.tryFrom header with
    | .error e => .header [.error (.protocol e)]
    | .ok header => .frame (processFrame header payload)

def handleData (buffer : List UInt8) : Result UInt8 (Emission Header MIPError) :=
  run framing.decoder buffer

/-- The read loop's calls of `handle_data`, one after each chunk. -/
def readChunks (chunks : List (List UInt8)) : Result UInt8 (Emission Header MIPError) :=
  feed framing.decoder [] chunks

theorem parseMessage_eq (header : Header) (payload : List UInt8) :
    parseMessage header payload = (Wire.splitPayload payload).map fun p =>
      ⟨header,Utf8.decodeLossy p.1,Utf8.decodeLossy p.2⟩ := by
  unfold parseMessage Wire.splitPayload
  dsimp only
  split_ifs <;> rfl

theorem processFrame_calls (f : Wire.Frame) (hclose : f.frameType ≠ .close) (htext : f.TextValid) :
    (processFrame (headerOf f) f.payload).map (Emission.map Header.info MIPError.fault) =
      f.calls := by
  have hinfo := info_headerOf f
  have htype : (headerOf f).frameType = f.frameType := rfl
  have hid : (headerOf f).msgId.toNat = f.msgId := congrArg Wire.FrameInfo.msgId hinfo
  unfold Wire.Frame.TextValid at htext
  unfold processFrame Wire.Frame.calls
  rw [htype]
  cases ht : f.frameType <;> simp only [ht] at htext hclose ⊢
  case event | publish =>
    rw [parseMessage_eq]
    cases hs : Wire.splitPayload f.payload with
    | none => simp [Emission.map,hinfo,Wire.Frame.message?,hs]
    | some p =>
      have hv := htext p.1 p.2 hs
      simp [Emission.map,Wire.Message.map,hinfo,Wire.Frame.message?,hs,hv.1.decodeLossy_eq,
        hv.2.decodeLossy_eq]
  case error => simp [Emission.map,hinfo,MIPError.fault,htext.decodeLossy_eq]
  all_goals simp_all [Emission.map]

theorem framing_act (v : Vector UInt8 headerSize) (p : List UInt8) :
    framing.act v p = match Header.tryFrom v with
      | .error e => .header [.error (.protocol e)]
      | .ok header => .frame (processFrame header p) := rfl

theorem good_header (f : Wire.Frame) : framing.good f.header = true := by
  simp only [framing,f.header_toList,Wire.take_magic]
  rfl

theorem length_header (f : Wire.Frame) : framing.length f.header = f.payload.length := by
  simp only [framing,f.header_toList]
  exact Wire.field_payloadLength _ f.payload_lt

theorem act_header (f : Wire.Frame) :
    framing.act f.header f.payload = .frame (processFrame (headerOf f) f.payload) := by
  rw [framing_act,tryFrom_header]

theorem framing_ne_fail (v : Vector UInt8 headerSize) (p : List UInt8)
    (out : List (Emission Header MIPError)) : framing.act v p ≠ .fail out := by
  rw [framing_act]
  cases Header.tryFrom v <;> simp

theorem stop_waits (b : List UInt8) (out : List (Emission Header MIPError)) (rest : List UInt8)
    (h : framing.decoder.pass b = .stop out rest) : framing.decoder.pass rest = .wait := by
  obtain ⟨_,-,-,hr⟩ := Framing.pass_stop h
  have hrest : rest = [] := by simpa [framing] using hr
  rw [hrest]
  exact framing.decoder_pass_nil

theorem pass_ne_fail (b : List UInt8) (out : List (Emission Header MIPError)) :
    framing.decoder.pass b ≠ .fail out :=
  Framing.pass_ne_fail framing_ne_fail b out

/-- The raw frame callbacks of a read loop's run, and the buffer it ends with. -/
def delivered (r : Result UInt8 (Emission Header MIPError)) :
    List (Header × List UInt8) × List UInt8 :=
  (r.out.filterMap Emission.frame?,r.buffer)

theorem readChunks_eq_handleData {s : List UInt8}
    (hs : ∀ a c, s = a ++ c → framing.BadHead a → c = []) {cs : List (List UInt8)}
    (hcs : cs.flatten = s) : readChunks cs = handleData s := by
  subst hcs
  have h := feed_eq_run stop_waits pass_ne_fail framing.decoder_pass_nil cs fun a c hac ha =>
    hs a c (by simpa using hac) ((Framing.stopsIn_iff_badHead a).mp ha)
  simpa [readChunks,handleData] using h

/-- After a bad header the bytes that came with it are gone. -/
theorem handleData_buffer_of_badHead {s : List UInt8} (h : framing.BadHead s) :
    (handleData s).buffer = [] ∧ (handleData s).raised = false := by
  obtain ⟨r,o,rest,hp,hb,hr⟩ := ((Framing.stopsIn_iff_badHead s).mpr h).run_buffer
  obtain ⟨_,-,-,hrest⟩ := Framing.pass_stop hp
  exact ⟨hb.trans (by simpa [framing] using hrest),hr⟩

/-- What is delivered and what stays in the buffer depend on the bytes alone exactly when no proper
prefix of the stream already runs into a header with a wrong magic. -/
theorem readChunks_independent_iff (s : List UInt8) :
    (∀ cs cs' : List (List UInt8), cs.flatten = s → cs'.flatten = s →
      delivered (readChunks cs) = delivered (readChunks cs')) ↔
    ∀ a c, s = a ++ c → framing.BadHead a → c = [] := by
  constructor
  · rintro h a c rfl ha
    by_contra hc
    -- the last byte arrives in a chunk of its own, behind everything that was discarded
    obtain ⟨c',x,rfl⟩ : ∃ c' x, c = c' ++ [x] :=
      ⟨c.dropLast,c.getLast hc,(List.dropLast_append_getLast hc).symm⟩
    have hbad : framing.BadHead (a ++ c') :=
      (Framing.stopsIn_iff_badHead _).mp (((Framing.stopsIn_iff_badHead a).mpr ha).append c')
    have hall : framing.BadHead (a ++ (c' ++ [x])) :=
      (Framing.stopsIn_iff_badHead _).mp (((Framing.stopsIn_iff_badHead a).mpr ha).append _)
    have hone : (readChunks [a ++ (c' ++ [x])]).buffer = [] := by
      have hb := handleData_buffer_of_badHead hall
      rw [handleData] at hb
      simp [readChunks,feed,hb.1,hb.2]
    have htwo : (readChunks [a ++ c',[x]]).buffer = [x] := by
      have hb := handleData_buffer_of_badHead hbad
      have hx : run framing.decoder [x] = ⟨[],[x],false⟩ :=
        run_wait (framing.decoder_pass_short (by simp [framing,headerSize]))
      rw [handleData] at hb
      simp [readChunks,feed,hb.1,hb.2,hx]
    have heq := congrArg Prod.snd
      (h [a ++ (c' ++ [x])] [a ++ c',[x]] (by simp) (by simp))
    simp [delivered,hone,htwo] at heq
  · intro hs cs cs' h h'
    rw [readChunks_eq_handleData hs h,readChunks_eq_handleData hs h']

/-- Twenty-four zero bytes and a PONG frame: in one chunk the frame is discarded with the garbage,
in two it is delivered. -/
theorem readChunks_depends_on_chunks :
    ¬∀ cs cs' : List (List UInt8), cs.flatten = cs'.flatten →
      delivered (readChunks cs) = delivered (readChunks cs') := by
  intro h
  have hc := h [List.replicate 24 0 ++ frameBytes .pong [] FrameFlags.none 7]
    [List.replicate 24 0,frameBytes .pong [] FrameFlags.none 7] (by simp)
  revert hc
  decide

end Rust
end MipClients
