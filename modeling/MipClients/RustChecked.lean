import MipClients.Checked
import MipClients.RustHandleData

/-! The Rust client's receive path once more, now with the panics it could run into: each index,
slice, `drain`, `expect` and addition of `handle_data`, `Header::try_from` and `parse_message`
carries its check, for a `usize` of `w` bits, and the loop may be given up before it is done. -/
namespace MipClients
namespace Rust
namespace Panicking

open Checked
open StreamDecoder (Framing Result)
open Wire (Emission)

def tryFrom (buf : Vector UInt8 headerSize) : Checked (Except String Header) := do
  let magic ← slice buf.toList 0 4
  if magic ≠ msipMagic.toList then return .error "invalid magic"
  else
    let version ← index buf.toList 4
    if version ≠ msipVersion then return .error "unsupported version"
    else
      let flags := FrameFlags.fromBitsTruncate (← index buf.toList 5)
      if flags.bits &&& ~~~FrameFlags.all.bits ≠ 0 then return .error "invalid flags"
      else match Wire.FrameType.ofCode (← fromBeBytes buf.toList [6,7]) with
        | none => return .error "invalid frame type"
        | some frameType => match MessageKind.tryFrom (← fromBeBytes buf.toList [8,9]) with
          | none => return .error "invalid message kind"
          | some msgKind =>
            let payloadLen ← fromBeBytes buf.toList [12,13,14,15]
            let msgId ← fromBeBytes buf.toList [16,17,18,19,20,21,22,23]
            return .ok {
              magic := msipMagic
              version := ← index buf.toList 4
              flags := flags
              frameType := frameType
              msgKind := msgKind
              payloadLen := UInt32.ofNat payloadLen
              msgId := UInt64.ofNat msgId }

def parseMessage (w : ℕ) (header : Header) (payload : List UInt8) :
    Checked (Option MIPMessage) := do
  if payload.length < 2 then return none
  else
    let topicLength := cast w (← fromBeBytes payload [0,1])
    if payload.length < (← add w 2 topicLength) then return none
    else
      let topic ← slice payload 2 (← add w 2 topicLength)
      let message ← sliceFrom payload (← add w 2 topicLength)
      return some {
        header := header
        topic := Utf8.decodeLossy topic
        message := Utf8.decodeLossy message }

def processFrame (w : ℕ) (header : Header) (payload : List UInt8) :
    Checked (List (Emission Header MIPError)) :=
  Except.map (Emission.frame header payload :: ·) <| match header.frameType with
    | .event | .publish => (parseMessage w header payload).map fun
      | some msg => (if header.frameType = .event then [.event msg] else []) ++ [.message msg]
      | none => []
    | .ack => .ok [.ack header.msgId.toNat]
    | .pong => .ok [.pong]
    | .error => .ok [.error (.serverError (Utf8.decodeLossy payload))]
    | .close => .ok []
    | _ => .ok []

inductive Round
  | leave (out : List (Emission Header MIPError)) (buffer : List UInt8)
  | again (out : List (Emission Header MIPError)) (buffer : List UInt8)

def round (w : ℕ) (buffer : List UInt8) : Checked Round := do
  if buffer.length < headerSize then return .leave [] buffer
  else
    let marker ← slice buffer 0 4
    if marker ≠ msipMagic.toList then
      let magic ← fromBeBytes buffer [0,1,2,3]
      return .leave [.error (.invalidMagic magic)] []
    else
      let payloadLength := cast w (← fromBeBytes buffer [12,13,14,15])
      if buffer.length < (← add w headerSize payloadLength) then return .leave [] buffer
      else
        let headerBytes ← toArray headerSize (← slice buffer 0 headerSize)
        match ← tryFrom headerBytes with
        | .error e => return .again [.error (.protocol e)] (← drain buffer headerSize)
        | .ok header =>
          let payload ← slice buffer headerSize (← add w headerSize payloadLength)
          let rest ← drain buffer (← add w headerSize payloadLength)
          return .again (← processFrame w header payload) rest

/-- `handle_data`; `none` when it is still running after `fuel` passes of its loop. -/
def handleData (w : ℕ) : ℕ → List UInt8 → Option (Checked (Result UInt8 (Emission Header MIPError)))
  | 0, _ => none
  | fuel+1, buffer => match round w buffer with
    | .error panic => some (.error panic)
    | .ok (.leave out rest) => some (.ok ⟨out,rest,false⟩)
    | .ok (.again out rest) => (handleData w fuel rest).map fun r => r.map (Result.after out)

/-- The read loop's calls of `handle_data`, each given up after `fuel` passes. -/
def readChunks (w fuel : ℕ) : List UInt8 → List (List UInt8) →
    Option (Checked (Result UInt8 (Emission Header MIPError)))
  | buffer, [] => some (.ok ⟨[],buffer,false⟩)
  | buffer, chunk :: chunks => match handleData w fuel (buffer ++ chunk) with
    | none => none
    | some (.error panic) => some (.error panic)
    | some (.ok r) => (readChunks w fuel r.buffer chunks).map fun s => s.map (Result.after r.out)

variable {w : ℕ}

theorem tryFrom_ok (buf : Vector UInt8 headerSize) : tryFrom buf = .ok (Header.tryFrom buf) := by
  have hlen : buf.toList.length = headerSize := by simp
  have hfield : ∀ i k : ℕ, i + k ≤ headerSize →
      fromBeBytes buf.toList (List.range' i k) = .ok (BigEndian.field buf.toList i k) :=
    fun i k h => fromBeBytes_ok (by rw [hlen]; exact h)
  have hmagic : slice buf.toList 0 4 = .ok (buf.toList.take 4) :=
    slice_ok (by decide) (by rw [hlen]; decide)
  have hget : ∀ {i : ℕ} (hi : i < headerSize), index buf.toList i = .ok buf[i] := by
    intro i hi
    rw [index_ok (by rw [hlen]; exact hi)]
    simp
  have htype : fromBeBytes buf.toList [6,7] = .ok (BigEndian.field buf.toList 6 2) :=
    hfield 6 2 (by decide)
  have hkind : fromBeBytes buf.toList [8,9] = .ok (BigEndian.field buf.toList 8 2) :=
    hfield 8 2 (by decide)
  have hpayload : fromBeBytes buf.toList [12,13,14,15] = .ok (BigEndian.field buf.toList 12 4) :=
    hfield 12 4 (by decide)
  have hid : fromBeBytes buf.toList [16,17,18,19,20,21,22,23] =
      .ok (BigEndian.field buf.toList 16 8) := hfield 16 8 (by decide)
  have h4 := hget (i := 4) (by decide)
  have h5 := hget (i := 5) (by decide)
  unfold tryFrom Header.tryFrom
  rw [hmagic,h4,h5,htype,hkind,hpayload,hid]
  simp only [bind,Except.bind,pure,Except.pure]
  split_ifs
  · rfl
  · rfl
  · rfl
  · cases Wire.FrameType.ofCode (BigEndian.field buf.toList 6 2) with
    | none => rfl
    | some frameType => cases MessageKind.tryFrom (BigEndian.field buf.toList 8 2) <;> rfl

def declaredLength (buffer : List UInt8) : Option ℕ :=
  if buffer.length < headerSize ∨ buffer.take 4 ≠ msipMagic.toList then none
  else some (BigEndian.field buffer 12 4)

def LengthFits (w : ℕ) (buffer : List UInt8) : Prop :=
  ∀ length, declaredLength buffer = some length → headerSize + length < 2 ^ w

theorem parseMessage_ok (hw : 2 + 2 ^ 16 ≤ 2 ^ w) (header : Header)
    (payload : List UInt8) :
    parseMessage w header payload = .ok (Rust.parseMessage header payload) := by
  unfold parseMessage Rust.parseMessage
  by_cases h2 : payload.length < 2
  · simp [h2,pure,Except.pure]
  · have hfield : fromBeBytes payload [0,1] = .ok (BigEndian.field payload 0 2) :=
      fromBeBytes_ok (i := 0) (k := 2) (by omega)
    have hlt : BigEndian.field payload 0 2 < 2 ^ 16 := BigEndian.field_lt payload 0 2
    have hcast : cast w (BigEndian.field payload 0 2) = BigEndian.field payload 0 2 :=
      cast_of_lt (by omega)
    have hadd : add w 2 (BigEndian.field payload 0 2) = .ok (2 + BigEndian.field payload 0 2) :=
      add_ok (by omega)
    by_cases hl : payload.length < 2 + BigEndian.field payload 0 2
    · simp [h2,hl,hfield,hcast,hadd,bind,Except.bind,pure,Except.pure]
    · have htopic := slice_ok (i := 2) (Nat.le_add_right 2 (BigEndian.field payload 0 2))
        (Nat.le_of_not_lt hl)
      have hmessage := sliceFrom_ok (Nat.le_of_not_lt hl)
      simp [h2,hl,hfield,hcast,hadd,htopic,hmessage,bind,Except.bind,pure,Except.pure]

theorem processFrame_ok (hw : 2 + 2 ^ 16 ≤ 2 ^ w) (header : Header)
    (payload : List UInt8) :
    processFrame w header payload = .ok (Rust.processFrame header payload) := by
  unfold processFrame Rust.processFrame
  rw [parseMessage_ok hw]
  cases header.frameType <;> cases Rust.parseMessage header payload <;> rfl

theorem round_short {buffer : List UInt8} (h : buffer.length < headerSize) :
    round w buffer = .ok (.leave [] buffer) := if_pos h

/-! A buffer with a complete header `v` at its front. -/

section Header

variable (v : Vector UInt8 headerSize) (c : List UInt8)

theorem not_short : ¬(v.toList ++ c).length < headerSize := by
  rw [List.length_append,Vector.length_toList]
  omega

@[simp] theorem slice_marker : slice (v.toList ++ c) 0 4 = .ok (v.toList.take 4) := by
  have hlen : 4 ≤ v.toList.length := by rw [Vector.length_toList]; decide
  rw [slice_ok (by decide) (by rw [List.length_append]; omega),List.drop_zero,
    List.take_append_of_le_length hlen]

theorem fromBeBytes_header {i k : ℕ} (h : i + k ≤ headerSize) :
    fromBeBytes (v.toList ++ c) (List.range' i k) = .ok (BigEndian.field v.toList i k) := by
  have hlen : i + k ≤ v.toList.length := by rw [Vector.length_toList]; exact h
  rw [fromBeBytes_ok (by rw [List.length_append]; omega),BigEndian.field_append hlen]

theorem round_bad {v : Vector UInt8 headerSize} (hg : framing.good v = false) :
    round w (v.toList ++ c) = .ok (.leave (framing.bad v) []) := by
  have hmagic : fromBeBytes (v.toList ++ c) [0,1,2,3] = .ok (BigEndian.field v.toList 0 4) :=
    fromBeBytes_header v c (i := 0) (k := 4) (by decide)
  have hne : v.toList.take 4 ≠ msipMagic.toList := by simpa [framing] using hg
  unfold round
  rw [if_neg (not_short v c),slice_marker]
  simp only [bind,Except.bind,if_pos hne,hmagic]
  rfl

theorem declaredLength_append {v : Vector UInt8 headerSize} (hg : framing.good v = true) :
    declaredLength (v.toList ++ c) = some (framing.length v) := by
  have hlen : headerSize ≤ v.toList.length := by rw [Vector.length_toList]
  have hmagic : v.toList.take 4 = msipMagic.toList := by simpa [framing] using hg
  have hfield : BigEndian.field (v.toList ++ c) 12 4 = framing.length v :=
    BigEndian.field_append (Nat.le_trans (by decide) hlen) c
  have htake : (v.toList ++ c).take 4 = msipMagic.toList := by
    rw [List.take_append_of_le_length (Nat.le_trans (by decide) hlen),hmagic]
  rw [declaredLength,hfield,if_neg (not_or.mpr ⟨not_short v c,not_not.mpr htake⟩)]

theorem add_length {v : Vector UInt8 headerSize} (hsum : headerSize + framing.length v < 2 ^ w) :
    add w headerSize (cast w (framing.length v)) = .ok (headerSize + framing.length v) := by
  rw [cast_of_lt (by omega),add_ok hsum]

theorem round_incomplete {v : Vector UInt8 headerSize}
    (hsum : headerSize + framing.length v < 2 ^ w) (hg : framing.good v = true)
    (hl : (v.toList ++ c).length < headerSize + framing.length v) :
    round w (v.toList ++ c) = .ok (.leave [] (v.toList ++ c)) := by
  have hlen : fromBeBytes (v.toList ++ c) [12,13,14,15] = .ok (framing.length v) :=
    fromBeBytes_header v c (i := 12) (k := 4) (by decide)
  have heq : ¬v.toList.take 4 ≠ msipMagic.toList := by simpa [framing] using hg
  unfold round
  rw [if_neg (not_short v c),slice_marker]
  simp only [bind,Except.bind,if_neg heq,hlen,add_length hsum,if_pos hl]
  rfl

theorem round_complete (hw : 2 + 2 ^ 16 ≤ 2 ^ w) {v : Vector UInt8 headerSize}
    (hsum : headerSize + framing.length v < 2 ^ w) (hg : framing.good v = true) {p : List UInt8}
    (hl : framing.length v = p.length) :
    round w (v.toList ++ p ++ c) = .ok (match Header.tryFrom v with
      | .error e => .again [.error (.protocol e)] (p ++ c)
      | .ok header => .again (Rust.processFrame header p) c) := by
  rw [List.append_assoc]
  have hlen : fromBeBytes (v.toList ++ (p ++ c)) [12,13,14,15] = .ok (framing.length v) :=
    fromBeBytes_header v (p ++ c) (i := 12) (k := 4) (by decide)
  have heq : ¬v.toList.take 4 ≠ msipMagic.toList := by simpa [framing] using hg
  have hsize : (v.toList ++ (p ++ c)).length = headerSize + (p.length + c.length) := by
    rw [List.length_append,List.length_append,Vector.length_toList]
  have hdone : ¬(v.toList ++ (p ++ c)).length < headerSize + framing.length v := by
    rw [hsize,hl]
    omega
  have hhead : slice (v.toList ++ (p ++ c)) 0 headerSize = .ok v.toList := by
    rw [slice_ok (by decide) (by omega),List.drop_zero]
    simp
  have harray : toArray headerSize v.toList = .ok v := by
    rw [toArray_ok (by simp)]
    simp [Vector.toList]
  have hheader : drain (v.toList ++ (p ++ c)) headerSize = .ok (p ++ c) := by
    rw [drain_ok (by omega),List.drop_left' (by simp)]
  have hpayload : slice (v.toList ++ (p ++ c)) headerSize (headerSize + framing.length v) =
      .ok p := by
    rw [slice_ok (by omega) (by omega),List.drop_left' (by simp),hl,List.take_left' (by omega)]
  have hframe : drain (v.toList ++ (p ++ c)) (headerSize + framing.length v) = .ok c := by
    rw [drain_ok (by omega),← List.append_assoc,List.drop_left' (by simp [hl])]
  unfold round
  rw [if_neg (not_short v (p ++ c)),slice_marker]
  simp only [bind,Except.bind,if_neg heq,hlen,add_length hsum,if_neg hdone,hhead,harray,
    tryFrom_ok,hpayload,hframe,hheader]
  cases Header.tryFrom v with
  | error e => rfl
  | ok header =>
    simp only [processFrame_ok hw]
    rfl

end Header

def Round.ofPass (buffer : List UInt8) : StreamDecoder.Pass UInt8 (Emission Header MIPError) → Round
  | .wait => .leave [] buffer
  | .deliver out rest => .again out rest
  | .stop out rest => .leave out rest
  | .fail out => .leave out buffer

/-- Where the declared length fits, a round does not panic and does what the pass without checks
does. -/
theorem round_ok (hw : 2 + 2 ^ 16 ≤ 2 ^ w) {buffer : List UInt8} (hfits : LengthFits w buffer) :
    round w buffer = .ok (Round.ofPass buffer (framing.pass buffer)) := by
  by_cases h : buffer.length < headerSize
  · rw [Framing.pass_short h,round_short h]
    rfl
  · obtain ⟨v,c,rfl⟩ : ∃ (v : Vector UInt8 headerSize) (c : List UInt8),
        buffer = v.toList ++ c := ⟨_,_,Framing.eq_head_append (F := framing) h⟩
    have hhead : framing.head (v.toList ++ c) h = v := Framing.head_toList (F := framing) v c h
    cases hg : framing.good v with
    | false =>
      have hpass : framing.pass (v.toList ++ c) = .stop (framing.bad v) [] :=
        Framing.pass_bad_head (F := framing) hg c
      rw [round_bad c hg,hpass]
      rfl
    | true =>
      have hsum := hfits _ (declaredLength_append c hg)
      by_cases hl : (v.toList ++ c).length < headerSize + framing.length v
      · rw [round_incomplete c hsum hg hl,
          Framing.pass_incomplete h (by rw [hhead]; exact hg) (by rw [hhead]; exact hl)]
        rfl
      · obtain ⟨p,rest,rfl,hp⟩ : ∃ p rest : List UInt8, c = p ++ rest ∧
            framing.length v = p.length := by
          refine ⟨c.take (framing.length v),c.drop (framing.length v),by simp,?_⟩
          rw [List.length_append,Vector.length_toList] at hl
          rw [List.length_take]
          omega
        have hpass : framing.pass (v.toList ++ p ++ rest) = match Header.tryFrom v with
            | .error e => .deliver [.error (.protocol e)] (p ++ rest)
            | .ok header => .deliver (Rust.processFrame header p) rest := by
          refine (Framing.pass_parts (F := framing) hg hp rest).trans ?_
          rw [framing_act]
          cases Header.tryFrom v <;> rfl
        rw [← List.append_assoc,round_complete rest hw hsum hg hp,hpass]
        cases Header.tryFrom v <;> rfl

/-- Every pass that goes on shortens the buffer, so its length bounds them. -/
theorem handleData_ok (hw : 2 + 2 ^ 16 ≤ 2 ^ w) {fuel : ℕ} {buffer : List UInt8}
    (hfits : ∀ out r, StreamDecoder.Boundary framing.decoder buffer out r → LengthFits w r)
    (hfuel : buffer.length < fuel) :
    handleData w fuel buffer = some (.ok (Rust.handleData buffer)) := by
  induction fuel generalizing buffer with
  | zero => omega
  | succ fuel ih =>
    rw [handleData,round_ok hw (hfits [] buffer (.here buffer)),Rust.handleData]
    cases hp : framing.pass buffer with
    | wait =>
      rw [StreamDecoder.run_wait (d := framing.decoder) hp]
      rfl
    | stop out rest =>
      rw [StreamDecoder.run_stop (d := framing.decoder) hp]
      rfl
    | fail out => exact absurd hp (pass_ne_fail buffer out)
    | deliver out rest =>
      have hl := framing.decoder.deliver_length hp
      have hrest := ih (fun outs r hr => hfits (out ++ outs) r (.next hp hr))
        (show rest.length < fuel by omega)
      rw [StreamDecoder.run_deliver (d := framing.decoder) hp]
      simp only [Round.ofPass,hrest]
      rfl

/-- A `usize` wide enough for a header and the longest payload that its length field declares. -/
theorem lengthFits_of_wide (hw : headerSize + 2 ^ 32 ≤ 2 ^ w) (buffer : List UInt8) :
    LengthFits w buffer := by
  intro length h
  unfold declaredLength at h
  split_ifs at h
  cases h
  have hlt : BigEndian.field buffer 12 4 < 2 ^ 32 := BigEndian.field_lt buffer 12 4
  omega

theorem readChunks_ok (hw : headerSize + 2 ^ 32 ≤ 2 ^ w) {fuel : ℕ} (buffer : List UInt8)
    (chunks : List (List UInt8)) (hfuel : (buffer ++ chunks.flatten).length < fuel) :
    readChunks w fuel buffer chunks =
      some (.ok (StreamDecoder.feed framing.decoder buffer chunks)) := by
  induction chunks generalizing buffer with
  | nil => rfl
  | cons chunk chunks ih =>
    have hlen : (buffer ++ chunk).length + chunks.flatten.length < fuel := by
      simpa [Nat.add_assoc] using hfuel
    have hrest : (Rust.handleData (buffer ++ chunk)).buffer.length ≤ (buffer ++ chunk).length :=
      (Framing.run_buffer_suffix (buffer ++ chunk)).length_le
    have hraised : (Rust.handleData (buffer ++ chunk)).raised = false :=
      StreamDecoder.run_raised pass_ne_fail (buffer ++ chunk)
    rw [readChunks,handleData_ok (by omega) (fun _ r _ => lengthFits_of_wide hw r) (by omega),
      StreamDecoder.feed]
    simp only [ih (Rust.handleData (buffer ++ chunk)).buffer
      (by rw [List.length_append]; omega)]
    rw [← Rust.handleData,if_neg (by rw [hraised]; exact Bool.false_ne_true)]
    rfl

/-- With a 64-bit `usize` the read path takes every stream to its end, in any chunks, without a
panic, and `handle_data` returns on every buffer. -/
theorem received_without_panic :
    (∀ chunks, ∃ enough, ∀ fuel, enough ≤ fuel →
      readChunks 64 fuel [] chunks = some (.ok (Rust.readChunks chunks))) ∧
    ∀ buffer, ∃ enough, ∀ fuel, enough ≤ fuel →
      handleData 64 fuel buffer = some (.ok (Rust.handleData buffer)) := by
  have hw : headerSize + 2 ^ 32 ≤ 2 ^ 64 := by decide
  constructor
  · intro chunks
    refine ⟨chunks.flatten.length+1,fun fuel hfuel => ?_⟩
    exact readChunks_ok hw [] chunks (by rw [List.nil_append]; omega)
  · intro buffer
    exact ⟨buffer.length+1,fun fuel hfuel =>
      handleData_ok (by decide) (fun _ r _ => lengthFits_of_wide hw r) (by omega)⟩

end Panicking
end Rust
end MipClients
