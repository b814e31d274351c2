import MipClients.Fragmentation

/-! What `_handle_data` of the Python client makes of complete frames that it cannot interpret. -/
namespace MipClients
namespace Py

open StreamDecoder
open Wire (FrameType Emission)

/-- What is decoded of the payload of a frame of this type is valid UTF-8. -/
def TextValid (frameType : FrameType) (payload : List UInt8) : Prop :=
  match frameType with
  | .event | .publish => ∀ topic message, Wire.splitPayload payload = some (topic,message) →
      Utf8.Valid topic ∧ Utf8.Valid message
  | .error => Utf8.Valid payload
  | _ => True

def Interpretable (header : Vector UInt8 headerSize) (payload : List UInt8) : Prop :=
  ∃ frameType, FrameType.ofCode (BigEndian.field header.toList 6 2) = some frameType ∧
    TextValid frameType payload

/-- A complete frame is called back at most once, and what is not interpretable is not called back as
anything else than an error. -/
structure FrameHandled (header : Vector UInt8 headerSize) (payload : List UInt8)
    (calls : List (Emission FrameHeader MIPError)) : Prop where
  frame_once : (calls.filterMap Emission.frame?).Sublist
    ((parseHeader header).toOption.map fun h => (h,payload)).toList
  uninterpreted : ¬Interpretable header payload →
    ∀ e ∈ calls, (∃ h p, e = .frame h p) ∨ ∃ error, e = .error error

/-- No chunk makes the handler raise, and every complete frame has left the buffer, handled. -/
structure Survives (chunks : List (List UInt8)) : Prop where
  not_raised : (handleChunks chunks).raised = false
  removed : ∃ frames calls, framing.Cuts chunks.flatten frames (handleChunks chunks).buffer ∧
    (handleChunks chunks).out.filter fromServer = frames.flatMap calls ∧
    ∀ f ∈ frames, FrameHandled f.1 f.2 (calls f)
  none_left : ∀ header payload rest, framing.good header = true →
    framing.length header = payload.length →
    (handleChunks chunks).buffer ≠ header.toList ++ payload ++ rest

theorem decode_cases (bytes : List UInt8) :
    (Utf8.Valid bytes ∧ ∃ text, decode bytes = .ok text) ∨
      (¬Utf8.Valid bytes ∧ decode bytes = .error .unicodeDecodeError) := by
  unfold decode
  by_cases hv : Utf8.Valid bytes
  · rw [hv.decodeStrict_eq]
    exact .inl ⟨hv,_,rfl⟩
  · rw [Utf8.decodeStrict_eq_none_iff.mpr hv]
    exact .inr ⟨hv,rfl⟩

theorem parseMessage_cases (header : FrameHeader) (payload : List UInt8) :
    (TextValid .event payload ∧ ∃ msg, parseMessage header payload = .ok msg) ∨
      (¬TextValid .event payload ∧ ∃ e, parseMessage header payload = .error e) := by
  rw [parseMessage_eq]
  unfold TextValid
  cases hs : Wire.splitPayload payload with
  | none => exact .inl ⟨nofun,none,rfl⟩
  | some p =>
    dsimp only
    rcases decode_cases p.1 with ⟨ht,topic,htopic⟩ | ⟨ht,hraise⟩
    · rcases decode_cases p.2 with ⟨hm,message,hmessage⟩ | ⟨hm,hraise⟩
      · refine .inl ⟨fun _ _ h => ?_,_,by rw [htopic,hmessage]; rfl⟩
        cases h
        exact ⟨ht,hm⟩
      · exact .inr ⟨fun h => hm (h _ _ rfl).2,_,by rw [htopic,hraise]; rfl⟩
    · exact .inr ⟨fun h => ht (h _ _ rfl).1,_,by rw [hraise]; rfl⟩

/-- The exceptions are the failed decodings; nothing behind the frame callback is one. -/
theorem dispatch_cases (header : FrameHeader) (payload : List UInt8) :
    (TextValid header.frameType payload ∧ ∃ out, dispatch header payload = .ok out ∧
        out.filterMap Emission.frame? = []) ∨
      (¬TextValid header.frameType payload ∧ ∃ e, dispatch header payload = .error e) := by
  unfold dispatch
  cases header.frameType with
  | event | publish =>
    rcases parseMessage_cases header payload with ⟨hv,msg,hmsg⟩ | ⟨hv,e,he⟩
    · refine .inl ⟨hv,?_⟩
      rw [hmsg]
      cases msg with
      | none => exact ⟨_,rfl,rfl⟩
      | some msg =>
        refine ⟨_,rfl,?_⟩
        split_ifs <;> rfl
    · exact .inr ⟨hv,e,by rw [he]; rfl⟩
  | error =>
    rcases decode_cases payload with ⟨hv,text,htext⟩ | ⟨hv,hraise⟩
    · exact .inl ⟨hv,_,by rw [htext]; rfl,rfl⟩
    · exact .inr ⟨hv,_,by rw [hraise]; rfl⟩
  | _ => exact .inl ⟨trivial,_,rfl,rfl⟩

/-- A complete frame is called back once and removed, or it makes the handler raise. -/
theorem act_cases (header : Vector UInt8 headerSize) (payload : List UInt8) :
    (Interpretable header payload ∧ ∃ h out, parseHeader header = .ok h ∧
        framing.act header payload = .frame (.frame h payload :: out) ∧
        out.filterMap Emission.frame? = []) ∨
      (¬Interpretable header payload ∧ ∃ out, framing.act header payload = .fail out) := by
  simp only [framing,Interpretable]
  unfold parseHeader
  cases FrameType.ofCode (BigEndian.field header.toList 6 2) with
  | none =>
    refine .inr ⟨?_,_,rfl⟩
    rintro ⟨frameType,hf,-⟩
    cases hf
  | some frameType =>
    simp only [Option.some.injEq,exists_eq_left',processFrame]
    rcases dispatch_cases ⟨BigEndian.field header.toList 0 4,BigEndian.field header.toList 4 1,
      BigEndian.field header.toList 5 1,frameType,BigEndian.field header.toList 8 2,
      BigEndian.field header.toList 12 4,BigEndian.field header.toList 16 8⟩ payload with
      ⟨hv,out,hout,hnone⟩ | ⟨hv,e,he⟩
    · exact .inl ⟨hv,_,out,rfl,by rw [hout],hnone⟩
    · exact .inr ⟨hv,_,by rw [he]⟩

theorem act_ne_header (header : Vector UInt8 headerSize) (payload : List UInt8)
    (out : List (Emission FrameHeader MIPError)) : framing.act header payload ≠ .header out := by
  rcases act_cases header payload with ⟨-,h,calls,-,ha,-⟩ | ⟨-,calls,ha⟩ <;>
    · rw [ha]
      nofun

theorem frameHandled_act {header : Vector UInt8 headerSize} {payload : List UInt8}
    (h : Interpretable header payload) :
    FrameHandled header payload ((framing.act header payload).out.filter fromServer) := by
  refine ⟨?_,fun hno => absurd h hno⟩
  rcases act_cases header payload with ⟨-,h,out,hparse,ha,hnone⟩ | ⟨hno,-⟩
  · rw [filterMap_frame?_filter fromServer fun _ _ => rfl,hparse,ha,Act.out,List.filterMap_cons,
      hnone]
    exact List.Sublist.refl _
  · exact absurd h hno

/-- The handler survives a stream exactly when every complete frame that can be cut from it, one
after the other, is interpretable. -/
theorem survives_iff (chunks : List (List UInt8)) :
    Survives chunks ↔ ∀ frames rest, framing.Cuts chunks.flatten frames rest →
      ∀ f ∈ frames, Interpretable f.1 f.2 := by
  have hsteady := Framing.steady (F := framing) rfl framing_bad_filter
  have hraised := feed_raised_iff hsteady (.inl framing.decoder_pass_nil) chunks
  rw [List.nil_append,Framing.failsIn_iff act_ne_header] at hraised
  constructor
  · intro h frames rest hcuts f hf
    rcases act_cases f.1 f.2 with ⟨hi,-⟩ | ⟨-,out,hfail⟩
    · exact hi
    · have hr := hraised.mpr ⟨frames,rest,hcuts,f,hf,out,hfail⟩
      rw [← handleChunks,h.not_raised] at hr
      cases hr
  · intro h
    have hr : (handleChunks chunks).raised = false := by
      refine Bool.eq_false_iff.mpr fun hr => ?_
      obtain ⟨frames,rest,hcuts,f,hf,out,hfail⟩ := hraised.mp hr
      rcases act_cases f.1 f.2 with ⟨-,_,_,-,ha,-⟩ | ⟨hno,-⟩
      · rw [hfail] at ha
        cases ha
      · exact hno (h frames rest hcuts f hf)
    obtain ⟨out,hbound,hvis,hsettled⟩ :=
      feed_boundary hsteady (.inl framing.decoder_pass_nil) hr
    obtain ⟨frames,hcuts,rfl,-⟩ := Framing.cuts_of_boundary act_ne_header hbound
    refine ⟨hr,⟨frames,_,hcuts,hvis.trans List.filter_flatMap,fun f hf => ?_⟩,?_⟩
    · exact frameHandled_act (h frames _ hcuts f hf)
    · intro header payload rest hg hl
      exact Framing.not_complete_of_settled act_ne_header hsettled hg hl

/-- An EVENT with the payload that `publish("t", b"\xff")` sends. -/
def publishedBytes : List UInt8 :=
  Wire.headerBytes FrameType.event.code 0 msgKindEvent 4 1 ++ [0,1,0x74,0xFF]

theorem not_survives : ¬∀ chunks, Survives chunks := by
  intro h
  have hr := (h [publishedBytes]).not_raised
  revert hr
  decide

end Py
end MipClients
