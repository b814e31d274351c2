import MipClients.RustHeaderGrammar
import MipClients.RustOutgoing

/-! `MIPClient::publish` of the Rust client: the frame that a successful call puts into the channel,
decoded by the client's own `Header::try_from` and `parse_message`. -/
namespace MipClients
namespace Rust

open StreamDecoder State Transition
open Utf8 (Text)
open Wire (FrameType)

/-- The header of a frame, its message, and the bytes behind its declared payload. -/
def decodeFrame (frame : List UInt8) : Option (Header × Option MIPMessage × List UInt8) :=
  if h : frame.length < headerSize then none
  else match Header.tryFrom (framing.head frame h) with
    | .error _ => none
    | .ok header => some (header,
        parseMessage header ((frame.drop headerSize).take header.payloadLen.toNat),
        (frame.drop headerSize).drop header.payloadLen.toNat)

/-- The frame is a PUBLISH with the id, the topic and the message, and with nothing behind them. -/
def Publishes (topic message : Text) (msgId : UInt64) (frame : List UInt8) : Prop :=
  ∃ header, decodeFrame frame = some (header,some ⟨header,topic,message⟩,[]) ∧
    header.frameType = .publish ∧ header.msgId = msgId

theorem decodeFrame_frameBytes (frameType : FrameType) (payload : List UInt8) (flags : FrameFlags)
    (msgId : UInt64) : decodeFrame (frameBytes frameType payload flags msgId) =
      let header := Header.new frameType .event (UInt32.ofNat payload.length) msgId
        (FrameFlags.fromBitsTruncate flags.bits)
      some (header,parseMessage header (payload.take (payload.length % 2 ^ 32)),
        payload.drop (payload.length % 2 ^ 32)) := by
  have hframe : frameBytes frameType payload flags msgId =
      (buildHeader frameType (UInt32.ofNat payload.length) flags msgId).toArray.toList ++ payload := by
    rw [Header.toArray_toList]
    rfl
  have hlong : ¬(frameBytes frameType payload flags msgId).length < headerSize := by
    rw [hframe,List.length_append,Vector.length_toList]
    omega
  have hhead : framing.head (frameBytes frameType payload flags msgId) hlong =
      (buildHeader frameType (UInt32.ofNat payload.length) flags msgId).toArray := by
    simp only [hframe]
    exact Framing.head_toList (F := framing) _ payload _
  have hdrop : (frameBytes frameType payload flags msgId).drop headerSize = payload := by
    rw [hframe]
    exact List.drop_left' Vector.length_toList
  rw [decodeFrame,dif_neg hlong,hhead,hdrop,buildHeader,Header.tryFrom_toArray]
  simp [Header.new]

/-- The frame of a `publish` carries its topic and message exactly when their lengths fit the header
field and the topic field. -/
theorem publishes_iff (topic message : Text) (flags : FrameFlags) (msgId : UInt64) :
    Publishes topic message msgId (frameBytes .publish (publishPayload topic message) flags msgId) ↔
      (Utf8.encode topic).length < 2 ^ 16 ∧ (publishPayload topic message).length < 2 ^ 32 := by
  have hpayload : publishPayload topic message =
      BigEndian.bytes 2 ((Utf8.encode topic).length % 2 ^ 16) ++
        (Utf8.encode topic ++ Utf8.encode message) := List.append_assoc _ _ _
  unfold Publishes
  rw [decodeFrame_frameBytes]
  dsimp only
  constructor
  · rintro ⟨header,hdecode,-,-⟩
    simp only [Option.some.injEq,Prod.mk.injEq] at hdecode
    obtain ⟨rfl,hparse,hrest⟩ := hdecode
    have hfits : (publishPayload topic message).length < 2 ^ 32 := by
      have hle := List.drop_eq_nil_iff.mp hrest
      have hlt := Nat.mod_lt (publishPayload topic message).length (show 2 ^ 32 > 0 by decide)
      omega
    refine ⟨?_,hfits⟩
    rw [Nat.mod_eq_of_lt hfits,List.take_length,parseMessage_eq,Option.map_eq_some_iff] at hparse
    obtain ⟨⟨t,m⟩,hsplit,hmessage⟩ := hparse
    obtain ⟨ht,hsplit⟩ := (Wire.splitPayload_eq_some_iff _ t m).mp hsplit
    simp only [Wire.Message.mk.injEq,true_and] at hmessage
    -- the payload says how long its topic is
    have hfront := hpayload.symm.trans hsplit
    obtain ⟨hlength,hbody⟩ := List.append_inj hfront (by rw [BigEndian.length_bytes,
      BigEndian.length_bytes])
    have ht' : (Utf8.encode topic).length % 2 ^ 16 = t.length := by
      have hvalue := congrArg BigEndian.value hlength
      rw [BigEndian.value_bytes,BigEndian.value_bytes] at hvalue
      omega
    have hle : t.length ≤ (Utf8.encode topic).length := ht' ▸ Nat.mod_le _ _
    have htake : t = (Utf8.encode topic).take t.length := by
      have h := congrArg (List.take t.length) hbody
      rw [List.take_append_of_le_length hle,List.take_left' rfl] at h
      exact h.symm
    rw [htake] at hmessage
    have hlost := Utf8.length_encode_le_of_take hmessage.1
    omega
  · rintro ⟨ht,hfits⟩
    refine ⟨Header.new .publish .event (UInt32.ofNat (publishPayload topic message).length) msgId
      (FrameFlags.fromBitsTruncate flags.bits),?_,rfl,rfl⟩
    rw [Nat.mod_eq_of_lt hfits,List.take_length,List.drop_length,parseMessage_eq]
    have hsplit : Wire.splitPayload (publishPayload topic message) =
        some (Utf8.encode topic,Utf8.encode message) := by
      refine (Wire.splitPayload_eq_some_iff _ _ _).mpr ⟨ht,?_⟩
      rw [hpayload,Nat.mod_eq_of_lt ht]
    rw [hsplit]
    simp

/-- Of the frames that a caller has put into the channels, exactly one is that of its successful call
between `before` and `after`; it went to the connection `c`, and it publishes the topic and message
under the id. -/
def PublishedOnce (s : State) (k : ℕ) (before after : List (Call × Outcome)) (c : ℕ)
    (topic message : Text) (msgId : UInt64) : Prop :=
  ∃ frame, Publishes topic message msgId frame ∧
    ∀ d, callerFrames k (s.connections d).commands.accepted =
      returnedFrames d before ++ ((if d = c then [frame] else []) ++ returnedFrames d after)

theorem returnedFrames_split (d c : ℕ) (before after : List (Call × Outcome)) (call : Call)
    (msgId : UInt64) : returnedFrames d (before ++ (call,.ok c msgId) :: after) =
      returnedFrames d before ++ ((if d = c then [call.bytes msgId] else []) ++
        returnedFrames d after) := by
  unfold returnedFrames
  rw [List.filterMap_append,List.filterMap_cons]
  by_cases h : c = d
  · simp [h]
  · simp [h,Ne.symm h]

/-- In every run, a `publish` that has returned an id has put exactly one frame into a channel, and the
frame carries the id, the topic and the message, exactly if the topic is at most 65535 bytes long and
the payload at most 2^32 - 1. -/
theorem published_once_iff (options : MIPClientOptions) (events : List Event) :
    ∀ s ∈ states step (init options) events, ∀ (k c : ℕ) (before after : List (Call × Outcome))
      (topic message : Text) (flags : FrameFlags) (msgId : UInt64),
      s.returned k = before ++ (.publish topic message flags,.ok c msgId) :: after →
      (PublishedOnce s k before after c topic message msgId ↔
        (Utf8.encode topic).length ≤ 65535 ∧ (publishPayload topic message).length ≤ 2 ^ 32 - 1) := by
  intro s hs k c before after topic message flags msgId hreturned
  have hframes (d : ℕ) : callerFrames k (s.connections d).commands.accepted =
      returnedFrames d before ++ ((if d = c then
        [frameBytes .publish (publishPayload topic message) flags msgId] else []) ++
          returnedFrames d after) := by
    rw [(streams options events s hs).callers d k,hreturned,returnedFrames_split]
    rfl
  have hlimits : (Utf8.encode topic).length < 2 ^ 16 ∧
      (publishPayload topic message).length < 2 ^ 32 ↔
      (Utf8.encode topic).length ≤ 65535 ∧ (publishPayload topic message).length ≤ 2 ^ 32 - 1 := by
    omega
  rw [← hlimits,← publishes_iff topic message flags msgId]
  constructor
  · rintro ⟨frame,hpublishes,honce⟩
    have hsame := (hframes c).symm.trans (honce c)
    rw [if_pos rfl,if_pos rfl] at hsame
    have hframe := List.append_cancel_right (List.append_cancel_left hsame)
    rw [List.singleton_inj.mp hframe]
    exact hpublishes
  · exact fun hpublishes => ⟨_,hpublishes,hframes⟩

def publishRun (topic message : Text) : List Event :=
  connectRun ++ [.call 0 (.publish topic message FrameFlags.none),.sendFrame 0 7,.sendFrame 0 7]

theorem publishRun_returned (topic message : Text) :
    ∃ s ∈ run step (init {}) (publishRun topic message),
      s.returned 0 = [(.publish topic message FrameFlags.none,.ok 0 8)] :=
  ⟨_,rfl,rfl⟩

theorem published_once_short : ∃ s ∈ run step (init {}) (publishRun ['t'] ['m']),
    PublishedOnce s 0 [] [] 0 ['t'] ['m'] 8 := by
  obtain ⟨s,hs,hreturned⟩ := publishRun_returned ['t'] ['m']
  exact ⟨s,hs,(published_once_iff {} _ s (run_mem_states hs) 0 0 [] [] ['t'] ['m'] FrameFlags.none 8
    hreturned).mpr (by decide)⟩

/-- A topic of 65536 letters. -/
theorem not_published_once : ¬∀ (options : MIPClientOptions) (events : List Event),
    ∀ s ∈ states step (init options) events, ∀ (k c : ℕ) (before after : List (Call × Outcome))
      (topic message : Text) (flags : FrameFlags) (msgId : UInt64),
      s.returned k = before ++ (.publish topic message flags,.ok c msgId) :: after →
      PublishedOnce s k before after c topic message msgId := by
  intro h
  have hlength : (Utf8.encode (List.replicate (2 ^ 16) 'a')).length = 2 ^ 16 := by
    rw [Utf8.encode,List.length_flatMap,List.map_replicate,List.sum_replicate_nat]
    rfl
  obtain ⟨s,hs,hreturned⟩ := publishRun_returned (List.replicate (2 ^ 16) 'a') []
  obtain ⟨frame,hpublishes,honce⟩ := h {} _ s (run_mem_states hs) 0 0 [] [] _ _ _ _ hreturned
  have hframe : frame = frameBytes .publish (publishPayload (List.replicate (2 ^ 16) 'a') [])
      FrameFlags.none 8 := by
    have hcallers := (streams {} _ s (run_mem_states hs)).callers 0 0
    rw [honce 0,hreturned] at hcallers
    exact List.singleton_inj.mp hcallers
  rw [hframe,publishes_iff,hlength] at hpublishes
  exact Nat.lt_irrefl _ hpublishes.1

end Rust
end MipClients
