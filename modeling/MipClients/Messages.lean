import MipClients.Delivery
import MipClients.Publish

/-! From the PUBLISH frames in a stream to the message callbacks of whoever reads it. -/
namespace MipClients

open Utf8 (Text)
open Wire (Emission Frame FrameType FrameInfo Fault)

def Wire.Emission.message? {H E : Type} : Emission H E → Option (Text × Text)
  | .message m => some (m.topic,m.message)
  | _ => none

theorem Wire.Emission.filterMap_message?_map {H H' E E' : Type} (g : H → H') (k : E → E')
    (l : List (Emission H E)) :
    (l.map (Emission.map g k)).filterMap Emission.message? = l.filterMap Emission.message? := by
  rw [List.filterMap_map]
  exact List.filterMap_congr fun e _ => by cases e <;> rfl

theorem filterMap_message?_filter {H E : Type} (visible : Emission H E → Bool)
    (hv : ∀ m, visible (.message m) = true) (out : List (Emission H E)) :
    (out.filter visible).filterMap Emission.message? = out.filterMap Emission.message? := by
  rw [List.filterMap_filter]
  refine List.filterMap_congr fun e _ => ?_
  cases e with
  | message m => rw [if_pos (hv m)]
  | _ => exact ite_self _

def msgIdOf (data : List UInt8) : ℤ := BigEndian.field data 16 8

@[simp] theorem msgIdOf_bytes (f : Frame) : msgIdOf f.bytes = f.msgId :=
  congrArg Nat.cast (Wire.field_msgId _ f.msgId_lt)

def published? (data : List UInt8) : Option (Text × Text) :=
  if BigEndian.field data 6 2 = FrameType.publish.code then
    (Wire.splitPayload (data.drop Wire.headerSize)).map fun p => (Utf8.text p.1,Utf8.text p.2)
  else none

theorem published?_bytes (f : Frame) : published? f.bytes =
    if f.frameType = .publish then
      (Wire.splitPayload f.payload).map fun p => (Utf8.text p.1,Utf8.text p.2)
    else none := by
  have hfield : BigEndian.field f.bytes 6 2 = f.frameType.code :=
    Wire.field_frameType _ f.frameType.code_lt
  have hdrop : f.bytes.drop Wire.headerSize = f.payload :=
    List.drop_left' (Wire.length_headerBytes ..)
  have hcode : f.frameType.code = FrameType.publish.code ↔ f.frameType = .publish := by
    cases f.frameType <;> simp [FrameType.code]
  rw [published?,hfield,hdrop]
  simp only [hcode]

/-- Of the frames that clients send only a PUBLISH makes a receiver call its message callback. -/
theorem Client.calls_message? (c : Client) (f : Frame) (h : f.frameType ≠ .event) :
    (c.calls f).filterMap Emission.message? = (published? f.bytes).toList := by
  rw [published?_bytes]
  by_cases hp : f.frameType = .publish
  · rw [c.calls_eq (by rw [hp]; exact nofun),if_pos hp]
    unfold Wire.Frame.calls Wire.Frame.message?
    rw [hp]
    cases Wire.splitPayload f.payload <;> rfl
  · rw [if_neg hp]
    unfold Client.calls Wire.Frame.calls
    cases ht : f.frameType with
    | publish => exact absurd ht hp
    | event => exact absurd ht h
    | close =>
      cases c <;> rfl
    | _ => split_ifs <;> rfl

structure Wire.Frame.Says (f : Frame) (note : Option (Text × Text)) : Prop where
  textValid : f.TextValid
  not_event : f.frameType ≠ .event
  published : published? f.bytes = note

theorem Wire.Frame.Says.of_type {f : Frame} (h : f.frameType ∉ [.publish,.event,.error]) :
    f.Says none := by
  refine ⟨?_,fun he => h (by rw [he]; decide),?_⟩
  · unfold Wire.Frame.TextValid
    cases ht : f.frameType with
    | publish | event | error => exact absurd (by rw [ht]; decide) h
    | _ => trivial
  · rw [published?_bytes,if_neg fun hp => h (by rw [hp]; decide)]

theorem Wire.Frame.Says.of_publish {f : Frame} {topic : Text} {message : List UInt8}
    (h : f.frameType = .publish)
    (hsplit : Wire.splitPayload f.payload = some (Utf8.encode topic,message))
    (hvalid : Utf8.Valid message) : f.Says (some (topic,Utf8.text message)) := by
  refine ⟨?_,fun he => (by cases he.symm.trans h),?_⟩
  · unfold Wire.Frame.TextValid
    rw [h,hsplit]
    intro t m hsome
    cases hsome
    exact ⟨⟨topic,rfl⟩,hvalid⟩
  · rw [published?_bytes,if_pos h,hsplit,Option.map_some,Utf8.text_encode]

namespace Client

variable (c : Client) {sent : List Frame} {chunks : List (List UInt8)}

/-- The message ids that a receiver of the chunks reports with its raw frame callback. -/
def reportedIds (chunks : List (List UInt8)) : List ℕ :=
  ((c.receive chunks).out.filterMap Emission.frame?).map fun p => p.1.msgId

theorem calls_messages (hevent : ∀ f ∈ sent, f.frameType ≠ .event) :
    (sent.flatMap c.calls).filterMap Emission.message? =
      sent.filterMap fun f => published? f.bytes := by
  rw [List.filterMap_flatMap,List.filterMap_eq_flatMap_toList]
  exact List.flatMap_congr fun f hf => c.calls_message? f (hevent f hf)

theorem messages (htext : ∀ f ∈ sent, f.TextValid) (hevent : ∀ f ∈ sent, f.frameType ≠ .event)
    (hchunks : chunks.flatten = sent.flatMap Frame.bytes) :
    (c.receive chunks).out.filterMap Emission.message? =
      sent.filterMap fun f => published? f.bytes := by
  obtain ⟨-,-,-,hout⟩ := c.receive_all (fun _ => htext) hchunks
  rw [hout htext,c.calls_messages hevent]

theorem messages_early (htext : ∀ f ∈ sent, f.TextValid)
    (hevent : ∀ f ∈ sent, f.frameType ≠ .event)
    (hchunks : chunks.flatten <+: sent.flatMap Frame.bytes) :
    (c.receive chunks).out.filterMap Emission.message? <+:
      sent.filterMap fun f => published? f.bytes := by
  obtain ⟨whole,later,tail,rfl,-,-,-,-,-,hout⟩ := c.reads (fun _ => htext) chunks hchunks
  rw [List.forall_mem_append] at htext hevent
  rw [hout htext.1,c.calls_messages hevent.1,List.filterMap_append]
  exact List.prefix_append _ _

end Client

structure Tells (written : List (List UInt8)) (notes : List (Text × Text)) : Prop where
  frames : ∀ bytes ∈ written, ∃ f : Frame, f.bytes = bytes ∧ f.Says (published? bytes)
  published : written.filterMap published? = notes

namespace Tells

variable {written written' : List (List UInt8)} {notes notes' : List (Text × Text)}

theorem nil : Tells [] [] := ⟨fun _ h => (by cases h),rfl⟩

theorem of_frame {f : Frame} {note : Option (Text × Text)} (h : f.Says note) :
    Tells [f.bytes] note.toList := by
  refine ⟨fun bytes hbytes => ?_,?_⟩
  · cases List.mem_singleton.mp hbytes
    exact ⟨f,rfl,h.published ▸ h⟩
  · cases note with
    | none => rw [List.filterMap_cons_none h.published]; rfl
    | some note => rw [List.filterMap_cons_some h.published]; rfl

theorem append (h : Tells written notes) (h' : Tells written' notes') :
    Tells (written ++ written') (notes ++ notes') where
  frames := List.forall_mem_append.mpr ⟨h.frames,h'.frames⟩
  published := by rw [List.filterMap_append,h.published,h'.published]

theorem flatMap {α : Type*} {xs : List α} {w : α → List (List UInt8)}
    {n : α → List (Text × Text)} (h : ∀ x ∈ xs, Tells (w x) (n x)) :
    Tells (xs.flatMap w) (xs.flatMap n) := by
  induction xs with
  | nil => exact nil
  | cons x xs ih =>
    rw [List.forall_mem_cons] at h
    exact h.1.append (ih h.2)

theorem exists_frames (h : Tells written notes) : ∃ sent : List Frame,
    sent.map Frame.bytes = written ∧ ∀ f ∈ sent, f.Says (published? f.bytes) :=
  StreamDecoder.exists_blocks fun bytes hbytes => by
    obtain ⟨f,rfl,hf⟩ := h.frames bytes hbytes
    exact ⟨f,rfl,hf⟩

/-- What any client that has read a beginning of the frames has its message callback called with. -/
theorem heard (h : Tells written notes) (receiver : Client) (chunks : List (List UInt8)) :
    (chunks.flatten <+: written.flatten →
      (receiver.receive chunks).out.filterMap Emission.message? <+: notes) ∧
    (chunks.flatten = written.flatten →
      (receiver.receive chunks).out.filterMap Emission.message? = notes) := by
  obtain ⟨sent,rfl,hsent⟩ := h.exists_frames
  have hpublished : (sent.filterMap fun f => published? f.bytes) = notes := by
    rw [← h.published,List.filterMap_map]
    rfl
  rw [← List.flatMap_def,← hpublished]
  exact ⟨receiver.messages_early (fun f hf => (hsent f hf).textValid)
      (fun f hf => (hsent f hf).not_event),
    receiver.messages (fun f hf => (hsent f hf).textValid) fun f hf => (hsent f hf).not_event⟩

theorem not_raised (h : Tells written notes) (receiver : Client) {chunks : List (List UInt8)}
    (hchunks : chunks.flatten <+: written.flatten) : (receiver.receive chunks).raised = false := by
  obtain ⟨sent,rfl,hsent⟩ := h.exists_frames
  rw [← List.flatMap_def] at hchunks
  obtain ⟨-,-,-,-,-,-,-,-,hraised,-⟩ :=
    receiver.reads (fun _ f hf => (hsent f hf).textValid) chunks hchunks
  exact hraised

/-- Where the ids of the frames rise, so do those that any client reports with its raw frame
callback. -/
theorem heard_ids (h : Tells written notes) (hids : (written.map msgIdOf).Pairwise (· < ·))
    (receiver : Client) {chunks : List (List UInt8)}
    (hchunks : chunks.flatten <+: written.flatten) :
    (receiver.reportedIds chunks).Pairwise (· < ·) := by
  obtain ⟨sent,rfl,hsent⟩ := h.exists_frames
  rw [← List.flatMap_def] at hchunks
  obtain ⟨whole,later,-,rfl,-,-,hframes,-⟩ :=
    receiver.reads (fun _ f hf => (hsent f hf).textValid) chunks hchunks
  rw [List.map_append,List.map_append,List.map_map,List.map_map] at hids
  have hwhole := (List.pairwise_append.mp hids).1
  rw [Client.reportedIds,hframes,List.map_map]
  rw [List.pairwise_map] at hwhole ⊢
  refine hwhole.imp fun {f g} hlt => ?_
  have hcast : (f.msgId : ℤ) < g.msgId := by simpa using hlt
  exact Int.ofNat_lt.mp hcast

end Tells
end MipClients
