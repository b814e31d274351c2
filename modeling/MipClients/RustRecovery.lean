import MipClients.RustHeaderGrammar
import MipClients.RustHandleData

/-! What `handle_data` of the Rust client makes of a complete frame whose header `Header::try_from`
rejects, and of the frames behind it. -/
namespace MipClients
namespace Rust

open StreamDecoder

/-- A frame with a header that `try_from` accepts and the payload that it declares. -/
structure ValidFrame where
  header : Vector UInt8 headerSize
  payload : List UInt8
  parsed : Header
  tryFrom_eq : Header.tryFrom header = .ok parsed
  length_eq : BigEndian.field header.toList 12 4 = payload.length

/-- A frame with the right magic and the payload that it declares, whose header `try_from` rejects. -/
structure RejectedFrame where
  header : Vector UInt8 headerSize
  payload : List UInt8
  error : String
  magic : header.toList.take 4 = msipMagic.toList
  tryFrom_eq : Header.tryFrom header = .error error
  length_eq : BigEndian.field header.toList 12 4 = payload.length

def ValidFrame.bytes (f : ValidFrame) : List UInt8 := f.header.toList ++ f.payload

def RejectedFrame.bytes (f : RejectedFrame) : List UInt8 := f.header.toList ++ f.payload

def ValidFrame.report (f : ValidFrame) := processFrame f.parsed f.payload

@[simp] theorem ValidFrame.pass (f : ValidFrame) (rest : List UInt8) :
    framing.decoder.pass (f.bytes ++ rest) = .deliver f.report rest := by
  have hgood : framing.good f.header = true :=
    decide_eq_true ((Header.tryFrom_eq_ok_iff _ _).mp f.tryFrom_eq).1
  refine Framing.pass_frame (F := framing) hgood f.length_eq ?_ rest
  rw [framing_act,f.tryFrom_eq]
  rfl

@[simp] theorem RejectedFrame.pass (f : RejectedFrame) (rest : List UInt8) :
    framing.decoder.pass (f.bytes ++ rest) =
      .deliver [.error (.protocol f.error)] (f.payload ++ rest) := by
  refine Framing.pass_header (F := framing) (decide_eq_true f.magic) f.length_eq ?_ rest
  rw [framing_act,f.tryFrom_eq]

/-- On its way through the buffer the loop reads a header at the front of `r`. -/
def ReadsHeader (buffer r : List UInt8) : Prop :=
  (∃ out, Boundary framing.decoder buffer out r) ∧ headerSize ≤ r.length

/-- The stream is in step again behind a rejected frame: one Protocol error for it, no header read from
inside its payload, and every frame behind it delivered once and in order. -/
structure Recovers (f : RejectedFrame) (after : List ValidFrame) : Prop where
  reports : (handleData (f.bytes ++ after.flatMap ValidFrame.bytes)).out =
    .error (.protocol f.error) :: after.flatMap ValidFrame.report
  payload_skipped : ∀ r, ReadsHeader (f.bytes ++ after.flatMap ValidFrame.bytes) r →
    ¬((after.flatMap ValidFrame.bytes).length < r.length ∧
      r.length ≤ (f.payload ++ after.flatMap ValidFrame.bytes).length)

theorem handleData_frames (frames : List ValidFrame) :
    (handleData (frames.flatMap ValidFrame.bytes)).out = frames.flatMap ValidFrame.report := by
  have hbound := boundary_units (d := framing.decoder) frames (fun f _ c => f.pass c) []
  rw [List.append_nil] at hbound
  rw [handleData,hbound.run_eq,run_wait framing.decoder_pass_nil]
  exact List.append_nil _

theorem RejectedFrame.handleData_out (f : RejectedFrame) (rest : List UInt8) :
    (handleData (f.bytes ++ rest)).out =
      .error (.protocol f.error) :: (handleData (f.payload ++ rest)).out := by
  rw [handleData,run_deliver (f.pass rest)]
  rfl

theorem RejectedFrame.readsHeader (f : RejectedFrame) (rest : List UInt8) {r : List UInt8}
    (h : ReadsHeader (f.bytes ++ rest) r) :
    r = f.bytes ++ rest ∨ ReadsHeader (f.payload ++ rest) r := by
  obtain ⟨⟨out,hbound⟩,hlen⟩ := h
  cases hbound with
  | here => exact .inl rfl
  | next hp hr =>
    rw [f.pass rest] at hp
    cases hp
    exact .inr ⟨⟨_,hr⟩,hlen⟩

/-- The stream is in step behind a rejected frame exactly when the frame has no payload, or what is
left of it does not make a header and nothing follows. -/
theorem recovers_iff (f : RejectedFrame) (after : List ValidFrame) :
    Recovers f after ↔ f.payload = [] ∨ after = [] ∧ f.payload.length < headerSize := by
  have hfront (r : List UInt8) (hr : r = f.bytes ++ after.flatMap ValidFrame.bytes) :
      (f.payload ++ after.flatMap ValidFrame.bytes).length < r.length := by
    have hheader : f.header.toList.length = 24 := Vector.length_toList
    rw [hr,RejectedFrame.bytes]
    simp only [List.length_append,hheader]
    omega
  constructor
  · intro h
    by_contra hno
    obtain ⟨hpayload,hrest⟩ := not_or.mp hno
    have hpos : 0 < f.payload.length := List.length_pos_of_ne_nil hpayload
    -- what is left of the rejected frame is long enough for a header
    have hlong : headerSize ≤ (f.payload ++ after.flatMap ValidFrame.bytes).length := by
      cases after with
      | nil => simpa using hrest
      | cons g after =>
        rw [List.flatMap_cons,ValidFrame.bytes]
        simp only [List.length_append,Vector.length_toList]
        omega
    have hreads : ReadsHeader (f.bytes ++ after.flatMap ValidFrame.bytes)
        (f.payload ++ after.flatMap ValidFrame.bytes) :=
      ⟨⟨_,.next (f.pass _) (.here _)⟩,hlong⟩
    exact h.payload_skipped _ hreads ⟨by rw [List.length_append]; omega,le_rfl⟩
  · rintro (hpayload | ⟨rfl,hshort⟩)
    · refine ⟨?_,fun r _ => ?_⟩
      · rw [f.handleData_out,hpayload,List.nil_append,handleData_frames]
      · rw [hpayload,List.nil_append]
        omega
    · have hwait : framing.decoder.pass f.payload = .wait := framing.decoder_pass_short hshort
      refine ⟨?_,fun r hreads hr => ?_⟩
      · rw [f.handleData_out,List.flatMap_nil,List.append_nil,handleData,run_wait hwait]
        rfl
      · rcases f.readsHeader _ hreads with heq | ⟨⟨out,hbound⟩,hlen⟩
        · exact absurd hr.2 (Nat.not_le.mpr (hfront r heq))
        · rw [List.flatMap_nil,List.append_nil] at hbound
          cases hbound with
          | here => omega
          | next hp _ =>
            rw [hwait] at hp
            cases hp

/-- A PING of version 2 whose payload is a PONG frame. -/
def disguisedPong : RejectedFrame where
  header := #v[0x4D,0x53,0x49,0x50,2,0,0,8,0,1,0,0,0,0,0,24,0,0,0,0,0,0,0,5]
  payload := frameBytes .pong [] FrameFlags.none 7
  error := "unsupported version"
  magic := by decide
  tryFrom_eq := by decide
  length_eq := by decide

/-- The payload of a rejected frame is delivered as a frame. -/
theorem not_recovers : ¬∀ (f : RejectedFrame) (after : List ValidFrame), Recovers f after := by
  intro h
  have hreports := (h disguisedPong []).reports
  revert hreports
  decide

end Rust
end MipClients
