import MipClients.Interoperability
import MipClients.RustHeaderGrammar

/-! Which headers each of the three data handlers accepts, and what it reports of them. -/
namespace MipClients

open StreamDecoder
open Wire (Emission Fault FrameType)

structure HeaderFields where
  magic : ℕ
  version : ℕ
  flags : ℕ
  frameType : ℕ
  msgKind : ℕ
  payloadLength : ℕ
  msgId : ℕ
  deriving DecidableEq

def Rust.Header.fields (h : Rust.Header) : HeaderFields :=
  ⟨BigEndian.value h.magic.toList,h.version.toNat,h.flags.bits.toNat,h.frameType.code,
    h.msgKind.code,h.payloadLen.toNat,h.msgId.toNat⟩

def Ts.FrameHeader.fields (h : Ts.FrameHeader) : HeaderFields :=
  ⟨h.magic,h.version,h.flags,h.frameType,h.msgKind,h.payloadLength,h.msgId⟩

def Py.FrameHeader.fields (h : Py.FrameHeader) : HeaderFields :=
  ⟨h.magic,h.version,h.flags,h.frameType.code,h.msgKind,h.payloadLength,h.msgId⟩

def HeaderFields.ofBytes (v : Vector UInt8 Wire.headerSize) : HeaderFields :=
  ⟨BigEndian.field v.toList 0 4,BigEndian.field v.toList 4 1,BigEndian.field v.toList 5 1,
    BigEndian.field v.toList 6 2,BigEndian.field v.toList 8 2,BigEndian.field v.toList 12 4,
    BigEndian.field v.toList 16 8⟩

namespace Client

def handle : Client → List UInt8 → List (Emission HeaderFields Fault)
  | .rust, buffer => (run Rust.framing.decoder buffer).out.map
      (Emission.map Rust.Header.fields Rust.MIPError.fault)
  | .ts, buffer => (run Ts.framing.decoder buffer).out.map
      (Emission.map Ts.FrameHeader.fields Ts.MIPError.fault)
  | .python, buffer => (run Py.framing.decoder buffer).out.map
      (Emission.map Py.FrameHeader.fields Py.MIPError.fault)

/-- What the frame callback gets of the frame at the front of a buffer. A frame that is delivered
calls it before anything else. -/
def delivered (c : Client) (buffer : List UInt8) : Option (HeaderFields × List UInt8) :=
  (c.handle buffer).head?.bind Emission.frame?

def Conforming (h : HeaderFields) : Prop :=
  h.version = 1 ∧ (1 ≤ h.frameType ∧ h.frameType ≤ 10) ∧ 1 ≤ h.msgKind ∧ h.msgKind ≤ 5

instance (h : HeaderFields) : Decidable (Conforming h) :=
  inferInstanceAs (Decidable (_ ∧ _))

/-- What each client checks of a header with the magic and defined flags. -/
def accepts : Client → HeaderFields → Bool
  | .rust, h => Conforming h
  | .ts, _ => true
  | .python, h => 1 ≤ h.frameType ∧ h.frameType ≤ 10

/-! A buffer that starts with a header with the magic and the payload it declares. -/

section Front

variable {v : Vector UInt8 Wire.headerSize} {p : List UInt8}

theorem field_magic (hmagic : v.toList.take 4 = Wire.magicBytes) :
    BigEndian.field v.toList 0 4 = 0x4D534950 := by
  rw [BigEndian.field,List.drop_zero,hmagic]
  rfl

theorem ts_delivered (hmagic : v.toList.take 4 = Wire.magicBytes)
    (hlen : BigEndian.field v.toList 12 4 = p.length) (rest : List UInt8) :
    Client.ts.delivered (v.toList ++ p ++ rest) = some (HeaderFields.ofBytes v,p) := by
  have hgood : Ts.framing.good v = true := by
    simp only [Ts.framing,field_magic hmagic]
    rfl
  have hpass : Ts.framing.decoder.pass (v.toList ++ p ++ rest) =
      .deliver (Ts.processFrame (Ts.parseHeader v) p) rest :=
    Framing.pass_frame (F := Ts.framing) hgood hlen rfl rest
  rw [delivered,handle,run_deliver hpass]
  rfl

/-- An unknown frame type raises before any callback is called; what raises later has called the
frame callback. -/
theorem python_delivered (hmagic : v.toList.take 4 = Wire.magicBytes)
    (hlen : BigEndian.field v.toList 12 4 = p.length) (rest : List UInt8) :
    Client.python.delivered (v.toList ++ p ++ rest) =
      if Client.python.accepts (.ofBytes v) then some (HeaderFields.ofBytes v,p) else none := by
  have hgood : Py.framing.good v = true := by
    simp only [Py.framing,field_magic hmagic]
    rfl
  have hpass := Framing.pass_parts (F := Py.framing) hgood hlen rest
  have htype := FrameType.ofCode_eq_none_iff (BigEndian.field v.toList 6 2)
  cases hcode : FrameType.ofCode (BigEndian.field v.toList 6 2) with
  | none =>
    have hact : Py.framing.act v p = .fail [] := by simp [Py.framing,Py.parseHeader,hcode]
    have hno : Client.python.accepts (.ofBytes v) = false := decide_eq_false (htype.mp hcode)
    rw [hact] at hpass
    have hrun : run Py.framing.decoder (v.toList ++ p ++ rest) =
        ⟨[],v.toList ++ p ++ rest,true⟩ := run_fail (d := Py.framing.decoder) hpass
    rw [delivered,handle,hrun,hno]
    rfl
  | some frameType =>
    obtain ⟨header,hparse,hfields⟩ : ∃ header, Py.parseHeader v = .ok header ∧
        header.fields = HeaderFields.ofBytes v := by
      refine ⟨_,by simp only [Py.parseHeader,hcode]; rfl,?_⟩
      simp [Py.FrameHeader.fields,HeaderFields.ofBytes,FrameType.code_of_ofCode hcode]
    have hact : Py.framing.act v p = Py.processFrame header p := by
      simp only [Py.framing,hparse]
    have hyes : Client.python.accepts (.ofBytes v) = true :=
      decide_eq_true (not_not.mp fun h => by simp [htype.mpr h] at hcode)
    rw [hact,Py.processFrame] at hpass
    rw [delivered,handle,hyes,← hfields]
    cases hd : Py.dispatch header p with
    | error raised =>
      simp only [hd] at hpass
      have hrun : run Py.framing.decoder (v.toList ++ p ++ rest) =
          ⟨[.frame header p],v.toList ++ p ++ rest,true⟩ :=
        run_fail (d := Py.framing.decoder) hpass
      rw [hrun]
      rfl
    | ok out =>
      simp only [hd] at hpass
      have hrun : run Py.framing.decoder (v.toList ++ p ++ rest) =
          (run Py.framing.decoder rest).after (.frame header p :: out) :=
        run_deliver (d := Py.framing.decoder) hpass
      rw [hrun]
      rfl

/-- With defined flags, `try_from` takes exactly the conforming headers, and takes them over
unchanged. -/
theorem tryFrom_cases (hmagic : v.toList.take 4 = Wire.magicBytes)
    (hflags : BigEndian.field v.toList 5 1 < 8) :
    (∃ header, Rust.Header.tryFrom v = .ok header ∧ header.fields = HeaderFields.ofBytes v ∧
      Conforming (.ofBytes v)) ∨
    (∃ e, Rust.Header.tryFrom v = .error e ∧ ¬Conforming (.ofBytes v)) := by
  have hversion : BigEndian.field v.toList 4 1 = v[4].toNat := by
    rw [BigEndian.field_one (by simp [Wire.headerSize])]
    simp
  have hbits : BigEndian.field v.toList 5 1 = v[5].toNat := by
    rw [BigEndian.field_one (by simp [Wire.headerSize])]
    simp
  have hconforming : Rust.Header.Recognized v ↔ Conforming (.ofBytes v) := by
    have hone : v[4] = Rust.msipVersion ↔ BigEndian.field v.toList 4 1 = 1 := by
      rw [hversion]
      exact UInt8.toNat_inj.symm
    exact ⟨fun h => ⟨hone.mp h.version,h.frameType,h.msgKind⟩,
      fun h => ⟨hmagic,hone.mpr h.1,h.2.1,h.2.2⟩⟩
  rw [← hconforming]
  have haccepts := Rust.Header.exists_tryFrom_iff v
  cases htry : Rust.Header.tryFrom v with
  | error e =>
    refine .inr ⟨e,rfl,fun hc => ?_⟩
    obtain ⟨header,hok⟩ := haccepts.mpr hc
    cases htry.symm.trans hok
  | ok header =>
    refine .inl ⟨header,rfl,?_,haccepts.mp ⟨header,htry⟩⟩
    obtain ⟨-,h4,frameType,msgKind,hf,hk,rfl⟩ := (Rust.Header.tryFrom_eq_ok_iff v header).mp htry
    have htruncate : Rust.FrameFlags.fromBitsTruncate v[5] = ⟨v[5]⟩ := by
      have h := Rust.fromBitsTruncate_of_lt (hbits ▸ hflags)
      rwa [UInt8.ofNat_toNat] at h
    have hm : BigEndian.value Rust.msipMagic.toList = BigEndian.field v.toList 0 4 := by
      rw [field_magic hmagic]
      rfl
    have hpayload := BigEndian.field_lt v.toList 12 4
    have hid := BigEndian.field_lt v.toList 16 8
    simp only [Rust.Header.fields,Rust.Header.new,HeaderFields.ofBytes,hm,htruncate,hbits,hversion,
      h4,FrameType.code_of_ofCode hf,Rust.MessageKind.code_of_tryFrom hk,
      UInt32.toNat_ofNat_of_lt' hpayload,UInt64.toNat_ofNat_of_lt' hid]

theorem rust_delivered (hmagic : v.toList.take 4 = Wire.magicBytes)
    (hflags : BigEndian.field v.toList 5 1 < 8)
    (hlen : BigEndian.field v.toList 12 4 = p.length) (rest : List UInt8) :
    Client.rust.delivered (v.toList ++ p ++ rest) =
      if Client.rust.accepts (.ofBytes v) then some (HeaderFields.ofBytes v,p) else none := by
  have hgood : Rust.framing.good v = true := decide_eq_true hmagic
  have hpass := Framing.pass_parts (F := Rust.framing) hgood hlen rest
  rw [Rust.framing_act] at hpass
  rcases tryFrom_cases hmagic hflags with ⟨header,htry,hfields,hyes⟩ | ⟨e,htry,hno⟩
  · simp only [htry] at hpass
    have hrun : run Rust.framing.decoder (v.toList ++ p ++ rest) =
        (run Rust.framing.decoder rest).after (Rust.processFrame header p) :=
      run_deliver (d := Rust.framing.decoder) hpass
    have haccepts : Client.rust.accepts (.ofBytes v) = true := decide_eq_true hyes
    rw [delivered,handle,hrun,haccepts,← hfields]
    rfl
  · simp only [htry] at hpass
    have hrun : run Rust.framing.decoder (v.toList ++ p ++ rest) =
        (run Rust.framing.decoder (p ++ rest)).after [.error (.protocol e)] :=
      run_deliver (d := Rust.framing.decoder) hpass
    have haccepts : Client.rust.accepts (.ofBytes v) = false := decide_eq_false hno
    rw [delivered,handle,hrun,haccepts]
    rfl

theorem delivered_eq (c : Client) (hmagic : v.toList.take 4 = Wire.magicBytes)
    (hflags : BigEndian.field v.toList 5 1 < 8)
    (hlen : BigEndian.field v.toList 12 4 = p.length) (rest : List UInt8) :
    c.delivered (v.toList ++ p ++ rest) =
      if c.accepts (.ofBytes v) then some (HeaderFields.ofBytes v,p) else none := by
  cases c with
  | rust => exact rust_delivered hmagic hflags hlen rest
  | ts => exact ts_delivered hmagic hlen rest
  | python => exact python_delivered hmagic hlen rest

end Front

/-- Whatever arrives behind a frame with the magic and defined flags: each client delivers it just
when it accepts the header, reporting the fields that are on the wire, and the three agree just when
the version is 1 and the frame type and the message kind are among those defined. -/
theorem acceptance (v : Vector UInt8 Wire.headerSize) (p rest : List UInt8)
    (hmagic : v.toList.take 4 = Wire.magicBytes) (hflags : BigEndian.field v.toList 5 1 < 8)
    (hlen : BigEndian.field v.toList 12 4 = p.length) :
    (∀ c : Client, c.delivered (v.toList ++ p ++ rest) =
      if c.accepts (.ofBytes v) then some (HeaderFields.ofBytes v,p) else none) ∧
    ((∀ c c' : Client,
        c.delivered (v.toList ++ p ++ rest) = c'.delivered (v.toList ++ p ++ rest)) ↔
      Conforming (.ofBytes v)) := by
  have heq := fun c : Client => delivered_eq c hmagic hflags hlen rest
  refine ⟨heq,?_⟩
  constructor
  · intro h
    have hrust := h .rust .ts
    rw [heq .rust,heq .ts] at hrust
    simpa [accepts] using hrust
  · intro hyes c c'
    have haccepts : ∀ c : Client, c.accepts (.ofBytes v) = true := by
      intro c
      cases c with
      | rust => exact decide_eq_true hyes
      | ts => rfl
      | python => exact decide_eq_true hyes.2.1
    rw [heq c,heq c',haccepts c,haccepts c']

def versionTwo : Vector UInt8 Wire.headerSize :=
  #v[0x4D,0x53,0x49,0x50,2,0,0,8,0,1,0,0,0,0,0,0,0,0,0,0,0,0,0,7]

theorem acceptance_versionTwo :
    (∀ c : Client, c.delivered (versionTwo.toList ++ [] ++ []) =
      if c.accepts (.ofBytes versionTwo) then some (HeaderFields.ofBytes versionTwo,[])
      else none) ∧
    ((∀ c c' : Client, c.delivered (versionTwo.toList ++ [] ++ []) =
        c'.delivered (versionTwo.toList ++ [] ++ [])) ↔ Conforming (.ofBytes versionTwo)) :=
  acceptance versionTwo [] [] (by decide) (by decide) (by decide)

/-- Only the Rust client looks at the version. -/
theorem acceptance_differs :
    ¬∀ (v : Vector UInt8 Wire.headerSize) (p : List UInt8), v.toList.take 4 = Wire.magicBytes →
      BigEndian.field v.toList 12 4 = p.length →
      ∀ c c' : Client, c.delivered (v.toList ++ p) = c'.delivered (v.toList ++ p) := by
  intro h
  have hc := h versionTwo [] (by decide) (by decide) .rust .ts
  revert hc
  decide

end Client

end MipClients
