import Mathlib.Tactic.IntervalCases
import MipClients.Wire

/-! The Rust client's wire protocol (`protocol/header.rs`): flags, kinds, and the header codec. -/
namespace MipClients
namespace Rust

open Wire (FrameType)

def msipMagic : Vector UInt8 4 := #v[0x4D,0x53,0x49,0x50]
def msipVersion : UInt8 := 1
abbrev headerSize : ℕ := 24

structure FrameFlags where
  bits : UInt8
  deriving DecidableEq

namespace FrameFlags

def none : FrameFlags := ⟨0b0000_0000⟩
def ackRequired : FrameFlags := ⟨0b0000_0001⟩
def compressed : FrameFlags := ⟨0b0000_0010⟩
def urgent : FrameFlags := ⟨0b0000_0100⟩
def all : FrameFlags := ⟨none.bits ||| ackRequired.bits ||| compressed.bits ||| urgent.bits⟩

def fromBitsTruncate (bits : UInt8) : FrameFlags := ⟨bits &&& all.bits⟩

end FrameFlags

inductive MessageKind
  | event | command | state | log | metric
  deriving DecidableEq

def MessageKind.code : MessageKind → ℕ
  | .event => 0x0001
  | .command => 0x0002
  | .state => 0x0003
  | .log => 0x0004
  | .metric => 0x0005

def MessageKind.tryFrom : ℕ → Option MessageKind
  | 0x0001 => some .event
  | 0x0002 => some .command
  | 0x0003 => some .state
  | 0x0004 => some .log
  | 0x0005 => some .metric
  | _ => Option.none

theorem MessageKind.code_of_tryFrom {n : ℕ} {k : MessageKind} (h : MessageKind.tryFrom n = some k) :
    k.code = n := by
  unfold MessageKind.tryFrom at h
  split at h <;> cases h <;> rfl

theorem MessageKind.tryFrom_eq_none_iff (n : ℕ) :
    MessageKind.tryFrom n = Option.none ↔ ¬(1 ≤ n ∧ n ≤ 5) := by
  unfold MessageKind.tryFrom
  split <;> grind

structure Header where
  magic : Vector UInt8 4
  version : UInt8
  flags : FrameFlags
  frameType : FrameType
  msgKind : MessageKind
  payloadLen : UInt32
  msgId : UInt64
  deriving DecidableEq

namespace Header

def new (frameType : FrameType) (msgKind : MessageKind) (payloadLen : UInt32) (msgId : UInt64)
    (flags : FrameFlags) : Header where
  magic := msipMagic
  version := msipVersion
  flags := flags
  frameType := frameType
  msgKind := msgKind
  payloadLen := payloadLen
  msgId := msgId

/-- The bytes `copy_from_slice` puts into `buf`, field by field. -/
def encode (h : Header) : List UInt8 :=
  h.magic.toList ++ ([h.version,h.flags.bits] ++ (BigEndian.bytes 2 h.frameType.code ++
    (BigEndian.bytes 2 h.msgKind.code ++ (BigEndian.bytes 2 0 ++
      (BigEndian.bytes 4 h.payloadLen.toNat ++ BigEndian.bytes 8 h.msgId.toNat)))))

def tryFrom (buf : Vector UInt8 headerSize) : Except String Header :=
  if buf.toList.take 4 ≠ msipMagic.toList then .error "invalid magic"
  else if buf[4] ≠ msipVersion then .error "unsupported version"
  else
    let flags := FrameFlags.fromBitsTruncate buf[5]
    if flags.bits &&& ~~~FrameFlags.all.bits ≠ 0 then .error "invalid flags"
    else match FrameType.ofCode (BigEndian.field buf.toList 6 2) with
      | Option.none => .error "invalid frame type"
      | some frameType => match MessageKind.tryFrom (BigEndian.field buf.toList 8 2) with
        | Option.none => .error "invalid message kind"
        | some msgKind => .ok {
            magic := msipMagic
            version := buf[4]
            flags := flags
            frameType := frameType
            msgKind := msgKind
            payloadLen := UInt32.ofNat (BigEndian.field buf.toList 12 4)
            msgId := UInt64.ofNat (BigEndian.field buf.toList 16 8) }

def info (h : Header) : Wire.FrameInfo :=
  ⟨h.frameType.code,h.flags.bits.toNat,h.msgKind.code,h.payloadLen.toNat,h.msgId.toNat⟩

end Header

def FrameFlags.Defined (flags : FrameFlags) : Prop := flags.bits &&& ~~~FrameFlags.all.bits = 0

instance (flags : FrameFlags) : Decidable flags.Defined := inferInstanceAs (Decidable (_ = _))

theorem and_eq_self {a b : UInt8} (h : a &&& ~~~b = 0) : a &&& b = a := by
  have hall : b.toBitVec ||| ~~~b.toBitVec = BitVec.allOnes 8 := BitVec.or_not_self b.toBitVec
  have hnone : a.toBitVec &&& ~~~b.toBitVec = 0#8 := congrArg UInt8.toBitVec h
  apply UInt8.toBitVec_inj.mp
  calc a.toBitVec &&& b.toBitVec
      = a.toBitVec &&& b.toBitVec ||| a.toBitVec &&& ~~~b.toBitVec := by rw [hnone,BitVec.or_zero]
    _ = a.toBitVec &&& (b.toBitVec ||| ~~~b.toBitVec) := BitVec.and_or_distrib_left.symm
    _ = a.toBitVec := by rw [hall,BitVec.and_allOnes]

theorem FrameFlags.Defined.truncate {flags : FrameFlags} (h : flags.Defined) :
    FrameFlags.fromBitsTruncate flags.bits = flags := by
  rw [FrameFlags.fromBitsTruncate,and_eq_self h]

/-- Truncated flags are defined, so that the check behind the truncation never fails. -/
theorem FrameFlags.defined_fromBitsTruncate (bits : UInt8) :
    (FrameFlags.fromBitsTruncate bits).Defined := by
  rw [FrameFlags.Defined,FrameFlags.fromBitsTruncate,UInt8.and_assoc,UInt8.and_not_self,
    UInt8.and_zero]

theorem fromBitsTruncate_of_lt {n : ℕ} (h : n < 8) :
    FrameFlags.fromBitsTruncate (UInt8.ofNat n) = ⟨UInt8.ofNat n⟩ := by
  interval_cases n <;> rfl

theorem toList_getElem? (buf : Vector UInt8 headerSize) {i : ℕ} (hi : i < headerSize) :
    buf.toList[i]? = some buf[i] := by
  simp [hi]

namespace Header

/-- What `try_from` takes: the flags are truncated, whatever they are. -/
theorem tryFrom_eq_ok_iff (v : Vector UInt8 headerSize) (h : Header) :
    tryFrom v = .ok h ↔ v.toList.take 4 = msipMagic.toList ∧ v[4] = msipVersion ∧
      ∃ frameType msgKind, FrameType.ofCode (BigEndian.field v.toList 6 2) = some frameType ∧
        MessageKind.tryFrom (BigEndian.field v.toList 8 2) = some msgKind ∧
        h = new frameType msgKind (UInt32.ofNat (BigEndian.field v.toList 12 4))
          (UInt64.ofNat (BigEndian.field v.toList 16 8)) (FrameFlags.fromBitsTruncate v[5]) := by
  have hflags := FrameFlags.defined_fromBitsTruncate v[5]
  unfold FrameFlags.Defined at hflags
  unfold tryFrom
  by_cases hmagic : v.toList.take 4 = msipMagic.toList
  · by_cases hversion : v[4] = msipVersion
    · simp only [hmagic,hversion,hflags,ne_eq,not_true_eq_false,if_false,true_and]
      cases hf : FrameType.ofCode (BigEndian.field v.toList 6 2) with
      | none => simp
      | some frameType =>
        cases hk : MessageKind.tryFrom (BigEndian.field v.toList 8 2) with
        | none => simp
        | some msgKind => simp [new,eq_comm]
    · simp [hmagic,hversion]
  · simp [hmagic]

theorem encode_new (frameType : FrameType) (msgKind : MessageKind) (payloadLen : UInt32)
    (msgId : UInt64) (flags : FrameFlags) :
    (new frameType msgKind payloadLen msgId flags).encode = Wire.headerBytes frameType.code
      flags.bits.toNat msgKind.code payloadLen.toNat msgId.toNat := by
  rw [Wire.headerBytes,UInt8.ofNat_toNat]
  rfl

theorem length_encode (h : Header) : h.encode.length = headerSize := by
  simp [encode]

def toArray (h : Header) : Vector UInt8 headerSize := ⟨h.encode.toArray,by simp [length_encode]⟩

theorem toArray_toList (h : Header) : h.toArray.toList = h.encode := by
  simp [toArray,Vector.toList]

theorem tryFrom_toArray (frameType : FrameType) (msgKind : MessageKind) (payloadLen : UInt32)
    (msgId : UInt64) (flags : FrameFlags) :
    tryFrom (new frameType msgKind payloadLen msgId flags).toArray =
      .ok (new frameType msgKind payloadLen msgId (FrameFlags.fromBitsTruncate flags.bits)) := by
  have hkind : msgKind.code < 256 ^ 2 := by cases msgKind <;> decide
  have hbytes := (toArray_toList (new frameType msgKind payloadLen msgId flags)).trans
    (encode_new frameType msgKind payloadLen msgId flags)
  rw [← List.append_nil (Wire.headerBytes _ _ _ _ _)] at hbytes
  generalize (new frameType msgKind payloadLen msgId flags).toArray = v at hbytes
  have hversion : v[4] = msipVersion := by
    have h := toList_getElem? v (i := 4) (by decide)
    rw [hbytes] at h
    simpa [Wire.headerBytes,Wire.magicBytes,msipVersion,eq_comm] using h
  have hbits : v[5] = flags.bits := by
    have h := toList_getElem? v (i := 5) (by decide)
    rw [hbytes] at h
    simpa [Wire.headerBytes,Wire.magicBytes,eq_comm] using h
  refine (tryFrom_eq_ok_iff v _).mpr ⟨?_,hversion,frameType,msgKind,?_,?_,?_⟩
  · rw [hbytes,Wire.take_magic]
    rfl
  · rw [hbytes,Wire.field_frameType _ frameType.code_lt,FrameType.ofCode_code]
  · rw [hbytes,Wire.field_msgKind _ hkind]
    cases msgKind <;> rfl
  · rw [hbits,hbytes,Wire.field_payloadLength _ payloadLen.toNat_lt,
      Wire.field_msgId _ msgId.toNat_lt,UInt32.ofNat_toNat,UInt64.ofNat_toNat]

end Header

def buildHeader (frameType : FrameType) (payloadLength : UInt32) (flags : FrameFlags)
    (msgId : UInt64) : Header :=
  Header.new frameType .event payloadLength msgId flags

/-- The frame `send_frame` puts together once it has its message id. -/
def frameBytes (frameType : FrameType) (payload : List UInt8) (flags : FrameFlags)
    (msgId : UInt64) : List UInt8 :=
  (buildHeader frameType (UInt32.ofNat payload.length) flags msgId).encode ++ payload

/-! Frames within the range of the header fields. -/

def headerOf (f : Wire.Frame) : Header :=
  buildHeader f.frameType (UInt32.ofNat f.payload.length) ⟨UInt8.ofNat f.flags⟩
    (UInt64.ofNat f.msgId)

def encodeFrame (f : Wire.Frame) : List UInt8 :=
  frameBytes f.frameType f.payload ⟨UInt8.ofNat f.flags⟩ (UInt64.ofNat f.msgId)

theorem info_headerOf (f : Wire.Frame) : (headerOf f).info = f.info := by
  have hf := f.flags_lt
  have hi := f.msgId_lt
  have hp := f.payload_lt
  simp only [headerOf,buildHeader,Header.new,Header.info,Wire.Frame.info,MessageKind.code,
    Wire.eventKind,UInt8.toNat_ofNat',UInt32.toNat_ofNat',UInt64.toNat_ofNat']
  rw [Nat.mod_eq_of_lt (by omega : f.flags < 2 ^ 8),Nat.mod_eq_of_lt hp,Nat.mod_eq_of_lt hi]

@[simp] theorem encode_headerOf (f : Wire.Frame) :
    (headerOf f).encode =
      Wire.headerBytes f.frameType.code f.flags Wire.eventKind f.payload.length f.msgId := by
  have hi := f.msgId_lt
  have hp := f.payload_lt
  have hf : f.flags < 2 ^ 8 := f.flags_lt.trans (by decide)
  rw [headerOf,buildHeader,Header.encode_new,UInt8.toNat_ofNat_of_lt' hf,
    UInt32.toNat_ofNat_of_lt' hp,UInt64.toNat_ofNat_of_lt' hi]
  rfl

theorem encodeFrame_eq (f : Wire.Frame) : encodeFrame f = f.bytes :=
  congrArg (· ++ f.payload) (encode_headerOf f)

theorem tryFrom_header (f : Wire.Frame) : Header.tryFrom f.header = .ok (headerOf f) := by
  have hheader : f.header = (headerOf f).toArray := by
    apply Vector.toList_inj.mp
    rw [Header.toArray_toList,encode_headerOf,f.header_toList,List.append_nil]
  rw [hheader,headerOf,buildHeader,Header.tryFrom_toArray,fromBitsTruncate_of_lt f.flags_lt]

end Rust
end MipClients
