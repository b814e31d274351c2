import MipClients.RustProtocol

/-! The grammar of headers in the Rust client (`protocol/header.rs`): which arrays `Header::try_from`
takes, and how it goes together with `Header::encode`. -/
namespace MipClients
namespace Rust

open Wire (FrameType)

namespace Header

structure Recognized (v : Vector UInt8 headerSize) : Prop where
  magic : v.toList.take 4 = msipMagic.toList
  version : v[4] = msipVersion
  frameType : 1 ≤ BigEndian.field v.toList 6 2 ∧ BigEndian.field v.toList 6 2 ≤ 10
  msgKind : 1 ≤ BigEndian.field v.toList 8 2 ∧ BigEndian.field v.toList 8 2 ≤ 5

structure Grammar (v : Vector UInt8 headerSize) : Prop extends Recognized v where
  flags : (FrameFlags.mk v[5]).Defined

theorem exists_tryFrom_iff (v : Vector UInt8 headerSize) :
    (∃ h, tryFrom v = .ok h) ↔ Recognized v := by
  have htype := FrameType.ofCode_eq_none_iff (BigEndian.field v.toList 6 2)
  have hkind := MessageKind.tryFrom_eq_none_iff (BigEndian.field v.toList 8 2)
  constructor
  · rintro ⟨h,hok⟩
    obtain ⟨hmagic,hversion,frameType,msgKind,hf,hk,-⟩ := (tryFrom_eq_ok_iff v h).mp hok
    rw [hf] at htype
    rw [hk] at hkind
    exact ⟨hmagic,hversion,by simpa using htype,by simpa using hkind⟩
  · rintro ⟨hmagic,hversion,hf,hk⟩
    obtain ⟨frameType,hf⟩ := Option.ne_none_iff_exists'.mp fun hno => htype.mp hno hf
    obtain ⟨msgKind,hk⟩ := Option.ne_none_iff_exists'.mp fun hno => hkind.mp hno hk
    exact ⟨_,(tryFrom_eq_ok_iff v _).mpr ⟨hmagic,hversion,frameType,msgKind,hf,hk,rfl⟩⟩

/-- An accepted header of defined flags encodes to what it was read from, the reserved bytes apart. -/
theorem encode_of_tryFrom {v : Vector UInt8 headerSize} {h : Header} (hok : tryFrom v = .ok h)
    (hflags : (FrameFlags.mk v[5]).Defined) :
    h.encode = v.toList.take 10 ++ ([0,0] ++ v.toList.drop 12) := by
  obtain ⟨hmagic,hversion,frameType,msgKind,hf,hk,rfl⟩ := (tryFrom_eq_ok_iff v h).mp hok
  have hlen : v.toList.length = 24 := Vector.length_toList
  have hlength : BigEndian.field v.toList 12 4 < 2 ^ 32 := BigEndian.field_lt v.toList 12 4
  have hid : BigEndian.field v.toList 16 8 < 2 ^ 64 := BigEndian.field_lt v.toList 16 8
  have hmiddle : [msipVersion,v[5]] = (v.toList.drop 4).take 2 := by
    rw [← hversion,List.drop_eq_getElem_cons (by omega),List.drop_eq_getElem_cons (by omega)]
    simp
  have htype : BigEndian.bytes 2 frameType.code = (v.toList.drop 6).take 2 := by
    rw [FrameType.code_of_ofCode hf,BigEndian.bytes_field (by omega)]
  have hkind : BigEndian.bytes 2 msgKind.code = (v.toList.drop 8).take 2 := by
    rw [MessageKind.code_of_tryFrom hk,BigEndian.bytes_field (by omega)]
  have hpayload : BigEndian.bytes 4 (BigEndian.field v.toList 12 4) =
      (v.toList.drop 12).take 4 := BigEndian.bytes_field (by omega)
  have hmsgId : BigEndian.bytes 8 (BigEndian.field v.toList 16 8) =
      (v.toList.drop 16).take 8 := BigEndian.bytes_field (by omega)
  have hfront : v.toList.take 10 = v.toList.take 4 ++ ((v.toList.drop 4).take 2 ++
      ((v.toList.drop 6).take 2 ++ (v.toList.drop 8).take 2)) := by
    rw [← List.append_assoc,← List.append_assoc,← List.take_add,← List.take_add,← List.take_add]
  have hback : v.toList.drop 12 = (v.toList.drop 12).take 4 ++ (v.toList.drop 16).take 8 := by
    have hlast : (v.toList.drop 16).take 8 = (v.toList.drop 12).drop 4 := by
      rw [List.take_of_length_le (by rw [List.length_drop]; omega),List.drop_drop]
    rw [hlast,List.take_append_drop]
  rw [hfront,hback,hmagic,← hmiddle,← htype,← hkind,← hpayload,← hmsgId,hflags.truncate]
  simp only [encode,new,UInt32.toNat_ofNat',UInt64.toNat_ofNat',Nat.mod_eq_of_lt hlength,
    Nat.mod_eq_of_lt hid,List.append_assoc]
  rfl

/-- `try_from` decides the grammar of an array, and `encode` gives the array back but for the reserved
bytes. -/
structure FollowsGrammar (v : Vector UInt8 headerSize) : Prop where
  accepts_iff : (∃ h, tryFrom v = .ok h) ↔ Grammar v
  encode_eq : ∀ h, tryFrom v = .ok h →
    h.encode.take 10 = v.toList.take 10 ∧ h.encode.drop 12 = v.toList.drop 12

/-- An array is treated by the grammar exactly when its flags are defined or something else is wrong
with it; and every header of defined flags goes through the codec unchanged. -/
theorem followsGrammar_iff (v : Vector UInt8 headerSize) :
    (FollowsGrammar v ↔ ((FrameFlags.mk v[5]).Defined ∨ ¬Recognized v)) ∧
    ∀ (frameType : FrameType) (msgKind : MessageKind) (payloadLen : UInt32) (msgId : UInt64)
      (flags : FrameFlags), flags.Defined →
      tryFrom (new frameType msgKind payloadLen msgId flags).toArray =
        .ok (new frameType msgKind payloadLen msgId flags) := by
  refine ⟨⟨fun h => ?_,?_⟩,fun frameType msgKind payloadLen msgId flags hflags => ?_⟩
  · by_contra hno
    obtain ⟨hflags,hrecognized⟩ := not_or.mp hno
    exact hflags (h.accepts_iff.mp ((exists_tryFrom_iff v).mpr (not_not.mp hrecognized))).flags
  · rintro (hflags | hrecognized)
    · refine ⟨?_,fun h hok => ?_⟩
      · rw [exists_tryFrom_iff]
        exact ⟨fun h => ⟨h,hflags⟩,fun h => h.toRecognized⟩
      · have hten : (v.toList.take 10).length = 10 := by
          rw [List.length_take,Vector.length_toList]
          rfl
        rw [encode_of_tryFrom hok hflags,List.take_left' hten,← List.append_assoc,
          List.drop_left' (by rw [List.length_append,hten]; rfl)]
        exact ⟨rfl,rfl⟩
    · refine ⟨?_,fun h hok => absurd ((exists_tryFrom_iff v).mp ⟨h,hok⟩) hrecognized⟩
      rw [exists_tryFrom_iff]
      exact ⟨fun h => absurd h hrecognized,fun h => h.toRecognized⟩
  · rw [tryFrom_toArray,hflags.truncate]

/-- An urgent HELLO goes through the codec unchanged. -/
theorem followsGrammar_urgent :
    FollowsGrammar (new .hello .event 3 7 FrameFlags.urgent).toArray ∧
      tryFrom (new .hello .event 3 7 FrameFlags.urgent).toArray =
        .ok (new .hello .event 3 7 FrameFlags.urgent) :=
  ⟨(followsGrammar_iff _).1.mpr (.inl (by decide)),
    (followsGrammar_iff (new .hello .event 3 7 FrameFlags.urgent).toArray).2 .hello .event 3 7
      FrameFlags.urgent (by decide)⟩

/-- A HELLO whose only flag is not a defined one is accepted, without the flag. -/
theorem not_followsGrammar : ¬∀ v : Vector UInt8 headerSize, FollowsGrammar v := by
  intro h
  have hall := (h (new .hello .event 0 7 ⟨0b1000_0000⟩).toArray).accepts_iff
  have hok : ∃ h, tryFrom (new .hello .event 0 7 ⟨0b1000_0000⟩).toArray = .ok h :=
    ⟨new .hello .event 0 7 FrameFlags.none,by decide⟩
  exact absurd (hall.mp hok).flags (by decide)

end Header
end Rust
end MipClients
