import MipClients.Stamps
import MipClients.Transition
import MipClients.TsHandlers

/-! The message ids of the TypeScript client (`generateMsgId` in `index.ts`): a reading of
`Date.now()`, scaled, and a count that is shared by all calls of a run, whatever connection they
write to. -/
namespace MipClients
namespace Ts

open Stamps
open Transition (recorded states run)
open Wire (FrameType)

def Event.now? : Event → Option ℤ
  | .call _ now | .listenersReturn now | .host (.interval _ now) => some now
  | _ => none

/-- The call of `generateMsgId` in a step, if there is one: its reading and its result. -/
def generated (s : State) (e : Event) (t : State) : List (ℤ × ℤ) :=
  if s.msgIdCounter < t.msgIdCounter then
    e.now?.toList.map fun now => (now,(s.generateMsgId now).1)
  else []

/-- The client together with its calls of `generateMsgId` so far, the latest last. -/
def generatingStep : State × List (ℤ × ℤ) → Event → Option (State × List (ℤ × ℤ)) :=
  recorded step fun ids s e t => ids ++ generated s e t

theorem Proceeds.msgIdCounter {s t : State} (h : Proceeds s t) :
    t.msgIdCounter = s.msgIdCounter := by
  cases h <;> rfl

theorem Sends.msgIdCounter {s t : State} (h : Sends s t) :
    t.msgIdCounter = s.msgIdCounter ∨ t.msgIdCounter = s.msgIdCounter + 1 := by
  cases h with
  | notConnected => exact .inl rfl
  | rangeError now => exact .inr rfl
  | wrote now bytes hsocket hconnected => exact .inr rfl

namespace State

variable (s : State)

@[simp] theorem handleClose_msgIdCounter (r : Return) :
    (s.handleClose r).msgIdCounter = s.msgIdCounter := by
  rcases s.handleClose_cases r with ⟨-,h⟩ | ⟨-,h⟩
  · rw [h]
    rfl
  · exact h.msgIdCounter

theorem disconnect_msgIdCounter (now : ℤ) : (s.disconnect now).msgIdCounter = s.msgIdCounter ∨
    (s.disconnect now).msgIdCounter = s.msgIdCounter + 1 := by
  unfold disconnect
  dsimp only
  split
  · exact ((s.setAutoReconnect false).cleanup.sendClose_sends now).msgIdCounter
  · exact .inl rfl

theorem sayHello_msgIdCounter (i : ℕ) (now : ℤ) :
    (s.sayHello i now).msgIdCounter = s.msgIdCounter ∨
      (s.sayHello i now).msgIdCounter = s.msgIdCounter + 1 := by
  have hsends := (s.sendFrame_sends FrameType.hello.code (Utf8.encode s.clientId) flagsNone
    now).msgIdCounter
  unfold sayHello
  dsimp only
  split
  · next msgId t h =>
    rw [h] at hsends
    exact hsends
  · next error t h =>
    rw [h] at hsends
    exact hsends

end State

/-- A step generates at most one id, at its reading of the clock. -/
theorem msgIdCounter_of_step {s t : State} {e : Event} (h : step s e = some t) :
    t.msgIdCounter = s.msgIdCounter ∨
      ∃ now, e.now? = some now ∧ t.msgIdCounter = s.msgIdCounter + 1 := by
  cases step_move h with
  | connectCall now =>
    left
    unfold State.connect
    split_ifs <;> rfl
  | disconnectCall now =>
    exact (s.disconnect_msgIdCounter now).imp id fun h => ⟨now,rfl,h⟩
  | sends he hs =>
    refine hs.msgIdCounter.imp id fun hcounter => ?_
    cases e with
    | call c now => exact ⟨now,rfl,hcounter⟩
    | host e =>
      cases e with
      | interval timer now => exact ⟨now,rfl,hcounter⟩
      | _ => cases he
    | _ => cases he
  | sayHello now hk => exact (s.sayHello_msgIdCounter _ now).imp id fun h => ⟨now,rfl,h⟩
  | throws hk => exact .inl rfl
  | helloFailed now hk => exact .inl rfl
  | destroy now hk hsocket => exact .inl rfl
  | setReconnectTimer now hk hp => exact .inl hp.msgIdCounter
  | proceeds now hk hr hg hc ht hp => exact .inl hp.msgIdCounter
  | closeFrame now hc => exact .inl (State.handleClose_msgIdCounter _ _)
  | @connect i hidle hopen hphase =>
    obtain ⟨timer,intervals,n,ho⟩ := (s.updateSocket i Socket.emitConnect).onConnect_eq i
    rw [ho]
    exact .inl rfl
  | @error i message hidle hopen hphase hfirst =>
    obtain ⟨sockets,n,ho⟩ := (s.updateSocket i Socket.emitError).onError_eq i message
    rw [ho]
    exact .inl rfl
  | laterError message hidle hp => exact .inl hp.msgIdCounter
  | data data hidle hopen hphase =>
    exact .inl (State.loop_proceeds _ _ _).msgIdCounter
  | close hidle hopen hphase => exact .inl (State.handleClose_msgIdCounter _ _)
  | timeout hidle hlive =>
    left
    unfold State.retry State.connect
    split_ifs <;> rfl
  | rejection hidle hpending hauto => exact .inl rfl
  | reschedule hidle hpending hp => exact .inl hp.msgIdCounter

/-- The calls of a run have counted on from one, and each has stamped its reading. -/
structure Stamped (s : State) (ids : List (ℤ × ℤ)) : Prop where
  length : ids.length = s.msgIdCounter
  stamps : ids.map Prod.snd = stamps 1000000 1 (ids.map Prod.fst)

theorem stamped_step {x y : State × List (ℤ × ℤ)} {e : Event} (h : Stamped x.1 x.2)
    (hstep : generatingStep x e = some y) : Stamped y.1 y.2 := by
  obtain ⟨hs,hids⟩ := Transition.recorded_eq_some hstep
  rw [hids]
  rcases msgIdCounter_of_step hs with hsame | ⟨now,hnow,hnext⟩
  · have hnone : generated x.1 e y.1 = [] := if_neg (by omega)
    rw [hnone,List.append_nil]
    exact ⟨h.length.trans hsame.symm,h.stamps⟩
  · have hone : generated x.1 e y.1 = [(now,(x.1.generateMsgId now).1)] := by
      rw [generated,if_pos (by omega),hnow]
      rfl
    rw [hone]
    refine ⟨?_,?_⟩
    · rw [List.length_append,h.length,hnext]
      rfl
    · rw [List.map_append,List.map_append,h.stamps,List.map_singleton,List.map_singleton,
        stamps_concat,List.length_map,h.length]
      simp only [State.generateMsgId,Int.add_comm 1]

def FieldsFit (frameType payloadLength flags : ℕ) : Prop :=
  frameType < 2 ^ 16 ∧ payloadLength < 2 ^ 32 ∧ flags < 2 ^ 8

section Header

variable {frameType payloadLength flags : ℕ} {msgId : ℤ}

theorem buildHeader_of_fits (h : FieldsFit frameType payloadLength flags)
    (hid : 0 ≤ msgId ∧ msgId < 2 ^ 64) : buildHeader frameType payloadLength flags msgId =
      some (Wire.headerBytes frameType flags msgKindEvent payloadLength msgId.toNat) := by
  obtain ⟨n,rfl⟩ := Int.eq_ofNat_of_zero_le hid.1
  have hmagic : BigEndian.bytes 4 magic = Wire.magicBytes := by decide
  have hversion : BigEndian.bytes 1 version = [1] := by decide
  have hflags : BigEndian.bytes 1 flags = [UInt8.ofNat flags] := rfl
  rw [buildHeader,writeUInt_of_lt (by decide),writeUInt_of_lt (by decide),writeUInt_of_lt h.2.2,
    writeUInt_of_lt h.1,writeUInt_of_lt (by decide),writeUInt_of_lt (by decide),
    writeUInt_of_lt h.2.1,writeBigUInt64BE_of_lt (by omega),hmagic,hversion,hflags]
  simp [Wire.headerBytes]

theorem fits_of_buildHeader {header : List UInt8}
    (h : buildHeader frameType payloadLength flags msgId = some header) :
    FieldsFit frameType payloadLength flags ∧ 0 ≤ msgId ∧ msgId < 2 ^ 64 := by
  simp only [buildHeader,Option.bind_eq_bind,Option.bind_eq_some_iff,writeUInt_eq_some_iff] at h
  obtain ⟨_,-,_,-,_,⟨hflags,-⟩,_,⟨htype,-⟩,_,-,_,-,_,⟨hlength,-⟩,_,hid,-⟩ := h
  refine ⟨⟨htype,hlength,hflags⟩,?_⟩
  unfold writeBigUInt64BE at hid
  split_ifs at hid with hpos
  · have hlt := (writeUInt_eq_some_iff.mp hid).1
    omega

end Header

theorem parses_frameBytes {frameType : ℕ} {payload : List UInt8} {flags : ℕ} {msgId : ℤ}
    {bytes : List UInt8} (h : frameBytes frameType payload flags msgId = some bytes) :
    ∃ v : Vector UInt8 headerSize, bytes = v.toList ++ payload ∧ (parseHeader v).msgId = msgId := by
  simp only [frameBytes,Option.bind_eq_bind,Option.bind_eq_some_iff,Option.pure_def,
    Option.some.injEq] at h
  obtain ⟨header,hheader,rfl⟩ := h
  obtain ⟨hfits,hid⟩ := fits_of_buildHeader hheader
  rw [buildHeader_of_fits hfits hid] at hheader
  have hlt : msgId.toNat < 256 ^ 8 := by omega
  obtain ⟨v,hv⟩ : ∃ v : Vector UInt8 headerSize, v.toList = header ++ [] := by
    have hlen : header.length = headerSize := by
      cases hheader
      exact Wire.length_headerBytes _ _ _ _ _
    exact ⟨⟨header.toArray,by simpa using hlen⟩,by simp [Vector.toList]⟩
  refine ⟨v,by rw [hv,List.append_nil],?_⟩
  cases hheader
  simp only [parseHeader,hv]
  rw [Wire.field_msgId [] hlt]
  omega

/-- A call of `sendFrame` that returns has written one frame to the client's socket, and the id that
it returns is the one in the frame's header. -/
def ReturnsParsedId (s : State) : Prop :=
  ∀ frameType payload flags now msgId, (s.sendFrame frameType payload flags now).1 = .ok msgId →
    msgId = (s.generateMsgId now).1 ∧ ∃ (i : ℕ) (v : Vector UInt8 headerSize), s.socket = some i ∧
      (s.sendFrame frameType payload flags now).2 =
        (s.generateMsgId now).2.write i (v.toList ++ payload) ∧ (parseHeader v).msgId = msgId

theorem returnsParsedId (s : State) : ReturnsParsedId s := by
  intro frameType payload flags now msgId h
  rcases s.sendFrame_cases frameType payload flags now with
    ⟨hcase,-⟩ | ⟨hcase,-⟩ | ⟨i,bytes,hsocket,-,hbytes,hcase⟩ <;> rw [hcase] at h ⊢
  · cases h
  · cases h
  · cases h
    obtain ⟨v,rfl,hid⟩ := parses_frameBytes hbytes
    exact ⟨rfl,i,v,hsocket,rfl,hid⟩

/-- The law of the ids generated so far, given with their readings, and of the next call of
`sendFrame`. Ids of calls that are close are distinct, those of a clock that is never set back
increase, and within the range of the format none makes the header throw. -/
structure MsgIdLaw (s : State) (ids : List (ℤ × ℤ)) : Prop where
  distinct : ∀ i j (hij : i < j) (hj : j < ids.length), j - i - 1 < 999999 →
    ids[i].2 ≠ ids[j].2
  increasing : ids.Pairwise (fun a b => a.1 ≤ b.1) → ids.Pairwise fun a b => a.2 < b.2
  fits : (∀ d ∈ ids, 0 ≤ d.1 ∧ d.1 ≤ 18446744073000) → ids.length < 709551616 →
    ∀ d ∈ ids, 0 ≤ d.2 ∧ d.2 < 2 ^ 64 ∧ writeBigUInt64BE d.2 ≠ none
  returns : ReturnsParsedId s
  throws : ∀ frameType payload flags now, 0 ≤ now → now ≤ 18446744073000 →
    ids.length + 1 < 709551616 →
    (s.sendFrame frameType payload flags now).1 = .error .rangeError →
    ¬FieldsFit frameType payload.length flags

theorem Stamped.getElem {s : State} {ids : List (ℤ × ℤ)} (h : Stamped s ids) {i : ℕ}
    (hi : i < ids.length) : ids[i].2 = ids[i].1 * 1000000 + (1 + i) := by
  have hi' : i < (ids.map Prod.fst).length := by rwa [List.length_map]
  have hget := getElem_stamps 1000000 1 hi'
  simp only [← h.stamps,List.getElem_map] at hget
  exact hget (by rwa [List.length_map])

theorem writeBigUInt64BE_ne_none {n : ℤ} (h : 0 ≤ n ∧ n < 2 ^ 64) : writeBigUInt64BE n ≠ none := by
  obtain ⟨m,rfl⟩ := Int.eq_ofNat_of_zero_le h.1
  rw [writeBigUInt64BE_of_lt (by omega)]
  exact Option.some_ne_none _

theorem Stamped.msgIdLaw {s : State} {ids : List (ℤ × ℤ)} (h : Stamped s ids) : MsgIdLaw s ids where
  distinct i j hij hj hclose := by
    rw [h.getElem (hij.trans hj),h.getElem hj]
    have hj' : j < (ids.map Prod.fst).length := by rwa [List.length_map]
    have hclose' : (j : ℤ) - i < 1000000 := by omega
    simpa using stamps_ne_of_close 1 hij hj' hclose'
  increasing hsorted := by
    have hreadings : (ids.map Prod.fst).Pairwise (· ≤ ·) := List.pairwise_map.mpr hsorted
    have hstamps := stamps_increasing 1 (show (0 : ℤ) ≤ 1000000 by decide) hreadings
    rw [← h.stamps] at hstamps
    exact List.pairwise_map.mp hstamps
  fits hrange hlen d hd := by
    obtain ⟨i,hi,rfl⟩ := List.getElem_of_mem hd
    have hcount : 1 + i < 709551616 := by omega
    have hbounds := stamp_bounds (show (0 : ℤ) ≤ 1000000 by decide) (hrange _ hd) hcount
    have hid : 0 ≤ ids[i].2 ∧ ids[i].2 < 2 ^ 64 := by
      rw [h.getElem hi]
      push_cast at hbounds
      omega
    exact ⟨hid.1,hid.2,writeBigUInt64BE_ne_none hid⟩
  returns := returnsParsedId s
  throws frameType payload flags now hpos hlatest hlen herror hfits := by
    have hcount : s.msgIdCounter + 1 < 709551616 := by rwa [← h.length]
    have hbounds := stamp_bounds (show (0 : ℤ) ≤ 1000000 by decide) ⟨hpos,hlatest⟩ hcount
    have hid : 0 ≤ (s.generateMsgId now).1 ∧ (s.generateMsgId now).1 < 2 ^ 64 := by
      simp only [State.generateMsgId]
      push_cast at hbounds
      omega
    rcases s.sendFrame_cases frameType payload flags now with
      ⟨hcase,-⟩ | ⟨-,hnone⟩ | ⟨i,bytes,-,-,-,hcase⟩
    · rw [hcase] at herror
      cases herror
    · simp [frameBytes,buildHeader_of_fits hfits hid] at hnone
    · rw [hcase] at herror
      cases herror

/-- In every run, over all of its connections and whatever the clock reads, the ids keep the law. -/
theorem msgIds_lawful (options : Options) (events : List Event) :
    ∀ x ∈ states generatingStep (init options,[]) events, MsgIdLaw x.1 x.2 := by
  have hinit : Stamped (init options) [] := ⟨rfl,rfl⟩
  have hstamped : ∀ x ∈ states generatingStep (init options,[]) events, Stamped x.1 x.2 :=
    Transition.invariant (fun _ _ _ hx hstep => stamped_step hx hstep) hinit events
  exact fun x hx => (hstamped x hx).msgIdLaw

/-- A client that has said HELLO and subscribed, with the clock set back in between. -/
theorem msgIds_lawful_setBack : ∃ x ∈ states generatingStep (init {},[])
      [.call .connect 0,.host (.connect 0),.listenersReturn 7,.call (.subscribe ['t'] true) 3],
    x.2 = [(7,7000001),(3,3000002)] ∧ MsgIdLaw x.1 x.2 := by
  obtain ⟨x,hrun,hids⟩ : ∃ x ∈ run generatingStep (init {},[])
      [.call .connect 0,.host (.connect 0),.listenersReturn 7,.call (.subscribe ['t'] true) 3],
      x.2 = [(7,7000001),(3,3000002)] := by
    decide +kernel
  have hmem := Transition.run_mem_states hrun
  exact ⟨x,hmem,hids,msgIds_lawful {} _ x hmem⟩

end Ts
end MipClients
