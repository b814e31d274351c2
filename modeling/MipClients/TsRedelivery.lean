import MipClients.TsStreams

/-! How often the TypeScript client emits the frames of its stream. The loop of `handleData` takes a
frame off the buffer behind its listeners; when one of them throws, the frame stays in front of the
data to come. -/
namespace MipClients
namespace Ts

open StreamDecoder Transition

def Entry.isFrame : Entry → Bool
  | .emit (.frame _ _) => true
  | _ => false

def Event.data? : Event → Option (List UInt8)
  | .host (.data _ data) => some data
  | _ => none

namespace State

def frames (s : State) : ℕ := s.log.countP Entry.isFrame

/-- Where the interrupted handler goes on, sooner or later. -/
def return? (s : State) : Option Return := s.cont.bind Cont.return?

end State

/-- How many bytes `handleData` has been given, and where among them the frames start that have been
emitted. -/
structure Deliveries where
  received : ℕ := 0
  emitted : List ℕ := []

def Deliveries.front (d : Deliveries) (s : State) : ℕ := d.received - s.buffer.length

def Deliveries.receive (d : Deliveries) (e : Event) : Deliveries :=
  { d with received := d.received + (e.data?.getD []).length }

def Deliveries.next (d : Deliveries) (s : State) (e : Event) (t : State) : Deliveries :=
  if s.frames < t.frames then
    { d.receive e with emitted := (d.receive e).front t :: d.emitted }
  else d.receive e

def FrontTaken (s : State) (e : Event) : Prop := ∀ data ∈ e.data?, complete s.buffer = false

instance (s : State) (e : Event) : Decidable (FrontTaken s e) :=
  match h : e.data? with
  | none => isTrue fun data hd => by rw [h] at hd; cases hd
  | some data => decidable_of_iff (complete s.buffer = false)
      ⟨fun hc _ _ => hc,fun hc => hc data h⟩

/-- What a step does to the buffer: nothing, or `connect()` empties it, or the loop looks at it. -/
inductive Advance (s : State) (e : Event) (t : State) : Prop
  | quiet (he : e.data? = none) (hbuffer : t.buffer = s.buffer) (hframes : t.frames = s.frames)
      (hreturn : ∀ r, t.return? = some r → r = .done ∨ s.return? = some r)
  | emptied (he : e.data? = none) (hbuffer : t.buffer = []) (hframes : t.frames = s.frames)
  | received (u : State) (i : ℕ) (data : List UInt8) (he : e.data? = some data)
      (hbuffer : u.buffer = s.buffer ++ data) (hframes : u.frames = s.frames) (ht : t = u.loop i)
  | advanced (u : State) (i j length : ℕ) (he : e.data? = none)
      (hreturn : s.return? = some (.loop j length)) (hbuffer : u.buffer = s.buffer.drop length)
      (hframes : u.frames = s.frames) (ht : t = u.loop i)

theorem Advance.ends {s t : State} {e : Event} (he : e.data? = none)
    (hbuffer : t.buffer = s.buffer) (hframes : t.frames = s.frames) (hreturn : t.return? = none) :
    Advance s e t := by
  refine .quiet he hbuffer hframes fun r hr => ?_
  rw [hreturn] at hr
  cases hr

inductive Continues (s : State) (r : Return) : State → Prop
  | after {u : State} (hbuffer : u.buffer = s.buffer) (hframes : u.frames = s.frames) :
      Continues s r (u.after r)
  | emits {t : State} (hbuffer : t.buffer = s.buffer) (hframes : t.frames = s.frames)
      (hreturn : t.return? = some r) : Continues s r t

theorem Continues.congr {s u t : State} {r : Return} (h : Continues u r t)
    (hbuffer : u.buffer = s.buffer) (hframes : u.frames = s.frames) : Continues s r t := by
  cases h with
  | after hb hf => exact .after (hb.trans hbuffer) (hf.trans hframes)
  | emits hb hf hr => exact .emits (hb.trans hbuffer) (hf.trans hframes) hr

theorem Continues.advance {s u t : State} {e : Event} {r : Return} (h : Continues u r t)
    (he : e.data? = none) (hbuffer : u.buffer = s.buffer) (hframes : u.frames = s.frames)
    (hr : r = .done ∨ s.return? = some r) : Advance s e t := by
  have h := h.congr hbuffer hframes
  cases h with
  | emits hb hf hreturn =>
    refine .quiet he hb hf fun r' hr' => ?_
    cases hreturn.symm.trans hr'
    exact hr
  | @after v hb hf =>
    cases r with
    | done => exact .ends he hb hf rfl
    | loop i length =>
      rcases hr with hr | hr
      · cases hr
      · exact .advanced { v with buffer := v.buffer.drop length } i i length he hr
          (congrArg (List.drop length) hb) hf rfl

namespace State

variable (s : State) (r : Return)

theorem after_continues : Continues s r (s.after r) := .after rfl rfl

theorem scheduleReconnect_continues : Continues s r (s.scheduleReconnect r) := by
  unfold scheduleReconnect
  split_ifs
  · exact s.after_continues r
  · exact .emits rfl rfl rfl
  · exact .emits rfl rfl rfl

theorem reconnectIfAuto_continues : Continues s r (s.reconnectIfAuto r) := by
  unfold reconnectIfAuto
  split_ifs
  · exact s.scheduleReconnect_continues r
  · exact s.after_continues r

theorem handleClose_continues : Continues s r (s.handleClose r) := by
  unfold handleClose
  dsimp only
  split_ifs
  · exact .emits rfl rfl rfl
  · exact (reconnectIfAuto_continues _ r).congr rfl rfl

theorem processFrame_continues (i : ℕ) (header : FrameHeader) (payload : List UInt8) :
    Continues s (.loop i (headerSize + header.payloadLength))
      (s.processFrame i header payload) := by
  unfold processFrame
  dsimp only
  cases parseMessage header payload <;> dsimp only <;> split_ifs
  all_goals
    first
    | exact .emits rfl rfl rfl
    | exact s.after_continues _
    | exact (handleClose_continues _ _).congr rfl rfl

theorem resume_advance (now : ℤ) {k : Cont} (hk : s.cont = some k) :
    Advance s (.listenersReturn now) (s.resume now k) := by
  have hreturn {r : Return} (hr : k.return? = some r) : s.return? = some r := by
    rw [return?,hk]
    exact hr
  have hadvance {r : Return} (hr : k.return? = some r) (h : Continues s r (s.resume now k)) :
      Advance s (.listenersReturn now) (s.resume now k) :=
    h.advance rfl rfl rfl (.inr (hreturn hr))
  cases k with
  | onConnect i =>
    rcases s.sayHello_cases i now with ⟨j,bytes,-,-,-,hh⟩ | ⟨-,n,error,hh⟩ <;> rw [resume,hh]
    · exact .ends rfl rfl rfl rfl
    · exact .ends rfl rfl rfl rfl
  | helloFailed i => exact .ends rfl rfl rfl rfl
  | onError message =>
    rw [resume,onLaterError]
    split_ifs
    · exact .quiet rfl rfl rfl fun r hr => .inl (Option.some.inj hr).symm
    · exact .ends rfl rfl rfl rfl
  | badMagic =>
    unfold resume
    cases s.socket <;> exact .ends rfl rfl rfl rfl
  | frame i header payload => exact hadvance rfl (s.processFrame_continues i header payload)
  | event r msg => exact hadvance rfl (.emits rfl rfl rfl)
  | handleClose r => exact hadvance rfl (s.reconnectIfAuto_continues r)
  | reconnecting r => exact hadvance rfl (.after rfl rfl)
  | after r => exact hadvance rfl (s.after_continues r)

theorem connect_advance {u : State} {e : Event} (he : e.data? = none) (hbuffer : u.buffer = s.buffer)
    (hframes : u.frames = s.frames) (hcont : u.cont = s.cont) (retry : Bool) :
    Advance s e (u.connect retry) := by
  unfold connect
  split_ifs
  · refine .quiet he hbuffer hframes fun r hr => .inr ?_
    rwa [return?,← hcont]
  · exact .emptied he rfl hframes

theorem call_advance (now : ℤ) (c : Call) : Advance s (.call c now) (s.call now c) := by
  cases s.call_move now c with
  | connectCall =>
    exact s.connect_advance (u := { s with log := .connectCall :: s.log }) rfl rfl rfl rfl false
  | disconnectCall =>
    obtain ⟨n,sockets,hd⟩ := s.disconnect_eq now
    rw [call,hd]
    exact .quiet rfl rfl rfl fun r hr => .inr hr
  | sends he hsent =>
    obtain ⟨n,sockets,hs⟩ := hsent.eq
    rw [hs]
    exact .quiet rfl rfl rfl fun r hr => .inr hr

theorem host_advance {s t : State} {e : HostEvent} (h : s.host e = some t) :
    Advance s (.host e) t := by
  cases e <;> simp only [host,Option.ite_none_right_eq_some,Option.some.injEq] at h <;>
    obtain ⟨hg,rfl⟩ := h
  case connect i =>
    obtain ⟨timer,intervals,n,ho⟩ := (s.updateSocket i Socket.emitConnect).onConnect_eq i
    rw [ho]
    exact .ends rfl rfl rfl rfl
  case error i message =>
    split_ifs with herr
    · unfold onLaterError
      split_ifs
      · exact .quiet rfl rfl rfl fun r hr => .inl (Option.some.inj hr).symm
      · exact .ends rfl rfl rfl rfl
    · obtain ⟨sockets,n,ho⟩ := (s.updateSocket i Socket.emitError).onError_eq i message
      rw [ho]
      exact .ends rfl rfl rfl rfl
  case data i data =>
    exact .received { s.updateSocket i (Socket.receive data) with buffer := s.buffer ++ data } i
      data rfl rfl rfl rfl
  case close i => exact (handleClose_continues _ .done).advance rfl rfl rfl (.inl rfl)
  case timeout timer =>
    exact s.connect_advance (u := { s with
      timeouts := clear (some timer) s.timeouts
      reconnectTimer := none
      log := .retry :: s.log }) rfl rfl rfl rfl true
  case interval timer now =>
    split_ifs
    · obtain ⟨n,sockets,hs⟩ := (s.sendFrame_sends Wire.FrameType.ping.code [] 0 now).eq
      rw [ping,hs]
      exact .quiet rfl rfl rfl fun r hr => .inr hr
    · exact .quiet rfl rfl rfl fun r hr => .inr hr
  case rejection =>
    split_ifs
    · exact (scheduleReconnect_continues _ .done).advance rfl rfl rfl (.inl rfl)
    · exact .quiet rfl rfl rfl fun r hr => .inr hr

end State

theorem step_advance {s t : State} {e : Event} (h : step s e = some t) : Advance s e t := by
  cases e with
  | call c now =>
    cases h
    exact s.call_advance now c
  | host e => exact State.host_advance (Option.ite_none_right_eq_some.mp h).2
  | listenersReturn now =>
    obtain ⟨k,hk,rfl⟩ := Option.map_eq_some_iff.mp h
    exact s.resume_advance now hk
  | listenerThrows =>
    obtain ⟨k,hk,rfl⟩ := Option.map_eq_some_iff.mp h
    exact .ends rfl rfl rfl rfl

/-- Every frame emitted starts before the front of the buffer, or is the one in front; and a complete
frame in front has been emitted. -/
structure Delivered (s : State) (d : Deliveries) : Prop where
  buffered : s.buffer.length ≤ d.received
  behind : ∀ p ∈ d.emitted, p < d.front s ∨ p = d.front s ∧ complete s.buffer = true
  front : complete s.buffer = true → d.front s ∈ d.emitted
  ready : ∀ i length, s.return? = some (.loop i length) → s.buffer = [] ∨
    ∃ out, framing.pass s.buffer = .deliver out (s.buffer.drop length)

theorem complete_iff (buffer : List UInt8) :
    complete buffer = true ↔ ∃ out rest, framing.pass buffer = .deliver out rest := by
  unfold complete
  cases framing.pass buffer <;> simp

theorem complete_append {buffer : List UInt8} (h : complete buffer = true) (data : List UInt8) :
    complete (buffer ++ data) = true := by
  obtain ⟨out,rest,hp⟩ := (complete_iff buffer).mp h
  exact (complete_iff _).mpr ⟨out,rest ++ data,framing.decoder.deliver_stable hp data⟩

theorem complete_length {buffer : List UInt8} (h : complete buffer = true) : 0 < buffer.length := by
  obtain ⟨out,rest,hp⟩ := (complete_iff buffer).mp h
  exact Nat.zero_lt_of_lt (framing.decoder.deliver_length hp)

theorem Deliveries.next_of_eq {d : Deliveries} {s t : State} {e : Event}
    (h : t.frames = s.frames) : d.next s e t = d.receive e := by
  rw [next,h,if_neg (Nat.lt_irrefl _)]

theorem Deliveries.next_of_succ {d : Deliveries} {s t : State} {e : Event}
    (h : t.frames = s.frames + 1) : d.next s e t =
      { d.receive e with emitted := (d.receive e).front t :: d.emitted } := by
  rw [next,h,if_pos (Nat.lt_succ_self _)]

theorem Deliveries.receive_of_none {d : Deliveries} {e : Event} (he : e.data? = none) :
    d.receive e = d := by
  rw [receive,he]
  rfl

theorem Deliveries.receive_of_some {d : Deliveries} {e : Event} {data : List UInt8}
    (he : e.data? = some data) : (d.receive e).received = d.received + data.length := by
  rw [receive,he]
  rfl

theorem Delivered.le_front {s : State} {d : Deliveries} (hI : Delivered s d) {p : ℕ}
    (hp : p ∈ d.emitted) : p ≤ d.front s :=
  (hI.behind p hp).elim Nat.le_of_lt fun hc => hc.1.le

theorem Delivered.lt_received {s : State} {d : Deliveries} (hI : Delivered s d) {p : ℕ}
    (hp : p ∈ d.emitted) : p < d.received := by
  have hbuffered := hI.buffered
  rcases hI.behind p hp with hlt | ⟨hp,hc⟩
  · exact hlt.trans_le (Nat.sub_le _ _)
  · have hpos := complete_length hc
    rw [Deliveries.front] at hp
    omega

theorem Delivered.loop {u : State} {d : Deliveries} (hbuffered : u.buffer.length ≤ d.received)
    (hbehind : ∀ p ∈ d.emitted, p < d.front u ∨ p = d.front u ∧ complete u.buffer = true) (i : ℕ) :
    (complete u.buffer = false ∧ (u.loop i).frames = u.frames ∧ Delivered (u.loop i) d) ∨
    complete u.buffer = true ∧ (u.loop i).frames = u.frames + 1 ∧
      d.front (u.loop i) = d.front u ∧
      Delivered (u.loop i) { d with emitted := d.front (u.loop i) :: d.emitted } := by
  rcases u.loop_cases i with ⟨hp,hl⟩ | ⟨error,hp,hl⟩ | ⟨header,payload,hp,hl⟩ <;> rw [hl]
  · have hno : complete u.buffer = false := by rw [complete,hp]
    refine .inl ⟨hno,rfl,hbuffered,hbehind,fun h => ?_,fun j length hreturn => ?_⟩
    · cases hno.symm.trans h
    · cases hreturn
  · have hno : complete u.buffer = false := by rw [complete,hp]
    refine .inl ⟨hno,rfl,hbuffered,hbehind,fun h => ?_,fun j length hreturn => ?_⟩
    · cases hno.symm.trans h
    · cases hreturn
  · have hyes : complete u.buffer = true := (complete_iff _).mpr ⟨_,_,hp⟩
    refine .inr ⟨hyes,List.countP_cons_of_pos rfl,rfl,hbuffered,fun p hmem => ?_,
      fun _ => List.mem_cons_self,?_⟩
    · rcases List.mem_cons.mp hmem with rfl | hmem
      · exact .inr ⟨rfl,hyes⟩
      · exact hbehind p hmem
    · intro j length hreturn
      cases hreturn
      exact .inr ⟨_,hp⟩

/-- A step emits a frame for the second time exactly when it brings data while a complete frame is
still in front of the buffer. -/
theorem Delivered.step {s t : State} {d : Deliveries} {e : Event} (hI : Delivered s d)
    (h : Ts.step s e = some t) : Delivered t (d.next s e t) ∧
      (d.emitted.Nodup → ((d.next s e t).emitted.Nodup ↔ FrontTaken s e)) := by
  have htaken (he : e.data? = none) : FrontTaken s e := fun data hd => by
    rw [he] at hd
    cases hd
  cases step_advance h with
  | quiet he hbuffer hframes hreturn =>
    rw [Deliveries.next_of_eq hframes,Deliveries.receive_of_none he]
    refine ⟨⟨?_,?_,?_,fun i length hr => ?_⟩,fun hnodup => iff_of_true hnodup (htaken he)⟩
    · rw [hbuffer]
      exact hI.buffered
    · rw [Deliveries.front,hbuffer]
      exact hI.behind
    · rw [Deliveries.front,hbuffer]
      exact hI.front
    · rcases hreturn _ hr with hdone | hr
      · cases hdone
      · rw [hbuffer]
        exact hI.ready i length hr
  | emptied he hbuffer hframes =>
    rw [Deliveries.next_of_eq hframes,Deliveries.receive_of_none he]
    have hnil : complete t.buffer = false := by rw [hbuffer]; rfl
    refine ⟨⟨?_,fun p hp => .inl ?_,fun hc => ?_,fun i length hr => .inl hbuffer⟩,
      fun hnodup => iff_of_true hnodup (htaken he)⟩
    · rw [hbuffer]
      exact Nat.zero_le _
    · -- the frame in front has gone with the buffer
      rw [Deliveries.front,hbuffer]
      exact hI.lt_received hp
    · cases hnil.symm.trans hc
  | received u i data he hbuffer hframes ht =>
    subst ht
    have hreceive := Deliveries.receive_of_some (d := d) he
    have hfront : (d.receive e).front u = d.front s := by
      rw [Deliveries.front,hreceive,hbuffer,List.length_append,Nat.add_sub_add_right]
      rfl
    have hbuffered : u.buffer.length ≤ (d.receive e).received := by
      rw [hbuffer,hreceive,List.length_append]
      exact Nat.add_le_add_right hI.buffered _
    have hbehind : ∀ p ∈ (d.receive e).emitted, p < (d.receive e).front u ∨
        p = (d.receive e).front u ∧ complete u.buffer = true := by
      intro p hp
      rw [hfront]
      refine (hI.behind p hp).imp_right fun hc => ⟨hc.1,?_⟩
      rw [hbuffer]
      exact complete_append hc.2 data
    have hiff : FrontTaken s e ↔ complete s.buffer = false :=
      ⟨fun hc => hc data he,fun hc _ _ => hc⟩
    rcases Delivered.loop hbuffered hbehind i with ⟨hno,hf,hnext⟩ | ⟨hyes,hf,hsame,hnext⟩
    · rw [Deliveries.next_of_eq (hf.trans hframes)]
      refine ⟨hnext,fun hnodup => iff_of_true hnodup (hiff.mpr ?_)⟩
      refine Bool.eq_false_iff.mpr fun hc => ?_
      rw [hbuffer,complete_append hc data] at hno
      cases hno
    · rw [Deliveries.next_of_succ (hf.trans (congrArg (· + 1) hframes))]
      refine ⟨hnext,fun hnodup => ?_⟩
      rw [List.nodup_cons,hsame,hfront,hiff]
      constructor
      · rintro ⟨hmem,-⟩
        exact Bool.eq_false_iff.mpr fun hc => hmem (hI.front hc)
      · intro hc
        refine ⟨fun hmem => ?_,hnodup⟩
        rcases hI.behind _ hmem with hlt | ⟨-,hc'⟩
        · exact Nat.lt_irrefl _ hlt
        · cases hc.symm.trans hc'
  | advanced u i j length he hreturn hbuffer hframes ht =>
    subst ht
    rw [Deliveries.next,Deliveries.receive_of_none he]
    -- the frame in front has been taken off, unless it has gone with the buffer
    have hfront : ∀ p ∈ d.emitted, p < d.front u := by
      intro p hp
      rcases hI.ready j length hreturn with hnil | ⟨out,hpass⟩
      · rw [Deliveries.front,hbuffer,hnil,List.drop_nil]
        exact hI.lt_received hp
      · have hshorter := framing.decoder.deliver_length hpass
        have hbuffered := hI.buffered
        have hbefore := hI.le_front hp
        rw [Deliveries.front] at hbefore ⊢
        rw [hbuffer]
        omega
    have hbuffered : u.buffer.length ≤ d.received := by
      rw [hbuffer,List.length_drop]
      exact (Nat.sub_le _ _).trans hI.buffered
    rcases Delivered.loop hbuffered (fun p hp => .inl (hfront p hp)) i with
      ⟨-,hf,hnext⟩ | ⟨-,hf,hsame,hnext⟩
    · rw [if_neg (by rw [hf,hframes]; exact Nat.lt_irrefl _)]
      exact ⟨hnext,fun hnodup => iff_of_true hnodup (htaken he)⟩
    · rw [if_pos (by rw [hf,hframes]; exact Nat.lt_succ_self _)]
      refine ⟨hnext,fun hnodup => iff_of_true (List.nodup_cons.mpr ⟨fun hmem => ?_,hnodup⟩)
        (htaken he)⟩
      rw [hsame] at hmem
      exact Nat.lt_irrefl _ (hfront _ hmem)

/-- In every run, each frame of the stream is emitted at most once if and only if no data comes while
the buffer still starts with a complete frame, whose listener has thrown. -/
theorem frames_once_iff (options : Options) (events : List Event) :
    (∀ x ∈ states (recorded step Deliveries.next) (init options,{}) events, x.2.emitted.Nodup) ↔
      ∀ p ∈ steps step (init options) events, FrontTaken p.1 p.2 := by
  have hinit : Delivered (init options) {} := by
    refine ⟨Nat.le_refl _,fun p hp => ?_,fun hc => ?_,fun i length hr => ?_⟩
    · cases hp
    · cases hc
    · cases hr
  rw [← forall_steps_recorded Deliveries.next (init options,{}) events]
  refine invariant_iff_of_steps (I := fun x : State × Deliveries => Delivered x.1 x.2)
    (A := fun _ _ => True) (C := fun x e => FrontTaken x.1 e) (fun x e y hI _ hs => ?_)
    (fun x e y hI _ hP hs => ?_) hinit List.nodup_nil fun _ _ => trivial
  · obtain ⟨hstep,hy⟩ := recorded_eq_some hs
    have h := (Delivered.step hI hstep).1
    rwa [← hy] at h
  · obtain ⟨hstep,hy⟩ := recorded_eq_some hs
    rw [hy]
    exact (Delivered.step hI hstep).2 hP

/-- The 'frame' listener throws for an ACK, and another ACK follows. -/
def thrownRun : List Event :=
  [.call .connect 0,.host (.connect 0),.listenersReturn 0,
    .host (.data 0 (Wire.headerBytes Wire.FrameType.ack.code 0 1 0 7)),.listenerThrows,
    .host (.data 0 (Wire.headerBytes Wire.FrameType.ack.code 0 1 0 8))]

theorem frames_not_once : ¬∀ (options : Options) (events : List Event),
    ∀ x ∈ states (recorded step Deliveries.next) (init options,{}) events,
      x.2.emitted.Nodup := by
  intro h
  have hrun : ∃ x ∈ states (recorded step Deliveries.next) (init {},{}) thrownRun,
      x.2.emitted = [0,0] := by
    decide +kernel
  obtain ⟨x,hx,hemitted⟩ := hrun
  have hnodup := h {} thrownRun x hx
  rw [hemitted] at hnodup
  revert hnodup
  decide

end Ts
end MipClients
