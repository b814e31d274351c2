import MipClients.Messages
import MipClients.TsHandshake
import MipClients.TsMsgIds
import MipClients.TsPromises

/-! What the TypeScript client writes (`sendFrame`, `sendClose` and their callers in `index.ts`):
each step that sends gives the client's socket one whole frame, and a socket that the client has
replaced or destroyed is given nothing more. -/
namespace MipClients
namespace Ts

open StreamDecoder Transition
open Utf8 (Text)
open Wire (Emission Frame FrameType)

/-- What an event makes the client send: the type, the payload and the flags of a frame. -/
def State.composes (s : State) : Event → Option (ℕ × List UInt8 × ℕ)
  | .call c _ => c.frame
  | .host (.interval _ _) => some (FrameType.ping.code,[],0)
  | .listenersReturn _ =>
    match s.cont with
    | some (.onConnect _) => some (FrameType.hello.code,Utf8.encode s.clientId,flagsNone)
    | _ => none
  | _ => none

def State.frame? (s : State) (e : Event) : Option (List UInt8) :=
  (s.composes e).bind fun x => e.now?.bind fun now =>
    frameBytes x.1 x.2.1 x.2.2 (s.generateMsgId now).1

def State.wire (s : State) (i : ℕ) (frame : Option (List UInt8)) : List (List UInt8) :=
  if s.socket = some i ∧ s.connected = true ∧ (s.sockets i).destroyed = false then frame.toList
  else []

def State.writes (s : State) (i : ℕ) (e : Event) : List (List UInt8) := s.wire i (s.frame? e)

structure Writes (s : State) (e : Event) (t : State) : Prop where
  written : ∀ i, (t.sockets i).written = (s.sockets i).written ++ s.writes i e
  destroyed : ∀ i < s.opened, (s.sockets i).destroyed = true → (t.sockets i).destroyed = true
  socket : ∀ i, t.socket = some i → s.socket = some i ∨ s.opened ≤ i ∧ i < t.opened

theorem State.writes_nil {s : State} {e : Event} (he : s.frame? e = none) (i : ℕ) :
    s.writes i e = [] := by
  rw [writes,wire,he]
  simp

theorem State.wire_unconnected {s : State} {i : ℕ} (h : s.socket = none ∨ s.connected = false)
    (frame : Option (List UInt8)) : s.wire i frame = [] := by
  rw [wire,if_neg]
  rintro ⟨hi,hc,-⟩
  rcases h with h | h
  · cases h.symm.trans hi
  · cases h.symm.trans hc

theorem State.composes_hello {s : State} {i : ℕ} (hk : s.cont = some (.onConnect i)) (now : ℤ) :
    s.composes (.listenersReturn now) =
      some (FrameType.hello.code,Utf8.encode s.clientId,flagsNone) := by
  rw [composes,hk]

theorem Silent.writes {s t : State} (h : Silent s t) {e : Event} (he : ∀ i, s.writes i e = []) :
    Writes s e t where
  written := fun i => by rw [h.written,he,List.append_nil]
  destroyed := fun i _ => h.destroyed i
  socket := fun i hi => .inl (h.socket ▸ hi)

namespace State

variable (s : State)

theorem write_written (i : ℕ) (bytes : List UInt8) (j : ℕ) :
    ((s.write i bytes).sockets j).written = (s.sockets j).written ++
      if j = i ∧ (s.sockets j).destroyed = false then [bytes] else [] := by
  unfold write updateSocket
  by_cases hj : j = i
  · subst hj
    cases hd : (s.sockets j).destroyed <;> simp [hd]
  · simp [hj]

theorem write_destroyed (i : ℕ) (bytes : List UInt8) (j : ℕ) :
    ((s.write i bytes).sockets j).destroyed = (s.sockets j).destroyed := by
  unfold write updateSocket
  by_cases hj : j = i
  · subst hj
    cases hd : (s.sockets j).destroyed <;> simp [hd]
  · simp [hj]

theorem sendFrame_writes (frameType : ℕ) (payload : List UInt8) (flags : ℕ) (now : ℤ) (i : ℕ) :
    ((s.sendFrame frameType payload flags now).2.sockets i).written = (s.sockets i).written ++
      s.wire i (frameBytes frameType payload flags (s.generateMsgId now).1) := by
  rcases s.sendFrame_cases frameType payload flags now with
    ⟨h,hno⟩ | ⟨h,hb⟩ | ⟨j,bytes,hj,hc,hb,h⟩ <;> rw [h]
  · rw [wire_unconnected hno,List.append_nil]
  · rw [hb,wire]
    simp [generateMsgId]
  · rw [write_written,hb,wire,hj,hc]
    simp only [Option.some.injEq,true_and,Option.toList_some,eq_comm]
    rfl

theorem sendFrame_destroyed (frameType : ℕ) (payload : List UInt8) (flags : ℕ) (now : ℤ) (i : ℕ) :
    ((s.sendFrame frameType payload flags now).2.sockets i).destroyed =
      (s.sockets i).destroyed := by
  rcases s.sendFrame_cases frameType payload flags now with
    ⟨h,-⟩ | ⟨h,-⟩ | ⟨j,bytes,-,-,-,h⟩ <;> rw [h]
  · rfl
  · exact write_destroyed _ _ _ _

@[simp] theorem sendFrame_socket (frameType : ℕ) (payload : List UInt8) (flags : ℕ) (now : ℤ) :
    (s.sendFrame frameType payload flags now).2.socket = s.socket := by
  obtain ⟨n,sockets,h⟩ := (s.sendFrame_sends frameType payload flags now).eq
  rw [h]

theorem call_eq {c : Call} {now : ℤ} (hc : (Event.call c now).sends = true) :
    s.call now c = c.frame.elim s fun x => (s.sendFrame x.1 x.2.1 x.2.2 now).2 := by
  cases c with
  | connect | disconnect => cases hc
  | publish topic message flags =>
    simp only [call,publish,Call.frame]
    cases writeUInt 2 (Utf8.encode topic).length <;> rfl
  | subscribe | unsubscribe | ping | sendRawFrame => rfl

variable {s}

theorem sendFrame_step {e : Event} {frameType : ℕ} {payload : List UInt8} {flags : ℕ} {now : ℤ}
    (he : s.composes e = some (frameType,payload,flags)) (hnow : e.now? = some now) :
    Writes s e (s.sendFrame frameType payload flags now).2 where
  written := fun i => by
    rw [s.sendFrame_writes,writes,frame?,he,hnow]
    rfl
  destroyed := fun i _ hd => (s.sendFrame_destroyed _ _ _ _ i).trans hd
  socket := fun i hi => .inl (s.sendFrame_socket _ _ _ _ ▸ hi)

theorem call_writes {c : Call} {now : ℤ} (hc : (Event.call c now).sends = true) :
    Writes s (.call c now) (s.call now c) := by
  rw [s.call_eq hc]
  cases hf : c.frame with
  | none =>
    refine (Silent.refl s).writes (writes_nil ?_)
    rw [frame?,composes,hf]
    rfl
  | some x => exact sendFrame_step hf rfl

theorem disconnect_writes (now : ℤ) {t : State} (ht : t.sockets = (s.disconnect now).sockets)
    (hsocket : t.socket = none) : Writes s (.call .disconnect now) t := by
  have hsent := sendFrame_step (s := (s.setAutoReconnect false).cleanup)
    (e := .call .disconnect now) rfl rfl
  rw [← sendClose_eq] at hsent
  unfold disconnect at ht
  cases hi : s.socket with
  | none =>
    have hnone : (s.setAutoReconnect false).cleanup.socket = none := hi
    simp only [hnone] at ht
    refine ⟨fun i => ?_,fun i _ hd => by rw [ht]; exact hd,fun i ht => by cases hsocket ▸ ht⟩
    rw [ht,writes,wire,hi,if_neg (fun h => by cases h.1),List.append_nil]
    rfl
  | some j =>
    have hsome : (s.setAutoReconnect false).cleanup.socket = some j := hi
    simp only [hsome] at ht
    have hdestroy := ((s.setAutoReconnect false).cleanup.sendClose now).destroy_silent j
    refine ⟨fun i => ?_,fun i hlt hd => ?_,fun i ht => by cases hsocket ▸ ht⟩
    · rw [ht]
      exact (hdestroy.written i).trans (hsent.written i)
    · rw [ht]
      exact hdestroy.destroyed i (hsent.destroyed i hlt hd)

theorem connect_writes {u : State} {e : Event} (hu : u.sockets = s.sockets)
    (hopened : u.opened = s.opened) (hsocket : u.socket = s.socket)
    (hnew : (s.sockets s.opened).written = []) (he : s.frame? e = none) (retry : Bool) :
    Writes s e (u.connect retry) := by
  have hwrites := writes_nil he
  unfold connect
  split_ifs
  · exact ⟨fun i => by rw [hwrites,hu,List.append_nil],fun i _ hd => hu ▸ hd,
      fun i hi => .inl (hsocket ▸ hi)⟩
  · refine ⟨fun i => ?_,fun i hlt hd => ?_,fun i hi => .inr ?_⟩
    · rw [hwrites,hu,hopened,List.append_nil]
      by_cases hi : i = s.opened
      · simp [hi,hnew]
      · simp [hi]
    · rw [hu,hopened]
      simpa only [Function.update_of_ne hlt.ne] using hd
    · rw [← hopened]
      cases hi
      exact ⟨le_rfl,Nat.lt_succ_self _⟩

theorem sayHello_writes {i : ℕ} {now : ℤ} (hk : s.cont = some (.onConnect i)) :
    Writes s (.listenersReturn now) (s.sayHello i now) := by
  have hsent : Writes s (.listenersReturn now) _ := sendFrame_step (composes_hello hk now) rfl
  unfold sayHello
  dsimp only
  generalize s.sendFrame FrameType.hello.code (Utf8.encode s.clientId) flagsNone now = r at hsent ⊢
  obtain ⟨result,t⟩ := r
  cases result with
  | ok msgId =>
    have hr := resolve_silent { t with
      clientId := decimal msgId
      log := .hello (Utf8.encode s.clientId) msgId :: t.log } i
    exact ⟨fun j => (hr.written j).trans (hsent.written j),
      fun j hlt hd => hr.destroyed j (hsent.destroyed j hlt hd),hsent.socket⟩
  | error err => exact ⟨hsent.written,hsent.destroyed,hsent.socket⟩

end State

theorem Move.writes {s t : State} {e : Event} (h : Move s e t) (hcall : ∀ c now, e ≠ .call c now)
    (hsends : e.sends = false) (htimeout : ∀ timer, e ≠ .host (.timeout timer))
    (hframe : ∀ i, s.writes i e = [])
    (hhello : ∀ i, s.cont = some (.onConnect i) → e = .listenerThrows) :
    Writes s e t := by
  have hupdate {i : ℕ} {f : Socket → Socket} (hw : ∀ k, (f k).written = k.written)
      (hd : ∀ k, k.destroyed = true → (f k).destroyed = true) : Silent s (s.updateSocket i f) :=
    s.updateSocket_silent i (hw _) (hd _)
  have hsame {u : State} (hu : Silent u t) (hs : u.sockets = s.sockets)
      (hsocket : u.socket = s.socket) (hc : u.connected = s.connected) : Silent s t := by
    have hsu : Silent s u := ⟨fun _ => by rw [hs],fun _ hd => hs ▸ hd,hsocket,fun h => hc ▸ h⟩
    exact hsu.trans hu
  have hfinish {u : State} (hu : Silent s u) : Silent s u.finish :=
    ⟨hu.written,hu.destroyed,hu.socket,hu.connected⟩
  cases h with
  | connectCall now | disconnectCall now => exact absurd rfl (hcall _ _)
  | sends he hsent => cases hsends.symm.trans he
  | throws hk => exact (hfinish (.refl s)).writes hframe
  | sayHello now hk => cases hhello _ hk
  | helloFailed now hk => exact (hfinish (s.resolve_silent _)).writes hframe
  | destroy now hk hsocket => exact (hfinish (s.destroy_silent _)).writes hframe
  | setReconnectTimer now hk hp => exact (hsame hp.silent rfl rfl rfl).writes hframe
  | proceeds now hk hr hg hc ht hp => exact hp.silent.writes hframe
  | closeFrame now hc =>
    exact ((hupdate (f := Socket.deliverClose) (fun _ => rfl) fun _ => id).trans
      (State.handleClose_silent _ _)).writes hframe
  | @connect i hidle hopen hphase =>
    have hw := (hupdate (i := i) (f := Socket.emitConnect) (fun _ => rfl) fun _ => id).writes hframe
    obtain ⟨timer,intervals,n,ho⟩ := (s.updateSocket i Socket.emitConnect).onConnect_eq i
    rw [ho]
    exact ⟨hw.written,hw.destroyed,hw.socket⟩
  | error message hidle hopen hphase hfirst =>
    exact ((hupdate (f := Socket.emitError) (fun _ => rfl) fun _ _ => rfl).trans
      (State.onError_silent _ _ message)).writes hframe
  | laterError message hidle hp =>
    exact ((hupdate (f := Socket.emitError) (fun _ => rfl) fun _ _ => rfl).trans
      hp.silent).writes hframe
  | data data hidle hopen hphase =>
    exact ((hupdate (f := Socket.receive data) (fun _ => rfl) fun _ => id).trans
      (State.loop_proceeds _ _ _).silent).writes hframe
  | close hidle hopen hphase =>
    exact ((hupdate (f := Socket.emitClose) (fun _ => rfl) fun _ _ => rfl).trans
      (State.handleClose_silent _ _)).writes hframe
  | timeout hidle hlive => exact absurd rfl (htimeout _)
  | rejection hidle hpending hauto => exact (hsame (.refl _) rfl rfl rfl).writes hframe
  | reschedule hidle hpending hp => exact (hsame hp.silent rfl rfl rfl).writes hframe

theorem step_writes {s t : State} {e : Event} (hnew : (s.sockets s.opened).written = [])
    (h : step s e = some t) : Writes s e t := by
  have hquiet := (step_move h).writes
  cases e with
  | call c now =>
    cases h
    cases c with
    | connect =>
      exact State.connect_writes (s := s) (u := { s with log := .connectCall :: s.log }) rfl rfl rfl
        hnew rfl false
    | disconnect =>
      obtain ⟨n,sockets,hd⟩ := s.disconnect_eq now
      exact State.disconnect_writes now rfl (by rw [State.call,hd])
    | _ => exact State.call_writes rfl
  | listenersReturn now =>
    by_cases hk : ∃ i, s.cont = some (.onConnect i)
    · obtain ⟨i,hk⟩ := hk
      rw [step,hk,Option.map_some,Option.some.injEq] at h
      subst h
      exact State.sayHello_writes hk
    · have hnone : s.composes (.listenersReturn now) = none := by
        dsimp only [State.composes]
        split
        · next i hi => exact absurd ⟨i,hi⟩ hk
        · rfl
      refine hquiet (fun _ _ h => (by cases h)) rfl (fun _ h => (by cases h)) (State.writes_nil ?_)
        fun i hi => absurd ⟨i,hi⟩ hk
      rw [State.frame?,hnone]
      rfl
  | listenerThrows =>
    exact hquiet (fun _ _ h => (by cases h)) rfl (fun _ h => (by cases h)) (State.writes_nil rfl)
      fun _ _ => rfl
  | host e =>
    obtain ⟨hidle,h⟩ := Option.ite_none_right_eq_some.mp h
    have hidle := Option.isNone_iff_eq_none.mp hidle
    have hno (i : ℕ) (hi : s.cont = some (.onConnect i)) : Event.host e = .listenerThrows := by
      cases hidle.symm.trans hi
    cases e with
    | interval timer now =>
      obtain ⟨-,h⟩ := Option.ite_none_right_eq_some.mp h
      cases h
      split_ifs with hc
      · exact State.sendFrame_step rfl rfl
      · refine (Silent.refl s).writes fun i => ?_
        rw [State.writes,State.wire,if_neg fun h => hc h.2.1]
    | timeout timer =>
      obtain ⟨-,h⟩ := Option.ite_none_right_eq_some.mp h
      cases h
      exact State.connect_writes (s := s) (e := .host (.timeout timer)) (u := { s with
        timeouts := clear (some timer) s.timeouts
        reconnectTimer := none
        log := .retry :: s.log }) rfl rfl rfl hnew rfl true
    | _ =>
      exact hquiet (fun _ _ h => (by cases h)) rfl (fun _ h => (by cases h)) (State.writes_nil rfl)
        hno

structure Made (s : State) : Prop where
  unopened : Unopened s
  written : ∀ i, s.opened ≤ i → (s.sockets i).written = []
  socket : ∀ i, s.socket = some i → i < s.opened

theorem made_init (options : Options) : Made (init options) where
  unopened := unopened_init options
  written := fun _ _ => rfl
  socket := fun _ h => by cases h

theorem Made.writes {s t : State} {e : Event} (hI : Made s) (h : step s e = some t) :
    Writes s e t :=
  step_writes (hI.written _ le_rfl) h

theorem Made.step {s t : State} {e : Event} (hI : Made s) (h : Ts.step s e = some t) : Made t := by
  have hw := hI.writes h
  have hopened := (hI.unopened.settling h).opened
  refine ⟨hI.unopened.step h,fun i hi => ?_,fun i hi => ?_⟩
  · have hno : s.writes i e = [] := by
      rw [State.writes,State.wire,if_neg]
      rintro ⟨hsocket,-⟩
      exact absurd (hI.socket i hsocket) (Nat.not_lt.mpr (hopened.trans hi))
    rw [hw.written,hno,hI.written i (hopened.trans hi)]
    rfl
  · rcases hw.socket i hi with h | ⟨-,h⟩
    · exact (hI.socket i h).trans_le hopened
    · exact h

/-- What has been written to a socket is what the steps of the run have, one after the other. -/
theorem written_eq {options : Options} {events : List Event} {s : State}
    (h : run step (init options) events = some s) (i : ℕ) : (s.sockets i).written =
      (steps step (init options) events).flatMap fun p => p.1.writes i p.2 :=
  output_of_run (I := Made) (fun s => (s.sockets i).written) (fun _ _ _ hI h => hI.step h)
    (fun _ _ _ hI h => (hI.writes h).written i) (made_init options) h

/-! The end of a socket's stream. -/

/-- The client has replaced or destroyed the socket. -/
def State.Retired (s : State) (i : ℕ) : Prop :=
  i < s.opened ∧ (s.socket = some i → (s.sockets i).destroyed = true)

theorem Made.retired {s t : State} {e : Event} {i : ℕ} (hI : Made s) (hr : s.Retired i)
    (h : Ts.step s e = some t) :
    t.Retired i ∧ (t.sockets i).written = (s.sockets i).written := by
  obtain ⟨hlt,hgone⟩ := hr
  have hw := hI.writes h
  refine ⟨⟨hlt.trans_le (hI.unopened.settling h).opened,fun hi => ?_⟩,?_⟩
  · rcases hw.socket i hi with hs | ⟨hle,-⟩
    · exact hw.destroyed i hlt (hgone hs)
    · exact absurd hlt (Nat.not_lt.mpr hle)
  · have hno : s.writes i e = [] := by
      rw [State.writes,State.wire,if_neg]
      rintro ⟨hs,-,hlive⟩
      cases hlive.symm.trans (hgone hs)
    rw [hw.written,hno,List.append_nil]

/-- A retired socket is given nothing more, whatever comes later. -/
theorem Made.retired_run {s : State} {i : ℕ} (hI : Made s) (hr : s.Retired i)
    (later : List Event) : ∀ u ∈ states Ts.step s later,
      (u.sockets i).written = (s.sockets i).written := by
  intro u hu
  have hall : Made u ∧ u.Retired i ∧ (u.sockets i).written = (s.sockets i).written :=
    Transition.invariant (I := fun u => Made u ∧ u.Retired i ∧ (u.sockets i).written =
      (s.sockets i).written) (fun _ _ _ h hstep => by
        obtain ⟨hr,hsame⟩ := h.1.retired h.2.1 hstep
        exact ⟨h.1.step hstep,hr,hsame.trans h.2.2⟩) ⟨hI,hr,rfl⟩ later u hu
  exact hall.2.2

/-- In every run: a socket that the client has replaced or destroyed is given nothing more. Of a
call of `disconnect()` the client's socket is given the CLOSE frame, if the client is connected and
the socket not destroyed, and neither it nor any other socket made before is given a byte behind
that. -/
theorem close_ends (options : Options) (events : List Event) :
    ∀ s ∈ states step (init options) events, ∀ i < s.opened,
      ((s.socket = some i → (s.sockets i).destroyed = true) →
        ∀ later, ∀ u ∈ states step s later, (u.sockets i).written = (s.sockets i).written) ∧
      ∀ now later, ∀ u ∈ states step (s.call now .disconnect) later,
        (u.sockets i).written = (s.sockets i).written ++
          s.wire i (frameBytes FrameType.close.code [] 0 (s.generateMsgId now).1) := by
  intro s hs i hi
  have hI : Made s := invariant (fun _ _ _ hI h => hI.step h) (made_init options) events s hs
  refine ⟨fun hgone later u hu => hI.retired_run ⟨hi,hgone⟩ later u hu,fun now later u hu => ?_⟩
  have hstep : step s (.call .disconnect now) = some (s.call now .disconnect) := rfl
  have hretired : (s.call now .disconnect).Retired i := by
    obtain ⟨n,sockets,hd⟩ := s.disconnect_eq now
    rw [State.call,hd]
    exact ⟨hi,fun hnone => by cases hnone⟩
  rw [(hI.step hstep).retired_run hretired later u hu,(hI.writes hstep).written]
  rfl

def disconnectedRun : List Event :=
  [.call .connect 0,.host (.connect 0),.listenersReturn 0,.call (.publish ['t'] [109] 0) 7]

theorem close_ends_published : ∃ s ∈ run step (init {}) disconnectedRun,
    ∀ u ∈ states step (s.call 8 .disconnect) [.call .ping 9,.host (.close 0),.call .connect 9],
      (u.sockets 0).written.length = 3 := by
  have hrun : ∃ s ∈ run step (init {}) disconnectedRun, 0 < s.opened ∧
      ((s.sockets 0).written ++ s.wire 0 (frameBytes FrameType.close.code [] 0
        (s.generateMsgId 8).1)).length = 3 := by
    decide +kernel
  obtain ⟨s,hs,hopened,hlength⟩ := hrun
  refine ⟨s,hs,fun u hu => ?_⟩
  rw [(close_ends {} disconnectedRun s (run_mem_states hs) 0 hopened).2 8 _ u hu,hlength]

/-! What the sockets are given, frame by frame. -/

theorem exists_frame {frameType : FrameType} {payload : List UInt8} {flags : ℕ} {msgId : ℤ}
    {bytes : List UInt8} (h : frameBytes frameType.code payload flags msgId = some bytes)
    (hflags : flags < 8) :
    ∃ f : Frame, f.bytes = bytes ∧ f.frameType = frameType ∧ f.payload = payload := by
  obtain ⟨header,hheader,-⟩ := Option.bind_eq_some_iff.mp h
  obtain ⟨⟨-,hlength,-⟩,hpos,hid⟩ := fits_of_buildHeader hheader
  obtain ⟨n,rfl⟩ := Int.eq_ofNat_of_zero_le hpos
  let f : Frame := ⟨frameType,flags,n,payload,hflags,by omega,hlength⟩
  exact ⟨f,Option.some.inj ((frameBytes_eq f).symm.trans h),rfl,rfl⟩

def Call.Fits : Call → Prop
  | .publish _ _ flags => flags < 8
  | .sendRawFrame frameType _ flags => (FrameType.ofCode frameType).isSome ∧ flags < 8
  | _ => True

instance : DecidablePred Call.Fits
  | .publish _ _ _ => inferInstanceAs (Decidable (_ < _))
  | .sendRawFrame _ _ _ => inferInstanceAs (Decidable (_ ∧ _))
  | .connect | .disconnect | .subscribe _ _ | .unsubscribe _ _ | .ping =>
    inferInstanceAs (Decidable True)

def Event.Calls (P : Call → Prop) : Event → Prop
  | .call c _ => P c
  | _ => True

instance (P : Call → Prop) [DecidablePred P] : DecidablePred (Event.Calls P)
  | .call c _ => inferInstanceAs (Decidable (P c))
  | .host _ | .listenersReturn _ | .listenerThrows => inferInstanceAs (Decidable True)

theorem Call.Fits.frame {c : Call} (h : c.Fits) {x : ℕ × List UInt8 × ℕ} (hx : c.frame = some x) :
    ∃ frameType : FrameType, frameType.code = x.1 ∧ x.2.2 < 8 := by
  have hack (requireAck : Bool) : (if requireAck then flagsAckRequired else flagsNone) < 8 := by
    cases requireAck <;> decide
  cases c with
  | connect => cases hx
  | disconnect =>
    cases hx
    exact ⟨.close,rfl,Nat.zero_lt_succ 7⟩
  | ping =>
    cases hx
    exact ⟨.ping,rfl,Nat.zero_lt_succ 7⟩
  | subscribe topic requireAck =>
    cases hx
    exact ⟨.subscribe,rfl,hack requireAck⟩
  | unsubscribe topic requireAck =>
    cases hx
    exact ⟨.unsubscribe,rfl,hack requireAck⟩
  | publish topic message flags =>
    obtain ⟨length,-,rfl⟩ := Option.map_eq_some_iff.mp hx
    exact ⟨.publish,rfl,h⟩
  | sendRawFrame frameType payload flags =>
    cases hx
    obtain ⟨frameType,htype⟩ := Option.isSome_iff_exists.mp h.1
    exact ⟨frameType,FrameType.code_of_ofCode htype,h.2⟩

theorem State.composes_fits {s : State} {e : Event} (he : e.Calls Call.Fits)
    {x : ℕ × List UInt8 × ℕ} (hx : s.composes e = some x) :
    ∃ frameType : FrameType, frameType.code = x.1 ∧ x.2.2 < 8 := by
  unfold State.composes at hx
  split at hx
  · exact Call.Fits.frame he hx
  · cases hx
    exact ⟨.ping,rfl,Nat.zero_lt_succ 7⟩
  · split at hx <;> cases hx
    exact ⟨.hello,rfl,Nat.zero_lt_succ 7⟩
  · cases hx

theorem State.mem_writes {s : State} {i : ℕ} {e : Event} {bytes : List UInt8}
    (h : bytes ∈ s.writes i e) : ∃ x now, s.composes e = some x ∧ e.now? = some now ∧
      frameBytes x.1 x.2.1 x.2.2 (s.generateMsgId now).1 = some bytes := by
  unfold State.writes State.wire at h
  split_ifs at h
  · obtain ⟨x,hx,h⟩ := Option.bind_eq_some_iff.mp (Option.mem_toList.mp h)
    obtain ⟨now,hnow,h⟩ := Option.bind_eq_some_iff.mp h
    exact ⟨x,now,hx,hnow,h⟩
  · cases h

theorem State.exists_frame {s : State} {i : ℕ} {e : Event} (he : e.Calls Call.Fits)
    {bytes : List UInt8} (h : bytes ∈ s.writes i e) :
    ∃ x, s.composes e = some x ∧
      ∃ f : Frame, f.bytes = bytes ∧ f.frameType.code = x.1 ∧ f.payload = x.2.1 := by
  obtain ⟨x,now,hx,-,hbytes⟩ := State.mem_writes h
  obtain ⟨frameType,htype,hflags⟩ := State.composes_fits he hx
  rw [← htype] at hbytes
  obtain ⟨f,hf,hft,hpayload⟩ := Ts.exists_frame hbytes hflags
  exact ⟨x,hx,f,hf,by rw [hft,htype],hpayload⟩

/-- In every run of calls with defined frame types and flags: a socket has been given the frames
that the steps send while it is the client's, the client is connected and the socket has not been
destroyed, whole and in their order, and nothing else; and each of the three clients, the Python
client if their text is valid, reads them frame by frame. -/
theorem socket_read (options : Options) (events : List Event)
    (hcalls : ∀ e ∈ events, e.Calls Call.Fits) :
    ∀ s ∈ run step (init options) events, ∀ i, ∃ sent : List Frame,
      sent.map Frame.bytes = (s.sockets i).written ∧
      sent.map Frame.bytes =
        (steps step (init options) events).flatMap (fun p => p.1.writes i p.2) ∧
      ∀ receiver : Client, (receiver = .python → ∀ f ∈ sent, f.TextValid) →
        receiver.Reads sent := by
  intro s hs i
  have hwritten := written_eq hs i
  obtain ⟨sent,hsent,-⟩ : ∃ sent : List Frame, sent.map Frame.bytes = (s.sockets i).written ∧
      ∀ f ∈ sent, True := by
    refine exists_blocks fun bytes hbytes => ?_
    rw [hwritten,List.mem_flatMap] at hbytes
    obtain ⟨p,hp,hbytes⟩ := hbytes
    obtain ⟨x,-,f,hf,-⟩ := State.exists_frame (hcalls p.2 (mem_of_mem_steps hp)) hbytes
    exact ⟨f,hf,trivial⟩
  exact ⟨sent,hsent,hsent.trans hwritten,fun receiver htext => receiver.reads htext⟩

theorem socket_read_published : ∃ s ∈ run step (init {}) disconnectedRun,
    ∃ sent : List Frame, sent.length = 2 ∧ sent.map Frame.bytes = (s.sockets 0).written ∧
      ∀ receiver : Client, (receiver = .python → ∀ f ∈ sent, f.TextValid) →
        receiver.Reads sent := by
  have hrun : ∃ s ∈ run step (init {}) disconnectedRun, (s.sockets 0).written.length = 2 := by
    decide +kernel
  obtain ⟨s,hs,hlength⟩ := hrun
  obtain ⟨sent,hsent,-,hreads⟩ := socket_read {} disconnectedRun (by decide) s hs 0
  refine ⟨s,hs,sent,?_,hsent,hreads⟩
  rw [← hlength,← hsent,List.length_map]

end Ts
end MipClients
