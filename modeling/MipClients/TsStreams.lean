import MipClients.TsDisconnect

/-! Whose bytes the TypeScript client decodes. All sockets append to one buffer, which `connect()`
empties; so the buffer belongs to `this.socket` as long as no other socket delivers data. -/
namespace MipClients
namespace Ts

open StreamDecoder
open Transition
open Wire (FrameType)

/-- The loop, fed with the bytes, comes to the frame and delivers it. -/
def IsFrameOf (bytes : List UInt8) (header : FrameHeader) (payload : List UInt8) : Prop :=
  ∃ out rest rest', Boundary framing.decoder bytes out rest ∧
    framing.pass rest = .deliver (processFrame header payload) rest'

namespace State

/-- The buffer holds the last bytes received by the socket in `this.socket`. -/
def OwnBuffer (s : State) : Prop :=
  ∀ i, s.socket = some i → s.buffer <:+ (s.sockets i).received

/-- A frame just emitted is one of the bytes of the socket in `this.socket`. -/
def OwnFrame (s : State) : Prop :=
  ∀ header payload log, s.log = .emit (.frame header payload) :: log →
    ∃ i, s.socket = some i ∧ IsFrameOf (s.sockets i).received header payload

end State

/-- Where the handler goes on, unless it has another event to emit first. -/
def Cont.next? : Cont → Option Return
  | .frame i header payload =>
    if reports header payload = true ∨ header.frameType = FrameType.error.code then none
    else some (.loop i (headerSize + header.payloadLength))
  | .handleClose r | .reconnecting r | .after r => some r
  | _ => none

/-- Data comes from the socket in `this.socket`; and while there is none, the data completes no frame
and no handler goes on with a complete frame in the buffer. -/
def KeepsApart (s : State) : Event → Prop
  | .host (.data i data) => s.socket = some i ∨
    (s.socket = none ∧ complete (s.buffer ++ data) = false)
  | .listenersReturn _ => s.socket = none →
    ∀ k ∈ s.cont, ∀ r ∈ k.next?, Return.owes s.buffer r = false
  | _ => True

instance (s : State) (e : Event) : Decidable (KeepsApart s e) :=
  match e with
  | .host (.data _ _) => inferInstanceAs (Decidable (_ ∨ _))
  | .listenersReturn _ => inferInstanceAs (Decidable (_ → _))
  | .host (.connect _) | .host (.error _ _) | .host (.close _) | .host (.timeout _)
  | .host (.interval _ _) | .host .rejection | .call _ _ | .listenerThrows =>
    inferInstanceAs (Decidable True)

structure SameStream (s t : State) : Prop where
  socket : t.socket = s.socket
  buffer : t.buffer = s.buffer
  received : ∀ i, (t.sockets i).received = (s.sockets i).received

theorem SameStream.refl (s : State) : SameStream s s := ⟨rfl,rfl,fun _ => rfl⟩

theorem SameStream.trans {s t u : State} (h : SameStream s t) (h' : SameStream t u) :
    SameStream s u :=
  ⟨h'.socket.trans h.socket,h'.buffer.trans h.buffer,
    fun i => (h'.received i).trans (h.received i)⟩

namespace State

variable (s : State)

theorem updateSocket_received (i j : ℕ) (f : Socket → Socket) :
    ((s.updateSocket i f).sockets j).received =
      if j = i then (f (s.sockets i)).received else (s.sockets j).received := by
  by_cases h : j = i
  · simp [h]
  · simp [h]

theorem updateSocket_sameStream (i : ℕ) {f : Socket → Socket}
    (hf : (f (s.sockets i)).received = (s.sockets i).received) :
    SameStream s (s.updateSocket i f) := by
  refine ⟨rfl,rfl,fun j => ?_⟩
  rw [updateSocket_received]
  split_ifs with h
  · rw [hf,h]
  · rfl

theorem write_sameStream (i : ℕ) (bytes : List UInt8) : SameStream s (s.write i bytes) :=
  s.updateSocket_sameStream i (by split_ifs <;> rfl)

theorem resolve_sameStream (i : ℕ) : SameStream s (s.resolve i) :=
  s.updateSocket_sameStream i (by split_ifs <;> rfl)

theorem onError_sameStream (i : ℕ) (message : String) :
    SameStream s (s.onError i message) := by
  have h : SameStream s (s.updateSocket i fun k => { k with promise := .rejected }) :=
    s.updateSocket_sameStream i rfl
  have hr : SameStream s (if s.connected then s else s.reject i) := by
    unfold reject
    split_ifs
    · exact SameStream.refl s
    · exact h.trans ⟨rfl,rfl,fun _ => rfl⟩
    · exact h
    · exact SameStream.refl s
  exact hr.trans ⟨rfl,rfl,fun _ => rfl⟩

end State

theorem Sends.sameStream {s t : State} (h : Sends s t) : SameStream s t ∧ t.log = s.log := by
  cases h with
  | notConnected => exact ⟨SameStream.refl s,rfl⟩
  | rangeError now => exact ⟨⟨rfl,rfl,fun _ => rfl⟩,rfl⟩
  | wrote now bytes hsocket hconnected =>
    have hg : SameStream s (s.generateMsgId now).2 := ⟨rfl,rfl,fun _ => rfl⟩
    exact ⟨hg.trans (State.write_sameStream _ _ bytes),rfl⟩

/-- The loop has come through the bytes of `this.socket` to the buffer, and emitted its frames. -/
structure Fed (s : State) : Prop where
  boundary : ∀ i, s.socket = some i →
    ∃ out, Boundary framing.decoder (s.sockets i).received out s.buffer
  ownFrame : s.OwnFrame

def notFrame : List Entry → Bool
  | .emit (.frame _ _) :: _ => false
  | _ => true

theorem ownFrame_of_notFrame {s : State} (h : notFrame s.log = true) : s.OwnFrame := by
  intro header payload log hlog
  rw [hlog] at h
  cases h

theorem Fed.congr {s t : State} (h : Fed s) (hst : SameStream s t)
    (hlog : t.log = s.log ∨ notFrame t.log = true) : Fed t := by
  refine ⟨fun i hi => ?_,?_⟩
  · rw [hst.buffer,hst.received]
    exact h.boundary i (hst.socket ▸ hi)
  · rcases hlog with hlog | hlog
    · intro header payload log hl
      obtain ⟨i,hi,hf⟩ := h.ownFrame header payload log (hlog ▸ hl)
      exact ⟨i,hst.socket.trans hi,by rwa [hst.received]⟩
    · exact ownFrame_of_notFrame hlog

/-- The buffer starts with the frame that the handler is about to take off, unless it has been
emptied meanwhile. -/
def Ready (s : State) : Return → Prop
  | .done => True
  | .loop _ length => s.socket.isSome = true →
    s.buffer = [] ∨ ∃ out, framing.pass s.buffer = .deliver out (s.buffer.drop length)

/-- Where the handler goes on, sooner or later. -/
def Cont.return? : Cont → Option Return
  | .frame i header _ => some (.loop i (headerSize + header.payloadLength))
  | .event r _ | .handleClose r | .reconnecting r | .after r => some r
  | _ => none

theorem Ready.congr {s t : State} {r : Return} (h : Ready s r) (hst : SameStream s t) :
    Ready t r := by
  cases r with
  | done => trivial
  | loop i length =>
    unfold Ready at h ⊢
    rwa [hst.socket,hst.buffer]

structure Apart (s : State) : Prop where
  fed : Fed s
  ready : ∀ k r, s.cont = some k → k.return? = some r → Ready s r

namespace State

variable {s : State}

theorem finish_apart (h : Fed s) : Apart s.finish :=
  ⟨h.congr ⟨rfl,rfl,fun _ => rfl⟩ (.inl rfl),nofun⟩

theorem emit_apart (h : Fed s) {e : MIPClientEvent} {k : Cont}
    (he : notFrame (.emit e :: s.log) = true)
    (hk : ∀ r, k.return? = some r → Ready s r) : Apart (s.emit e k) := by
  refine ⟨h.congr ⟨rfl,rfl,fun _ => rfl⟩ (.inr he),fun k' r hk' hr => ?_⟩
  cases hk'
  exact (hk r hr).congr ⟨rfl,rfl,fun _ => rfl⟩

theorem loop_apart (h : Fed s) (hnone : s.socket = none → complete s.buffer = false) (i : ℕ) :
    Apart (s.loop i) := by
  rcases s.loop_cases i with ⟨-,hl⟩ | ⟨error,-,hl⟩ | ⟨header,payload,hp,hl⟩ <;> rw [hl]
  · exact finish_apart h
  · exact emit_apart h rfl nofun
  · have hsome : ∃ j, s.socket = some j := by
      cases hs : s.socket with
      | none => simp [complete,hp] at hnone; exact absurd hs hnone
      | some j => exact ⟨j,rfl⟩
    refine ⟨⟨h.boundary,?_⟩,?_⟩
    · intro header' payload' log hlog
      injection hlog with hentry hlog
      injection hentry with hentry
      injection hentry with hheader hpayload
      obtain ⟨j,hj⟩ := hsome
      obtain ⟨out,hb⟩ := h.boundary j hj
      exact ⟨j,hj,out,_,_,hb,by rw [← hheader,← hpayload]; exact hp⟩
    · intro k r hk hr
      cases hk
      cases hr
      exact fun _ => .inr ⟨_,hp⟩

theorem after_apart (h : Fed s) {r : Return} (hr : Ready s r)
    (hnone : s.socket = none → r.owes s.buffer = false) : Apart (s.after r) := by
  cases r with
  | done => exact finish_apart h
  | loop i length =>
    refine loop_apart (s := { s with buffer := s.buffer.drop length }) ⟨?_,h.ownFrame⟩ hnone i
    intro j hj
    obtain ⟨out,hb⟩ := h.boundary j hj
    rcases hr (Option.isSome_iff_exists.mpr ⟨j,hj⟩) with hnil | ⟨out',hp⟩
    · refine ⟨out,?_⟩
      rw [hnil] at hb
      simpa [hnil] using hb
    · exact ⟨out ++ (out' ++ []),hb.trans (.next hp (.here _))⟩

theorem scheduleReconnect_apart (h : Fed s) {r : Return} (hr : Ready s r)
    (hnone : s.socket = none → r.owes s.buffer = false) : Apart (s.scheduleReconnect r) := by
  unfold scheduleReconnect
  split_ifs
  · exact after_apart h hr hnone
  · have hm : Fed { s with log := .maxReached :: s.log } :=
      h.congr ⟨rfl,rfl,fun _ => rfl⟩ (.inr rfl)
    refine emit_apart hm rfl fun r' hr' => ?_
    cases hr'
    exact hr.congr ⟨rfl,rfl,fun _ => rfl⟩
  · have ha : Fed { s with reconnectAttempts := s.reconnectAttempts + 1 } :=
      h.congr ⟨rfl,rfl,fun _ => rfl⟩ (.inl rfl)
    refine emit_apart ha rfl fun r' hr' => ?_
    cases hr'
    exact hr.congr ⟨rfl,rfl,fun _ => rfl⟩

theorem reconnectIfAuto_apart (h : Fed s) {r : Return} (hr : Ready s r)
    (hnone : s.socket = none → r.owes s.buffer = false) : Apart (s.reconnectIfAuto r) := by
  unfold reconnectIfAuto
  split_ifs
  · exact scheduleReconnect_apart h hr hnone
  · exact after_apart h hr hnone

theorem handleClose_apart (h : Fed s) {r : Return} (hr : Ready s r)
    (hnone : s.socket = none → r.owes s.buffer = false) : Apart (s.handleClose r) := by
  have hst : SameStream s { s with connected := false }.cleanup := ⟨rfl,rfl,fun _ => rfl⟩
  have hc : Fed { s with connected := false }.cleanup := h.congr hst (.inl rfl)
  unfold handleClose
  dsimp only
  split_ifs
  · refine emit_apart hc rfl fun r' hr' => ?_
    cases hr'
    exact hr.congr hst
  · exact reconnectIfAuto_apart hc (hr.congr hst) hnone

theorem processFrame_apart (h : Fed s) {i : ℕ} {header : FrameHeader} {payload : List UInt8}
    (hr : Ready s (.loop i (headerSize + header.payloadLength)))
    (hnone : s.socket = none → ∀ r ∈ (Cont.frame i header payload).next?,
      r.owes s.buffer = false) : Apart (s.processFrame i header payload) := by
  have hafter (hnext : reports header payload = false)
      (herr : header.frameType ≠ FrameType.error.code) : s.socket = none →
      (Return.loop i (headerSize + header.payloadLength)).owes s.buffer = false := by
    intro hs
    refine hnone hs _ ?_
    simp [Cont.next?,hnext,herr]
  have hemit {e : MIPClientEvent} (he : notFrame (.emit e :: s.log) = true) :
      Apart (s.emit e (.after (.loop i (headerSize + header.payloadLength)))) := by
    refine emit_apart h he fun r' hr' => ?_
    cases hr'
    exact hr
  unfold processFrame
  dsimp only
  by_cases hmsg : header.frameType = FrameType.event.code ∨
      header.frameType = FrameType.publish.code
  · have hne : header.frameType ≠ FrameType.error.code := by
      rcases hmsg with h | h <;> rw [h] <;> decide
    rw [if_pos hmsg]
    cases hp : parseMessage header payload with
    | none => exact after_apart h hr (hafter (by simp [reports,hmsg,hp]) hne)
    | some msg =>
      dsimp only
      split_ifs
      · refine emit_apart h rfl fun r' hr' => ?_
        cases hr'
        exact hr
      · exact hemit rfl
  · rw [if_neg hmsg]
    split_ifs with hack hpong herr hclose
    · exact hemit rfl
    · exact hemit rfl
    · exact hemit rfl
    · have hst := s.updateSocket_sameStream i (f := Socket.deliverClose) rfl
      exact handleClose_apart (h.congr hst (.inl rfl)) (hr.congr hst)
        (hafter (by simp [reports,hmsg,hack,hpong]) herr)
    · exact after_apart h hr (hafter (by simp [reports,hmsg,hack,hpong]) herr)

theorem onLaterError_apart (h : Fed s) (message : String) : Apart (s.onLaterError message) := by
  unfold onLaterError
  split_ifs
  · exact emit_apart h rfl fun r hr => by cases hr; trivial
  · exact finish_apart h

theorem resume_apart (h : Apart s) (now : ℤ) {k : Cont} (hk : s.cont = some k)
    (hnone : s.socket = none → ∀ r ∈ k.next?, r.owes s.buffer = false) :
    Apart (s.resume now k) := by
  have hready := h.ready k
  cases k with
  | onConnect i =>
    rcases s.sayHello_cases i now with ⟨j,bytes,-,-,-,hh⟩ | ⟨-,n,error,hh⟩ <;> rw [resume,hh]
    · have hw : SameStream s ((s.generateMsgId now).2.write j bytes) :=
        SameStream.trans (t := (s.generateMsgId now).2) ⟨rfl,rfl,fun _ => rfl⟩
          (write_sameStream _ j bytes)
      have hu : SameStream s { (s.generateMsgId now).2.write j bytes with
          clientId := decimal (s.generateMsgId now).1
          log := .hello (Utf8.encode s.clientId) (s.generateMsgId now).1 :: s.log } :=
        ⟨hw.socket,hw.buffer,hw.received⟩
      exact finish_apart (h.fed.congr (hu.trans (resolve_sameStream _ i)) (.inr rfl))
    · have hn : Fed { s with msgIdCounter := n } :=
        h.fed.congr ⟨rfl,rfl,fun _ => rfl⟩ (.inl rfl)
      exact emit_apart hn (e := .error error) (k := .helloFailed i) rfl fun _ hr => by cases hr
  | helloFailed i => exact finish_apart (h.fed.congr (s.resolve_sameStream i) (.inl rfl))
  | onError message => exact onLaterError_apart h.fed message
  | badMagic =>
    unfold resume
    cases s.socket with
    | none => exact finish_apart h.fed
    | some i => exact finish_apart (h.fed.congr (s.updateSocket_sameStream i rfl) (.inl rfl))
  | frame i header payload => exact processFrame_apart h.fed (hready _ hk rfl) hnone
  | event r msg =>
    refine emit_apart h.fed rfl fun r' hr' => ?_
    cases hr'
    exact hready _ hk rfl
  | handleClose r =>
    exact reconnectIfAuto_apart h.fed (hready _ hk rfl) fun hs => hnone hs r rfl
  | reconnecting r =>
    have hst : SameStream s { s with
        reconnectTimer := some s.nextTimer
        timeouts := s.nextTimer :: s.timeouts
        nextTimer := s.nextTimer + 1 } := ⟨rfl,rfl,fun _ => rfl⟩
    exact after_apart (h.fed.congr hst (.inl rfl)) ((hready _ hk rfl).congr hst)
      fun hs => hnone hs r rfl
  | after r => exact after_apart h.fed (hready _ hk rfl) fun hs => hnone hs r rfl

theorem connect_apart (h : Apart s) (retry : Bool) : Apart (s.connect retry) := by
  unfold connect
  split_ifs
  · exact h
  · refine ⟨⟨fun i hi => ?_,ownFrame_of_notFrame rfl⟩,fun k r hk hr => ?_⟩
    · cases hi
      have hnew : (Function.update s.sockets s.opened { retry := retry } s.opened).received = [] := by
        rw [Function.update_self]
      refine ⟨[],?_⟩
      change Boundary framing.decoder
        (Function.update s.sockets s.opened { retry := retry } s.opened).received [] []
      rw [hnew]
      exact .here []
    · cases r with
      | done => trivial
      | loop i length => exact fun _ => .inl rfl

theorem disconnect_apart (now : ℤ) :
    Apart { s.disconnect now with log := .disconnected :: (s.disconnect now).log } := by
  obtain ⟨n,sockets,hd⟩ := s.disconnect_eq now
  rw [hd]
  refine ⟨⟨nofun,ownFrame_of_notFrame rfl⟩,fun k r hk hr => ?_⟩
  cases r with
  | done => trivial
  | loop i length => exact nofun

theorem sends_apart (h : Apart s) {t : State} (hsent : Sends s t) : Apart t := by
  obtain ⟨hst,hlog⟩ := hsent.sameStream
  obtain ⟨n,sockets,rfl⟩ := hsent.eq
  exact ⟨h.fed.congr hst (.inl hlog),fun k r hk hr => (h.ready k r hk hr).congr hst⟩

end State

theorem apart_step (s : State) (e : Event) (t : State) (h : Apart s) (hkeep : KeepsApart s e)
    (hs : step s e = some t) : Apart t := by
  cases e with
  | call c now =>
    cases hs
    cases State.call_move (s := s) now c with
    | connectCall =>
      have hc : Apart { s with log := .connectCall :: s.log } :=
        ⟨h.fed.congr ⟨rfl,rfl,fun _ => rfl⟩ (.inr rfl),h.ready⟩
      exact State.connect_apart hc false
    | disconnectCall => exact State.disconnect_apart now
    | sends he hsent => exact State.sends_apart h hsent
  | listenersReturn now =>
    obtain ⟨k,hk,rfl⟩ := Option.map_eq_some_iff.mp hs
    exact State.resume_apart h now hk fun hn => hkeep hn k hk
  | listenerThrows =>
    obtain ⟨k,hk,rfl⟩ := Option.map_eq_some_iff.mp hs
    exact State.finish_apart h.fed
  | host e =>
    simp only [step,Option.ite_none_right_eq_some,Option.isNone_iff_eq_none] at hs
    obtain ⟨hidle,hhost⟩ := hs
    cases e <;> simp only [State.host,Option.ite_none_right_eq_some,Option.some.injEq] at hhost <;>
      obtain ⟨hg,rfl⟩ := hhost
    case connect i =>
      obtain ⟨timer,intervals,n,ho⟩ := (s.updateSocket i Socket.emitConnect).onConnect_eq i
      rw [ho]
      have hst := s.updateSocket_sameStream i (f := Socket.emitConnect) rfl
      have hc : Fed { s.updateSocket i Socket.emitConnect with
          connected := true
          reconnectAttempts := 0
          pingTimer := timer
          intervals := intervals
          nextTimer := n } := h.fed.congr ⟨hst.socket,hst.buffer,hst.received⟩ (.inl rfl)
      exact State.emit_apart hc (e := .connect) (k := .onConnect i) rfl fun _ hr => by cases hr
    case error i message =>
      have hst := s.updateSocket_sameStream i (f := Socket.emitError) rfl
      split_ifs
      · exact State.onLaterError_apart (h.fed.congr hst (.inl rfl)) message
      · have ho := (s.updateSocket i Socket.emitError).onError_sameStream i message
        refine ⟨h.fed.congr (hst.trans ho) (.inr rfl),fun k r hk hr => ?_⟩
        cases hk
        cases hr
    case data i data =>
      have hfed : Fed { s.updateSocket i (Socket.receive data) with buffer := s.buffer ++ data } := by
        refine ⟨fun j hj => ?_,?_⟩
        · rcases hkeep with hown | ⟨hn,-⟩
          · obtain rfl : j = i := Option.some.inj (hj.symm.trans hown)
            obtain ⟨out,hb⟩ := h.fed.boundary j hown
            refine ⟨out,?_⟩
            rw [State.updateSocket_received,if_pos rfl]
            exact hb.append data
          · cases hn.symm.trans hj
        · intro header payload log hlog
          obtain ⟨j,hj,out,rest,rest',hb,hp⟩ := h.fed.ownFrame header payload log hlog
          refine ⟨j,hj,?_⟩
          rw [State.updateSocket_received]
          split_ifs with hji
          · exact ⟨out,rest ++ data,rest' ++ data,by rw [← hji]; exact hb.append data,
              framing.decoder.deliver_stable hp data⟩
          · exact ⟨out,rest,rest',hb,hp⟩
      refine State.loop_apart hfed (fun hn => ?_) i
      rcases hkeep with hown | ⟨-,hc⟩
      · cases hown.symm.trans hn
      · exact hc
    case close i =>
      have hst := s.updateSocket_sameStream i (f := Socket.emitClose) rfl
      exact State.handleClose_apart (h.fed.congr hst (.inl rfl)) trivial fun _ => rfl
    case timeout timer =>
      have hc : Apart { s with
          timeouts := clear (some timer) s.timeouts
          reconnectTimer := none
          log := .retry :: s.log } := by
        refine ⟨h.fed.congr ⟨rfl,rfl,fun _ => rfl⟩ (.inr rfl),fun k r hk hr => ?_⟩
        rw [hidle] at hk
        cases hk
      exact State.connect_apart hc true
    case interval timer now =>
      split_ifs
      · exact State.sends_apart h (s.sendFrame_sends _ _ _ now)
      · exact h
    case rejection =>
      have hst : SameStream s { s with rejections := s.rejections - 1 } := ⟨rfl,rfl,fun _ => rfl⟩
      have hf : Fed { s with rejections := s.rejections - 1 } := h.fed.congr hst (.inl rfl)
      split_ifs
      · exact State.scheduleReconnect_apart hf trivial fun _ => rfl
      · exact ⟨hf,fun k r hk hr => (h.ready k r hk hr).congr hst⟩

theorem Apart.ownBuffer {s : State} (h : Apart s) : s.OwnBuffer := by
  intro i hi
  obtain ⟨out,hb⟩ := h.fed.boundary i hi
  exact hb.suffix fun _ _ _ hp => Framing.pass_deliver_suffix hp

/-- In every run in which only `this.socket` delivers data, and nothing is decoded without one, the
buffer is a suffix of the bytes of `this.socket` and every frame emitted is one of its frames. -/
theorem streams_apart (options : Options) (events : List Event)
    (hkeep : ∀ p ∈ steps step (init options) events, KeepsApart p.1 p.2) :
    ∀ s ∈ states step (init options) events, s.OwnBuffer ∧ s.OwnFrame := by
  have hinit : Apart (init options) := ⟨⟨nofun,nofun⟩,nofun⟩
  have hall := invariant_of_steps apart_step hinit hkeep
  exact fun s hs => ⟨(hall s hs).ownBuffer,(hall s hs).fed.ownFrame⟩

def closeThenReconnect : List Event :=
  [.call .connect 0,.host (.connect 0),.listenersReturn 0,
    .host (.data 0 (Wire.headerBytes FrameType.close.code 0 1 0 0)),.listenersReturn 0,
    .listenersReturn 0,.listenersReturn 0,.host (.timeout 0),.host (.connect 1),
    .listenersReturn 0,.host (.data 1 ackBytes)]

theorem streams_apart_closeThenReconnect :
    ∃ s ∈ states step (init {}) closeThenReconnect, s.socket = some 1 ∧
      notFrame s.log = false ∧ s.OwnBuffer ∧ s.OwnFrame := by
  have hlast : ∃ s ∈ states step (init {}) closeThenReconnect, s.socket = some 1 ∧
      notFrame s.log = false := by
    decide +kernel
  obtain ⟨s,hs,hsocket,hframe⟩ := hlast
  exact ⟨s,hs,hsocket,hframe,streams_apart {} closeThenReconnect (by decide +kernel) s hs⟩

/-- The server sends CLOSE, and another byte once the client has begun to reconnect. -/
def byteAfterClose : List Event :=
  [.call .connect 0,.host (.connect 0),.listenersReturn 0,
    .host (.data 0 (Wire.headerBytes FrameType.close.code 0 1 0 0)),.listenersReturn 0,
    .listenersReturn 0,.listenersReturn 0,.host (.timeout 0),.host (.data 0 [0])]

theorem streams_mix : ¬∀ (options : Options) (events : List Event),
    ∀ s ∈ states step (init options) events, s.OwnBuffer ∧ s.OwnFrame := by
  intro h
  have hrun : ∃ s ∈ states step (init {}) byteAfterClose, s.socket = some 1 ∧ s.buffer = [0] ∧
      (s.sockets 1).received = [] := by
    decide +kernel
  obtain ⟨s,hs,hsocket,hbuffer,hreceived⟩ := hrun
  have hsuffix := (h {} byteAfterClose s hs).1 1 hsocket
  rw [hbuffer,hreceived] at hsuffix
  simp at hsuffix

end Ts
end MipClients
