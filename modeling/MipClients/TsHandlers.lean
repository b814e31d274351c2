import MipClients.TsClient

/-! What the handlers of the TypeScript client can do, function by function: the loop and the
reconnection code leave the connection alone, and sending only writes. -/
namespace MipClients
namespace Ts

open StreamDecoder
open Wire (FrameType)

def MIPClientEvent.plain : MIPClientEvent → Bool
  | .connect | .disconnect | .reconnecting _ => false
  | _ => true

def Cont.plain : Cont → Bool
  | .badMagic | .frame _ _ _ | .event _ _ | .after _ => true
  | _ => false

/-- How a handler that has dealt with the connection itself goes on: it returns, emits one of the
plain events, announces a reconnection or gives up reconnecting. -/
inductive Proceeds (s : State) : State → Prop
  | finish (buffer : List UInt8) : Proceeds s { s with buffer := buffer }.finish
  | emit (buffer : List UInt8) {e : MIPClientEvent} {k : Cont} (he : e.plain = true)
      (hk : k.plain = true) : Proceeds s ({ s with buffer := buffer }.emit e k)
  | reconnecting (r : Return) (hauto : s.options.autoReconnect = true)
      (htimer : s.reconnectTimer = none)
      (hmax : ¬(0 < s.options.maxReconnectAttempts ∧
        s.options.maxReconnectAttempts ≤ s.reconnectAttempts)) :
      Proceeds s ({ s with reconnectAttempts := s.reconnectAttempts + 1 }.emit
        (.reconnecting (s.reconnectAttempts + 1)) (.reconnecting r))
  | maxReached (r : Return) (hauto : s.options.autoReconnect = true)
      (htimer : s.reconnectTimer = none)
      (hmax : 0 < s.options.maxReconnectAttempts ∧
        s.options.maxReconnectAttempts ≤ s.reconnectAttempts) :
      Proceeds s ({ s with log := .maxReached :: s.log }.emitError s.maxReachedError (.after r))

namespace State

variable (s : State)

theorem finish_proceeds : Proceeds s s.finish := .finish s.buffer

theorem emit_proceeds {e : MIPClientEvent} {k : Cont} (he : e.plain = true) (hk : k.plain = true) :
    Proceeds s (s.emit e k) :=
  .emit s.buffer he hk

/-- The loop waits, reports a wrong magic or emits the next frame, as the decoding loop does. -/
theorem loop_cases (i : ℕ) :
    (framing.pass s.buffer = .wait ∧ s.loop i = s.finish) ∨
    (∃ error, framing.pass s.buffer = .stop [.error error] s.buffer ∧
      s.loop i = s.emit (.error error) .badMagic) ∨
    ∃ header payload,
      framing.pass s.buffer = .deliver (Ts.processFrame header payload)
        (s.buffer.drop (headerSize + header.payloadLength)) ∧
      s.loop i = s.emit (.frame header payload) (.frame i header payload) := by
  unfold loop
  split_ifs with h
  · exact .inl ⟨Framing.pass_short h,rfl⟩
  · dsimp only
    split_ifs with hmagic hlength
    · exact .inr (.inl ⟨_,Framing.pass_bad h (decide_eq_false hmagic),rfl⟩)
    · exact .inl ⟨Framing.pass_incomplete h (decide_eq_true (not_not.mp hmagic)) hlength,rfl⟩
    · exact .inr (.inr ⟨_,_,
        Framing.pass_complete h (decide_eq_true (not_not.mp hmagic)) hlength,rfl⟩)

theorem loop_proceeds (buffer : List UInt8) (i : ℕ) :
    Proceeds s ({ s with buffer := buffer }.loop i) := by
  rcases loop_cases { s with buffer := buffer } i with ⟨-,h⟩ | ⟨error,-,h⟩ | ⟨header,payload,-,h⟩ <;>
    rw [h]
  · exact .finish buffer
  · exact .emit buffer rfl rfl
  · exact .emit buffer rfl rfl

theorem after_proceeds (r : Return) : Proceeds s (s.after r) := by
  cases r with
  | done => exact s.finish_proceeds
  | loop i length => exact s.loop_proceeds _ i

theorem scheduleReconnect_proceeds (hauto : s.options.autoReconnect = true) (r : Return) :
    Proceeds s (s.scheduleReconnect r) := by
  unfold scheduleReconnect
  split_ifs with ht hm
  · exact s.after_proceeds r
  · exact .maxReached r hauto (Option.not_isSome_iff_eq_none.mp ht) hm
  · exact .reconnecting r hauto (Option.not_isSome_iff_eq_none.mp ht) hm

theorem reconnectIfAuto_proceeds (r : Return) : Proceeds s (s.reconnectIfAuto r) := by
  unfold reconnectIfAuto
  split_ifs with hauto
  · exact s.scheduleReconnect_proceeds hauto r
  · exact s.after_proceeds r

theorem setReconnectTimer_proceeds (r : Return) :
    Proceeds { s with
      reconnectTimer := some s.nextTimer
      timeouts := s.nextTimer :: s.timeouts
      nextTimer := s.nextTimer + 1 } (s.setReconnectTimer r) :=
  after_proceeds _ r

theorem handleClose_cases (r : Return) :
    (s.connected = true ∧ s.handleClose r =
      { s with connected := false }.cleanup.emit .disconnect (.handleClose r)) ∨
    (s.connected = false ∧
      Proceeds { s with connected := false }.cleanup (s.handleClose r)) := by
  unfold handleClose
  dsimp only
  split_ifs with hc
  · exact .inl ⟨hc,rfl⟩
  · exact .inr ⟨Bool.not_eq_true _ ▸ hc,reconnectIfAuto_proceeds _ r⟩

theorem onLaterError_proceeds (message : String) : Proceeds s (s.onLaterError message) := by
  unfold onLaterError
  split_ifs
  · exact s.emit_proceeds rfl rfl
  · exact s.finish_proceeds

theorem processFrame_proceeds (i : ℕ) {header : FrameHeader} (payload : List UInt8)
    (hclose : header.frameType ≠ FrameType.close.code) :
    Proceeds s (s.processFrame i header payload) := by
  unfold processFrame
  cases parseMessage header payload <;> dsimp only <;> split_ifs
  all_goals
    first
    | exact s.emit_proceeds rfl rfl
    | exact s.after_proceeds _

theorem processFrame_close (i : ℕ) {header : FrameHeader} (payload : List UInt8)
    (hclose : header.frameType = FrameType.close.code) :
    s.processFrame i header payload = (s.updateSocket i Socket.deliverClose).handleClose
      (.loop i (headerSize + header.payloadLength)) := by
  unfold processFrame
  dsimp only
  rw [hclose]
  rfl

end State

/-- Sending fails before or after it has taken a message id, or writes to `this.socket`. -/
inductive Sends (s : State) : State → Prop
  | notConnected : Sends s s
  | rangeError (now : ℤ) : Sends s (s.generateMsgId now).2
  | wrote (now : ℤ) {i : ℕ} (bytes : List UInt8) (hsocket : s.socket = some i)
      (hconnected : s.connected = true) : Sends s ((s.generateMsgId now).2.write i bytes)

namespace State

variable (s : State)

/-- `sendFrame` throws, with or without having taken a message id, or writes the frame. -/
theorem sendFrame_cases (frameType : ℕ) (payload : List UInt8) (flags : ℕ) (now : ℤ) :
    (s.sendFrame frameType payload flags now = (.error .notConnected,s) ∧
      (s.socket = none ∨ s.connected = false)) ∨
    (s.sendFrame frameType payload flags now = (.error .rangeError,(s.generateMsgId now).2) ∧
      frameBytes frameType payload flags (s.generateMsgId now).1 = none) ∨
    ∃ i bytes, s.socket = some i ∧ s.connected = true ∧
      frameBytes frameType payload flags (s.generateMsgId now).1 = some bytes ∧
      s.sendFrame frameType payload flags now =
        (.ok (s.generateMsgId now).1,(s.generateMsgId now).2.write i bytes) := by
  unfold sendFrame
  split
  · next i hi hc =>
    split
    · next bytes hb => exact .inr (.inr ⟨i,bytes,hi,hc,hb,rfl⟩)
    · next hb => exact .inr (.inl ⟨rfl,hb⟩)
  · next hne =>
    refine .inl ⟨rfl,?_⟩
    cases hs : s.socket with
    | none => exact .inl rfl
    | some i => exact .inr (Bool.eq_false_iff.mpr fun hc => hne i hs hc)

theorem sendFrame_sends (frameType : ℕ) (payload : List UInt8) (flags : ℕ) (now : ℤ) :
    Sends s (s.sendFrame frameType payload flags now).2 := by
  rcases s.sendFrame_cases frameType payload flags now with
    ⟨h,-⟩ | ⟨h,-⟩ | ⟨i,bytes,hi,hc,-,h⟩ <;> rw [h]
  · exact .notConnected
  · exact .rangeError now
  · exact .wrote now bytes hi hc

/-- A CLOSE frame is sent as any frame without a payload is, but never fails aloud. -/
theorem sendClose_eq (now : ℤ) :
    s.sendClose now = (s.sendFrame FrameType.close.code [] 0 now).2 := by
  unfold sendClose sendFrame frameBytes
  split
  · rw [List.length_nil]
    cases buildHeader FrameType.close.code 0 0 (s.generateMsgId now).1 with
    | none => rfl
    | some header => simp
  · rfl

theorem sendClose_sends (now : ℤ) : Sends s (s.sendClose now) := by
  rw [s.sendClose_eq now]
  exact s.sendFrame_sends _ _ _ now

end State

theorem Sends.eq {s t : State} (h : Sends s t) :
    ∃ n sockets, t = { s with msgIdCounter := n, sockets := sockets } := by
  cases h with
  | notConnected => exact ⟨_,_,rfl⟩
  | rangeError now => exact ⟨_,_,rfl⟩
  | wrote now bytes hsocket hconnected => exact ⟨_,_,rfl⟩

namespace State

variable (s : State)

/-! The outlines of the longer handlers. -/

theorem disconnect_eq (now : ℤ) : ∃ n sockets, s.disconnect now =
    { (s.setAutoReconnect false).cleanup with
      socket := none
      connected := false
      msgIdCounter := n
      sockets := sockets } := by
  unfold disconnect
  cases hs : s.socket with
  | none => exact ⟨s.msgIdCounter,s.sockets,by simp only [cleanup,setAutoReconnect,hs]⟩
  | some i =>
    obtain ⟨n,sockets,h⟩ := ((s.setAutoReconnect false).cleanup.sendClose_sends now).eq
    have hs' : (s.setAutoReconnect false).cleanup.socket = some i := hs
    refine ⟨n,Function.update sockets i { sockets i with destroyed := true },?_⟩
    simp only [hs',h]
    rfl

theorem onConnect_eq (i : ℕ) : ∃ timer intervals n, s.onConnect i =
    { s with
      connected := true
      reconnectAttempts := 0
      pingTimer := timer
      intervals := intervals
      nextTimer := n }.emit .connect (.onConnect i) := by
  unfold onConnect setupPingInterval
  split_ifs
  · exact ⟨_,_,_,rfl⟩
  · exact ⟨_,_,_,rfl⟩

theorem onError_eq (i : ℕ) (message : String) : ∃ sockets n, s.onError i message =
    { s with sockets := sockets, rejections := n }.emitError { message := message }
      (.onError message) := by
  unfold onError reject
  split_ifs <;> exact ⟨_,_,rfl⟩

theorem sayHello_cases (i : ℕ) (now : ℤ) :
    (∃ j bytes, s.socket = some j ∧ s.connected = true ∧
      frameBytes FrameType.hello.code (Utf8.encode s.clientId) flagsNone (s.generateMsgId now).1 =
        some bytes ∧
      s.sayHello i now = ({ (s.generateMsgId now).2.write j bytes with
        clientId := decimal (s.generateMsgId now).1
        log := .hello (Utf8.encode s.clientId) (s.generateMsgId now).1 :: s.log }.resolve
          i).finish) ∨
    ((s.socket = none ∨ s.connected = false ∨
      frameBytes FrameType.hello.code (Utf8.encode s.clientId) flagsNone
        (s.generateMsgId now).1 = none) ∧
      ∃ n error, s.sayHello i now =
        { s with msgIdCounter := n }.emitError error (.helloFailed i)) := by
  unfold sayHello
  rcases s.sendFrame_cases FrameType.hello.code (Utf8.encode s.clientId) flagsNone now with
    ⟨h,hno⟩ | ⟨h,hb⟩ | ⟨j,bytes,hj,hc,hb,h⟩ <;> simp only [h]
  · exact .inr ⟨hno.imp_right .inl,_,_,rfl⟩
  · exact .inr ⟨.inr (.inr hb),_,_,rfl⟩
  · exact .inl ⟨j,bytes,hj,hc,hb,rfl⟩

/-- The socket whose 'close' event or CLOSE frame makes a step call `handleClose`. -/
def closes : Event → Option ℕ
  | .host (.close i) => some i
  | .listenersReturn _ =>
    match s.cont with
    | some (.frame i header _) => if header.frameType = FrameType.close.code then some i else none
    | _ => none
  | _ => none

end State

theorem State.closes_cont {s : State} {now : ℤ} {i : ℕ}
    (h : s.closes (.listenersReturn now) = some i) :
    ∃ header payload, s.cont = some (.frame i header payload) := by
  unfold State.closes at h
  cases hk : s.cont with
  | none => simp [hk] at h
  | some k =>
    cases k <;> simp only [hk] at h <;> try cases h
    split_ifs at h
    cases h
    exact ⟨_,_,rfl⟩

def Event.sends : Event → Bool
  | .call .connect _ | .call .disconnect _ => false
  | .call _ _ | .host (.interval _ _) => true
  | _ => false

/-- The frame that a call puts together: its type, payload and flags. -/
def Call.frame : Call → Option (ℕ × List UInt8 × ℕ)
  | .connect => none
  | .disconnect => some (FrameType.close.code,[],0)
  | .subscribe topic requireAck =>
    some (FrameType.subscribe.code,Utf8.encode topic,
      if requireAck then flagsAckRequired else flagsNone)
  | .unsubscribe topic requireAck =>
    some (FrameType.unsubscribe.code,Utf8.encode topic,
      if requireAck then flagsAckRequired else flagsNone)
  | .publish topic message flags =>
    (writeUInt 2 (Utf8.encode topic).length).map fun length =>
      (FrameType.publish.code,length ++ Utf8.encode topic ++ message,flags)
  | .ping => some (FrameType.ping.code,[],0)
  | .sendRawFrame frameType payload flags => some (frameType,payload,flags)

theorem State.call_frame (s : State) (now : ℤ) {c : Call} (hc : (Event.call c now).sends = true) :
    s.call now c = s ∨ ∃ frameType payload flags, c.frame = some (frameType,payload,flags) ∧
      s.call now c = (s.sendFrame frameType payload flags now).2 := by
  cases c with
  | connect | disconnect => cases hc
  | publish topic message flags =>
    simp only [call,publish,Call.frame]
    cases writeUInt 2 (Utf8.encode topic).length with
    | none => exact .inl rfl
    | some length => exact .inr ⟨_,_,_,rfl,rfl⟩
  | subscribe | unsubscribe | ping | sendRawFrame => exact .inr ⟨_,_,_,rfl,rfl⟩

inductive Move (s : State) : Event → State → Prop
  | connectCall (now : ℤ) :
      Move s (.call .connect now) ({ s with log := .connectCall :: s.log }.connect false)
  | disconnectCall (now : ℤ) :
      Move s (.call .disconnect now)
        { s.disconnect now with log := .disconnected :: (s.disconnect now).log }
  | sends {e : Event} {t : State} (he : e.sends = true) (h : Sends s t) : Move s e t
  | throws {k : Cont} (hk : s.cont = some k) : Move s .listenerThrows s.finish
  | sayHello {i : ℕ} (now : ℤ) (hk : s.cont = some (.onConnect i)) :
      Move s (.listenersReturn now) (s.sayHello i now)
  | helloFailed {i : ℕ} (now : ℤ) (hk : s.cont = some (.helloFailed i)) :
      Move s (.listenersReturn now) (s.resolve i).finish
  | destroy {i : ℕ} (now : ℤ) (hk : s.cont = some .badMagic) (hsocket : s.socket = some i) :
      Move s (.listenersReturn now) (s.destroy i).finish
  | setReconnectTimer {r : Return} {t : State} (now : ℤ) (hk : s.cont = some (.reconnecting r))
      (hp : Proceeds { s with
        reconnectTimer := some s.nextTimer
        timeouts := s.nextTimer :: s.timeouts
        nextTimer := s.nextTimer + 1 } t) : Move s (.listenersReturn now) t
  | proceeds {k : Cont} {t : State} (now : ℤ) (hk : s.cont = some k)
      (hr : ∀ r, k ≠ .reconnecting r) (hg : ∀ i, k ≠ .onConnect i)
      (hc : s.closes (.listenersReturn now) = none) (ht : t = s.resume now k) (hp : Proceeds s t) :
      Move s (.listenersReturn now) t
  | closeFrame {i : ℕ} {r : Return} (now : ℤ) (hc : s.closes (.listenersReturn now) = some i) :
      Move s (.listenersReturn now) ((s.updateSocket i Socket.deliverClose).handleClose r)
  | connect {i : ℕ} (hidle : s.cont = none) (hopen : i < s.opened)
      (hphase : (s.sockets i).phase = .connecting) :
      Move s (.host (.connect i)) ((s.updateSocket i Socket.emitConnect).onConnect i)
  | error {i : ℕ} (message : String) (hidle : s.cont = none) (hopen : i < s.opened)
      (hphase : (s.sockets i).phase ≠ .closed) (hfirst : (s.sockets i).errored = false) :
      Move s (.host (.error i message))
        ((s.updateSocket i Socket.emitError).onError i message)
  | laterError {i : ℕ} {t : State} (message : String) (hidle : s.cont = none)
      (hp : Proceeds (s.updateSocket i Socket.emitError) t) : Move s (.host (.error i message)) t
  | data {i : ℕ} (data : List UInt8) (hidle : s.cont = none) (hopen : i < s.opened)
      (hphase : (s.sockets i).phase = .connected ∨ (s.sockets i).phase = .closeFrame) :
      Move s (.host (.data i data)) ((s.updateSocket i (Socket.receive data)).handleData i data)
  | close {i : ℕ} (hidle : s.cont = none) (hopen : i < s.opened)
      (hphase : (s.sockets i).phase ≠ .closed) :
      Move s (.host (.close i)) ((s.updateSocket i Socket.emitClose).handleClose .done)
  | timeout {timer : ℕ} (hidle : s.cont = none) (hlive : timer ∈ s.timeouts) :
      Move s (.host (.timeout timer)) (s.retry timer)
  | rejection (hidle : s.cont = none) (hpending : 0 < s.rejections)
      (hauto : s.options.autoReconnect = false) :
      Move s (.host .rejection) { s with rejections := s.rejections - 1 }
  | reschedule {t : State} (hidle : s.cont = none) (hpending : 0 < s.rejections)
      (hp : Proceeds { s with rejections := s.rejections - 1 } t) : Move s (.host .rejection) t

namespace State

variable {s : State}

theorem call_move (now : ℤ) (c : Call) : Move s (.call c now) (s.call now c) := by
  have hsends (hc : (Event.call c now).sends = true) : Move s (.call c now) (s.call now c) := by
    refine .sends hc ?_
    rcases s.call_frame now hc with h | ⟨frameType,payload,flags,-,h⟩ <;> rw [h]
    · exact .notConnected
    · exact s.sendFrame_sends frameType payload flags now
  cases c with
  | connect => exact .connectCall now
  | disconnect => exact .disconnectCall now
  | _ => exact hsends rfl

theorem resume_move (now : ℤ) {k : Cont} (hk : s.cont = some k) :
    Move s (.listenersReturn now) (s.resume now k) := by
  cases k with
  | onConnect i => exact .sayHello now hk
  | helloFailed i => exact .helloFailed now hk
  | onError message =>
    exact .proceeds now hk nofun nofun (by simp [closes,hk]) rfl (s.onLaterError_proceeds message)
  | badMagic =>
    cases hs : s.socket with
    | none =>
      refine .proceeds now hk nofun nofun (by simp [closes,hk]) rfl ?_
      simp only [resume,hs]
      exact s.finish_proceeds
    | some i =>
      simp only [resume,hs]
      exact .destroy now hk hs
  | frame i header payload =>
    by_cases hclose : header.frameType = FrameType.close.code
    · rw [resume,s.processFrame_close i payload hclose]
      exact .closeFrame now (by simp [closes,hk,hclose])
    · exact .proceeds now hk nofun nofun (by simp [closes,hk,hclose]) rfl
        (s.processFrame_proceeds i payload hclose)
  | event r msg =>
    exact .proceeds now hk nofun nofun (by simp [closes,hk]) rfl (s.emit_proceeds rfl rfl)
  | handleClose r =>
    exact .proceeds now hk nofun nofun (by simp [closes,hk]) rfl (s.reconnectIfAuto_proceeds r)
  | reconnecting r => exact .setReconnectTimer now hk (s.setReconnectTimer_proceeds r)
  | after r => exact .proceeds now hk nofun nofun (by simp [closes,hk]) rfl (s.after_proceeds r)

theorem host_move {e : HostEvent} {t : State} (hidle : s.cont = none) (h : s.host e = some t) :
    Move s (.host e) t := by
  cases e <;> simp only [host,Option.ite_none_right_eq_some,Option.some.injEq] at h <;>
    obtain ⟨hg,rfl⟩ := h
  case connect i => exact .connect hidle hg.1 hg.2.1
  case error i message =>
    split_ifs with herr
    · exact .laterError message hidle (onLaterError_proceeds _ message)
    · exact .error message hidle hg.1 hg.2 (Bool.not_eq_true _ ▸ herr)
  case data i data => exact .data data hidle hg.1 hg.2.1
  case close i => exact .close hidle hg.1 hg.2
  case timeout timer => exact .timeout hidle hg
  case interval timer now =>
    split_ifs
    · exact .sends rfl (s.sendFrame_sends _ _ _ now)
    · exact .sends rfl .notConnected
  case rejection =>
    split_ifs with hauto
    · exact .reschedule hidle hg
        (scheduleReconnect_proceeds { s with rejections := s.rejections - 1 } hauto .done)
    · exact .rejection hidle hg (Bool.not_eq_true _ ▸ hauto)

end State

/-! The history only grows. -/

def Adds (P : Entry → Prop) (log log' : List Entry) : Prop := ∃ l, log' = l ++ log ∧ ∀ e ∈ l, P e

theorem Adds.refl {P : Entry → Prop} (log : List Entry) : Adds P log log := ⟨[],rfl,nofun⟩

theorem Adds.cons {P : Entry → Prop} {log log' : List Entry} (h : Adds P log log') {e : Entry}
    (he : P e) : Adds P log (e :: log') := by
  obtain ⟨l,rfl,hl⟩ := h
  exact ⟨e :: l,rfl,List.forall_mem_cons.mpr ⟨he,hl⟩⟩

theorem Adds.trans {P : Entry → Prop} {log log' log'' : List Entry} (h : Adds P log log')
    (h' : Adds P log' log'') : Adds P log log'' := by
  obtain ⟨l,rfl,hl⟩ := h
  obtain ⟨l',rfl,hl'⟩ := h'
  exact ⟨l' ++ l,by simp,List.forall_mem_append.mpr ⟨hl',hl⟩⟩

theorem Adds.mono {P Q : Entry → Prop} {log log' : List Entry} (h : Adds P log log')
    (hPQ : ∀ e, P e → Q e) : Adds Q log log' := by
  obtain ⟨l,rfl,hl⟩ := h
  exact ⟨l,rfl,fun e he => hPQ e (hl e he)⟩

def Entry.quiet : Entry → Bool
  | .maxReached => true
  | .emit .connect => false
  | .emit _ => true
  | _ => false

theorem MIPClientEvent.quiet {e : MIPClientEvent} (he : e.plain = true) :
    (Entry.emit e).quiet = true := by
  cases e <;> first | rfl | cases he

theorem Proceeds.adds {s t : State} (h : Proceeds s t) :
    Adds (fun e => e.quiet = true) s.log t.log := by
  cases h with
  | finish buffer => exact .refl _
  | emit buffer he hk => exact .cons (.refl _) (MIPClientEvent.quiet he)
  | reconnecting r hauto htimer hmax => exact .cons (.refl _) rfl
  | maxReached r hauto htimer hmax =>
    have hm : Adds (fun e => e.quiet = true) s.log (.maxReached :: s.log) := .cons (.refl _) rfl
    exact hm.cons rfl

theorem State.handleClose_adds (s : State) (r : Return) :
    Adds (fun e => e.quiet = true) s.log (s.handleClose r).log := by
  rcases s.handleClose_cases r with ⟨-,he⟩ | ⟨-,hp⟩
  · rw [he]
    exact .cons (.refl _) rfl
  · exact hp.adds

theorem State.connect_adds (s : State) (retry : Bool) :
    Adds (fun e => ∃ i, e = .attempt i) s.log (s.connect retry).log := by
  unfold State.connect
  split_ifs
  · exact .refl _
  · exact .cons (.refl _) ⟨_,rfl⟩

theorem State.connect_adds_ne (s : State) (retry : Bool) :
    Adds (· ≠ .disconnected) s.log (s.connect retry).log := by
  refine (s.connect_adds retry).mono fun e he hne => ?_
  obtain ⟨i,rfl⟩ := he
  cases hne

theorem Move.adds {s t : State} {e : Event} (h : Move s e t)
    (he : ∀ now, e ≠ .call .disconnect now) : Adds (· ≠ .disconnected) s.log t.log := by
  have hquiet {log log' : List Entry} (ha : Adds (fun e => e.quiet = true) log log') :
      Adds (· ≠ .disconnected) log log' :=
    ha.mono fun e he => by rintro rfl; cases he
  cases h with
  | connectCall now =>
    have hc : Adds (· ≠ .disconnected) s.log (.connectCall :: s.log) := .cons (.refl _) nofun
    exact hc.trans (State.connect_adds_ne { s with log := .connectCall :: s.log } false)
  | disconnectCall now => exact absurd rfl (he now)
  | sends he hsent =>
    obtain ⟨n,sockets,rfl⟩ := hsent.eq
    exact .refl _
  | throws hk => exact .refl _
  | @sayHello i now hk =>
    rcases s.sayHello_cases i now with ⟨j,bytes,-,-,-,hh⟩ | ⟨-,n,error,hh⟩ <;> rw [hh]
    · exact .cons (.refl _) nofun
    · exact .cons (.refl _) nofun
  | helloFailed now hk => exact .refl _
  | destroy now hk hsocket => exact .refl _
  | setReconnectTimer now hk hp => exact hquiet hp.adds
  | proceeds now hk hr hg hc ht hp => exact hquiet hp.adds
  | closeFrame now hc => exact hquiet (State.handleClose_adds _ _)
  | @connect i hidle hopen hphase =>
    obtain ⟨timer,intervals,n,ho⟩ := (s.updateSocket i Socket.emitConnect).onConnect_eq i
    rw [ho]
    exact .cons (.refl _) nofun
  | @error i message hidle hopen hphase hfirst =>
    obtain ⟨sockets,n,ho⟩ := (s.updateSocket i Socket.emitError).onError_eq i message
    rw [ho]
    exact .cons (.refl _) nofun
  | laterError message hidle hp => exact hquiet hp.adds
  | @data i data hidle hopen hphase =>
    exact hquiet ((s.updateSocket i (Socket.receive data)).loop_proceeds _ i).adds
  | close hidle hopen hphase => exact hquiet (State.handleClose_adds _ _)
  | @timeout timer hidle hlive =>
    have hc : Adds (· ≠ .disconnected) s.log (.retry :: s.log) := .cons (.refl _) nofun
    exact hc.trans (State.connect_adds_ne { s with
      timeouts := clear (some timer) s.timeouts
      reconnectTimer := none
      log := .retry :: s.log } true)
  | rejection hidle hpending hauto => exact .refl _
  | reschedule hidle hpending hp => exact hquiet hp.adds

theorem step_move {s t : State} {e : Event} (h : step s e = some t) : Move s e t := by
  cases e with
  | call c now =>
    cases h
    exact State.call_move now c
  | listenersReturn now =>
    obtain ⟨k,hk,rfl⟩ := Option.map_eq_some_iff.mp h
    exact State.resume_move now hk
  | listenerThrows =>
    obtain ⟨k,hk,rfl⟩ := Option.map_eq_some_iff.mp h
    exact .throws hk
  | host e =>
    simp only [step,Option.ite_none_right_eq_some,Option.isNone_iff_eq_none] at h
    exact State.host_move h.1 h.2

end Ts
end MipClients
