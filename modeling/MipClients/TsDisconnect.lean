import MipClients.TsTimers

/-! Whether `disconnect()` of the TypeScript client is final. The handlers never look whether the
client has been disconnected under them, so it is when none has anything left to do. -/
namespace MipClients
namespace Ts

open StreamDecoder
open Transition
open Wire (FrameType)

/-- A connection attempt, or one of the events a disconnected client must not emit. -/
def Entry.active : Entry → Bool
  | .attempt _ => true
  | .emit (.frame _ _) | .emit (.event _) | .emit (.message _) | .emit (.ack _) | .emit .pong => true
  | _ => false

/-- `disconnect()` has returned and the user has not called `connect()` since. -/
def disconnectedBy : List Entry → Bool
  | [] => false
  | .disconnected :: _ => true
  | .connectCall :: _ => false
  | _ :: log => disconnectedBy log

/-- Nothing active has happened between a return of `disconnect()` and the next `connect()`. -/
def Inactive (log : List Entry) : Prop :=
  ∀ e l, e :: l <:+ log → disconnectedBy l = true → e.active = false

def complete (buffer : List UInt8) : Bool :=
  match framing.pass buffer with
  | .deliver _ _ => true
  | _ => false

def Return.owes (buffer : List UInt8) : Return → Bool
  | .done => false
  | .loop _ length => complete (buffer.drop length)

def reports (header : FrameHeader) (payload : List UInt8) : Bool :=
  if header.frameType = FrameType.event.code ∨ header.frameType = FrameType.publish.code then
    (parseMessage header payload).isSome
  else header.frameType = FrameType.ack.code ∨ header.frameType = FrameType.pong.code

/-- The interrupted handler still has something active to emit before its next other event, or the
reconnect timer to set. -/
def Cont.owes (buffer : List UInt8) : Cont → Bool
  | .frame i header payload =>
    reports header payload || (header.frameType ≠ FrameType.error.code &&
      (Return.loop i (headerSize + header.payloadLength)).owes buffer)
  | .event _ _ | .reconnecting _ => true
  | .handleClose r | .after r => r.owes buffer
  | _ => false

/-- The step lets a socket connect or complete a frame, or a listener return to a handler with
something left to do. -/
def State.stirs (s : State) : Event → Bool
  | .host (.connect _) => true
  | .host (.data _ data) => complete (s.buffer ++ data)
  | .listenersReturn _ => s.cont.any fun k => k.owes s.buffer
  | _ => false

/-- While the client is disconnected, nothing left over from before stirs. -/
def LeavesAlone (s : State) (e : Event) : Prop := disconnectedBy s.log = true → s.stirs e = false

instance (s : State) (e : Event) : Decidable (LeavesAlone s e) :=
  inferInstanceAs (Decidable (_ → _))

theorem Inactive.cons {log : List Entry} (h : Inactive log) {e : Entry}
    (he : disconnectedBy log = true → e.active = false) : Inactive (e :: log) := by
  intro e' l hl hd
  rcases List.suffix_cons_iff.mp hl with hl | hl
  · injection hl with h1 h2
    rw [h1]
    exact he (h2 ▸ hd)
  · exact h e' l hl hd

/-- What `disconnect()` leaves behind, until the user connects again. -/
structure Down (s : State) : Prop where
  connected : s.connected = false
  socket : s.socket = none
  autoReconnect : s.options.autoReconnect = false
  timeouts : s.timeouts = []

/-- `t` adds to the history only entries that are neither active nor change whether the client is
disconnected, and leaves what `disconnect()` sets as it is. -/
structure Idle (s t : State) : Prop where
  connected : t.connected = s.connected
  socket : t.socket = s.socket
  options : t.options = s.options
  timeouts : t.timeouts = s.timeouts
  log : t.log = s.log ∨ ∃ e, t.log = .emit e :: s.log ∧ (Entry.emit e).active = false

theorem Idle.down {s t : State} (h : Idle s t) (hs : Down s) : Down t :=
  ⟨h.connected.trans hs.connected,h.socket.trans hs.socket,
    (congrArg Options.autoReconnect h.options).trans hs.autoReconnect,
    h.timeouts.trans hs.timeouts⟩

theorem Idle.disconnectedBy {s t : State} (h : Idle s t) :
    disconnectedBy t.log = disconnectedBy s.log := by
  rcases h.log with hl | ⟨e,hl,-⟩ <;> rw [hl]
  rfl

theorem Idle.inactive {s t : State} (h : Idle s t) (hs : Inactive s.log) : Inactive t.log := by
  rcases h.log with hl | ⟨e,hl,he⟩ <;> rw [hl]
  · exact hs
  · exact hs.cons fun _ => he

theorem Idle.refl (s : State) : Idle s s := ⟨rfl,rfl,rfl,rfl,.inl rfl⟩

namespace State

variable {s : State}

theorem loop_idle {buffer : List UInt8} (h : complete buffer = false) (i : ℕ) :
    Idle s ({ s with buffer := buffer }.loop i) := by
  rcases loop_cases { s with buffer := buffer } i with ⟨-,hl⟩ | ⟨error,-,hl⟩ |
    ⟨header,payload,hp,-⟩
  · rw [hl]
    exact ⟨rfl,rfl,rfl,rfl,.inl rfl⟩
  · rw [hl]
    exact ⟨rfl,rfl,rfl,rfl,.inr ⟨_,rfl,rfl⟩⟩
  · simp [complete,hp] at h

theorem after_idle {r : Return} (h : r.owes s.buffer = false) : Idle s (s.after r) := by
  cases r with
  | done => exact ⟨rfl,rfl,rfl,rfl,.inl rfl⟩
  | loop i length => exact loop_idle h i

theorem handleClose_idle (hs : Down s) {r : Return} (h : r.owes s.buffer = false) :
    Idle s (s.handleClose r) := by
  have hauto : ({ s with connected := false }.cleanup).options.autoReconnect = false :=
    hs.autoReconnect
  have ha := after_idle (s := { s with connected := false }.cleanup) h
  unfold handleClose reconnectIfAuto
  simp only [hs.connected,hauto,Bool.false_eq_true,if_false]
  refine ⟨ha.connected.trans hs.connected.symm,ha.socket,ha.options,?_,ha.log⟩
  rw [ha.timeouts,hs.timeouts]
  simp [cleanup,clear]

theorem processFrame_idle (hs : Down s) {i : ℕ} {header : FrameHeader} {payload : List UInt8}
    (h : (Cont.frame i header payload).owes s.buffer = false) :
    Idle s (s.processFrame i header payload) := by
  simp only [Cont.owes,Bool.or_eq_false_iff,Bool.and_eq_false_iff] at h
  obtain ⟨hreports,howes⟩ := h
  have hloop (hne : header.frameType ≠ FrameType.error.code) :
      Idle s (s.after (.loop i (headerSize + header.payloadLength))) := by
    rcases howes with herr | ho
    · simp [hne] at herr
    · exact after_idle ho
  unfold reports at hreports
  unfold processFrame
  dsimp only
  split_ifs at hreports with hmsg
  · have hne : header.frameType ≠ FrameType.error.code := by
      rcases hmsg with h | h <;> rw [h] <;> decide
    have hnone : parseMessage header payload = none := by simpa using hreports
    rw [if_pos hmsg,hnone]
    exact hloop hne
  · simp only [decide_eq_false_iff_not,not_or] at hreports
    rw [if_neg hmsg,if_neg hreports.1,if_neg hreports.2]
    split_ifs with herr hclose
    · exact ⟨rfl,rfl,rfl,rfl,.inr ⟨_,rfl,rfl⟩⟩
    · have hi : Idle s (s.updateSocket i Socket.deliverClose) := ⟨rfl,rfl,rfl,rfl,.inl rfl⟩
      have ho : (Return.loop i (headerSize + header.payloadLength)).owes
          (s.updateSocket i Socket.deliverClose).buffer = false := by
        rcases howes with he | ho
        · simp [herr] at he
        · exact ho
      have hc := handleClose_idle (hi.down hs) ho
      exact ⟨hc.connected,hc.socket,hc.options,hc.timeouts,hc.log⟩
    · exact hloop herr

theorem resume_idle (hs : Down s) (now : ℤ) {k : Cont} (h : k.owes s.buffer = false) :
    Idle s (s.resume now k) := by
  cases k with
  | onConnect i =>
    rcases s.sayHello_cases i now with ⟨j,bytes,hj,-,-,-⟩ | ⟨-,n,error,hh⟩
    · rw [hs.socket] at hj
      cases hj
    · rw [resume,hh]
      exact ⟨rfl,rfl,rfl,rfl,.inr ⟨_,rfl,rfl⟩⟩
  | helloFailed i => exact ⟨rfl,rfl,rfl,rfl,.inl rfl⟩
  | onError message =>
    unfold resume onLaterError
    split_ifs
    · exact ⟨rfl,rfl,rfl,rfl,.inr ⟨_,rfl,rfl⟩⟩
    · exact ⟨rfl,rfl,rfl,rfl,.inl rfl⟩
  | badMagic =>
    simp only [resume,hs.socket]
    exact ⟨rfl,rfl,rfl,rfl,.inl rfl⟩
  | frame i header payload => exact processFrame_idle hs h
  | event r msg => cases h
  | reconnecting r => cases h
  | handleClose r =>
    simp only [resume,reconnectIfAuto,hs.autoReconnect,Bool.false_eq_true,if_false]
    exact after_idle h
  | after r => exact after_idle h

end State

/-- While the client is disconnected, every step that leaves it alone is idle, apart from the
user's calls of `connect()` and `disconnect()`. -/
theorem idle_step {s t : State} {e : Event} (hs : Down s) (hd : disconnectedBy s.log = true)
    (h : LeavesAlone s e) (hstep : step s e = some t) (hc : ∀ now, e ≠ .call .connect now)
    (hdis : ∀ now, e ≠ .call .disconnect now) : Idle s t := by
  have hstill := h hd
  cases e with
  | call c now =>
    cases hstep
    cases State.call_move (s := s) now c with
    | connectCall => exact absurd rfl (hc now)
    | disconnectCall => exact absurd rfl (hdis now)
    | sends he hsent =>
      obtain ⟨n,sockets,heq⟩ := hsent.eq
      rw [heq]
      exact ⟨rfl,rfl,rfl,rfl,.inl rfl⟩
  | listenersReturn now =>
    obtain ⟨k,hk,rfl⟩ := Option.map_eq_some_iff.mp hstep
    have howes : k.owes s.buffer = false := by simpa [State.stirs,hk] using hstill
    exact State.resume_idle hs now howes
  | listenerThrows =>
    obtain ⟨k,hk,rfl⟩ := Option.map_eq_some_iff.mp hstep
    exact ⟨rfl,rfl,rfl,rfl,.inl rfl⟩
  | host e =>
    simp only [step,Option.ite_none_right_eq_some] at hstep
    obtain ⟨-,hhost⟩ := hstep
    cases e <;> simp only [State.host,Option.ite_none_right_eq_some,Option.some.injEq] at hhost <;>
      obtain ⟨hg,rfl⟩ := hhost
    case connect i => cases hstill
    case error i message =>
      split_ifs
      · have hl : (s.updateSocket i Socket.emitError).onLaterError message =
            (s.updateSocket i Socket.emitError).finish :=
          if_neg (by simp [hs.connected])
        rw [hl]
        exact ⟨rfl,rfl,rfl,rfl,.inl rfl⟩
      · obtain ⟨sockets,n,ho⟩ := (s.updateSocket i Socket.emitError).onError_eq i message
        rw [ho]
        exact ⟨rfl,rfl,rfl,rfl,.inr ⟨_,rfl,rfl⟩⟩
    case data i data =>
      have hl := State.loop_idle (s := s.updateSocket i (Socket.receive data)) hstill i
      exact ⟨hl.connected,hl.socket,hl.options,hl.timeouts,hl.log⟩
    case close i =>
      have hi : Idle s (s.updateSocket i Socket.emitClose) := ⟨rfl,rfl,rfl,rfl,.inl rfl⟩
      have hl := State.handleClose_idle (hi.down hs) (r := .done) rfl
      exact ⟨hl.connected,hl.socket,hl.options,hl.timeouts,hl.log⟩
    case timeout timer =>
      rw [hs.timeouts] at hg
      cases hg
    case interval timer now =>
      simp only [hs.connected,Bool.false_eq_true,if_false]
      exact Idle.refl s
    case rejection =>
      simp only [hs.autoReconnect,Bool.false_eq_true,if_false]
      exact ⟨rfl,rfl,rfl,rfl,.inl rfl⟩

theorem Adds.disconnectedBy {log log' : List Entry} (h : Adds (· ≠ .disconnected) log log')
    (hd : disconnectedBy log = false) :
    Ts.disconnectedBy log' = false ∧ (Inactive log → Inactive log') := by
  obtain ⟨l,rfl,hl⟩ := h
  induction l with
  | nil => exact ⟨hd,id⟩
  | cons e l ih =>
    obtain ⟨he,hl⟩ := List.forall_mem_cons.mp hl
    obtain ⟨hd',hi⟩ := ih hl
    refine ⟨?_,fun h => (hi h).cons fun hd'' => absurd hd'' (by simp [hd'])⟩
    cases e <;> first | exact absurd rfl he | rfl | exact hd'

structure Final (s : State) : Prop where
  timer : TimerHeld s
  down : disconnectedBy s.log = true → Down s
  inactive : Inactive s.log

theorem final_step (s : State) (e : Event) (t : State) (h : Final s) (hleave : LeavesAlone s e)
    (hs : step s e = some t) : Final t := by
  have htimer := timerHeld_step s e t h.timer hs
  by_cases hdis : ∃ now, e = .call .disconnect now
  · obtain ⟨now,rfl⟩ := hdis
    cases hs
    obtain ⟨n,sockets,hd⟩ := s.disconnect_eq now
    refine ⟨htimer,fun _ => ?_,?_⟩
    · have hclear : clear s.reconnectTimer s.timeouts = [] := by
        rw [h.timer.held]
        exact clear_toList _
      rw [State.call,hd]
      exact ⟨rfl,rfl,rfl,hclear⟩
    · rw [State.call,hd]
      exact h.inactive.cons fun _ => rfl
  · have hdis' : ∀ now, e ≠ .call .disconnect now := fun now hn => hdis ⟨now,hn⟩
    cases hd : disconnectedBy s.log with
    | false =>
      obtain ⟨hd',hi⟩ := ((step_move hs).adds hdis').disconnectedBy hd
      exact ⟨htimer,fun h' => absurd h' (by simp [hd']),hi h.inactive⟩
    | true =>
      by_cases hconnect : ∃ now, e = .call .connect now
      · obtain ⟨now,rfl⟩ := hconnect
        cases hs
        have ha : Adds (· ≠ .disconnected) (.connectCall :: s.log) (s.call now .connect).log :=
          State.connect_adds_ne { s with log := .connectCall :: s.log } false
        obtain ⟨hd',hi⟩ := ha.disconnectedBy rfl
        exact ⟨htimer,fun h' => absurd h' (by simp [hd']),hi (h.inactive.cons fun _ => rfl)⟩
      · have hidle := idle_step (h.down hd) hd hleave hs (fun now hn => hconnect ⟨now,hn⟩) hdis'
        exact ⟨htimer,fun _ => hidle.down (h.down hd),hidle.inactive h.inactive⟩

/-- In every run that leaves the client alone while it is disconnected, `disconnect()` is final
until the user connects again. -/
theorem disconnect_final (options : Options) (events : List Event)
    (h : ∀ p ∈ steps step (init options) events, LeavesAlone p.1 p.2) :
    ∀ s ∈ states step (init options) events,
      (disconnectedBy s.log = true → s.connected = false) ∧ Inactive s.log := by
  have hinit : Final (init options) :=
    ⟨⟨rfl,nofun⟩,nofun,fun e l hl => by simp [init] at hl⟩
  have hall := invariant_of_steps final_step hinit h
  exact fun s hs => ⟨fun hd => ((hall s hs).down hd).connected,(hall s hs).inactive⟩

def disconnectAtRest : List Event :=
  [.call .connect 0,.host (.connect 0),.call .ping 0,.listenersReturn 0,.call .disconnect 0,
    .call .ping 0]

theorem disconnect_final_atRest : ∃ s ∈ states step (init {}) disconnectAtRest,
    disconnectedBy s.log = true ∧ s.connected = false ∧ Inactive s.log := by
  have hlast : ∃ s ∈ states step (init {}) disconnectAtRest, disconnectedBy s.log = true := by
    decide
  obtain ⟨s,hs,hd⟩ := hlast
  have hfinal := disconnect_final {} disconnectAtRest (by decide) s hs
  exact ⟨s,hs,hd,hfinal.1 hd,hfinal.2⟩

def ackBytes : List UInt8 := Wire.headerBytes FrameType.ack.code 0 1 0 0

/-- Two ACK frames arrive in one chunk, and the listener of the first 'ack' disconnects. -/
def disconnectInAck : List Event :=
  [.call .connect 0,.host (.connect 0),.listenersReturn 0,.host (.data 0 (ackBytes ++ ackBytes)),
    .listenersReturn 0,.call .disconnect 0,.listenersReturn 0]

theorem disconnect_not_final : ¬∀ (options : Options) (events : List Event),
    ∀ s ∈ states step (init options) events,
      (disconnectedBy s.log = true → s.connected = false) ∧ Inactive s.log := by
  intro h
  have hlast := h {} disconnectInAck _
    (List.getLast_mem (l := states step (init {}) disconnectInAck) (by decide))
  have hactive := hlast.2 _ _ ⟨[],rfl⟩
  revert hactive
  decide

end Ts
end MipClients
