import MipClients.Transition
import MipClients.TsHandlers

/-! Who settles the promises of `connect()` in the TypeScript client: the end of the socket's 'connect'
handler, or its first error, and that only while the client is not connected. -/
namespace MipClients
namespace Ts

open Transition
open Wire (FrameType)

/-- No socket has emitted 'close' and left the promise of its `connect()` pending. -/
def NoneHanging (s : State) : Prop :=
  ∀ i < s.opened, (s.sockets i).phase = .closed → (s.sockets i).promise ≠ .pending

def State.greets (s : State) (now : ℤ) : Bool :=
  s.socket.isSome && s.connected &&
    (frameBytes FrameType.hello.code (Utf8.encode s.clientId) flagsNone
      (s.generateMsgId now).1).isSome

/-- The socket whose 'connect' handler comes to its end, or which emits its first error while the
client is not connected. -/
def settles (s : State) : Event → Option ℕ
  | .listenersReturn now => match s.cont with
    | some (.onConnect i) => if s.greets now then some i else none
    | some (.helloFailed i) => some i
    | _ => none
  | .host (.error i _) => if (s.sockets i).errored || s.connected then none else some i
  | _ => none

def Socket.closed (k : Socket) : Bool := k.phase = .closed

structure Settling (s : State) (e : Event) (t : State) : Prop where
  opened : s.opened ≤ t.opened
  promise : ∀ i, (t.sockets i).promise ≠ .pending ↔
    (s.sockets i).promise ≠ .pending ∨ settles s e = some i
  closed : ∀ i, (t.sockets i).closed = true ↔ (s.sockets i).closed = true ∨ e = .host (.close i)

structure SameSockets (s t : State) : Prop where
  opened : s.opened ≤ t.opened
  promise : ∀ i, (t.sockets i).promise = (s.sockets i).promise
  closed : ∀ i, (t.sockets i).closed = (s.sockets i).closed

theorem SameSockets.refl (s : State) : SameSockets s s := ⟨le_rfl,fun _ => rfl,fun _ => rfl⟩

theorem SameSockets.trans {s t u : State} (h : SameSockets s t) (h' : SameSockets t u) :
    SameSockets s u :=
  ⟨h.opened.trans h'.opened,fun i => (h'.promise i).trans (h.promise i),
    fun i => (h'.closed i).trans (h.closed i)⟩

theorem SameSockets.settling {s t : State} (h : SameSockets s t) {e : Event}
    (hsettles : settles s e = none) (hclose : ∀ i, e ≠ .host (.close i)) : Settling s e t := by
  refine ⟨h.opened,fun i => ?_,fun i => ?_⟩
  · rw [h.promise,hsettles]
    simp
  · rw [h.closed]
    simp [hclose i]

theorem updateSocket_same (s : State) (i : ℕ) {f : Socket → Socket}
    (hp : (f (s.sockets i)).promise = (s.sockets i).promise)
    (hc : (f (s.sockets i)).closed = (s.sockets i).closed) :
    SameSockets s (s.updateSocket i f) := by
  refine ⟨le_rfl,fun j => ?_,fun j => ?_⟩ <;> by_cases hj : j = i
  · subst hj
    simpa using hp
  · simp [hj]
  · subst hj
    simpa using hc
  · simp [hj]

theorem Socket.deliverClose_closed (k : Socket) : k.deliverClose.closed = k.closed := by
  unfold Socket.deliverClose Socket.closed
  split_ifs with h
  · simp [h]
  · rfl

theorem Sends.sameSockets {s t : State} (h : Sends s t) : SameSockets s t := by
  cases h with
  | notConnected => exact .refl s
  | rangeError => exact ⟨le_rfl,fun _ => rfl,fun _ => rfl⟩
  | @wrote now i bytes hsocket hconnected =>
    have hwritten := updateSocket_same (s.generateMsgId now).2 i
      (f := fun k => if k.destroyed then k else { k with written := k.written ++ [bytes] })
      (by split_ifs <;> rfl) (by split_ifs <;> rfl)
    exact ⟨le_rfl,hwritten.promise,hwritten.closed⟩

theorem Proceeds.sameSockets {s t : State} (h : Proceeds s t) : SameSockets s t := by
  cases h <;> exact ⟨le_rfl,fun _ => rfl,fun _ => rfl⟩

namespace State

variable (s : State)

theorem handleClose_same (r : Return) : SameSockets s (s.handleClose r) := by
  rcases s.handleClose_cases r with ⟨-,he⟩ | ⟨-,hp⟩
  · rw [he]
    exact ⟨le_rfl,fun _ => rfl,fun _ => rfl⟩
  · exact ⟨hp.sameSockets.opened,hp.sameSockets.promise,hp.sameSockets.closed⟩

theorem disconnect_same (now : ℤ) : SameSockets s (s.disconnect now) := by
  unfold disconnect
  dsimp only
  split
  · next i _ =>
    have hsent := ((s.setAutoReconnect false).cleanup.sendClose_sends now).sameSockets
    have h := hsent.trans (updateSocket_same ((s.setAutoReconnect false).cleanup.sendClose now) i
      (f := fun k => { k with destroyed := true }) rfl rfl)
    exact ⟨h.opened,h.promise,h.closed⟩
  · exact ⟨le_rfl,fun _ => rfl,fun _ => rfl⟩

theorem connect_same (hp : (s.sockets s.opened).promise = .pending)
    (hc : (s.sockets s.opened).closed = false) (retry : Bool) :
    SameSockets s (s.connect retry) := by
  unfold connect
  split_ifs
  · exact .refl s
  · refine ⟨Nat.le_succ _,fun i => ?_,fun i => ?_⟩ <;> by_cases hi : i = s.opened
    · subst hi
      simp [hp]
    · simp [hi]
    · subst hi
      refine Eq.trans ?_ hc.symm
      simp [Socket.closed]
    · simp [hi]

theorem resolve_promise (i j : ℕ) : ((s.resolve i).sockets j).promise ≠ .pending ↔
    (s.sockets j).promise ≠ .pending ∨ i = j := by
  by_cases hj : j = i
  · subst hj
    simp only [resolve,State.updateSocket_self,or_true,iff_true]
    split_ifs with hp
    · exact nofun
    · exact hp
  · simp [resolve,hj,Ne.symm hj]

theorem resolve_closed (i j : ℕ) :
    ((s.resolve i).sockets j).closed = (s.sockets j).closed := by
  by_cases hj : j = i
  · subst hj
    simp only [resolve,State.updateSocket_self]
    split_ifs <;> rfl
  · simp [resolve,hj]

theorem reject_promise (i j : ℕ) : ((s.reject i).sockets j).promise ≠ .pending ↔
    (s.sockets j).promise ≠ .pending ∨ i = j := by
  by_cases hj : j = i
  · subst hj
    unfold reject
    dsimp only
    split_ifs <;> simp_all [updateSocket]
  · have hsame : ((s.reject i).sockets j).promise = (s.sockets j).promise := by
      unfold reject
      dsimp only
      split_ifs <;> simp [hj]
    simp [hsame,Ne.symm hj]

theorem reject_closed (i j : ℕ) : ((s.reject i).sockets j).closed = (s.sockets j).closed := by
  by_cases hj : j = i
  · subst hj
    unfold reject
    dsimp only
    split_ifs <;> simp [Socket.closed]
  · unfold reject
    dsimp only
    split_ifs <;> simp [hj]

end State

/-- HELLO goes out, and the promise is resolved, exactly when it can be sent. -/
theorem sayHello_settling (s : State) {i : ℕ} (now : ℤ) (hk : s.cont = some (.onConnect i)) :
    Settling s (.listenersReturn now) (s.sayHello i now) := by
  have hsettles : settles s (.listenersReturn now) = if s.greets now then some i else none := by
    simp only [settles,hk]
  rcases s.sayHello_cases i now with ⟨k,bytes,hsocket,hconnected,hbytes,hh⟩ | ⟨hno,n,error,hh⟩ <;>
    rw [hh]
  · have hgreets : s.greets now = true := by
      simp [State.greets,hsocket,hconnected,hbytes]
    have hwritten := updateSocket_same (s.generateMsgId now).2 k
      (f := fun k => if k.destroyed then k else { k with written := k.written ++ [bytes] })
      (by split_ifs <;> rfl) (by split_ifs <;> rfl)
    rw [hgreets,if_pos rfl] at hsettles
    refine ⟨le_rfl,fun j => ?_,fun j => ?_⟩
    · have hsame : (((s.generateMsgId now).2.write k bytes).sockets j).promise =
          (s.sockets j).promise := hwritten.promise j
      rw [hsettles,Option.some.injEq,← hsame]
      exact State.resolve_promise _ i j
    · have hsame : (((s.generateMsgId now).2.write k bytes).sockets j).closed =
          (s.sockets j).closed := hwritten.closed j
      rw [← hsame]
      simp only [reduceCtorEq,or_false]
      exact Bool.eq_iff_iff.mp (State.resolve_closed _ i j)
  · have hgreets : s.greets now = false := by
      rcases hno with hno | hno | hno <;> simp [State.greets,hno]
    rw [hgreets] at hsettles
    refine SameSockets.settling ?_ hsettles (by simp)
    exact ⟨le_rfl,fun _ => rfl,fun _ => rfl⟩

theorem resume_settling (s : State) (now : ℤ) {k : Cont} (hk : s.cont = some k) :
    Settling s (.listenersReturn now) (s.resume now k) := by
  have hkept (he : settles s (.listenersReturn now) = none)
      (h : SameSockets s (s.resume now k)) : Settling s (.listenersReturn now) (s.resume now k) :=
    h.settling he (by simp)
  cases k with
  | onConnect i => exact sayHello_settling s now hk
  | helloFailed i =>
    have hsettles : settles s (.listenersReturn now) = some i := by simp only [settles,hk]
    refine ⟨le_rfl,fun j => ?_,fun j => ?_⟩
    · rw [hsettles,Option.some.injEq]
      exact s.resolve_promise i j
    · simp only [reduceCtorEq,or_false]
      exact Bool.eq_iff_iff.mp (s.resolve_closed i j)
  | badMagic =>
    refine hkept (by simp only [settles,hk]) ?_
    unfold State.resume
    cases s.socket with
    | none => exact ⟨le_rfl,fun _ => rfl,fun _ => rfl⟩
    | some i =>
      have h := updateSocket_same s i (f := fun k => { k with destroyed := true }) rfl rfl
      exact ⟨h.opened,h.promise,h.closed⟩
  | frame i header payload =>
    refine hkept (by simp only [settles,hk]) ?_
    by_cases hclose : header.frameType = FrameType.close.code
    · rw [State.resume,s.processFrame_close i payload hclose]
      exact (updateSocket_same s i (f := Socket.deliverClose) rfl
        (Socket.deliverClose_closed _)).trans (State.handleClose_same _ _)
    · exact (s.processFrame_proceeds i payload hclose).sameSockets
  | onError message =>
    exact hkept (by simp only [settles,hk]) (s.onLaterError_proceeds message).sameSockets
  | event r msg =>
    exact hkept (by simp only [settles,hk]) ⟨le_rfl,fun _ => rfl,fun _ => rfl⟩
  | handleClose r =>
    exact hkept (by simp only [settles,hk]) (s.reconnectIfAuto_proceeds r).sameSockets
  | reconnecting r =>
    have h := (s.setReconnectTimer_proceeds r).sameSockets
    exact hkept (by simp only [settles,hk]) ⟨h.opened,h.promise,h.closed⟩
  | after r => exact hkept (by simp only [settles,hk]) (s.after_proceeds r).sameSockets

theorem error_settling (s : State) (i : ℕ) (message : String)
    (herr : (s.sockets i).errored = false) : Settling s (.host (.error i message))
      ((s.updateSocket i Socket.emitError).onError i message) := by
  have herror := updateSocket_same s i (f := Socket.emitError) rfl rfl
  have hsame : (s.updateSocket i Socket.emitError).connected = s.connected := rfl
  unfold State.onError
  rw [hsame]
  cases hconnected : s.connected with
  | true =>
    have hsettles : settles s (.host (.error i message)) = none := by simp [settles,hconnected]
    rw [if_pos rfl]
    refine SameSockets.settling ?_ hsettles (by simp)
    exact ⟨herror.opened,herror.promise,herror.closed⟩
  | false =>
    have hsettles : settles s (.host (.error i message)) = some i := by
      simp [settles,herr,hconnected]
    have hopened : ((s.updateSocket i Socket.emitError).reject i).opened = s.opened := by
      unfold State.reject
      dsimp only
      split_ifs <;> rfl
    rw [if_neg Bool.false_ne_true]
    refine ⟨hopened.ge,fun j => ?_,fun j => ?_⟩
    · rw [hsettles,Option.some.injEq,← herror.promise j]
      exact State.reject_promise _ i j
    · simp only [reduceCtorEq,Event.host.injEq,or_false]
      exact Bool.eq_iff_iff.mp ((State.reject_closed _ i j).trans (herror.closed j))

theorem close_settling (s : State) (i : ℕ) :
    Settling s (.host (.close i)) ((s.updateSocket i Socket.emitClose).handleClose .done) := by
  have h := State.handleClose_same (s.updateSocket i Socket.emitClose) .done
  refine ⟨h.opened,fun j => ?_,fun j => ?_⟩
  · have hsettles : settles s (.host (.close i)) = none := rfl
    have hpromise : ((s.updateSocket i Socket.emitClose).sockets j).promise =
        (s.sockets j).promise := by
      by_cases hj : j = i
      · subst hj
        simp [Socket.emitClose]
      · simp [hj]
    rw [h.promise,hpromise,hsettles]
    simp
  · rw [h.closed]
    by_cases hj : j = i
    · subst hj
      simp [Socket.emitClose,Socket.closed]
    · simp [hj,Ne.symm hj]

theorem host_settling {s t : State} {e : HostEvent} (hp : (s.sockets s.opened).promise = .pending)
    (hc : (s.sockets s.opened).closed = false) (h : s.host e = some t) :
    Settling s (.host e) t := by
  have hkept (he : settles s (.host e) = none) (hclose : ∀ i, e ≠ .close i)
      (h : SameSockets s t) : Settling s (.host e) t :=
    h.settling he fun i hi => hclose i (Event.host.inj hi)
  cases e <;> simp only [State.host,Option.ite_none_right_eq_some,Option.some.injEq] at h <;>
    obtain ⟨hg,rfl⟩ := h
  case connect i =>
    refine hkept rfl (by simp) ?_
    obtain ⟨timer,intervals,n,ho⟩ := (s.updateSocket i Socket.emitConnect).onConnect_eq i
    have h := updateSocket_same s i (f := Socket.emitConnect) rfl
      (by simp [Socket.closed,Socket.emitConnect,hg.2.1])
    rw [ho]
    exact ⟨h.opened,h.promise,h.closed⟩
  case error i message =>
    split_ifs with herr
    · refine SameSockets.settling ?_ (by simp [settles,herr]) (by simp)
      exact (updateSocket_same s i (f := Socket.emitError) rfl rfl).trans
        (State.onLaterError_proceeds _ message).sameSockets
    · exact error_settling s i message (Bool.eq_false_iff.mpr herr)
  case data i data =>
    exact hkept rfl (by simp) ((updateSocket_same s i (f := Socket.receive data) rfl rfl).trans
      (State.loop_proceeds (s.updateSocket i (Socket.receive data)) _ i).sameSockets)
  case close i => exact close_settling s i
  case timeout timer =>
    have h := State.connect_same { s with
      timeouts := clear (some timer) s.timeouts
      reconnectTimer := none
      log := .retry :: s.log } hp hc true
    exact hkept rfl (by simp) ⟨h.opened,h.promise,h.closed⟩
  case interval timer now =>
    refine hkept rfl (by simp) ?_
    split_ifs
    · exact (s.sendFrame_sends _ _ _ now).sameSockets
    · exact .refl s
  case rejection =>
    refine hkept rfl (by simp) ?_
    split_ifs with hauto
    · have h := (State.scheduleReconnect_proceeds { s with rejections := s.rejections - 1 } hauto
        .done).sameSockets
      exact ⟨h.opened,h.promise,h.closed⟩
    · exact ⟨le_rfl,fun _ => rfl,fun _ => rfl⟩

theorem step_settling {s t : State} {e : Event} (hp : (s.sockets s.opened).promise = .pending)
    (hc : (s.sockets s.opened).closed = false) (h : step s e = some t) : Settling s e t := by
  cases e with
  | host e => exact host_settling hp hc (Option.ite_none_right_eq_some.mp h).2
  | listenersReturn now =>
    obtain ⟨k,hk,rfl⟩ := Option.map_eq_some_iff.mp h
    exact resume_settling s now hk
  | listenerThrows =>
    obtain ⟨k,hk,rfl⟩ := Option.map_eq_some_iff.mp h
    refine SameSockets.settling ?_ rfl (by simp)
    exact ⟨le_rfl,fun _ => rfl,fun _ => rfl⟩
  | call c now =>
    refine SameSockets.settling ?_ rfl (by simp)
    cases h
    cases s.call_move now c with
    | connectCall =>
      have h := State.connect_same { s with log := .connectCall :: s.log } hp hc false
      exact ⟨h.opened,h.promise,h.closed⟩
    | disconnectCall =>
      have h := s.disconnect_same now
      exact ⟨h.opened,h.promise,h.closed⟩
    | sends he hsent => exact hsent.sameSockets

def Cont.connecting? : Cont → Option ℕ
  | .onConnect i | .helloFailed i => some i
  | _ => none

def State.connecting? (s : State) : Option ℕ := s.cont.bind Cont.connecting?

theorem Proceeds.connecting? {s t : State} (h : Proceeds s t) : t.connecting? = none := by
  cases h with
  | emit buffer he hk =>
    rename_i k
    cases k <;> first | rfl | cases hk
  | _ => rfl

theorem State.handleClose_connecting? (s : State) (r : Return) :
    (s.handleClose r).connecting? = none := by
  rcases s.handleClose_cases r with ⟨-,he⟩ | ⟨-,hp⟩
  · rw [he]
    rfl
  · exact hp.connecting?

theorem Move.connecting? {s t : State} {e : Event} (h : Move s e t) {i : ℕ}
    (ht : t.connecting? = some i) : s.connecting? = some i ∨ i < s.opened := by
  cases h with
  | connectCall =>
    unfold State.connect at ht
    split_ifs at ht <;> exact .inl ht
  | timeout =>
    unfold State.retry State.connect at ht
    split_ifs at ht <;> exact .inl ht
  | disconnectCall now =>
    obtain ⟨n,sockets,hd⟩ := s.disconnect_eq now
    rw [hd] at ht
    exact .inl ht
  | sends he hsent =>
    obtain ⟨n,sockets,rfl⟩ := hsent.eq
    exact .inl ht
  | @sayHello j now hk =>
    rcases s.sayHello_cases j now with ⟨k,bytes,-,-,-,hh⟩ | ⟨-,n,error,hh⟩ <;> rw [hh] at ht
    · cases ht
    · cases ht
      exact .inl (by rw [State.connecting?,hk]; rfl)
  | @connect j hidle hopen hphase =>
    obtain ⟨timer,intervals,n,ho⟩ := (s.updateSocket j Socket.emitConnect).onConnect_eq j
    rw [ho] at ht
    cases ht
    exact .inr hopen
  | @error j message hidle hopen hphase hfirst =>
    obtain ⟨sockets,n,ho⟩ := (s.updateSocket j Socket.emitError).onError_eq j message
    rw [ho] at ht
    cases ht
  | @data j data hidle hopen hphase =>
    have hp := State.loop_proceeds (s.updateSocket j (Socket.receive data)) (s.buffer ++ data) j
    cases hp.connecting?.symm.trans ht
  | closeFrame | close => cases (State.handleClose_connecting? _ _).symm.trans ht
  | setReconnectTimer _ _ hp | proceeds _ _ _ _ _ _ hp | laterError _ _ hp | reschedule _ _ hp =>
    cases hp.connecting?.symm.trans ht
  | rejection => exact .inl ht
  | _ => cases ht

/-- Sockets that have not been made are new, and no handler runs for one. -/
structure Unopened (s : State) : Prop where
  promise : ∀ i, s.opened ≤ i → (s.sockets i).promise = .pending
  closed : ∀ i, s.opened ≤ i → (s.sockets i).closed = false
  connecting : ∀ i, s.connecting? = some i → i < s.opened

namespace Unopened

variable {s t : State} {e : Event}

theorem settling (hI : Unopened s) (h : Ts.step s e = some t) : Settling s e t :=
  step_settling (hI.promise _ le_rfl) (hI.closed _ le_rfl) h

theorem settles_lt (hI : Unopened s) (h : Ts.step s e = some t) {i : ℕ}
    (hi : settles s e = some i) : i < s.opened := by
  unfold settles at hi
  split at hi
  · next now =>
    split at hi
    · next hk =>
      obtain ⟨-,hi⟩ := Option.ite_none_right_eq_some.mp hi
      cases hi
      exact hI.connecting i (by rw [State.connecting?,hk]; rfl)
    · next hk =>
      cases hi
      exact hI.connecting i (by rw [State.connecting?,hk]; rfl)
    · cases hi
  · next j message =>
    obtain ⟨-,hi⟩ := Option.ite_none_left_eq_some.mp hi
    cases hi
    obtain ⟨-,h⟩ := Option.ite_none_right_eq_some.mp h
    exact (Option.ite_none_right_eq_some.mp h).1.1
  · cases hi

theorem step (hI : Unopened s) (h : Ts.step s e = some t) : Unopened t := by
  have hs := hI.settling h
  refine ⟨fun i hi => ?_,fun i hi => ?_,fun i hi => ?_⟩
  · by_contra hp
    rcases (hs.promise i).mp hp with hp | hp
    · exact hp (hI.promise i (hs.opened.trans hi))
    · exact Nat.not_le.mpr (hI.settles_lt h hp) (hs.opened.trans hi)
  · refine Bool.eq_false_iff.mpr fun hc => ?_
    rcases (hs.closed i).mp hc with hc | rfl
    · rw [hI.closed i (hs.opened.trans hi)] at hc
      cases hc
    · obtain ⟨-,h⟩ := Option.ite_none_right_eq_some.mp h
      have hlt := (Option.ite_none_right_eq_some.mp h).1.1
      exact Nat.not_le.mpr hlt (hs.opened.trans hi)
  · rcases (step_move h).connecting? hi with hc | hlt
    · exact (hI.connecting i hc).trans_le hs.opened
    · exact hlt.trans_le hs.opened

/-- A promise is left hanging where a socket closes that nothing has settled. -/
theorem noneHanging_iff (hI : Unopened s) (h : Ts.step s e = some t) (hn : NoneHanging s) :
    NoneHanging t ↔ ∀ i, e = .host (.close i) → (s.sockets i).promise ≠ .pending := by
  have hs := hI.settling h
  constructor
  · rintro ht i rfl
    have hclosed : (t.sockets i).phase = .closed :=
      of_decide_eq_true ((hs.closed i).mpr (.inr rfl))
    obtain ⟨-,hhost⟩ := Option.ite_none_right_eq_some.mp h
    have hlt := (Option.ite_none_right_eq_some.mp hhost).1.1
    rcases (hs.promise i).mp (ht i (hlt.trans_le hs.opened) hclosed) with hp | hp
    · exact hp
    · cases hp
  · intro hC i hi hclosed
    rw [hs.promise]
    rcases (hs.closed i).mp (decide_eq_true hclosed) with hc | hc
    · have hlt : i < s.opened := by
        by_contra hge
        rw [hI.closed i (Nat.not_lt.mp hge)] at hc
        cases hc
      exact .inl (hn i hlt (of_decide_eq_true hc))
    · exact .inl (hC i hc)

end Unopened

theorem unopened_init (options : Options) : Unopened (init options) where
  promise _ _ := rfl
  closed _ _ := rfl
  connecting _ := nofun

/-- In every run, no caller of `connect()` is left hanging if and only if for every socket that emits
'close' an earlier step has settled the promise. -/
theorem noneHanging_run_iff (options : Options) (events : List Event) :
    (∀ s ∈ states step (init options) events, NoneHanging s) ↔
      ∀ before i after s t, events = before ++ .host (.close i) :: after →
        run step (init options) before = some s → step s (.host (.close i)) = some t →
        ∃ p ∈ steps step (init options) before, settles p.1 p.2 = some i := by
  have hsettled {before : List Event} {s : State} (hrun : run step (init options) before = some s)
      (i : ℕ) : (s.sockets i).promise ≠ .pending ↔
        ∃ p ∈ steps step (init options) before, settles p.1 p.2 = some i := by
    have h := run_iff (I := Unopened) (P := fun s => (s.sockets i).promise ≠ .pending)
      (B := fun s e => settles s e = some i) (fun _ _ _ hI hs => hI.step hs)
      (fun _ _ _ hI hs => (hI.settling hs).promise i) (unopened_init options) hrun
    simpa [init] using h
  have hiff : (∀ s ∈ states step (init options) events, NoneHanging s) ↔
      ∀ p ∈ steps step (init options) events,
        ∀ i, p.2 = .host (.close i) → (p.1.sockets i).promise ≠ .pending :=
    invariant_iff_of_steps (I := Unopened) (A := fun _ _ => True)
      (C := fun (s : State) (e : Event) =>
        ∀ i, e = .host (.close i) → (s.sockets i).promise ≠ .pending)
      (fun _ _ _ hI _ hs => hI.step hs) (fun _ _ _ hI _ h hs => hI.noneHanging_iff hs h)
      (unopened_init options) (fun _ hi => absurd hi (Nat.not_lt_zero _)) fun _ _ => trivial
  rw [hiff]
  constructor
  · rintro h before i after s t hevents hrun hs
    have hp := h (s,.host (.close i)) (mem_steps_iff.mpr ⟨before,after,t,hevents,hrun,hs⟩) i rfl
    exact (hsettled hrun i).mp hp
  · rintro h p hp i he
    obtain ⟨before,after,t,hevents,hrun,hs⟩ := mem_steps_iff.mp hp
    rw [he] at hevents hs
    exact (hsettled hrun i).mpr (h before i after p.1 t hevents hrun hs)

/-- The user disconnects while the socket is connecting. -/
theorem noneHanging_fails : ¬∀ (options : Options) (events : List Event),
    ∀ s ∈ states step (init options) events, NoneHanging s := by
  intro h
  have hrun : ∃ s ∈ states step (init {})
      [.call .connect 0,.call .disconnect 0,.host (.close 0)],
      0 < s.opened ∧ (s.sockets 0).phase = .closed ∧ (s.sockets 0).promise = .pending := by
    decide +kernel
  obtain ⟨s,hs,hopened,hclosed,hpending⟩ := hrun
  exact h {} _ s hs 0 hopened hclosed hpending

end Ts
end MipClients
