import MipClients.TsTimers

/-! What the loss of a connection leads to in the TypeScript client. `disconnect()` clears
`autoReconnect` in the options, and nothing sets it again. -/
namespace MipClients
namespace Ts

open Transition
open Wire (FrameType)

/-- `disconnect()` has returned since the last 'connect' event. -/
def disconnectedSince : List Entry → Bool
  | [] => false
  | .emit .connect :: _ => false
  | .disconnected :: _ => true
  | _ :: log => disconnectedSince log

def everDisconnected : List Entry → Bool
  | [] => false
  | .disconnected :: _ => true
  | _ :: log => everDisconnected log

/-- The 'disconnect' listeners return or throw, and leave the loss to the handler. -/
def State.handlesLoss (s : State) : Event → Bool
  | .listenersReturn _ | .listenerThrows => s.cont.any fun k => match k with
    | .handleClose _ => true
    | _ => false
  | _ => false

/-- The handler announces an attempt or gives up. -/
def EntersReconnect (s t : State) : Prop :=
  (∃ attempt, t.log = .emit (.reconnecting attempt) :: s.log) ∨
  ∃ error, t.log = .emit (.error error) :: .maxReached :: s.log

/-- The connection is lost, and the user has not called `disconnect()` since it was established. -/
def LosesConnection (s : State) (e : Event) : Prop :=
  s.handlesLoss e = true ∧ disconnectedSince s.log = false

/-- The user has never called `disconnect()`, and the 'disconnect' listeners return. -/
def ReconnectsStill (s : State) (e : Event) : Prop :=
  everDisconnected s.log = false ∧ ∃ now, e = .listenersReturn now

instance (s : State) (e : Event) : Decidable (LosesConnection s e) :=
  inferInstanceAs (Decidable (_ ∧ _))

instance (s : State) (e : Event) : Decidable (ReconnectsStill s e) :=
  match e with
  | .listenersReturn now =>
    decidable_of_iff (everDisconnected s.log = false) ⟨fun h => ⟨h,now,rfl⟩,And.left⟩
  | .call _ _ | .host _ | .listenerThrows => .isFalse fun ⟨_,_,h⟩ => nomatch h

/-- The client is not in the middle of reporting a loss with a reconnect timer set. -/
def State.LossIdle (s : State) : Prop :=
  ∀ r, s.cont = some (.handleClose r) → s.reconnectTimer = none

/-- What the history tells of the option, and that no attempt waits while a loss is reported. -/
structure Watched (auto : Bool) (s : State) : Prop where
  option : s.options.autoReconnect = (auto && !everDisconnected s.log)
  idle : s.LossIdle

theorem Adds.everDisconnected {log log' : List Entry} (h : Adds (· ≠ .disconnected) log log') :
    Ts.everDisconnected log' = Ts.everDisconnected log := by
  obtain ⟨l,rfl,hl⟩ := h
  induction l with
  | nil => rfl
  | cons e l ih =>
    obtain ⟨he,hl⟩ := List.forall_mem_cons.mp hl
    rw [← ih hl]
    cases e <;> first | exact absurd rfl he | rfl

theorem Proceeds.options {s t : State} (h : Proceeds s t) : t.options = s.options := by
  cases h <;> rfl

@[simp] theorem State.handleClose_options (s : State) (r : Return) :
    (s.handleClose r).options = s.options := by
  rcases s.handleClose_cases r with ⟨-,he⟩ | ⟨-,hp⟩
  · rw [he]
    rfl
  · exact hp.options

@[simp] theorem State.connect_options (s : State) (retry : Bool) :
    (s.connect retry).options = s.options := by
  unfold connect
  split_ifs <;> rfl

theorem Move.options {s t : State} {e : Event} (h : Move s e t)
    (he : ∀ now, e ≠ .call .disconnect now) : t.options = s.options := by
  cases h with
  | connectCall now => exact State.connect_options _ false
  | disconnectCall now => exact absurd rfl (he now)
  | sends he hsent =>
    obtain ⟨n,sockets,rfl⟩ := hsent.eq
    rfl
  | @sayHello i now hk =>
    rcases s.sayHello_cases i now with ⟨j,bytes,-,-,-,hh⟩ | ⟨-,n,error,hh⟩ <;> rw [hh] <;> rfl
  | setReconnectTimer now hk hp => exact hp.options
  | proceeds now hk hr hg hc ht hp => exact hp.options
  | closeFrame now hc => exact State.handleClose_options _ _
  | @connect i hidle hopen hphase =>
    obtain ⟨timer,intervals,n,ho⟩ := (s.updateSocket i Socket.emitConnect).onConnect_eq i
    rw [ho]
    rfl
  | @error i message hidle hopen hphase hfirst =>
    obtain ⟨sockets,n,ho⟩ := (s.updateSocket i Socket.emitError).onError_eq i message
    rw [ho]
    rfl
  | laterError message hidle hp => exact hp.options
  | @data i data hidle hopen hphase =>
    exact ((s.updateSocket i (Socket.receive data)).loop_proceeds _ i).options
  | close hidle hopen hphase => exact State.handleClose_options _ _
  | timeout hidle hlive => exact State.connect_options _ true
  | reschedule hidle hpending hp => exact hp.options
  | throws | helloFailed | destroy | rejection => rfl

/-! No timer is set while a loss is reported. -/

theorem Proceeds.lossIdle {s t : State} (h : Proceeds s t) : t.LossIdle := by
  intro r hr
  cases h with
  | finish buffer => cases hr
  | emit buffer he hk =>
    cases hr
    cases hk
  | reconnecting => cases hr
  | maxReached => cases hr

theorem State.handleClose_lossIdle (s : State) (r : Return) : (s.handleClose r).LossIdle := by
  rcases s.handleClose_cases r with ⟨-,he⟩ | ⟨-,hp⟩
  · rw [he]
    exact fun _ _ => rfl
  · exact hp.lossIdle

theorem State.connect_lossIdle {s : State} (h : s.LossIdle) (retry : Bool) :
    (s.connect retry).LossIdle := by
  unfold connect
  split_ifs <;> exact h

theorem lossIdle_step {s t : State} {e : Event} (h : s.LossIdle) (hs : step s e = some t) :
    t.LossIdle := by
  cases step_move hs with
  | connectCall now =>
    exact State.connect_lossIdle (s := { s with log := .connectCall :: s.log }) h false
  | disconnectCall now =>
    obtain ⟨n,sockets,hd⟩ := s.disconnect_eq now
    rw [hd]
    exact fun _ _ => rfl
  | sends he hsent =>
    obtain ⟨n,sockets,rfl⟩ := hsent.eq
    exact h
  | throws hk => exact nofun
  | @sayHello i now hk =>
    rcases s.sayHello_cases i now with ⟨j,bytes,-,-,-,hh⟩ | ⟨-,n,error,hh⟩ <;> rw [hh] <;>
      exact nofun
  | helloFailed now hk => exact nofun
  | destroy now hk hsocket => exact nofun
  | setReconnectTimer now hk hp => exact hp.lossIdle
  | proceeds now hk hr hg hc ht hp => exact hp.lossIdle
  | closeFrame now hc => exact State.handleClose_lossIdle _ _
  | @connect i hidle hopen hphase =>
    obtain ⟨timer,intervals,n,ho⟩ := (s.updateSocket i Socket.emitConnect).onConnect_eq i
    rw [ho]
    exact nofun
  | @error i message hidle hopen hphase hfirst =>
    obtain ⟨sockets,n,ho⟩ := (s.updateSocket i Socket.emitError).onError_eq i message
    rw [ho]
    exact nofun
  | laterError message hidle hp => exact hp.lossIdle
  | @data i data hidle hopen hphase =>
    exact ((s.updateSocket i (Socket.receive data)).loop_proceeds _ i).lossIdle
  | close hidle hopen hphase => exact State.handleClose_lossIdle _ _
  | timeout hidle hlive =>
    refine State.connect_lossIdle (fun r hr => ?_) true
    rfl
  | rejection hidle hpending hauto => exact h
  | reschedule hidle hpending hp => exact hp.lossIdle

theorem watched_step {auto : Bool} (s : State) (e : Event) (t : State) (h : Watched auto s)
    (hs : step s e = some t) : Watched auto t := by
  refine ⟨?_,lossIdle_step h.idle hs⟩
  by_cases hdis : ∃ now, e = .call .disconnect now
  · obtain ⟨now,rfl⟩ := hdis
    cases hs
    obtain ⟨n,sockets,hd⟩ := s.disconnect_eq now
    rw [State.call,hd]
    simp [State.cleanup,State.setAutoReconnect,everDisconnected]
  · have hmove := step_move hs
    have hne : ∀ now, e ≠ .call .disconnect now := fun now hn => hdis ⟨now,hn⟩
    rw [hmove.options hne,(hmove.adds hne).everDisconnected]
    exact h.option

theorem State.after_log (s : State) (r : Return) : (s.after r).log = s.log ∨
    ∃ e : MIPClientEvent, e.plain = true ∧ (s.after r).log = .emit e :: s.log := by
  cases r with
  | done => exact .inl rfl
  | loop i length =>
    rcases State.loop_cases { s with buffer := s.buffer.drop length } i with
      ⟨-,h⟩ | ⟨error,-,h⟩ | ⟨header,payload,-,h⟩ <;> rw [State.after,h]
    · exact .inl rfl
    · exact .inr ⟨_,rfl,rfl⟩
    · exact .inr ⟨_,rfl,rfl⟩

theorem not_entersReconnect {s t : State} (h : t.log = s.log ∨
    ∃ e : MIPClientEvent, e.plain = true ∧ t.log = .emit e :: s.log) : ¬EntersReconnect s t := by
  rintro (⟨attempt,ha⟩ | ⟨error,ha⟩)
  · rcases h with h | ⟨e,he,h⟩
    · exact List.cons_ne_self _ _ (ha.symm.trans h)
    · rw [h] at ha
      injection ha with hentry
      injection hentry with hentry
      rw [hentry] at he
      cases he
  · have hlen := congrArg List.length ha
    rcases h with h | ⟨e,he,h⟩
    · rw [h,List.length_cons,List.length_cons] at hlen
      omega
    · rw [h,List.length_cons,List.length_cons,List.length_cons] at hlen
      omega

theorem State.handlesLoss_cont {s : State} {e : Event} (h : s.handlesLoss e = true) :
    ∃ r, s.cont = some (.handleClose r) := by
  cases hk : s.cont with
  | none => cases e <;> simp [State.handlesLoss,hk] at h
  | some k =>
    cases k with
    | handleClose r => exact ⟨r,rfl⟩
    | _ => cases e <;> simp [State.handlesLoss,hk] at h

/-- The handler of a loss enters the reconnect path exactly when the option still stands and no
listener has thrown. -/
theorem entersReconnect_iff {s t : State} {e : Event} (h : Watched true s)
    (hloss : s.handlesLoss e = true) (hs : step s e = some t) :
    EntersReconnect s t ↔ ReconnectsStill s e := by
  obtain ⟨r,hk⟩ := State.handlesLoss_cont hloss
  cases e with
  | call | host => cases hloss
  | listenerThrows =>
    rw [step,hk] at hs
    cases hs
    exact iff_of_false (not_entersReconnect (.inl rfl)) fun ⟨_,now,hn⟩ => by cases hn
  | listenersReturn now =>
    rw [step,hk] at hs
    cases hs
    have hopt := h.option
    rw [Bool.true_and] at hopt
    change EntersReconnect s (s.reconnectIfAuto r) ↔ _
    cases hd : everDisconnected s.log with
    | true =>
      rw [hd] at hopt
      have hafter : s.reconnectIfAuto r = s.after r := by
        rw [State.reconnectIfAuto,hopt]
        rfl
      rw [hafter]
      exact iff_of_false (not_entersReconnect (s.after_log r)) fun hr =>
        Bool.noConfusion (hr.1.symm.trans hd)
    | false =>
      rw [hd,Bool.not_false] at hopt
      refine iff_of_true ?_ ⟨hd,now,rfl⟩
      rw [State.reconnectIfAuto,if_pos hopt,State.scheduleReconnect,h.idle r hk,
        if_neg (by simp)]
      split_ifs
      · exact .inr ⟨_,rfl⟩
      · exact .inl ⟨_,rfl⟩

/-- In every run of a client configured to reconnect, all losses of established connections lead to
the reconnect path if and only if none of them comes after a call of `disconnect()` and no
'disconnect' listener throws. -/
theorem losses_reconnect_iff (options : Options) (hauto : options.autoReconnect = true)
    (events : List Event) :
    (∀ p ∈ steps step (init options) events, LosesConnection p.1 p.2 →
      ∀ t ∈ step p.1 p.2, EntersReconnect p.1 t) ↔
    ∀ p ∈ steps step (init options) events, LosesConnection p.1 p.2 →
      ReconnectsStill p.1 p.2 := by
  have hinit : Watched true (init options) := ⟨hauto,nofun⟩
  refine forall_steps_iff (A := fun s e => LosesConnection s e → ∀ t ∈ step s e, EntersReconnect s t)
    (B := fun s e => LosesConnection s e → ReconnectsStill s e) watched_step
    (fun s e t hI hs => forall_congr' fun hloss => ?_) hinit events
  have hiff := entersReconnect_iff hI hloss.1 hs
  rw [hs]
  exact ⟨fun h => hiff.mp (h t rfl),fun h u hu => Option.some.inj hu ▸ hiff.mpr h⟩

end Ts
end MipClients
