import MipClients.Transition
import MipClients.TsHandlers

/-! The reconnect timeout of the TypeScript client: in every run the one held in `reconnectTimer` is
live and no other is. -/
namespace MipClients
namespace Ts

open Transition
open Wire (FrameType)

def State.Held (s : State) : Prop := s.timeouts = s.reconnectTimer.toList

/-- The timeout held is the live one, and none is while the 'reconnecting' listeners run: the code
behind them sets it without looking. -/
structure TimerHeld (s : State) : Prop where
  held : s.Held
  awaited : ∀ r, s.cont = some (.reconnecting r) → s.reconnectTimer = none

theorem clear_toList (timer : Option ℕ) : clear timer timer.toList = [] := by
  cases timer <;> simp [clear]

namespace State

variable {s t : State}

theorem Held.proceeds (h : s.Held) (hp : Proceeds s t) : TimerHeld t := by
  cases hp with
  | finish buffer => exact ⟨h,nofun⟩
  | emit buffer he hk => exact ⟨h,fun r hr => by cases hr; cases hk⟩
  | reconnecting r hauto htimer hmax => exact ⟨h,fun _ _ => htimer⟩
  | maxReached r hauto htimer hmax => exact ⟨h,nofun⟩

theorem Held.timer_eq (h : s.Held) {timer : ℕ} (hlive : timer ∈ s.timeouts) :
    s.reconnectTimer = some timer := by
  rw [h] at hlive
  exact Option.mem_toList.mp hlive

theorem Held.cleanup (h : s.Held) : s.cleanup.Held := by
  unfold Held at h ⊢
  simp [State.cleanup,h,clear_toList]

theorem Held.handleClose (h : s.Held) (r : Return) : TimerHeld (s.handleClose r) := by
  have hc : ({ s with connected := false }.cleanup).Held := Held.cleanup h
  rcases s.handleClose_cases r with ⟨-,he⟩ | ⟨-,hp⟩
  · rw [he]
    exact ⟨hc,nofun⟩
  · exact hc.proceeds hp

theorem Held.disconnect (h : s.Held) (now : ℤ) : (s.disconnect now).Held := by
  obtain ⟨n,sockets,hd⟩ := s.disconnect_eq now
  rw [hd]
  exact Held.cleanup (s := s.setAutoReconnect false) h

end State

theorem timerHeld_step (s : State) (e : Event) (t : State) (h : TimerHeld s)
    (hs : step s e = some t) : TimerHeld t := by
  cases step_move hs with
  | connectCall now =>
    unfold State.connect
    split_ifs <;> exact ⟨h.held,h.awaited⟩
  | disconnectCall now =>
    obtain ⟨n,sockets,hd⟩ := s.disconnect_eq now
    refine ⟨h.held.disconnect now,fun _ _ => ?_⟩
    rw [hd]
    rfl
  | sends he hsent =>
    obtain ⟨n,sockets,rfl⟩ := hsent.eq
    exact ⟨h.held,h.awaited⟩
  | throws hk => exact ⟨h.held,nofun⟩
  | @sayHello i now hk =>
    rcases s.sayHello_cases i now with ⟨j,bytes,-,-,-,hh⟩ | ⟨-,n,error,hh⟩ <;> rw [hh]
    · exact ⟨h.held,nofun⟩
    · exact ⟨h.held,nofun⟩
  | helloFailed now hk => exact ⟨h.held,nofun⟩
  | destroy now hk hsocket => exact ⟨h.held,nofun⟩
  | @setReconnectTimer r t now hk hp =>
    refine State.Held.proceeds ?_ hp
    have hheld := h.held
    rw [State.Held,h.awaited r hk] at hheld
    simp [State.Held,hheld]
  | proceeds now hk hr hg hc ht hp => exact h.held.proceeds hp
  | @closeFrame i r now hc =>
    exact State.Held.handleClose (s := s.updateSocket i Socket.deliverClose) h.held r
  | @connect i hidle hopen hphase =>
    obtain ⟨timer,intervals,n,ho⟩ := (s.updateSocket i Socket.emitConnect).onConnect_eq i
    rw [ho]
    exact ⟨h.held,nofun⟩
  | @error i message hidle hopen hphase hfirst =>
    obtain ⟨sockets,n,ho⟩ := (s.updateSocket i Socket.emitError).onError_eq i message
    rw [ho]
    exact ⟨h.held,nofun⟩
  | @laterError i t message hidle hp =>
    exact State.Held.proceeds (s := s.updateSocket i Socket.emitError) h.held hp
  | @data i data hidle hopen hphase =>
    exact State.Held.proceeds (s := s.updateSocket i (Socket.receive data)) h.held
      (State.loop_proceeds _ _ i)
  | @close i hidle hopen hphase =>
    exact State.Held.handleClose (s := s.updateSocket i Socket.emitClose) h.held .done
  | @timeout timer hidle hlive =>
    have hc : clear (some timer) s.timeouts = [] := by
      rw [h.held,h.held.timer_eq hlive]
      exact clear_toList (some timer)
    unfold State.retry State.connect
    split_ifs
    · exact ⟨hc,fun _ _ => rfl⟩
    · exact ⟨hc,fun _ _ => rfl⟩
  | rejection hidle hpending hauto => exact ⟨h.held,h.awaited⟩
  | reschedule hidle hpending hp =>
    exact State.Held.proceeds (s := { s with rejections := s.rejections - 1 }) h.held hp

theorem timerHeld (options : Options) (events : List Event) :
    ∀ s ∈ states step (init options) events, TimerHeld s := by
  have hinit : TimerHeld (init options) := ⟨rfl,nofun⟩
  exact invariant timerHeld_step hinit events

end Ts
end MipClients
