import MipClients.TsTimers

/-! The retry budget of the TypeScript client. `reconnectAttempts` counts the attempts announced, not
those made; the two agree as long as no announced attempt is called off. -/
namespace MipClients
namespace Ts

open Transition
open Wire (FrameType)

/-- The calls of `connect()` the reconnect timer has made since the last 'connect' event. -/
def retries : List Entry → ℕ
  | [] => 0
  | .emit .connect :: _ => 0
  | .retry :: log => retries log + 1
  | _ :: log => retries log

/-- Whenever the client has given up, it had made `n` attempts since the last 'connect' event. -/
def BudgetSpent (n : ℕ) (log : List Entry) : Prop :=
  ∀ l, .maxReached :: l <:+ log → n ≤ retries l

def State.dropsAttempt (s : State) : Event → Bool
  | .listenerThrows => s.cont.any fun k => match k with
    | .reconnecting _ => true
    | _ => false
  | _ => false

/-- `handleClose` calls off no attempt that has been counted but not made, and no 'reconnecting'
listener throws. -/
def KeepsAttempts (s : State) (e : Event) : Prop :=
  (∀ i ∈ s.closes e, s.reconnectTimer = none ∨ s.reconnectAttempts ≤ retries s.log) ∧
  s.dropsAttempt e = false

instance (s : State) (e : Event) : Decidable (KeepsAttempts s e) :=
  inferInstanceAs (Decidable (_ ∧ _))

/-- The attempts announced and waiting for their timer: it is set, or about to be. -/
def State.timerSet (s : State) : ℕ := s.reconnectTimer.toList.length

def State.announced (s : State) : ℕ :=
  match s.cont with
  | some (.reconnecting _) => 1
  | _ => 0

structure Counted (n : ℕ) (s : State) (waiting : ℕ) : Prop where
  max : s.options.maxReconnectAttempts = n
  attempts : s.options.autoReconnect = true → s.reconnectAttempts ≤ retries s.log + waiting
  spent : BudgetSpent n s.log

theorem retries_emit {e : MIPClientEvent} (he : e ≠ .connect) (log : List Entry) :
    retries (.emit e :: log) = retries log := by
  cases e <;> first | rfl | exact absurd rfl he

theorem BudgetSpent.cons {n : ℕ} {log : List Entry} (h : BudgetSpent n log) {e : Entry}
    (he : e = .maxReached → n ≤ retries log) : BudgetSpent n (e :: log) := by
  intro l hl
  rcases List.suffix_cons_iff.mp hl with hl | hl
  · injection hl with h1 h2
    rw [h2]
    exact he h1.symm
  · exact h l hl

theorem Counted.weaken {n m k : ℕ} {s : State} (h : Counted n s m) (hk : m ≤ k) :
    Counted n s k :=
  ⟨h.max,fun hauto => (h.attempts hauto).trans (Nat.add_le_add_left hk _),h.spent⟩

theorem Counted.proceeds {n : ℕ} {s t : State} (h : Counted n s s.timerSet) (hp : Proceeds s t) :
    Counted n t (t.timerSet + t.announced) := by
  cases hp with
  | finish buffer => exact Counted.weaken ⟨h.max,h.attempts,h.spent⟩ (Nat.le_add_right _ _)
  | @emit buffer e k he hk =>
    have hne : e ≠ .connect := by rintro rfl; cases he
    refine Counted.weaken (m := s.timerSet) ⟨h.max,fun hauto => ?_,h.spent.cons nofun⟩
      (Nat.le_add_right _ _)
    simp only [State.emit,retries_emit hne]
    exact h.attempts hauto
  | reconnecting r hauto htimer hmax =>
    refine ⟨h.max,fun hauto => ?_,h.spent.cons nofun⟩
    have ha := h.attempts hauto
    simp only [State.timerSet,htimer] at ha
    simpa [State.emit,State.timerSet,State.announced,htimer,retries] using ha
  | maxReached r hauto htimer hmax =>
    have ha := h.attempts hauto
    simp only [State.timerSet,htimer] at ha
    have hn : n ≤ retries s.log := h.max ▸ hmax.2.trans ha
    exact Counted.weaken (m := s.timerSet) ⟨h.max,h.attempts,(h.spent.cons fun _ => hn).cons nofun⟩
      (Nat.le_add_right _ _)

theorem Counted.connect {n m : ℕ} {s : State} (h : Counted n s m) (retry : Bool) :
    Counted n (s.connect retry) m := by
  unfold State.connect
  split_ifs
  · exact h
  · exact ⟨h.max,h.attempts,h.spent.cons nofun⟩

theorem Counted.handleClose {n : ℕ} {s : State} (h : Counted n s s.timerSet)
    (hkeep : s.reconnectTimer = none ∨ s.reconnectAttempts ≤ retries s.log) (r : Return) :
    Counted n (s.handleClose r) ((s.handleClose r).timerSet + (s.handleClose r).announced) := by
  have ha : s.options.autoReconnect = true → s.reconnectAttempts ≤ retries s.log := by
    intro hauto
    rcases hkeep with ht | hle
    · have ha := h.attempts hauto
      rw [State.timerSet,ht] at ha
      exact ha
    · exact hle
  have hc : Counted n { s with connected := false }.cleanup 0 := ⟨h.max,ha,h.spent⟩
  rcases s.handleClose_cases r with ⟨-,he⟩ | ⟨-,hp⟩
  · rw [he]
    exact Counted.weaken (m := 0) ⟨h.max,ha,h.spent.cons nofun⟩ (Nat.zero_le _)
  · exact hc.proceeds hp

structure Budgeted (n : ℕ) (s : State) : Prop where
  timer : TimerHeld s
  counted : Counted n s (s.timerSet + s.announced)

theorem State.announced_eq_zero {s : State} (h : ∀ r, s.cont ≠ some (.reconnecting r)) :
    s.announced = 0 := by
  unfold State.announced
  split
  · next r hr => exact absurd hr (h r)
  · rfl

theorem counted_step {n : ℕ} {s t : State} {e : Event} (h : Budgeted n s) (hkeep : KeepsAttempts s e)
    (hs : step s e = some t) : Counted n t (t.timerSet + t.announced) := by
  have hcounted := h.counted
  have hquiet : (∀ r, s.cont ≠ some (.reconnecting r)) → Counted n s s.timerSet := by
    intro hr
    rwa [s.announced_eq_zero hr] at hcounted
  have hidle : s.cont = none → Counted n s s.timerSet := by
    intro hi
    exact hquiet (by simp [hi])
  cases step_move hs with
  | connectCall now =>
    have hc : Counted n { s with log := .connectCall :: s.log } (s.timerSet + s.announced) :=
      ⟨h.counted.max,h.counted.attempts,h.counted.spent.cons nofun⟩
    refine (hc.connect false).weaken (Nat.le_of_eq ?_)
    unfold State.connect
    split_ifs <;> rfl
  | disconnectCall now =>
    obtain ⟨m,sockets,hd⟩ := s.disconnect_eq now
    rw [hd]
    exact ⟨h.counted.max,nofun,h.counted.spent.cons nofun⟩
  | sends he hsent =>
    obtain ⟨m,sockets,rfl⟩ := hsent.eq
    exact ⟨h.counted.max,h.counted.attempts,h.counted.spent⟩
  | throws hk =>
    have hc := hquiet fun r hr => by simpa [State.dropsAttempt,hr] using hkeep.2
    exact ⟨hc.max,hc.attempts,hc.spent⟩
  | @sayHello i now hk =>
    have hc := hquiet (by simp [hk])
    rcases s.sayHello_cases i now with ⟨j,bytes,-,-,-,hh⟩ | ⟨-,n,error,hh⟩ <;> rw [hh]
    · exact ⟨hc.max,hc.attempts,hc.spent.cons nofun⟩
    · exact ⟨hc.max,hc.attempts,hc.spent.cons nofun⟩
  | helloFailed now hk =>
    have hc := hquiet (by simp [hk])
    exact ⟨hc.max,hc.attempts,hc.spent⟩
  | destroy now hk hsocket =>
    have hc := hquiet (by simp [hk])
    exact ⟨hc.max,hc.attempts,hc.spent⟩
  | @setReconnectTimer r t now hk hp =>
    refine Counted.proceeds ?_ hp
    refine ⟨h.counted.max,fun hauto => ?_,h.counted.spent⟩
    have ha := h.counted.attempts hauto
    simpa [State.timerSet,State.announced,h.timer.awaited r hk,hk] using ha
  | proceeds now hk hr hg hc ht hp =>
    exact (hquiet fun r hr' => hr r (Option.some.inj (hk.symm.trans hr'))).proceeds hp
  | @closeFrame i r now hc =>
    obtain ⟨header,payload,hk⟩ := State.closes_cont hc
    have hq := hquiet (by simp [hk])
    exact Counted.handleClose (s := s.updateSocket i Socket.deliverClose)
      ⟨hq.max,hq.attempts,hq.spent⟩ (hkeep.1 i hc) r
  | @connect i hi hopen hphase =>
    obtain ⟨timer,intervals,m,ho⟩ := (s.updateSocket i Socket.emitConnect).onConnect_eq i
    rw [ho]
    exact ⟨h.counted.max,fun _ => Nat.zero_le _,h.counted.spent.cons nofun⟩
  | @error i message hi hopen hphase hfirst =>
    have hc := hidle hi
    obtain ⟨sockets,m,ho⟩ := (s.updateSocket i Socket.emitError).onError_eq i message
    rw [ho]
    exact ⟨hc.max,hc.attempts,hc.spent.cons nofun⟩
  | @laterError i t message hi hp =>
    have hc := hidle hi
    exact Counted.proceeds (s := s.updateSocket i Socket.emitError)
      ⟨hc.max,hc.attempts,hc.spent⟩ hp
  | @data i data hi hopen hphase =>
    have hc := hidle hi
    exact Counted.proceeds (s := s.updateSocket i (Socket.receive data))
      ⟨hc.max,hc.attempts,hc.spent⟩ (State.loop_proceeds _ _ i)
  | @close i hi hopen hphase =>
    have hc := hidle hi
    exact Counted.handleClose (s := s.updateSocket i Socket.emitClose)
      ⟨hc.max,hc.attempts,hc.spent⟩ (hkeep.1 i rfl) .done
  | @timeout timer hi hlive =>
    have hc := hidle hi
    have ha : s.options.autoReconnect = true →
        s.reconnectAttempts ≤ retries (.retry :: s.log) + 0 := by
      intro hauto
      have ha := hc.attempts hauto
      rwa [State.timerSet,h.timer.held.timer_eq hlive] at ha
    have hr : Counted n { s with
        timeouts := clear (some timer) s.timeouts
        reconnectTimer := none
        log := .retry :: s.log } 0 := ⟨hc.max,ha,hc.spent.cons nofun⟩
    exact (hr.connect true).weaken (Nat.zero_le _)
  | rejection hi hpending hauto => exact ⟨h.counted.max,h.counted.attempts,h.counted.spent⟩
  | reschedule hi hpending hp =>
    have hc := hidle hi
    exact Counted.proceeds (s := { s with rejections := s.rejections - 1 })
      ⟨hc.max,hc.attempts,hc.spent⟩ hp

/-- In every run in which no counted attempt is called off, the client gives up only after
`maxReconnectAttempts` attempts since the last 'connect' event. -/
theorem maxReached_budget (options : Options) (events : List Event)
    (hkeep : ∀ p ∈ steps step (init options) events, KeepsAttempts p.1 p.2) :
    ∀ s ∈ states step (init options) events, BudgetSpent options.maxReconnectAttempts s.log := by
  have hinit : Budgeted options.maxReconnectAttempts (init options) :=
    ⟨⟨rfl,nofun⟩,rfl,fun _ => Nat.zero_le _,fun l hl => by simp [init] at hl⟩
  have hall := invariant_of_steps (fun s e t h hk hs =>
    (⟨timerHeld_step s e t h.timer hs,counted_step h hk hs⟩ : Budgeted _ t)) hinit hkeep
  exact fun s hs => (hall s hs).counted.spent

/-- The server closes the socket with one attempt allowed, and refuses that attempt. -/
def refusedOnce : List Event :=
  [.call .connect 0,.host (.connect 0),.listenersReturn 0,.host (.close 0),.listenersReturn 0,
    .listenersReturn 0,.host (.timeout 0),.host (.error 1 ""),.listenersReturn 0,.host .rejection]

theorem maxReached_budget_refusedOnce :
    ∃ s ∈ states step (init { maxReconnectAttempts := 1 }) refusedOnce,
      (s.log.any fun e => e matches .maxReached) = true ∧ BudgetSpent 1 s.log := by
  have hlast : ∃ s ∈ states step (init { maxReconnectAttempts := 1 }) refusedOnce,
      (s.log.any fun e => e matches .maxReached) = true := by
    decide
  obtain ⟨s,hs,hmax⟩ := hlast
  exact ⟨s,hs,hmax,maxReached_budget { maxReconnectAttempts := 1 } refusedOnce (by decide) s hs⟩

/-- The server sends CLOSE and then closes the socket, with one attempt allowed: the first loss
schedules it, the second calls it off and gives up. -/
def gracefulClose : List Event :=
  [.call .connect 0,.host (.connect 0),.listenersReturn 0,
    .host (.data 0 (Wire.headerBytes FrameType.close.code 0 1 0 0)),.listenersReturn 0,
    .listenersReturn 0,.listenersReturn 0,.host (.close 0)]

theorem maxReached_without_attempt : ¬∀ (options : Options) (events : List Event),
    0 < options.maxReconnectAttempts → options.autoReconnect = true →
    ∀ s ∈ states step (init options) events, BudgetSpent options.maxReconnectAttempts s.log := by
  intro h
  have hlast := h { maxReconnectAttempts := 1 } gracefulClose (by decide) rfl _
    (List.getLast_mem (l := states step (init { maxReconnectAttempts := 1 }) gracefulClose)
      (by decide))
  have hspent := hlast _ ⟨[_],rfl⟩
  revert hspent
  decide

end Ts
end MipClients
