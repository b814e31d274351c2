import MipClients.Transition
import MipClients.TsHandlers

/-! The ping interval of the TypeScript client. `setupPingInterval` overwrites `pingTimer` without
looking at it, so an interval leaks wherever a socket connects while another one is running. -/
namespace MipClients
namespace Ts

open Transition

/-- A call of `disconnect()` has returned, and no socket has connected since. -/
def offline : List Entry → Bool
  | [] => false
  | .disconnected :: _ => true
  | .emit .connect :: _ => false
  | _ :: log => offline log

/-- At most one interval is live, and it is the one in `pingTimer`; none is while the client is
offline. -/
structure PingTimerHeld (s : State) : Prop where
  one : s.intervals.length ≤ 1
  held : ∀ timer ∈ s.intervals, s.pingTimer = some timer
  stopped : offline s.log = true → s.intervals = []

/-- A socket that connects finds `pingTimer` empty. -/
def ConnectsUnarmed (s : State) : Event → Prop
  | .host (.connect _) => s.pingTimer = none
  | _ => True

instance (s : State) (e : Event) : Decidable (ConnectsUnarmed s e) :=
  match e with
  | .host (.connect _) => inferInstanceAs (Decidable (s.pingTimer = none))
  | .host (.error _ _) | .host (.data _ _) | .host (.close _) | .host (.timeout _)
  | .host (.interval _ _) | .host .rejection | .call _ _ | .listenersReturn _ | .listenerThrows =>
    inferInstanceAs (Decidable True)

/-- What is in `pingTimer` has been set up and is live. -/
def PingTimerLive (s : State) : Prop :=
  ∀ timer, s.pingTimer = some timer → timer ∈ s.intervals ∧ 0 < s.options.pingInterval

/-- What a step does to the ping timer, unless a socket connects. -/
inductive TimerFlow (s t : State) : Prop
  | kept (hoption : t.options.pingInterval = s.options.pingInterval)
      (hlive : t.intervals = s.intervals) (htimer : t.pingTimer = s.pingTimer)
  | cleared (hlive : t.intervals = clear s.pingTimer s.intervals) (htimer : t.pingTimer = none)

theorem TimerFlow.congr {s u t : State} (h : TimerFlow u t)
    (hoption : u.options.pingInterval = s.options.pingInterval) (hlive : u.intervals = s.intervals)
    (htimer : u.pingTimer = s.pingTimer) : TimerFlow s t := by
  cases h with
  | kept ho hl ht => exact .kept (ho.trans hoption) (hl.trans hlive) (ht.trans htimer)
  | cleared hl ht => exact .cleared (by rw [hl,hlive,htimer]) ht

theorem Proceeds.timerFlow {s t : State} (h : Proceeds s t) : TimerFlow s t := by
  cases h <;> exact .kept rfl rfl rfl

theorem clear_none (live : List ℕ) : clear none live = live :=
  List.filter_eq_self.mpr fun _ _ => rfl

theorem State.handleClose_timerFlow (s : State) (r : Return) : TimerFlow s (s.handleClose r) := by
  rcases s.handleClose_cases r with ⟨-,he⟩ | ⟨-,hp⟩
  · rw [he]
    exact .cleared rfl rfl
  · cases hp.timerFlow with
    | kept hoption hlive htimer => exact .cleared hlive htimer
    | cleared hlive htimer => exact .cleared (hlive.trans (clear_none _)) htimer

theorem State.connect_timerFlow (s : State) (retry : Bool) : TimerFlow s (s.connect retry) := by
  unfold State.connect
  split_ifs <;> exact .kept rfl rfl rfl

theorem Move.timerFlow {s t : State} {e : Event} (h : Move s e t)
    (he : ∀ i, e ≠ .host (.connect i)) : TimerFlow s t := by
  cases h with
  | connectCall | timeout => exact (State.connect_timerFlow _ _).congr rfl rfl rfl
  | disconnectCall now =>
    obtain ⟨n,sockets,hd⟩ := s.disconnect_eq now
    rw [hd]
    exact .cleared rfl rfl
  | sends he hsent =>
    obtain ⟨n,sockets,rfl⟩ := hsent.eq
    exact .kept rfl rfl rfl
  | @sayHello i now hk =>
    rcases s.sayHello_cases i now with ⟨j,bytes,-,-,-,hh⟩ | ⟨-,n,error,hh⟩ <;> rw [hh]
    · exact .kept rfl rfl rfl
    · exact .kept rfl rfl rfl
  | proceeds now hk hr hg hc ht hp => exact hp.timerFlow
  | closeFrame | close => exact (State.handleClose_timerFlow _ _).congr rfl rfl rfl
  | connect => exact absurd rfl (he _)
  | @error i message hidle hopen hphase hfirst =>
    obtain ⟨sockets,n,ho⟩ := (s.updateSocket i Socket.emitError).onError_eq i message
    rw [ho]
    exact .kept rfl rfl rfl
  | @data i data hidle hopen hphase =>
    exact (State.loop_proceeds (s.updateSocket i (Socket.receive data)) _ i).timerFlow.congr
      rfl rfl rfl
  | setReconnectTimer _ _ hp | laterError _ _ hp | reschedule _ _ hp =>
    exact hp.timerFlow.congr rfl rfl rfl
  | _ => exact .kept rfl rfl rfl

theorem offline_of_adds {log log' : List Entry} (h : Adds (· ≠ .disconnected) log log')
    (hoffline : offline log' = true) : offline log = true := by
  obtain ⟨l,rfl,hl⟩ := h
  induction l with
  | nil => exact hoffline
  | cons e l ih =>
    obtain ⟨he,hl⟩ := List.forall_mem_cons.mp hl
    refine ih hl ?_
    rw [List.cons_append] at hoffline
    cases e with
    | disconnected => exact absurd rfl he
    | emit event =>
      cases event with
      | connect => cases hoffline
      | _ => exact hoffline
    | _ => exact hoffline

theorem PingTimerHeld.clear {s : State} (h : PingTimerHeld s) : clear s.pingTimer s.intervals = [] :=
  List.filter_eq_nil_iff.mpr fun timer hlive => by simpa using h.held timer hlive

theorem State.disconnect_intervals (s : State) (now : ℤ) :
    (s.disconnect now).intervals = Ts.clear s.pingTimer s.intervals := by
  obtain ⟨n,sockets,hd⟩ := s.disconnect_eq now
  rw [hd]
  rfl

theorem PingTimerHeld.flow {s t : State} {e : Event} (h : PingTimerHeld s)
    (hs : step s e = some t) (he : ∀ i, e ≠ .host (.connect i)) : PingTimerHeld t := by
  cases (step_move hs).timerFlow he with
  | cleared hlive htimer =>
    rw [h.clear] at hlive
    exact ⟨by rw [hlive]; exact Nat.zero_le _,by rw [hlive]; exact nofun,fun _ => hlive⟩
  | kept hoption hlive htimer =>
    refine ⟨hlive ▸ h.one,by rw [hlive,htimer]; exact h.held,fun hoffline => ?_⟩
    by_cases hd : ∃ now, e = .call .disconnect now
    · obtain ⟨now,rfl⟩ := hd
      cases hs
      exact (s.disconnect_intervals now).trans h.clear
    · rw [hlive]
      exact h.stopped (offline_of_adds ((step_move hs).adds fun now hnow => hd ⟨now,hnow⟩) hoffline)

theorem PingTimerLive.flow {s t : State} {e : Event} (h : PingTimerLive s)
    (hs : step s e = some t) (he : ∀ i, e ≠ .host (.connect i)) : PingTimerLive t := by
  intro timer htimer
  cases (step_move hs).timerFlow he with
  | cleared hlive hnone =>
    rw [hnone] at htimer
    cases htimer
  | kept hoption hlive hsame =>
    rw [hlive,hoption]
    exact h timer (hsame ▸ htimer)

theorem setup_cases {s t : State} {i : ℕ} (hs : step s (.host (.connect i)) = some t) :
    t.options.pingInterval = s.options.pingInterval ∧ offline t.log = false ∧
      (s.options.pingInterval = 0 ∧ t.intervals = s.intervals ∧ t.pingTimer = s.pingTimer ∨
        0 < s.options.pingInterval ∧ t.intervals = s.nextTimer :: s.intervals ∧
          t.pingTimer = some s.nextTimer) := by
  obtain ⟨-,hs⟩ := Option.ite_none_right_eq_some.mp hs
  obtain ⟨-,hs⟩ := Option.ite_none_right_eq_some.mp hs
  cases hs
  unfold State.onConnect State.setupPingInterval
  split_ifs with hping
  · exact ⟨rfl,rfl,.inr ⟨hping,rfl,rfl⟩⟩
  · exact ⟨rfl,rfl,.inl ⟨Nat.eq_zero_of_not_pos hping,rfl,rfl⟩⟩

theorem PingTimerLive.step {s t : State} {e : Event} (h : PingTimerLive s)
    (hs : Ts.step s e = some t) : PingTimerLive t := by
  by_cases he : ∃ i, e = .host (.connect i)
  · obtain ⟨i,rfl⟩ := he
    obtain ⟨hoption,-,hsetup⟩ := setup_cases hs
    intro timer htimer
    rw [hoption]
    rcases hsetup with ⟨-,hlive,hsame⟩ | ⟨hping,hlive,hnew⟩
    · rw [hlive]
      exact h timer (hsame ▸ htimer)
    · rw [hlive]
      cases hnew.symm.trans htimer
      exact ⟨List.mem_cons_self,hping⟩
  · exact h.flow hs fun i hi => he ⟨i,hi⟩

/-- The timers stay in order exactly when no socket connects on top of one. -/
theorem PingTimerHeld.step_iff {s t : State} {e : Event} (hI : PingTimerLive s)
    (h : PingTimerHeld s) (hs : step s e = some t) : PingTimerHeld t ↔ ConnectsUnarmed s e := by
  by_cases he : ∃ i, e = .host (.connect i)
  · obtain ⟨i,rfl⟩ := he
    obtain ⟨-,honline,hsetup⟩ := setup_cases hs
    have hno : offline t.log = true → t.intervals = [] := fun hoffline => by
      rw [honline] at hoffline
      cases hoffline
    change PingTimerHeld t ↔ s.pingTimer = none
    constructor
    · intro ht
      refine Option.eq_none_iff_forall_ne_some.mpr fun timer htimer => ?_
      obtain ⟨hmem,hping⟩ := hI timer htimer
      rcases hsetup with ⟨hzero,-,-⟩ | ⟨-,hlive,-⟩
      · omega
      · -- the interval that was live has a second one beside it
        have hone := ht.one
        rw [hlive,List.length_cons] at hone
        have hpos := List.length_pos_of_mem hmem
        omega
    · intro hnone
      have hempty : s.intervals = [] := by
        rw [← clear_none s.intervals,← hnone]
        exact h.clear
      rcases hsetup with ⟨-,hlive,htimer⟩ | ⟨-,hlive,htimer⟩
      · rw [hempty] at hlive
        exact ⟨by rw [hlive]; exact Nat.zero_le _,by rw [hlive]; exact nofun,hno⟩
      · rw [hempty] at hlive
        refine ⟨by rw [hlive]; exact le_rfl,fun timer hmem => ?_,hno⟩
        rw [hlive,List.mem_singleton] at hmem
        rw [htimer,hmem]
  · have hne : ∀ i, e ≠ .host (.connect i) := fun i hi => he ⟨i,hi⟩
    refine iff_of_true (h.flow hs hne) ?_
    cases e with
    | host e =>
      cases e with
      | connect i => exact absurd rfl (hne i)
      | _ => trivial
    | _ => trivial

/-- In every run, no ping interval leaks if and only if every socket that connects finds `pingTimer`
empty. -/
theorem pingTimer_held_iff (options : Options) (events : List Event) :
    (∀ s ∈ states step (init options) events, PingTimerHeld s) ↔
      ∀ p ∈ steps step (init options) events, ConnectsUnarmed p.1 p.2 := by
  have hlive : PingTimerLive (init options) := fun timer htimer => by cases htimer
  have hheld : PingTimerHeld (init options) := ⟨Nat.zero_le _,nofun,fun _ => rfl⟩
  exact invariant_iff_of_steps (I := PingTimerLive) (A := fun _ _ => True)
    (fun _ _ _ hI _ hs => hI.step hs) (fun _ _ _ hI _ h hs => h.step_iff hI hs) hlive hheld
    fun _ _ => trivial

/-- The user calls `connect()` twice, and both sockets connect. -/
theorem pingTimer_not_held : ¬∀ options : Options, 0 < options.pingInterval → ∀ events,
    ∀ s ∈ states step (init options) events, PingTimerHeld s := by
  intro h
  have hrun : ∃ s ∈ states step (init { pingInterval := 1000 })
      [.call .connect 0,.call .connect 0,.host (.connect 0),.listenersReturn 0,.host (.connect 1)],
      s.intervals.length = 2 := by
    decide +kernel
  obtain ⟨s,hs,hlength⟩ := hrun
  have hone := (h { pingInterval := 1000 } (by decide) _ s hs).one
  omega

end Ts
end MipClients
