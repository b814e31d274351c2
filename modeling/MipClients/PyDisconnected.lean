import MipClients.PyDisconnect

/-! The Python client after a call of `disconnect()` that has returned: until the user calls
`connect()` there is no task left that could do anything, whatever the host still lets happen. -/
namespace MipClients
namespace Py

open Transition
open Wire (FrameType)

def Status.restless : Status → Bool
  | .live .connectOpening => true
  | status => status.background

/-- No task is left but close tasks and calls of `disconnect()`, and no other is to come. -/
structure Idle (s : State) : Prop where
  auto : s.options.autoReconnect = false
  tasks : ∀ i, (s.tasks i).restless = false

namespace Idle

variable {s t : State}

theorem congr (h : Idle s) (hauto : t.options.autoReconnect = s.options.autoReconnect)
    (htasks : t.tasks = s.tasks) : Idle t :=
  ⟨hauto.trans h.auto,htasks ▸ h.tasks⟩

theorem setTask (h : Idle s) {i : ℕ} {status : Status} (hstatus : status.restless = false) :
    Idle (s.setTask i status) := by
  refine ⟨h.auto,fun j => ?_⟩
  by_cases hj : j = i
  · rw [hj]
    simpa using hstatus
  · simpa [hj] using h.tasks j

theorem createTask (h : Idle s) {wait : Wait} (hwait : (Status.live wait).restless = false) :
    Idle (s.createTask wait) := (h.setTask (i := s.nextTask) hwait).congr rfl rfl

theorem sending : Sending fun s t => Idle s → Idle t where
  refl := fun _ => id
  trans := fun h h' => h' ∘ h
  generateMsgId := fun _ _ h => h.congr rfl rfl
  write := fun _ _ _ h => h.congr rfl rfl

theorem closeConnection (h : Idle s) (i : ℕ) : Idle (s.closeConnection i) := by
  unfold State.closeConnection
  split
  · next c _ =>
    have hclosed : Idle (s.closeWriter c) := h.congr rfl rfl
    exact hclosed.setTask rfl
  · exact h.setTask rfl

theorem of_disconnect (h : ∀ i, (s.tasks i).restless = false) (now : ℤ) :
    Idle (s.disconnect now) := by
  rcases s.disconnect_cases now with ⟨hret,-⟩ | ⟨-,-,t,ht,he⟩ | ⟨-,-,t,u,ht,hu,he⟩
  · obtain ⟨ping,read,i,status,-,hstatus,-,-,he⟩ := s.disconnect_stuck now hret
    have hquiet : status.restless = false := by rcases hstatus with rfl | rfl <;> rfl
    have hstopped : Idle { s.stop with pingTask := ping, readTask := read } := ⟨rfl,h⟩
    rw [he]
    exact ((hstopped.setTask hquiet).createTask rfl).setTask hquiet
  · have hdown : Idle { t with connected := false } := by
      rw [ht]
      exact ⟨rfl,h⟩
    rw [he]
    exact (hdown.createTask rfl).setTask rfl
  · have hsent : Idle u := by
      rw [hu]
      refine createTask (sending.sendFrame t .close [] 0 now ?_) rfl
      rw [ht]
      exact ⟨rfl,h⟩
    rcases he with he | he <;> rw [he]
    · exact hsent
    · exact hsent.closeConnection _

theorem handleClose (h : Idle s) (runner : ℕ) : Idle (s.handleClose runner) := by
  cases hret : s.tasksReturned with
  | false =>
    obtain ⟨ping,read,i,status,-,hstatus,-,-,he⟩ := s.handleClose_stuck runner hret
    have hquiet : status.restless = false := by rcases hstatus with rfl | rfl <;> rfl
    have hfields : Idle { s with connected := false, pingTask := ping, readTask := read } :=
      h.congr rfl rfl
    rw [he]
    exact (hfields.setTask hquiet).setTask hquiet
  | true =>
    have htold : Idle (if s.connected then
        { s with connected := false }.forgetPing.forgetRead.forgetReconnect.record .disconnect
        else { s with connected := false }.forgetPing.forgetRead.forgetReconnect) := by
      split_ifs <;> exact h.congr rfl rfl
    rw [s.handleClose_returned runner hret]
    dsimp only
    rw [htold.auto,Bool.false_and,if_neg Bool.false_ne_true]
    exact htold.setTask rfl

theorem restless_of_live (h : Idle s) {i : ℕ} {wait : Wait} (hi : s.tasks i = .live wait) :
    (Status.live wait).restless = false := hi ▸ h.tasks i

theorem opens_eq_false (h : Idle s) {e : Event} (hs : Py.step s e = some t) : e.opens = false := by
  cases step_move hs with
  | opened i wait _ _ _ hi hwait =>
    rcases hwait with rfl | rfl <;> cases h.restless_of_live hi
  | _ => rfl

theorem step {e : Event} (h : Idle s) (he : e ≠ .connectCall) (hs : Py.step s e = some t) :
    Idle t := by
  cases step_move hs with
  | alreadyConnected | connectCall => exact absurd rfl he
  | disconnectCall now => exact of_disconnect h.tasks now
  | call k now => exact sending.call s now k h
  | handleCloseStart i => exact h.handleClose i
  | drained i => exact h.closeConnection i
  | closed i =>
    have hdropped : Idle { s with writer := none, reader := none, connected := false } :=
      h.congr rfl rfl
    exact hdropped.setTask rfl
  | opened i wait _ _ _ hi hwait | openFailed i wait _ hi hwait =>
    rcases hwait with rfl | rfl <;> cases h.restless_of_live hi
  | readLoopStart i hi | pingLoopStart i _ hi | reconnectStart i hi | data i _ _ _ hi
  | eof i _ hi | raises i _ _ hi | pinged i _ _ hi | pingOver i _ hi | reconnectOver i _ hi
  | reconnectOpening i _ hi => cases h.restless_of_live hi

end Idle

/-! Behind the call. -/

/-- The client is disconnected, and nothing that is left will change that. -/
structure Over (s : State) : Prop extends Idle s where
  connected : s.connected = false
  writer : s.writer = none

structure Still (s t : State) : Prop where
  log : t.log = s.log
  opened : t.opened = s.opened
  connections : t.connections = s.connections

theorem Still.trans {s t u : State} (h : Still s t) (h' : Still t u) : Still s u :=
  ⟨h'.log.trans h.log,h'.opened.trans h.opened,h'.connections.trans h.connections⟩

namespace Over

variable {s t : State}

theorem call (h : Over s) (now : ℤ) (k : Call) : s.call now k = s := by
  rcases s.call_cases now k with ⟨-,he⟩ | ⟨frameType,payload,flags,-,he⟩
  · exact he
  · rw [he,State.sendFrame,h.writer]

theorem disconnect (h : Over s) (now : ℤ) :
    Over (s.disconnect now) ∧ Still s (s.disconnect now) := by
  have hidle := Idle.of_disconnect h.tasks now
  rcases s.disconnect_cases now with ⟨-,ping,read,tasks,status,-,-,he⟩ | ⟨-,-,t,ht,he⟩ | ⟨-,hw,-⟩
  · rw [he] at hidle ⊢
    exact ⟨⟨hidle,h.connected,h.writer⟩,⟨rfl,rfl,rfl⟩⟩
  · rw [he,ht] at hidle ⊢
    exact ⟨⟨hidle,rfl,h.writer⟩,⟨rfl,rfl,rfl⟩⟩
  · rw [h.writer] at hw
    cases hw

theorem handleClose (h : Over s) (runner : ℕ) :
    Over (s.handleClose runner) ∧ Still s (s.handleClose runner) := by
  have hidle := h.toIdle.handleClose runner
  cases hret : s.tasksReturned with
  | false =>
    obtain ⟨ping,read,tasks,he,-,-⟩ := s.handleClose_not_returned runner hret
    rw [he] at hidle ⊢
    exact ⟨⟨hidle,rfl,h.writer⟩,⟨rfl,rfl,rfl⟩⟩
  | true =>
    have he : s.handleClose runner =
        { s with connected := false }.forgetPing.forgetRead.forgetReconnect.setTask runner
          .returned := by
      have hforget : Idle { s with connected := false }.forgetPing.forgetRead.forgetReconnect :=
        h.toIdle.congr rfl rfl
      rw [s.handleClose_returned runner hret]
      dsimp only
      rw [h.connected,if_neg Bool.false_ne_true,hforget.auto,Bool.false_and,
        if_neg Bool.false_ne_true]
    rw [he] at hidle ⊢
    exact ⟨⟨hidle,rfl,h.writer⟩,⟨rfl,rfl,rfl⟩⟩

theorem step {e : Event} (h : Over s) (he : e ≠ .connectCall) (hs : Py.step s e = some t) :
    Over t ∧ Still s t := by
  have hidle := h.toIdle.step he hs
  cases step_move hs with
  | alreadyConnected | connectCall => exact absurd rfl he
  | disconnectCall now => exact h.disconnect now
  | call k now =>
    rw [h.call]
    exact ⟨h,⟨rfl,rfl,rfl⟩⟩
  | handleCloseStart i => exact h.handleClose i
  | drained i =>
    rw [State.closeConnection,h.writer] at hidle ⊢
    exact ⟨⟨hidle,h.connected,h.writer⟩,⟨rfl,rfl,rfl⟩⟩
  | closed i => exact ⟨⟨hidle,rfl,rfl⟩,⟨rfl,rfl,rfl⟩⟩
  | opened i wait _ _ _ hi hwait | openFailed i wait _ hi hwait =>
    rcases hwait with rfl | rfl <;> cases h.restless_of_live hi
  | readLoopStart i hi | pingLoopStart i _ hi | reconnectStart i hi | data i _ _ _ hi
  | eof i _ hi | raises i _ _ hi | pinged i _ _ hi | pingOver i _ hi | reconnectOver i _ hi
  | reconnectOpening i _ hi => cases h.restless_of_live hi

theorem run (h : Over s) {later : List Event} (hlater : ∀ e ∈ later, e ≠ .connectCall) :
    ∀ t ∈ states Py.step s later, Over t ∧ Still s t :=
  invariant_of_steps (I := fun t => Over t ∧ Still s t) (C := fun _ e => e ≠ .connectCall)
    (fun u e t hu he hs => by
      obtain ⟨ht,hstill⟩ := hu.1.step he hs
      exact ⟨ht,hu.2.trans hstill⟩)
    ⟨h,⟨rfl,rfl,rfl⟩⟩ fun p hp => hlater p.2 (mem_of_mem_steps hp)

end Over

/-! The return of the call. -/

section Call

variable {s t : State} (now : ℤ) {events : List Event}

theorem over_of_writer (hidle : ∀ i, (s.tasks i).restless = false)
    (hbackground : ∀ i, (s.tasks i).background = false) (h : s.tasksReturned = true) {c : ℕ}
    (hw : s.writer = some c) (hevents : ∀ e ∈ events, e ≠ .connectCall)
    (hrun : run step (s.disconnect now) events = some t)
    (hend : t.tasks s.nextTask = .returned) : Over t := by
  obtain ⟨hwait,-⟩ := disconnecting_call now h hw hbackground False.elim
  obtain ⟨hover,ht⟩ := invariant_of_steps
    (I := fun u => Idle u ∧ Disconnecting False s.nextTask c u)
    (C := fun _ e => e ≠ .connectCall)
    (fun u e v hu he hs => ⟨hu.1.step he hs,
      (disconnecting_step hu.2 (hu.1.opens_eq_false hs) hs).1⟩)
    ⟨.of_disconnect hidle now,hwait⟩ (fun p hp => hevents p.2 (mem_of_mem_steps hp)) t
    (run_mem_states hrun)
  have hnone : t.writer = none := by
    rcases ht.caller with hd | hd | hd
    · cases hend.symm.trans hd
    · cases hend.symm.trans hd
    · exact hd
  refine ⟨hover,?_,hnone⟩
  rcases ht.writer with hd | ⟨-,hd,-⟩
  · cases hnone.symm.trans hd
  · exact hd

theorem over_of_no_writer (hidle : ∀ i, (s.tasks i).restless = false) (h : s.tasksReturned = true)
    (hw : s.writer = none) (hevents : ∀ e ∈ events, e ≠ .connectCall)
    (hrun : run step (s.disconnect now) events = some t) : Over t := by
  have hover : Over (s.disconnect now) := by
    have hleft := Idle.of_disconnect hidle now
    rcases s.disconnect_cases now with ⟨hno,-⟩ | ⟨-,-,u,hu,he⟩ | ⟨-,hsome,-⟩
    · cases hno.symm.trans h
    · rw [he,hu] at hleft ⊢
      exact ⟨hleft,rfl,hw⟩
    · rw [hw] at hsome
      cases hsome
  exact (hover.run hevents t (run_mem_states hrun)).1

end Call

/-- A call of `disconnect()` that returns is final, from any state whose live ping, read and
reconnect tasks are those in the fields, with no call of `connect()` under way: until the user calls
`connect()` again, whatever tasks and calls are still to come, the client stays disconnected and
without a writer, no callback is called, no connection made and nothing written, and the sending
methods leave everything as it is. -/
theorem returned_disconnect_lasts {s : State}
    (hheld : ∀ i, (s.tasks i).background = true → s.holds i)
    (hopening : ∀ i, s.tasks i ≠ .live .connectOpening) (now : ℤ) {events : List Event}
    (hevents : ∀ e ∈ events, e ≠ .connectCall)
    (hlive : ∀ p ∈ steps step (s.disconnect now) events, p.1.isLive s.nextTask = true) {t : State}
    (hrun : run step (s.disconnect now) events = some t)
    (hend : t.tasks s.nextTask = .returned) {later : List Event}
    (hlater : ∀ e ∈ later, e ≠ .connectCall) :
    ∀ u ∈ states step t later, u.connected = false ∧ u.writer = none ∧ u.log = t.log ∧
      u.opened = t.opened ∧ u.connections = t.connections ∧ ∀ k now, u.call now k = u := by
  have hover : Over t := by
    cases hret : s.tasksReturned with
    | false =>
      obtain ⟨ping,read,i,status,-,hstatus,-,-,he⟩ := s.disconnect_stuck now hret
      have htask : (s.disconnect now).tasks s.nextTask = status := by
        rw [he]
        exact Function.update_self ..
      have hdead : (s.disconnect now).isLive s.nextTask = false := by
        rw [State.isLive,htask]
        rcases hstatus with rfl | rfl <;> rfl
      rw [run_ended hdead hlive hrun,htask] at hend
      rcases hstatus with rfl | rfl <;> cases hend
    | true =>
      have hbackground := idle_of_held hheld hret
      have hidle (i : ℕ) : (s.tasks i).restless = false := by
        unfold Status.restless
        split
        · next hi => exact absurd hi (hopening i)
        · exact hbackground i
      cases hw : s.writer with
      | none => exact over_of_no_writer now hidle hret hw hevents hrun
      | some c =>
        exact over_of_writer now hidle hbackground hret hw hevents hrun hend
  intro u hu
  obtain ⟨hu,hstill⟩ := hover.run hlater u hu
  exact ⟨hu.connected,hu.writer,hstill.log,hstill.opened,hstill.connections,
    fun k now => hu.call now k⟩

/-- The end of the stream, and then the call; behind it a second one, and a call that sends. -/
theorem returned_disconnect_lasts_ended : ∃ s ∈ run step (init {}) endedRun,
    ∃ t ∈ run step (s.disconnect 0) [.drained 2,.closed 2],
      ∀ u ∈ states step t [.disconnectCall 0,.call .ping 1], u.connected = false := by
  have hrun : ∃ s ∈ run step (init {}) endedRun, s.nextTask = 2 ∧
      s.tasks 0 ≠ .live .connectOpening ∧ s.tasks 1 ≠ .live .connectOpening ∧
      (∀ p ∈ steps step (s.disconnect 0) [.drained 2,.closed 2], p.1.isLive 2 = true) ∧
      ∃ t ∈ run step (s.disconnect 0) [.drained 2,.closed 2], t.tasks 2 = .returned := by
    decide +kernel
  obtain ⟨s,hs,hnext,h0,h1,hlive,t,ht,hend⟩ := hrun
  have hopening : ∀ i, s.tasks i ≠ .live .connectOpening := by
    rintro (_ | _ | i)
    · exact h0
    · exact h1
    · cases hs
      exact fun h => (by cases h)
  have hevents : ∀ e ∈ [Event.drained 2,.closed 2], e ≠ .connectCall := by simp
  have hlater : ∀ e ∈ [Event.disconnectCall 0,.call .ping 1], e ≠ .connectCall := by simp
  have hlasts := returned_disconnect_lasts (orderly_endedRun s hs).held hopening 0 hevents
    (by rw [hnext]; exact hlive) ht (by rw [hnext]; exact hend) hlater
  exact ⟨s,hs,t,ht,fun u hu => (hlasts u hu).1⟩

end Py
end MipClients
