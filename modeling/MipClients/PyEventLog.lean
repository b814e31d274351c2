import MipClients.LinkLog
import MipClients.PyFailedConnect
import MipClients.PyRetry

/-! The callbacks of the Python client in the order it calls them: the history of its connections is
one that the automaton of `LinkLog` accepts, and at most one task is at work on the next. -/
namespace MipClients
namespace Py

open StreamDecoder Transition
open Wire (Emission FrameType)

def Entry.mark? : Entry → Option LinkLog.Mark
  | .connect => some .up
  | .disconnect => some .down
  | .reconnecting attempt => some (.attempt attempt)
  | _ => none

def State.marks (s : State) : List LinkLog.Mark := s.log.filterMap Entry.mark?

/-- What `_connected` and `_reconnect_attempts` tell of the history. -/
structure Tracked (max : ℕ) (s : State) : Prop where
  limit : s.options.maxReconnectAttempts = max
  accepted : LinkLog.Accepts max ⟨s.connected,s.reconnectAttempts⟩ s.marks

namespace Tracked

variable {max : ℕ} {s t : State}

/-- The client may lose its connection without telling anybody. -/
theorem unmarked (h : Tracked max s)
    (hoptions : t.options.maxReconnectAttempts = s.options.maxReconnectAttempts)
    (hconnected : t.connected = true → s.connected = true)
    (hattempts : t.reconnectAttempts = s.reconnectAttempts) (hmarks : t.marks = s.marks) :
    Tracked max t := by
  refine ⟨hoptions.trans h.limit,?_⟩
  rw [hattempts,hmarks]
  cases hc : t.connected with
  | true => exact hconnected hc ▸ h.accepted
  | false => exact h.accepted.fails

theorem sending : Sending fun s t => Tracked max s → Tracked max t where
  refl := fun _ => id
  trans := fun h h' => h' ∘ h
  generateMsgId := fun _ _ h => h.unmarked rfl id rfl rfl
  write := fun _ _ _ h => h.unmarked rfl id rfl rfl

theorem emitError (h : Tracked max s) (error : MIPError) : Tracked max (s.emitError error) :=
  h.unmarked rfl id rfl rfl

theorem setTask (h : Tracked max s) (i : ℕ) (status : Status) : Tracked max (s.setTask i status) :=
  h.unmarked rfl id rfl rfl

theorem createTask (h : Tracked max s) (wait : Wait) : Tracked max (s.createTask wait) :=
  h.unmarked rfl id rfl rfl

theorem closeWriter (h : Tracked max s) (c : ℕ) : Tracked max (s.closeWriter c) :=
  h.unmarked rfl id rfl rfl

theorem scheduleReconnect (h : Tracked max s) : Tracked max s.scheduleReconnect := by
  unfold State.scheduleReconnect
  split_ifs with hlive hlimit
  · exact h
  · exact h.unmarked rfl id rfl rfl
  · rw [h.limit,not_and,Nat.not_le] at hlimit
    exact ⟨h.limit,h.accepted.attempt hlimit⟩

theorem handleClose (h : Tracked max s) (runner : ℕ) : Tracked max (s.handleClose runner) := by
  cases hret : s.tasksReturned with
  | false =>
    obtain ⟨ping,read,tasks,he,-,-⟩ := s.handleClose_not_returned runner hret
    rw [he]
    exact h.unmarked rfl nofun rfl rfl
  | true =>
    have hlost : Tracked max { s with connected := false }.forgetPing.forgetRead.forgetReconnect :=
      h.unmarked rfl nofun rfl rfl
    rw [s.handleClose_returned runner hret]
    dsimp only
    refine setTask ?_ runner _
    have htold : Tracked max (if s.connected then
        { s with connected := false }.forgetPing.forgetRead.forgetReconnect.record .disconnect
        else { s with connected := false }.forgetPing.forgetRead.forgetReconnect) := by
      split_ifs with hc
      · exact ⟨h.limit,(hc ▸ h.accepted).down⟩
      · exact hlost
    split_ifs at htold ⊢
    · exact htold.scheduleReconnect
    · exact htold
    · exact htold.scheduleReconnect
    · exact htold

theorem endConnect (h : Tracked max s) (i : ℕ) (wait : Wait) (raised : Bool) :
    Tracked max (s.endConnect i wait raised) := by
  rcases s.endConnect_cases i wait raised with ⟨status,-,he⟩ | he <;> rw [he]
  · exact h.setTask i _
  · exact h.scheduleReconnect.setTask i _

theorem readFailed (h : Tracked max s) (i : ℕ) (message : String) :
    Tracked max (s.readFailed i message) := by
  unfold State.readFailed
  split_ifs
  · exact (h.emitError _).handleClose i
  · exact h.handleClose i

theorem readNext (h : Tracked max s) (i : ℕ) : Tracked max (s.readNext i) := by
  unfold State.readNext
  split <;> exact h.setTask i _

theorem react (h : Tracked max s) (e : Emission FrameHeader MIPError) :
    Tracked max (s.react e) := by
  have hr : Tracked max (s.record (.received e)) := h.unmarked rfl id rfl rfl
  unfold State.react
  cases e with
  | close => exact hr.unmarked rfl id rfl rfl
  | error error =>
    dsimp only
    split
    · exact hr.closeWriter _
    · exact hr
  | _ => exact hr

theorem handleData (h : Tracked max s) (i : ℕ) (data : List UInt8) (message : String) :
    Tracked max (s.handleData i data message) := by
  have hreacts : Tracked max
      ((StreamDecoder.run framing.decoder (s.buffer ++ data)).out.foldl State.react s) :=
    foldl_related (R := fun s t => Tracked max s → Tracked max t) (fun _ => id)
      (fun h h' => h' ∘ h) (fun _ e h => h.react e) _ s h
  have hread : Tracked max
      { (StreamDecoder.run framing.decoder (s.buffer ++ data)).out.foldl State.react s with
        buffer := (StreamDecoder.run framing.decoder (s.buffer ++ data)).buffer } :=
    hreacts.unmarked rfl id rfl rfl
  unfold State.handleData
  dsimp only
  split_ifs
  · exact hread.readFailed i message
  · exact hread.readNext i

theorem closeConnection (h : Tracked max s) (i : ℕ) : Tracked max (s.closeConnection i) := by
  unfold State.closeConnection
  split
  · exact (h.closeWriter _).setTask i _
  · exact h.setTask i _

theorem disconnect (h : Tracked max s) (now : ℤ) : Tracked max (s.disconnect now) := by
  rcases s.disconnect_cases now with
    ⟨-,ping,read,tasks,status,-,-,he⟩ | ⟨-,-,t,ht,he⟩ | ⟨-,-,t,u,ht,hu,he⟩
  · rw [he]
    exact h.unmarked rfl id rfl rfl
  · rw [he,ht]
    exact h.unmarked rfl nofun rfl rfl
  · have hstopped : Tracked max t := by
      rw [ht]
      exact h.unmarked rfl id rfl rfl
    have hsent : Tracked max u := by
      rw [hu]
      exact createTask (sending.sendFrame t .close [] 0 now hstopped) _
    rcases he with he | he <;> rw [he]
    · exact hsent
    · exact hsent.closeConnection _

theorem sayHello (h : Tracked max s) (now : ℤ) : Tracked max (s.sayHello now).2 := by
  rcases s.sayHello_cases now with ⟨c,bytes,-,-,-,he⟩ | ⟨-,n,message,he⟩ <;> rw [he]
  · exact h.unmarked rfl id rfl rfl
  · exact h.unmarked rfl nofun rfl rfl

theorem establish (h : Tracked max s) : Tracked max s.establish := by
  unfold State.establish State.setupPingInterval
  dsimp only
  split_ifs <;> exact ⟨h.limit,h.accepted.up⟩

theorem onOpened (h : Tracked max s) (connectCalls : List (Call × ℤ)) (raised : Option String)
    (now : ℤ) : Tracked max (s.onOpened connectCalls raised now).2 := by
  have hcalls := sending.calls s.establish connectCalls h.establish
  cases raised with
  | some message => exact hcalls.emitError _
  | none =>
    rw [State.onOpened_none]
    have hhello := hcalls.sayHello now
    dsimp only
    split
    · exact hhello.emitError _
    · exact hhello

theorem step {e : Event} (h : Tracked max s) (hs : Py.step s e = some t) : Tracked max t := by
  cases step_move hs with
  | alreadyConnected => exact h
  | connectCall => exact h.unmarked rfl id rfl rfl
  | disconnectCall now => exact h.disconnect now
  | call c now => exact sending.call s now c h
  | readLoopStart i => exact h.readNext i
  | pingLoopStart i | reconnectStart i | eof i | pingOver i | reconnectOver i =>
    exact h.setTask i _
  | handleCloseStart i => exact h.handleClose i
  | opened i wait connectCalls raised now =>
    exact (h.onOpened connectCalls raised now).endConnect i wait _
  | openFailed i wait message => exact (h.emitError _).endConnect i wait true
  | data i c data message => exact h.handleData i data message
  | raises i c message => exact h.readFailed i message
  | pinged i now =>
    have hpinged : Tracked max (s.ping now).2 := sending.sendFrame s .ping [] 0 now h
    exact hpinged.setTask i _
  | reconnectOpening => exact h.unmarked rfl id rfl rfl
  | drained i => exact h.closeConnection i
  | closed => exact h.unmarked rfl nofun rfl rfl

end Tracked

/-! One reconnect task at a time. -/

theorem disconnect_one {s : State} (hone : OneRetry s) (now : ℤ) : OneRetry (s.disconnect now) := by
  have hforget (hret : s.tasksReturned = true) : OneRetry
      s.stop.forgetPing.forgetRead.forgetReconnect :=
    (s.stop.forgetAll_unretried hret s.connected).one hone
  rcases s.disconnect_cases now with ⟨hret,-⟩ | ⟨hret,-,t,ht,he⟩ | ⟨hret,-,t,u,ht,hu,he⟩
  · obtain ⟨ping,read,i,status,-,hstatus,-,-,he⟩ := s.disconnect_stuck now hret
    have hnot : status.retries = false := by rcases hstatus with rfl | rfl <;> rfl
    rw [he]
    have hstop : OneRetry { s.stop with pingTask := ping, readTask := read } := hone
    exact (State.setTask_over_unretried _ hnot).one ((State.createTask_unretried _ _ rfl).one
      ((State.setTask_over_unretried _ hnot).one hstop))
  · have hnone : OneRetry { t with connected := false } := ht ▸ hforget hret
    rw [he]
    exact (State.setTask_over_unretried _ rfl).one ((State.createTask_unretried _ _ rfl).one hnone)
  · have hsent : OneRetry u := by
      rw [hu]
      exact (State.createTask_unretried _ _ rfl).one
        ((State.sending_unretried.sendFrame t .close [] 0 now).one (ht ▸ hforget hret))
    rcases he with he | he <;> rw [he]
    · exact hsent
    · exact (State.closeConnection_unretried _ _).one hsent

theorem handleClose_one {s : State} (hone : OneRetry s) (runner : ℕ) :
    OneRetry (s.handleClose runner) := by
  rcases s.handleClose_cases runner with ⟨-,hu⟩ | ⟨-,u,hu,-,he⟩
  · exact hu.one hone
  · rw [he]
    exact (State.setTask_over_unretried _ rfl).one (u.scheduleReconnect_one (hu.one hone))

theorem step_one {s t : State} {e : Event} (hone : OneRetry s) (h : step s e = some t) :
    OneRetry t := by
  cases hr : s.runsHandler e with
  | true =>
    have hu : Unretried s (s.beforeHandler e) :=
      beforeHandler_related Unretried.refl Unretried.trans State.react_unretried
        (fun _ _ => .of_eq rfl rfl rfl rfl rfl) State.emitError_unretried s e
    rw [step_runsHandler_eq h hr]
    exact handleClose_one (hu.one hone) e.runner
  | false =>
    cases hoff : e.offline with
    | true => exact (step_unretried hone h hoff hr).one hone
    | false =>
      cases e with
      | opened => exact (opened_one hone h).1
      | disconnectCall now =>
        cases h
        exact disconnect_one hone now
      | _ => cases hoff

/-- In every run: there is a call of the 'connect' callbacks before the first and between any two
calls of the 'disconnect' callbacks; the attempts that the 'reconnecting' callbacks are told of
since the last 'connect' are numbered 1, 2, 3, ..., up to `max_reconnect_attempts` at most where
that is positive; and at most one task is at work on a reconnection, the one held in
`_reconnect_task`. -/
theorem events_inOrder (options : Options) (events : List Event) :
    ∀ s ∈ states step (init options) events,
      LinkLog.Orderly options.maxReconnectAttempts s.marks ∧
      ∀ i, (s.tasks i).retries = true → s.reconnectTask = some i := by
  intro s hs
  have htracked : Tracked options.maxReconnectAttempts s :=
    invariant (fun _ _ _ h hstep => h.step hstep) ⟨rfl,.init⟩ events s hs
  have hone : OneRetry s :=
    invariant (fun _ _ _ h hstep => step_one h hstep) (fun i hi => by cases hi) events s hs
  exact ⟨htracked.accepted.orderly,hone⟩

def lostRun : List Event := connectedRun ++ closeThenEnd ++ [.start 3,.wake 3 0,.openFailed 3 ""]

theorem events_inOrder_lost : ∃ s ∈ run step (init {}) lostRun,
    s.marks = [.attempt 1,.down,.up] ∧ LinkLog.Linked [.up] := by
  have hrun : ∃ s ∈ run step (init {}) lostRun, s.marks = [.attempt 1,.down,.up] := by
    decide +kernel
  obtain ⟨s,hs,hmarks⟩ := hrun
  obtain ⟨horder,-⟩ := events_inOrder {} lostRun s (run_mem_states hs)
  exact ⟨s,hs,hmarks,horder.downs _ ⟨[.attempt 1],hmarks.symm⟩⟩

end Py
end MipClients
