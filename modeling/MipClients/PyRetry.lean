import MipClients.PyConnectionLoss

/-! The retry loop of the Python client. `_schedule_reconnect` refuses to run next to a live reconnect
task, and the task that has just failed to connect calls it before it ends. -/
namespace MipClients
namespace Py

open StreamDecoder
open Transition
open Wire (Emission FrameType)

/-- Between the scheduling of an attempt and its outcome. -/
def Status.retries : Status → Bool
  | .live .reconnectStart | .live .reconnectSleep | .live .reconnectOpening => true
  | _ => false

def Entry.retries : Entry → Bool
  | .reconnecting _ | .scheduled _ | .maxReached => true
  | _ => false

/-- The only reconnect task at work is the one in the field. -/
def OneRetry (s : State) : Prop := ∀ i, (s.tasks i).retries = true → s.reconnectTask = some i

structure Unretried (s t : State) : Prop where
  retries : ∀ i, (t.tasks i).retries = true → (s.tasks i).retries = true
  one : OneRetry s → OneRetry t
  options : t.options = s.options
  attempts : t.reconnectAttempts = s.reconnectAttempts
  log : ∃ l, t.log = l ++ s.log ∧ ∀ e ∈ l, e.retries = false

namespace Unretried

variable {s t u : State}

theorem of_eq (htasks : t.tasks = s.tasks) (hfield : t.reconnectTask = s.reconnectTask)
    (ho : t.options = s.options) (ha : t.reconnectAttempts = s.reconnectAttempts)
    (hl : t.log = s.log) : Unretried s t where
  retries _ h := htasks ▸ h
  one h i hi := hfield.trans (h i (htasks ▸ hi))
  options := ho
  attempts := ha
  log := ⟨[],hl,by simp⟩

theorem refl (s : State) : Unretried s s := of_eq rfl rfl rfl rfl rfl

theorem trans (h : Unretried s t) (h' : Unretried t u) : Unretried s u where
  retries := fun i => h.retries i ∘ h'.retries i
  one := h'.one ∘ h.one
  options := h'.options.trans h.options
  attempts := h'.attempts.trans h.attempts
  log := by
    obtain ⟨l,hl,he⟩ := h.log
    obtain ⟨l',hl',he'⟩ := h'.log
    refine ⟨l' ++ l,by rw [hl',hl,List.append_assoc],fun e hm => ?_⟩
    exact (List.mem_append.mp hm).elim (he' e) (he e)

end Unretried

namespace State

variable (s : State)

theorem record_unretried {e : Entry} (h : e.retries = false) : Unretried s (s.record e) :=
  ⟨fun _ => id,id,rfl,rfl,[e],rfl,by simpa using h⟩

theorem emitError_unretried (error : MIPError) : Unretried s (s.emitError error) :=
  s.record_unretried rfl

theorem setTask_unretried {i : ℕ} {status : Status}
    (h : status.retries = true → (s.tasks i).retries = true) :
    Unretried s (s.setTask i status) := by
  have hsub : ∀ j, ((s.setTask i status).tasks j).retries = true → (s.tasks j).retries = true := by
    intro j hj
    by_cases hji : j = i
    · subst hji
      exact h (by simpa using hj)
    · simpa [hji] using hj
  exact ⟨hsub,fun hone j hj => hone j (hsub j hj),rfl,rfl,[],rfl,by simp⟩

theorem setTask_over_unretried {i : ℕ} {status : Status} (h : status.retries = false) :
    Unretried s (s.setTask i status) :=
  s.setTask_unretried fun hr => by
    rw [h] at hr
    cases hr

theorem createTask_unretried (wait : Wait) (h : (Status.live wait).retries = false) :
    Unretried s (s.createTask wait) := by
  have hset : Unretried s (s.setTask s.nextTask (.live wait)) :=
    s.setTask_unretried fun hw => absurd hw (by simp [h])
  exact ⟨hset.retries,hset.one,rfl,rfl,[],rfl,by simp⟩

theorem closeWriter_unretried (c : ℕ) : Unretried s (s.closeWriter c) :=
  .of_eq rfl rfl rfl rfl rfl

theorem sending_unretried : Sending Unretried where
  refl := Unretried.refl
  trans := Unretried.trans
  generateMsgId _ _ := .of_eq rfl rfl rfl rfl rfl
  write _ _ _ := .of_eq rfl rfl rfl rfl rfl

theorem react_unretried (e : Emission FrameHeader MIPError) : Unretried s (s.react e) := by
  have hr : Unretried s (s.record (.received e)) := s.record_unretried rfl
  unfold react
  cases e with
  | close =>
    have hc := createTask_unretried (s.record (.received .close)) .handleCloseStart rfl
    exact hr.trans ⟨hc.retries,hc.one,rfl,rfl,[],rfl,by simp⟩
  | error error =>
    dsimp only
    split
    · exact hr.trans (closeWriter_unretried _ _)
    · exact hr
  | _ => exact hr

theorem readNext_unretried (i : ℕ) : Unretried s (s.readNext i) := by
  unfold readNext
  split <;> exact s.setTask_unretried nofun

theorem closeConnection_unretried (i : ℕ) : Unretried s (s.closeConnection i) := by
  unfold closeConnection
  split
  · exact (s.closeWriter_unretried _).trans (setTask_unretried _ nofun)
  · exact s.setTask_unretried nofun

theorem forgetAll_unretried (h : s.tasksReturned = true) (connected : Bool) :
    Unretried s { s with connected := connected }.forgetPing.forgetRead.forgetReconnect := by
  refine ⟨fun _ => id,fun hone i hi => ?_,rfl,rfl,[],rfl,by simp⟩
  have htask : s.reconnectTask = some i := hone i hi
  simp only [tasksReturned,returned,htask,Option.all_some,Bool.and_eq_true] at h
  have hret : s.tasks i = .returned := by simpa using h.2
  have hi' : (s.tasks i).retries = true := hi
  rw [hret] at hi'
  cases hi'

theorem handleClose_forgotten (runner : ℕ) (h : s.tasksReturned = true) :
    ∃ u, Unretried s u ∧ u.reconnectTask = none ∧ u.running = s.running ∧
      s.handleClose runner = (if u.options.autoReconnect && u.running then u.scheduleReconnect
        else u).setTask runner .returned := by
  have hf := s.forgetAll_unretried h false
  refine ⟨_,?_,?_,?_,s.handleClose_returned runner h⟩
  · split_ifs
    · exact hf.trans (record_unretried _ rfl)
    · exact hf
  · split_ifs <;> rfl
  · split_ifs <;> rfl

theorem handleClose_cases (runner : ℕ) :
    ((s.tasksReturned && s.options.autoReconnect && s.running) = false ∧
      Unretried s (s.handleClose runner)) ∨
    ((s.tasksReturned && s.options.autoReconnect && s.running) = true ∧
      ∃ u, Unretried s u ∧ u.reconnectTask = none ∧
        s.handleClose runner = u.scheduleReconnect.setTask runner .returned) := by
  cases h : s.tasksReturned with
  | false =>
    obtain ⟨ping,read,i,status,-,hstatus,-,-,he⟩ := s.handleClose_stuck runner h
    have hnot : status.retries = false := by rcases hstatus with rfl | rfl <;> rfl
    have hs : Unretried s { s with connected := false, pingTask := ping, readTask := read } :=
      .of_eq rfl rfl rfl rfl rfl
    refine .inl ⟨rfl,?_⟩
    rw [he]
    exact (hs.trans (setTask_unretried _ (by simp [hnot]))).trans
      (setTask_unretried _ (by simp [hnot]))
  | true =>
    obtain ⟨u,hu,hnone,hrunning,he⟩ := s.handleClose_forgotten runner h
    rw [hu.options,hrunning] at he
    simp only [Bool.true_and]
    cases hgo : s.options.autoReconnect && s.running with
    | true =>
      rw [hgo,if_pos rfl] at he
      exact .inr ⟨rfl,u,hu,hnone,he⟩
    | false =>
      rw [hgo,if_neg Bool.false_ne_true] at he
      exact .inl ⟨rfl,he ▸ hu.trans (setTask_unretried _ nofun)⟩

/-! `_schedule_reconnect`. -/

theorem scheduleReconnect_guarded {i : ℕ} (htask : s.reconnectTask = some i)
    (hlive : s.isLive i = true) : s.scheduleReconnect = s := by
  simp [scheduleReconnect,htask,hlive]

theorem isLive_of_retries {i : ℕ} (h : (s.tasks i).retries = true) : s.isLive i = true := by
  unfold isLive
  cases hi : s.tasks i with
  | live wait => rfl
  | _ => rw [hi] at h; cases h

/-- The guard lets a second reconnect task in only when the first is at work no longer. -/
theorem scheduleReconnect_one (h : OneRetry s) : OneRetry s.scheduleReconnect := by
  unfold scheduleReconnect
  split_ifs with hlive hmax
  · exact h
  · exact h
  · intro i hi
    by_cases hnew : i = s.nextTask
    · exact congrArg some hnew.symm
    · have hi' : (s.tasks i).retries = true := by
        simpa [createTask,record,hnew] using hi
      simp [h i hi',s.isLive_of_retries hi'] at hlive

theorem scheduleReconnect_follows (h : s.reconnectTask = none) : ∃ l,
    s.scheduleReconnect.log = l ++ s.log ∧
      if 0 < s.options.maxReconnectAttempts ∧
          s.options.maxReconnectAttempts ≤ s.reconnectAttempts
      then .maxReached ∈ l ∧ .error s.maxReachedError ∈ l
      else .reconnecting (s.reconnectAttempts + 1) ∈ l ∧ ∃ task, .scheduled task ∈ l := by
  have hlive : ¬s.reconnectTask.any s.isLive = true := by simp [h]
  rw [scheduleReconnect,if_neg hlive]
  split_ifs
  · exact ⟨[.error s.maxReachedError,.maxReached],rfl,by simp⟩
  · exact ⟨[.scheduled s.nextTask,.reconnecting (s.reconnectAttempts + 1)],rfl,by simp⟩

theorem scheduleReconnect_log : s.log <:+ s.scheduleReconnect.log := by
  unfold scheduleReconnect
  split_ifs
  · exact List.suffix_refl _
  · exact ⟨[.error s.maxReachedError,.maxReached],rfl⟩
  · exact ⟨[.scheduled s.nextTask,.reconnecting (s.reconnectAttempts + 1)],rfl⟩

end State

/-! The steps. -/

/-- The step belongs neither to a connection that has opened nor to a call of `disconnect()`. -/
def Event.offline : Event → Bool
  | .opened .. | .disconnectCall _ => false
  | _ => true

/-- The step runs `_handle_close` in a client that is running, with the ping, read and reconnect
tasks absent or returned. -/
def State.reschedules (s : State) (e : Event) : Bool :=
  s.runsHandler e && s.tasksReturned && s.running

theorem step_handler {s t : State} {e : Event} (hmade : TasksMade s)
    (h : step s e = some t) (hr : s.runsHandler e = true) (hauto : s.options.autoReconnect = true) :
    (s.reschedules e = false ∧ Unretried s t) ∨
    (s.reschedules e = true ∧ ∃ u i, Unretried s u ∧ u.reconnectTask = none ∧
      t = u.scheduleReconnect.setTask i .returned) := by
  have hk : Keeps s (s.beforeHandler e) :=
    beforeHandler_related Keeps.refl Keeps.trans State.react_keeps
      (fun _ _ => ⟨rfl,rfl,rfl,rfl,rfl,rfl,Nat.le_refl _,fun _ _ => rfl⟩)
      (fun s error => s.record_keeps (.error error)) s e
  have hu : Unretried s (s.beforeHandler e) :=
    beforeHandler_related Unretried.refl Unretried.trans State.react_unretried
      (fun _ _ => .of_eq rfl rfl rfl rfl rfl) State.emitError_unretried s e
  have hcond : s.reschedules e = ((s.beforeHandler e).tasksReturned &&
      (s.beforeHandler e).options.autoReconnect && (s.beforeHandler e).running) := by
    rw [hk.tasksReturned hmade,hk.options,hk.running,hauto,State.reschedules,hr]
    simp
  rw [hcond,step_runsHandler_eq h hr]
  rcases (s.beforeHandler e).handleClose_cases e.runner with ⟨hno,hv⟩ | ⟨hyes,v,hv,hnone,he⟩
  · exact .inl ⟨hno,hu.trans hv⟩
  · exact .inr ⟨hyes,v,e.runner,hu.trans hv,hnone,he⟩

/-- The task that fails to connect is the one in the field, and live: `_schedule_reconnect` refuses. -/
theorem State.endConnect_failed {s : State} (hone : OneRetry s) {i : ℕ}
    (hi : s.tasks i = .live .reconnectOpening) :
    s.endConnect i .reconnectOpening true = s.setTask i .returned := by
  have hretries : (s.tasks i).retries = true := by rw [hi]; rfl
  have hsame := s.scheduleReconnect_guarded (hone i hretries) (s.isLive_of_retries hretries)
  simp only [State.endConnect,hsame,ite_self]

theorem step_unretried {s t : State} {e : Event} (hone : OneRetry s) (h : step s e = some t)
    (he : e.offline = true) (hr : s.runsHandler e = false) : Unretried s t := by
  cases step_move h with
  | opened | disconnectCall => cases he
  | alreadyConnected => exact Unretried.refl s
  | connectCall =>
    have hs : Unretried s { s with running := true } := .of_eq rfl rfl rfl rfl rfl
    exact hs.trans (State.createTask_unretried _ .connectOpening rfl)
  | call c now => exact State.sending_unretried.call s now c
  | readLoopStart i => exact s.readNext_unretried i
  | pingLoopStart i status hi hstatus =>
    exact s.setTask_over_unretried (by rcases hstatus with rfl | rfl <;> rfl)
  | reconnectStart i hi => exact s.setTask_unretried fun _ => by rw [hi]; rfl
  | handleCloseStart i hi => simp [State.runsHandler,hi] at hr
  | openFailed i wait message hi hwait =>
    have herror := s.emitError_unretried { message := message }
    rcases hwait with rfl | rfl
    · rw [State.endConnect_failed (herror.one hone) hi]
      exact herror.trans (State.setTask_over_unretried _ rfl)
    · exact herror.trans (State.setTask_over_unretried _ rfl)
  | data i c data message =>
    have hraised : (StreamDecoder.run framing.decoder (s.buffer ++ data)).raised = false := hr
    have hf := foldl_related Unretried.refl Unretried.trans State.react_unretried
      (StreamDecoder.run framing.decoder (s.buffer ++ data)).out s
    simp only [State.handleData,hraised,Bool.false_eq_true,if_false]
    refine Unretried.trans ?_ (State.readNext_unretried _ i)
    exact ⟨hf.retries,hf.one,hf.options,hf.attempts,hf.log⟩
  | eof i | pingOver i | reconnectOver i => exact s.setTask_over_unretried rfl
  | raises => cases hr
  | pinged i now status hi hstatus =>
    have hp : Unretried s (s.ping now).2 := State.sending_unretried.sendFrame s .ping [] 0 now
    have hover : status.retries = false := by rcases hstatus with rfl | rfl | rfl <;> rfl
    exact hp.trans (State.setTask_over_unretried _ hover)
  | reconnectOpening i now hi =>
    have hs : Unretried s { s with running := true } := .of_eq rfl rfl rfl rfl rfl
    have hretries : (s.tasks i).retries = true := by rw [hi]; rfl
    exact hs.trans (State.setTask_unretried _ fun _ => hretries)
  | drained i => exact s.closeConnection_unretried i
  | closed i =>
    have hs : Unretried s { s with writer := none, reader := none, connected := false } :=
      .of_eq rfl rfl rfl rfl rfl
    exact hs.trans (State.setTask_over_unretried _ rfl)

/-! A connection that opens. -/

namespace State

variable (s : State)

theorem setupPingInterval_unretried : Unretried s s.setupPingInterval := by
  unfold setupPingInterval
  split_ifs
  · have hc := s.createTask_unretried .pingLoopStart rfl
    exact ⟨hc.retries,hc.one,rfl,rfl,[],rfl,by simp⟩
  · exact Unretried.refl s

theorem establish_unretried : Unretried { s with reconnectAttempts := 0 } s.establish := by
  unfold establish
  refine Unretried.trans ?_ (record_unretried _ rfl)
  refine Unretried.trans ?_ (setupPingInterval_unretried _)
  have hc := createTask_unretried { s with
    reader := some s.opened
    writer := some s.opened
    connections := Function.update s.connections s.opened {}
    opened := s.opened + 1
    connected := true
    reconnectAttempts := 0
    buffer := [] } .readLoopStart rfl
  exact ⟨hc.retries,hc.one,rfl,rfl,[],rfl,by simp⟩

theorem sayHello_unretried (now : ℤ) : Unretried s (s.sayHello now).2 := by
  rcases s.sayHello_cases now with ⟨c,bytes,-,-,-,h⟩ | ⟨-,n,message,h⟩ <;> rw [h]
  · refine Unretried.trans ?_ (record_unretried _ rfl)
    exact .of_eq rfl rfl rfl rfl rfl
  · exact .of_eq rfl rfl rfl rfl rfl

theorem onOpened_unretried (connectCalls : List (Call × ℤ)) (raised : Option String) (now : ℤ) :
    Unretried { s with reconnectAttempts := 0 } (s.onOpened connectCalls raised now).2 := by
  have hcalls := s.establish_unretried.trans (sending_unretried.calls s.establish connectCalls)
  unfold onOpened
  dsimp only
  cases raised with
  | some message => exact hcalls.trans (emitError_unretried _ _)
  | none =>
    have hh := hcalls.trans ((s.establish.calls connectCalls).sayHello_unretried now)
    dsimp only
    split
    · next message u hu =>
      rw [hu] at hh
      exact hh.trans (emitError_unretried _ _)
    · next u hu =>
      rw [hu] at hh
      exact hh

theorem endConnect_one {s : State} (h : OneRetry s) (i : ℕ) (wait : Wait) (raised : Bool) :
    OneRetry (s.endConnect i wait raised) := by
  have hset : ∀ {s : State} {status : Status}, status.retries = false → OneRetry s →
      OneRetry (s.setTask i status) := fun hno h => (setTask_unretried _ (by simp [hno])).one h
  rcases s.endConnect_cases i wait raised with ⟨status,rfl | rfl,he⟩ | he <;> rw [he]
  · exact hset rfl h
  · exact hset rfl h
  · exact hset rfl (s.scheduleReconnect_one h)

end State

theorem opened_one {s t : State} {i : ℕ} {connectCalls : List (Call × ℤ)} {raised : Option String}
    {now : ℤ} (hone : OneRetry s) (h : step s (.opened i connectCalls raised now) = some t) :
    OneRetry t ∧ t.options = s.options := by
  cases step_move h with
  | opened _ wait =>
    have hu := s.onOpened_unretried connectCalls raised now
    exact ⟨State.endConnect_one (hu.one hone) i wait _,
      (State.endConnect_quiet _ i wait _).options.trans hu.options⟩

/-! The runs. -/

def Event.disconnects : Event → Bool
  | .disconnectCall _ => true
  | _ => false

theorem Event.offline_disconnects {e : Event} (h : e.offline = true) : e.disconnects = false := by
  cases e with
  | disconnectCall => cases h
  | _ => rfl

structure Retrying (options : Options) (s : State) : Prop where
  made : TasksMade s
  one : OneRetry s
  options : s.options = options

theorem offline_step {options : Options} (hauto : options.autoReconnect = true) {s t : State}
    {e : Event} (hs : Retrying options s) (h : step s e = some t) (he : e.offline = true) :
    (s.reschedules e = false ∧ Unretried s t) ∨
    (s.reschedules e = true ∧ ∃ u i, Unretried s u ∧ u.reconnectTask = none ∧
      t = u.scheduleReconnect.setTask i .returned) := by
  cases hr : s.runsHandler e with
  | true => exact step_handler hs.made h hr (hs.options ▸ hauto)
  | false => exact .inl ⟨by simp [State.reschedules,hr],step_unretried hs.one h he hr⟩

theorem retrying_step {options : Options} (hauto : options.autoReconnect = true) (s : State)
    (e : Event) (t : State) (hs : Retrying options s) (he : e.disconnects = false)
    (h : step s e = some t) : Retrying options t := by
  have hmade := tasksMade_step s e t hs.made h
  cases hoff : e.offline with
  | true =>
    rcases offline_step hauto hs h hoff with ⟨-,hu⟩ | ⟨-,u,i,hu,-,rfl⟩
    · exact ⟨hmade,hu.one hs.one,hu.options.trans hs.options⟩
    · have hone := u.scheduleReconnect_one (hu.one hs.one)
      have hset : Unretried u.scheduleReconnect (u.scheduleReconnect.setTask i .returned) :=
        State.setTask_unretried _ nofun
      exact ⟨hmade,hset.one hone,
        u.scheduleReconnect_quiet.options.trans (hu.options.trans hs.options)⟩
  | false =>
    cases e with
    | opened =>
      obtain ⟨hone,hoptions⟩ := opened_one hs.one h
      exact ⟨hmade,hone,hoptions.trans hs.options⟩
    | disconnectCall => cases he
    | _ => cases hoff

/-- Attempt number `s.reconnectAttempts`, the last to fail in `s`, is followed by the scheduling of
the next, or the last one by the report that the limit is reached. -/
def Followed (s t : State) : Prop :=
  ∃ l, t.log = l ++ s.log ∧
    if s.reconnectAttempts < s.options.maxReconnectAttempts
    then .reconnecting (s.reconnectAttempts + 1) ∈ l ∧ ∃ task, .scheduled task ∈ l
    else .maxReached ∈ l ∧ .error s.maxReachedError ∈ l

theorem Unretried.not_followed {s t : State} (h : Unretried s t) : ¬Followed s t := by
  obtain ⟨l,hl,he⟩ := h.log
  rintro ⟨l',hl',hf⟩
  obtain rfl : l = l' := List.append_cancel_right (hl.symm.trans hl')
  split_ifs at hf
  · exact Bool.noConfusion (he _ hf.1)
  · exact Bool.noConfusion (he _ hf.1)

theorem Unretried.log_suffix {s t : State} (h : Unretried s t) : s.log <:+ t.log := by
  obtain ⟨l,hl,-⟩ := h.log
  exact ⟨l,hl.symm⟩

theorem Followed.mono {s t u : State} (h : Followed s t) (hlog : t.log <:+ u.log) :
    Followed s u := by
  obtain ⟨l,hl,hf⟩ := h
  obtain ⟨l',hl'⟩ := hlog
  refine ⟨l' ++ l,by rw [← hl',hl,List.append_assoc],?_⟩
  split_ifs at hf ⊢
  · obtain ⟨h1,task,h2⟩ := hf
    exact ⟨List.mem_append_right _ h1,task,List.mem_append_right _ h2⟩
  · exact ⟨List.mem_append_right _ hf.1,List.mem_append_right _ hf.2⟩

theorem Unretried.followed {s u : State} (h : Unretried s u) (hnone : u.reconnectTask = none)
    (hmax : 0 < s.options.maxReconnectAttempts) : Followed s u.scheduleReconnect := by
  obtain ⟨l,hl,-⟩ := h.log
  obtain ⟨l',hl',hf⟩ := u.scheduleReconnect_follows hnone
  have herror : u.maxReachedError = s.maxReachedError := by
    unfold State.maxReachedError
    rw [h.options]
  refine ⟨l' ++ l,by rw [hl',hl,List.append_assoc],?_⟩
  rw [h.options,h.attempts,herror] at hf
  by_cases hlt : s.reconnectAttempts < s.options.maxReconnectAttempts
  · rw [if_neg (by omega)] at hf
    obtain ⟨h1,task,h2⟩ := hf
    rw [if_pos hlt]
    exact ⟨List.mem_append_left _ h1,task,List.mem_append_left _ h2⟩
  · rw [if_pos ⟨hmax,by omega⟩] at hf
    rw [if_neg hlt]
    exact ⟨List.mem_append_left _ hf.1,List.mem_append_left _ hf.2⟩

theorem offline_log {options : Options} (hauto : options.autoReconnect = true) {s t : State}
    {events : List Event} (hs : Retrying options s)
    (he : ∀ p ∈ steps step s events, p.2.offline = true)
    (hrun : run step s events = some t) : s.log <:+ t.log := by
  induction events generalizing s with
  | nil =>
    cases hrun
    exact List.suffix_refl _
  | cons e events ih =>
    obtain ⟨u,hu,hrun⟩ := Option.bind_eq_some_iff.mp hrun
    rw [steps_cons hu,List.forall_mem_cons] at he
    have hu' := retrying_step hauto s e u hs (Event.offline_disconnects he.1) hu
    refine List.IsSuffix.trans ?_ (ih hu' he.2 hrun)
    rcases offline_step hauto hs hu he.1 with ⟨-,hv⟩ | ⟨-,v,i,hv,-,rfl⟩
    · exact hv.log_suffix
    · exact hv.log_suffix.trans v.scheduleReconnect_log

/-- After an attempt has failed, only a step that reschedules follows it up. -/
theorem followed_iff {options : Options} (hauto : options.autoReconnect = true)
    (hmax : 0 < options.maxReconnectAttempts) {s₀ s t : State} (h₀ : Unretried s₀ s)
    {events : List Event} (hs : Retrying options s)
    (he : ∀ p ∈ steps step s events, p.2.offline = true)
    (hrun : run step s events = some t) :
    Followed s₀ t ↔ ∃ p ∈ steps step s events, p.1.reschedules p.2 = true := by
  induction events generalizing s with
  | nil =>
    cases hrun
    exact iff_of_false h₀.not_followed (by simp [steps])
  | cons e events ih =>
    obtain ⟨u,hu,hrun⟩ := Option.bind_eq_some_iff.mp hrun
    rw [steps_cons hu,List.forall_mem_cons] at he
    rw [steps_cons hu,List.exists_mem_cons_iff]
    have hu' := retrying_step hauto s e u hs (Event.offline_disconnects he.1) hu
    rcases offline_step hauto hs hu he.1 with ⟨hno,hv⟩ | ⟨hyes,v,i,hv,hnone,rfl⟩
    · rw [ih (h₀.trans hv) hu' he.2 hrun]
      simp [hno]
    · have hfollowed := (h₀.trans hv).followed hnone
        (by rw [← h₀.options,hs.options]; exact hmax)
      have hlog : (v.scheduleReconnect.setTask i .returned).log <:+ t.log :=
        offline_log hauto hu' he.2 hrun
      exact iff_of_true (hfollowed.mono hlog) (.inl hyes)

theorem failed_unretried {options : Options} (hauto : options.autoReconnect = true)
    {before : List Event} {s t : State} {i : ℕ} {message : String}
    (hbefore : run step (init options) before = some s)
    (hcalls : ∀ p ∈ steps step (init options) before, p.2.disconnects = false)
    (hfail : step s (.openFailed i message) = some t) : Unretried s t ∧ Retrying options t := by
  have hinit : Retrying options (init options) := ⟨⟨nofun,nofun,nofun⟩,nofun,rfl⟩
  have hs : Retrying options s :=
    invariant_of_steps (retrying_step hauto) hinit hcalls s (run_mem_states hbefore)
  exact ⟨step_unretried hs.one hfail rfl rfl,retrying_step hauto s _ t hs rfl hfail⟩

/-- In a run without `disconnect()`, as long as no connection opens: an attempt that has failed is
followed by the next one, or the last by the report of the limit, exactly when `_handle_close` runs
once more, in a client that is running and with its ping, read and reconnect tasks absent or
returned. -/
theorem retry_followed_iff (options : Options) (hauto : options.autoReconnect = true)
    (hmax : 0 < options.maxReconnectAttempts) {before : List Event} {s t : State} {i : ℕ}
    {message : String} (hbefore : run step (init options) before = some s)
    (hcalls : ∀ p ∈ steps step (init options) before, p.2.disconnects = false)
    (hfail : step s (.openFailed i message) = some t) {after : List Event} {u : State}
    (hoffline : ∀ p ∈ steps step t after, p.2.offline = true) (hafter : run step t after = some u) :
    Followed s u ↔ ∃ p ∈ steps step t after, p.1.reschedules p.2 = true := by
  obtain ⟨ht,hretrying⟩ := failed_unretried hauto hbefore hcalls hfail
  exact followed_iff hauto hmax ht hretrying hoffline hafter

/-- The peer sends CLOSE twice and ends the stream; the first handler schedules a reconnection. -/
def closeTwiceRun : List Event :=
  connectedRun ++ [.read 1 (.data (Wire.headerBytes FrameType.close.code 0 1 0 0 ++
    Wire.headerBytes FrameType.close.code 0 1 0 0) ""),.read 1 .eof,.start 2,.start 4,.wake 4 0]

/-- It fails, and the handler of the second CLOSE frame schedules the next one. -/
theorem retry_followed_closeTwice : ∃ s ∈ run step (init {}) closeTwiceRun,
    ∃ t ∈ step s (.openFailed 4 "refused"), ∃ u ∈ run step t [.start 3], Followed s u := by
  have hrun : ∃ s ∈ run step (init {}) closeTwiceRun,
      (∀ p ∈ steps step (init {}) closeTwiceRun, p.2.disconnects = false) ∧
      ∃ t ∈ step s (.openFailed 4 "refused"),
      (∀ p ∈ steps step t [.start 3], p.2.offline = true) ∧
      (∃ p ∈ steps step t [.start 3], p.1.reschedules p.2 = true) ∧
      (run step t [.start 3]).isSome = true := by
    decide +kernel
  obtain ⟨s,hs,hcalls,t,ht,hoffline,hre,hsome⟩ := hrun
  obtain ⟨u,hu⟩ := Option.isSome_iff_exists.mp hsome
  exact ⟨s,hs,t,ht,u,hu,
    (retry_followed_iff {} rfl (by decide) hs hcalls ht hoffline hu).mpr hre⟩

/-- The peer sends CLOSE and ends the stream; the first of two attempts is made and fails. No task
is left, and no second attempt is scheduled. -/
theorem retry_not_followed : ¬∀ (options : Options), options.autoReconnect = true →
    0 < options.maxReconnectAttempts → ∀ (before : List Event),
    ∀ s ∈ run step (init options) before,
    (∀ p ∈ steps step (init options) before, p.2.disconnects = false) →
    ∀ (i : ℕ) (message : String), s.tasks i = .live .reconnectOpening →
    ∀ t ∈ step s (.openFailed i message), ∀ after : List Event,
    (∀ p ∈ steps step t after, p.2.offline = true) →
    ∀ u ∈ run step t after, (∀ j < u.nextTask, u.isLive j = false) → Followed s u := by
  intro h
  have hrun : ∃ s ∈ run step (init { maxReconnectAttempts := 2 })
        (connectedRun ++ closeThenEnd ++ [.start 3,.wake 3 0]),
      (∀ p ∈ steps step (init { maxReconnectAttempts := 2 })
        (connectedRun ++ closeThenEnd ++ [.start 3,.wake 3 0]), p.2.disconnects = false) ∧
      s.tasks 3 = .live .reconnectOpening ∧ ∃ t ∈ step s (.openFailed 3 "refused"),
      ∀ j < t.nextTask, t.isLive j = false := by
    decide +kernel
  obtain ⟨s,hs,hcalls,hopening,t,ht,hlive⟩ := hrun
  have hf := h _ rfl (by decide) _ s hs hcalls 3 "refused" hopening t ht [] (by simp [steps]) t rfl
    hlive
  exact (failed_unretried rfl hs hcalls ht).1.not_followed hf

end Py
end MipClients
