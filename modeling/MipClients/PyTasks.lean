import MipClients.Transition
import MipClients.PyClient

/-! The tasks of the Python client: what sending and receiving leave alone, what `_cleanup` comes to,
and that the task fields hold tasks that were made. -/
namespace MipClients
namespace Py

open StreamDecoder
open Transition
open Wire (Emission)

/-- The connection state, the task fields and the tasks made so far are the same. -/
structure Keeps (s t : State) : Prop where
  connected : t.connected = s.connected
  running : t.running = s.running
  options : t.options = s.options
  pingTask : t.pingTask = s.pingTask
  readTask : t.readTask = s.readTask
  reconnectTask : t.reconnectTask = s.reconnectTask
  nextTask : s.nextTask ≤ t.nextTask
  tasks : ∀ i < s.nextTask, t.tasks i = s.tasks i

namespace Keeps

variable {s t u : State}

theorem refl (s : State) : Keeps s s := ⟨rfl,rfl,rfl,rfl,rfl,rfl,Nat.le_refl _,fun _ _ => rfl⟩

theorem trans (h : Keeps s t) (h' : Keeps t u) : Keeps s u where
  connected := h'.connected.trans h.connected
  running := h'.running.trans h.running
  options := h'.options.trans h.options
  pingTask := h'.pingTask.trans h.pingTask
  readTask := h'.readTask.trans h.readTask
  reconnectTask := h'.reconnectTask.trans h.reconnectTask
  nextTask := h.nextTask.trans h'.nextTask
  tasks := fun i hi => (h'.tasks i (Nat.lt_of_lt_of_le hi h.nextTask)).trans (h.tasks i hi)

theorem foldl {α : Type*} {f : State → α → State} (hf : ∀ s a, Keeps s (f s a)) (l : List α)
    (s : State) : Keeps s (l.foldl f s) := foldl_related refl trans hf l s

end Keeps

namespace State

variable (s : State)

theorem record_keeps (e : Entry) : Keeps s (s.record e) :=
  ⟨rfl,rfl,rfl,rfl,rfl,rfl,Nat.le_refl _,fun _ _ => rfl⟩

theorem write_keeps (c : ℕ) (bytes : List UInt8) : Keeps s (s.write c bytes) :=
  ⟨rfl,rfl,rfl,rfl,rfl,rfl,Nat.le_refl _,fun _ _ => rfl⟩

theorem closeWriter_keeps (c : ℕ) : Keeps s (s.closeWriter c) :=
  ⟨rfl,rfl,rfl,rfl,rfl,rfl,Nat.le_refl _,fun _ _ => rfl⟩

theorem generateMsgId_keeps (now : ℤ) : Keeps s (s.generateMsgId now).2 :=
  ⟨rfl,rfl,rfl,rfl,rfl,rfl,Nat.le_refl _,fun _ _ => rfl⟩

theorem createTask_keeps (wait : Wait) : Keeps s (s.createTask wait) :=
  ⟨rfl,rfl,rfl,rfl,rfl,rfl,Nat.le_succ _,
    fun _ hi => Function.update_of_ne (Nat.ne_of_lt hi) _ _⟩

/-- `_send_frame` raises, with or without having taken a message id, or writes the frame. -/
theorem sendFrame_cases (frameType : Wire.FrameType) (payload : List UInt8) (flags : ℕ) (now : ℤ) :
    (s.sendFrame frameType payload flags now = (.error .notConnected,s) ∧
      (s.writer = none ∨ s.connected = false)) ∨
    (s.sendFrame frameType payload flags now = (.error .structError,(s.generateMsgId now).2) ∧
      frameBytes frameType.code payload flags (s.generateMsgId now).1 = none) ∨
    ∃ c bytes, s.writer = some c ∧ s.connected = true ∧
      frameBytes frameType.code payload flags (s.generateMsgId now).1 = some bytes ∧
      s.sendFrame frameType payload flags now =
        (.ok (s.generateMsgId now).1,(s.generateMsgId now).2.write c bytes) := by
  unfold sendFrame
  split
  · next c hc hconn =>
    split
    · next bytes hb => exact .inr (.inr ⟨c,bytes,hc,hconn,hb,rfl⟩)
    · next hb => exact .inr (.inl ⟨rfl,hb⟩)
  · next hne =>
    refine .inl ⟨rfl,?_⟩
    cases hw : s.writer with
    | none => exact .inl rfl
    | some c => exact .inr (Bool.eq_false_iff.mpr fun hc => hne c hw hc)

/-- HELLO is written, or `connect()` raises and the client is not connected. -/
theorem sayHello_cases (now : ℤ) :
    (∃ c bytes, s.writer = some c ∧ s.connected = true ∧
      frameBytes Wire.FrameType.hello.code (Utf8.encode s.clientId) flagsNone
        (s.generateMsgId now).1 = some bytes ∧
      s.sayHello now = (none,{ (s.generateMsgId now).2.write c bytes with
        clientId := decimal (s.generateMsgId now).1 }.record
          (.hello (Utf8.encode s.clientId) (s.generateMsgId now).1))) ∨
    ((s.writer = none ∨ s.connected = false ∨
      frameBytes Wire.FrameType.hello.code (Utf8.encode s.clientId) flagsNone
        (s.generateMsgId now).1 = none) ∧
      ∃ n message, s.sayHello now =
        (some message,{ s with msgIdCounter := n, connected := false, running := false })) := by
  unfold sayHello
  rcases s.sendFrame_cases .hello (Utf8.encode s.clientId) flagsNone now with
    ⟨h,hno⟩ | ⟨h,hb⟩ | ⟨c,bytes,hc,hconn,hb,h⟩ <;> simp only [h]
  · exact .inr ⟨hno.imp_right .inl,_,_,rfl⟩
  · exact .inr ⟨.inr (.inr hb),_,_,rfl⟩
  · exact .inl ⟨c,bytes,hc,hconn,hb,rfl⟩

/-- A CLOSE frame is sent as any frame without a payload is, but never fails aloud. -/
theorem sendClose_eq (now : ℤ) : (s.sendClose now).2 = (s.sendFrame .close [] 0 now).2 := by
  unfold sendClose sendFrame frameBytes
  split
  · rw [List.length_nil]
    cases buildHeader Wire.FrameType.close.code 0 0 (s.generateMsgId now).1 with
    | none => rfl
    | some header => simp
  · rfl

end State

/-- The frame that a call puts together: its type, payload and flags. -/
def Call.frame : Call → Option (Wire.FrameType × List UInt8 × ℕ)
  | .subscribe topic requireAck =>
    some (.subscribe,Utf8.encode topic,if requireAck then flagsAckRequired else flagsNone)
  | .unsubscribe topic requireAck =>
    some (.unsubscribe,Utf8.encode topic,if requireAck then flagsAckRequired else flagsNone)
  | .publish topic message flags =>
    (pack 2 (Utf8.encode topic).length).map fun length =>
      (.publish,length ++ Utf8.encode topic ++ message,flags)
  | .ping => some (.ping,[],0)
  | .sendRawFrame frameType payload flags => some (frameType,payload,flags)

namespace State

variable (s : State)

theorem call_cases (now : ℤ) (c : Call) : (c.frame = none ∧ s.call now c = s) ∨
    ∃ frameType payload flags, c.frame = some (frameType,payload,flags) ∧
      s.call now c = (s.sendFrame frameType payload flags now).2 := by
  cases c with
  | publish topic message flags =>
    simp only [call,publish,Call.frame]
    cases pack 2 (Utf8.encode topic).length with
    | none => exact .inl ⟨rfl,rfl⟩
    | some length => exact .inr ⟨_,_,_,rfl,rfl⟩
  | subscribe | unsubscribe | ping | sendRawFrame => exact .inr ⟨_,_,_,rfl,rfl⟩

end State

/-- A relation between states that taking a message id and writing bytes keep, and with them all that
sends. -/
structure Sending (R : State → State → Prop) : Prop where
  refl (s : State) : R s s
  trans {s t u : State} (h : R s t) (h' : R t u) : R s u
  generateMsgId (s : State) (now : ℤ) : R s (s.generateMsgId now).2
  write (s : State) (c : ℕ) (bytes : List UInt8) : R s (s.write c bytes)

namespace Sending

variable {R : State → State → Prop}

theorem sendFrame (hR : Sending R) (s : State) (frameType : Wire.FrameType) (payload : List UInt8)
    (flags : ℕ) (now : ℤ) : R s (s.sendFrame frameType payload flags now).2 := by
  rcases s.sendFrame_cases frameType payload flags now with ⟨h,-⟩ | ⟨h,-⟩ | ⟨c,bytes,-,-,-,h⟩ <;>
    rw [h]
  · exact hR.refl s
  · exact hR.generateMsgId s now
  · exact hR.trans (hR.generateMsgId s now) (hR.write _ c bytes)

theorem call (hR : Sending R) (s : State) (now : ℤ) (c : Call) : R s (s.call now c) := by
  rcases s.call_cases now c with ⟨-,h⟩ | ⟨frameType,payload,flags,-,h⟩ <;> rw [h]
  · exact hR.refl s
  · exact hR.sendFrame s frameType payload flags now

theorem calls (hR : Sending R) (s : State) (l : List (Call × ℤ)) : R s (s.calls l) :=
  foldl_related hR.refl hR.trans (fun s (c : Call × ℤ) => hR.call s c.2 c.1) l s

end Sending

namespace State

variable (s : State)

theorem sending_keeps : Sending Keeps :=
  ⟨Keeps.refl,Keeps.trans,generateMsgId_keeps,write_keeps⟩

theorem sendFrame_keeps (frameType : Wire.FrameType) (payload : List UInt8) (flags : ℕ)
    (now : ℤ) : Keeps s (s.sendFrame frameType payload flags now).2 :=
  sending_keeps.sendFrame s frameType payload flags now

theorem call_keeps (now : ℤ) (c : Call) : Keeps s (s.call now c) := sending_keeps.call s now c

theorem calls_keeps (l : List (Call × ℤ)) : Keeps s (s.calls l) := sending_keeps.calls s l

theorem react_keeps (e : Emission FrameHeader MIPError) : Keeps s (s.react e) := by
  have hr := s.record_keeps (.received e)
  unfold react
  cases e with
  | close =>
    have hc := createTask_keeps (s.record (.received .close)) .handleCloseStart
    exact hr.trans ⟨hc.connected,hc.running,hc.options,hc.pingTask,hc.readTask,hc.reconnectTask,
      hc.nextTask,hc.tasks⟩
  | error error =>
    dsimp only
    split
    · exact hr.trans (closeWriter_keeps _ _)
    · exact hr
  | _ => exact hr

/-! What `_cleanup` comes to. -/

/-- The task is absent or has finished by returning. -/
def returned (task : Option ℕ) : Bool := task.all fun t => s.tasks t = .returned

def tasksReturned : Bool :=
  s.returned s.pingTask && s.returned s.readTask && s.returned s.reconnectTask

theorem cancelAndAwait_returned {task : Option ℕ} (forget : State → State)
    (h : s.returned task = true) (hnone : task = none → forget s = s) :
    s.cancelAndAwait task forget = .ok (forget s) := by
  cases task with
  | none => exact congrArg Except.ok (hnone rfl).symm
  | some t =>
    have ht : s.tasks t = .returned := by simpa [returned] using h
    simp [cancelAndAwait,ht]

def stuckOn : Option ℕ :=
  if s.returned s.pingTask = false then s.pingTask
  else if s.returned s.readTask = false then s.readTask
  else s.reconnectTask

theorem cancelAndAwait_not_returned {task : Option ℕ} (forget : State → State)
    (h : s.returned task = false) :
    ∃ i status, task = some i ∧ (status = .cancelled ∨ status = .raised) ∧
      s.cancelAndAwait task forget = .error (s.setTask i status,status) := by
  cases task with
  | none => simp [returned] at h
  | some t =>
    have ht : s.tasks t ≠ .returned := by simpa [returned] using h
    have hsame : ∀ status, s.tasks t = status → s.setTask t status = s := by
      rintro _ rfl
      exact congrArg (fun tasks => { s with tasks := tasks }) (Function.update_eq_self t s.tasks)
    cases hs : s.tasks t with
    | live wait => exact ⟨t,.cancelled,rfl,.inl rfl,by simp only [cancelAndAwait,hs]⟩
    | returned => exact absurd hs ht
    | raised => exact ⟨t,.raised,rfl,.inr rfl,by simp only [cancelAndAwait,hs,hsame _ hs]⟩
    | cancelled => exact ⟨t,.cancelled,rfl,.inl rfl,by simp only [cancelAndAwait,hs,hsame _ hs]⟩

theorem forgetPing_none (h : s.pingTask = none) : s.forgetPing = s := by
  cases s
  cases h
  rfl

theorem forgetRead_none (h : s.readTask = none) : s.forgetRead = s := by
  cases s
  cases h
  rfl

theorem forgetReconnect_none (h : s.reconnectTask = none) : s.forgetReconnect = s := by
  cases s
  cases h
  rfl

theorem cleanup_returned (h : s.tasksReturned = true) :
    s.cleanup = .ok s.forgetPing.forgetRead.forgetReconnect := by
  simp only [tasksReturned,Bool.and_eq_true] at h
  have hread : s.forgetPing.returned s.forgetPing.readTask = true := h.1.2
  have hreconnect : s.forgetPing.forgetRead.returned
      s.forgetPing.forgetRead.reconnectTask = true := h.2
  simp only [cleanup,s.cancelAndAwait_returned _ h.1.1 s.forgetPing_none,bind,Except.bind,
    cancelAndAwait_returned _ _ hread (forgetRead_none _),
    cancelAndAwait_returned _ _ hreconnect (forgetReconnect_none _)]

/-- Otherwise `_cleanup` raises with the first task that has not returned, which is live no longer,
and with the fields of the tasks before it emptied. -/
theorem cleanup_stuck (h : s.tasksReturned = false) : ∃ ping read i status,
    s.stuckOn = some i ∧ (status = .cancelled ∨ status = .raised) ∧
    (ping = none ∨ ping = s.pingTask) ∧ (read = none ∨ read = s.readTask) ∧
    s.cleanup =
      .error ({ s with pingTask := ping, readTask := read }.setTask i status,status) := by
  cases hp : s.returned s.pingTask with
  | false =>
    obtain ⟨i,status,hi,hstatus,hc⟩ := s.cancelAndAwait_not_returned forgetPing hp
    exact ⟨_,_,i,status,by rw [stuckOn,if_pos hp,hi],hstatus,.inr rfl,.inr rfl,
      by simp only [cleanup,hc]; rfl⟩
  | true =>
    have hping := s.cancelAndAwait_returned _ hp s.forgetPing_none
    cases hr : s.forgetPing.returned s.forgetPing.readTask with
    | false =>
      obtain ⟨i,status,hi,hstatus,hc⟩ := s.forgetPing.cancelAndAwait_not_returned forgetRead hr
      have hr' : s.returned s.readTask = false := hr
      have hi' : s.readTask = some i := hi
      have hstuck : s.stuckOn = some i := by rw [stuckOn,if_neg (by simp [hp]),if_pos hr',hi']
      exact ⟨_,_,i,status,hstuck,hstatus,.inl rfl,.inr rfl,
        by simp only [cleanup,hping,bind,Except.bind,hc]; rfl⟩
    | true =>
      have hread := s.forgetPing.cancelAndAwait_returned _ hr s.forgetPing.forgetRead_none
      have hr' : s.returned s.readTask = true := hr
      have hn : s.forgetPing.forgetRead.returned s.forgetPing.forgetRead.reconnectTask = false := by
        have hn : s.returned s.reconnectTask = false := by simpa [tasksReturned,hp,hr'] using h
        exact hn
      obtain ⟨i,status,hi,hstatus,hc⟩ :=
        s.forgetPing.forgetRead.cancelAndAwait_not_returned forgetReconnect hn
      have hi' : s.reconnectTask = some i := hi
      exact ⟨_,_,i,status,by simp [stuckOn,hp,hr',hi'],hstatus,.inl rfl,.inl rfl,
        by simp only [cleanup,hping,hread,bind,Except.bind,hc]; rfl⟩

theorem disconnect_stuck (now : ℤ) (h : s.tasksReturned = false) : ∃ ping read i status,
    s.stuckOn = some i ∧ (status = .cancelled ∨ status = .raised) ∧
    (ping = none ∨ ping = s.pingTask) ∧ (read = none ∨ read = s.readTask) ∧
    s.disconnect now = ({ s.stop with
      pingTask := ping
      readTask := read }.setTask i status |>.createTask .disconnectDrain).setTask s.nextTask
        status := by
  obtain ⟨ping,read,i,status,hi,hstatus,hp,hr,he⟩ := s.stop.cleanup_stuck h
  refine ⟨ping,read,i,status,hi,hstatus,hp,hr,?_⟩
  simp only [disconnect,he]
  rfl

/-- `disconnect()` raises with `_cleanup`, returns for want of a writer, or sends CLOSE and goes on to
close the writer, at once if there was nothing to drain. -/
theorem disconnect_cases (now : ℤ) :
    (s.tasksReturned = false ∧ ∃ ping read tasks status,
      (ping = none ∨ ping = s.pingTask) ∧ (read = none ∨ read = s.readTask) ∧
      s.disconnect now = ({ s.stop with
        pingTask := ping
        readTask := read
        tasks := tasks }.createTask .disconnectDrain).setTask s.nextTask status) ∨
    (s.tasksReturned = true ∧ s.writer = none ∧ ∃ t,
      t = s.stop.forgetPing.forgetRead.forgetReconnect ∧ s.disconnect now =
        ({ t with connected := false }.createTask .disconnectDrain).setTask s.nextTask .returned) ∨
    (s.tasksReturned = true ∧ s.writer.isSome = true ∧ ∃ t u,
      t = s.stop.forgetPing.forgetRead.forgetReconnect ∧
      u = (t.sendFrame .close [] 0 now).2.createTask .disconnectDrain ∧
      (s.disconnect now = u ∨
        s.disconnect now = u.closeConnection (t.sendFrame .close [] 0 now).2.nextTask)) := by
  cases h : s.tasksReturned with
  | false =>
    obtain ⟨ping,read,i,status,-,-,hp,hr,he⟩ := s.disconnect_stuck now h
    exact .inl ⟨rfl,ping,read,_,status,hp,hr,he⟩
  | true =>
    have hc := s.stop.cleanup_returned h
    cases hw : s.writer with
    | none =>
      have hw' : s.stop.forgetPing.forgetRead.forgetReconnect.writer = none := hw
      refine .inr (.inl ⟨rfl,rfl,_,rfl,?_⟩)
      simp only [disconnect,hc,hw']
      rfl
    | some c =>
      have hw' : s.stop.forgetPing.forgetRead.forgetReconnect.writer = some c := hw
      refine .inr (.inr ⟨rfl,rfl,_,_,rfl,rfl,?_⟩)
      simp only [disconnect,hc,hw',← sendClose_eq]
      split_ifs
      · exact .inl rfl
      · exact .inr rfl

/-- `_handle_close` ends its runner with the connection gone, whatever `_cleanup` comes to. -/
theorem handleClose_returned (runner : ℕ) (h : s.tasksReturned = true) : s.handleClose runner =
    (let t := { s with connected := false }.forgetPing.forgetRead.forgetReconnect
     let t := if s.connected then t.record .disconnect else t
     let t := if t.options.autoReconnect && t.running then t.scheduleReconnect else t
     t.setTask runner .returned) := by
  have hc : ({ s with connected := false } : State).tasksReturned = true := h
  simp only [handleClose,cleanup_returned _ hc]

theorem handleClose_forgets (runner : ℕ) (h : s.tasksReturned = true) : ∃ t,
    (t = { s with connected := false }.forgetPing.forgetRead.forgetReconnect ∨
      t = { s with connected := false }.forgetPing.forgetRead.forgetReconnect.record .disconnect) ∧
    (s.handleClose runner = t.setTask runner .returned ∨
      s.handleClose runner = t.scheduleReconnect.setTask runner .returned) := by
  have hschedules (t : State) (b : Bool) :
      (if b then t.scheduleReconnect else t).setTask runner .returned =
          t.setTask runner .returned ∨
        (if b then t.scheduleReconnect else t).setTask runner .returned =
          t.scheduleReconnect.setTask runner .returned := by
    cases b with
    | true => exact .inr rfl
    | false => exact .inl rfl
  rw [s.handleClose_returned runner h]
  cases s.connected with
  | true => exact ⟨_,.inr rfl,hschedules _ _⟩
  | false => exact ⟨_,.inl rfl,hschedules _ _⟩

theorem handleClose_stuck (runner : ℕ) (h : s.tasksReturned = false) : ∃ ping read i status,
    s.stuckOn = some i ∧ (status = .cancelled ∨ status = .raised) ∧
    (ping = none ∨ ping = s.pingTask) ∧ (read = none ∨ read = s.readTask) ∧
    s.handleClose runner = ({ s with
      connected := false
      pingTask := ping
      readTask := read }.setTask i status).setTask runner status := by
  have hc : ({ s with connected := false } : State).tasksReturned = false := h
  obtain ⟨ping,read,i,status,hi,hstatus,hp,hr,he⟩ := cleanup_stuck _ hc
  exact ⟨ping,read,i,status,hi,hstatus,hp,hr,by simp only [handleClose,he]⟩

theorem handleClose_not_returned (runner : ℕ) (h : s.tasksReturned = false) :
    ∃ ping read tasks, s.handleClose runner =
      { s with connected := false, pingTask := ping, readTask := read, tasks := tasks } ∧
        (ping = none ∨ ping = s.pingTask) ∧ (read = none ∨ read = s.readTask) := by
  obtain ⟨ping,read,i,status,-,-,hp,hr,he⟩ := s.handleClose_stuck runner h
  exact ⟨ping,read,_,he,hp,hr⟩

theorem endConnect_cases (t : ℕ) (wait : Wait) (raised : Bool) :
    (∃ status, (status = .returned ∨ status = .raised) ∧
      s.endConnect t wait raised = s.setTask t status) ∨
    s.endConnect t wait raised = s.scheduleReconnect.setTask t .returned := by
  unfold endConnect
  split
  · split_ifs
    · exact .inr rfl
    · exact .inl ⟨_,.inl rfl,rfl⟩
  · exact .inl ⟨_,.inr rfl,rfl⟩
  · exact .inl ⟨_,.inl rfl,rfl⟩

end State

structure TasksMade (s : State) : Prop where
  ping : ∀ t, s.pingTask = some t → t < s.nextTask
  read : ∀ t, s.readTask = some t → t < s.nextTask
  reconnect : ∀ t, s.reconnectTask = some t → t < s.nextTask

theorem Keeps.made {s t : State} (h : Keeps s t) (hs : TasksMade s) : TasksMade t where
  ping := fun i hi => Nat.lt_of_lt_of_le (hs.ping i (h.pingTask ▸ hi)) h.nextTask
  read := fun i hi => Nat.lt_of_lt_of_le (hs.read i (h.readTask ▸ hi)) h.nextTask
  reconnect := fun i hi => Nat.lt_of_lt_of_le (hs.reconnect i (h.reconnectTask ▸ hi)) h.nextTask

namespace TasksMade

variable {s : State}

theorem forgetAll (s : State) : TasksMade s.forgetPing.forgetRead.forgetReconnect :=
  ⟨nofun,nofun,nofun⟩

theorem setTask (h : TasksMade s) (t : ℕ) (status : Status) : TasksMade (s.setTask t status) :=
  ⟨h.ping,h.read,h.reconnect⟩

theorem scheduleReconnect (h : TasksMade s) : TasksMade s.scheduleReconnect := by
  unfold State.scheduleReconnect
  split_ifs
  · exact h
  · exact ⟨h.ping,h.read,h.reconnect⟩
  · exact ⟨fun t ht => Nat.lt_succ_of_lt (h.ping t ht),fun t ht => Nat.lt_succ_of_lt (h.read t ht),
      fun t ht => Option.some.inj ht ▸ Nat.lt_succ_self _⟩

theorem forget (h : TasksMade s) {ping read : Option ℕ} (hp : ping = none ∨ ping = s.pingTask)
    (hr : read = none ∨ read = s.readTask) (connected : Bool) (tasks : ℕ → Status) :
    TasksMade { s with
      connected := connected
      pingTask := ping
      readTask := read
      tasks := tasks } := by
  refine ⟨fun t ht => ?_,fun t ht => ?_,h.reconnect⟩
  · rcases hp with rfl | rfl
    · cases ht
    · exact h.ping t ht
  · rcases hr with rfl | rfl
    · cases ht
    · exact h.read t ht

theorem handleClose (h : TasksMade s) (runner : ℕ) : TasksMade (s.handleClose runner) := by
  cases hret : s.tasksReturned with
  | true =>
    have hnone := forgetAll { s with connected := false }
    obtain ⟨t,ht,he⟩ := s.handleClose_forgets runner hret
    have hmade : TasksMade t := by
      rcases ht with rfl | rfl
      · exact hnone
      · exact (State.record_keeps _ _).made hnone
    rcases he with he | he <;> rw [he]
    · exact hmade.setTask runner _
    · exact hmade.scheduleReconnect.setTask runner _
  | false =>
    obtain ⟨ping,read,tasks,he,hp,hr⟩ := s.handleClose_not_returned runner hret
    rw [he]
    exact h.forget hp hr _ _

theorem createTask (h : TasksMade s) (wait : Wait) : TasksMade (s.createTask wait) :=
  (s.createTask_keeps wait).made h

theorem closeConnection (h : TasksMade s) (t : ℕ) : TasksMade (s.closeConnection t) := by
  unfold State.closeConnection
  split
  · next c hc => exact ((s.closeWriter_keeps c).made h).setTask t _
  · exact h.setTask t _

theorem disconnect (h : TasksMade s) (now : ℤ) : TasksMade (s.disconnect now) := by
  have hs : TasksMade s.stop := ⟨h.ping,h.read,h.reconnect⟩
  have hf := forgetAll s.stop
  rcases s.disconnect_cases now with
    ⟨-,ping,read,tasks,status,hp,hr,he⟩ | ⟨-,-,t,ht,he⟩ | ⟨-,-,t,u,ht,hu,he⟩
  · rw [he]
    exact ((hs.forget hp hr s.connected tasks).createTask .disconnectDrain).setTask _ _
  · have hc : TasksMade { t with connected := false } := by
      rw [ht]
      exact ⟨hf.ping,hf.read,hf.reconnect⟩
    rw [he]
    exact (hc.createTask .disconnectDrain).setTask _ _
  · have hm : TasksMade u := by
      rw [hu,ht]
      exact ((State.sendFrame_keeps _ .close [] 0 now).made hf).createTask .disconnectDrain
    rcases he with he | he <;> rw [he]
    · exact hm
    · exact hm.closeConnection _

theorem establish (h : TasksMade s) : TasksMade s.establish := by
  unfold State.establish State.setupPingInterval
  dsimp only
  split_ifs
  · exact ⟨fun t ht => Option.some.inj ht ▸ Nat.lt_succ_self _,
      fun t ht => Option.some.inj ht ▸ Nat.lt_succ_of_lt (Nat.lt_succ_self _),
      fun t ht => Nat.lt_succ_of_lt (Nat.lt_succ_of_lt (h.reconnect t ht))⟩
  · exact ⟨fun t ht => Nat.lt_succ_of_lt (h.ping t ht),
      fun t ht => Option.some.inj ht ▸ Nat.lt_succ_self _,
      fun t ht => Nat.lt_succ_of_lt (h.reconnect t ht)⟩

theorem sayHello (h : TasksMade s) (now : ℤ) : TasksMade (s.sayHello now).2 := by
  rcases s.sayHello_cases now with ⟨c,bytes,-,-,-,he⟩ | ⟨-,n,message,he⟩ <;> rw [he] <;>
    exact ⟨h.ping,h.read,h.reconnect⟩

theorem onOpened (h : TasksMade s) (connectCalls : List (Call × ℤ)) (raised : Option String)
    (now : ℤ) : TasksMade (s.onOpened connectCalls raised now).2 := by
  have hcalls := (s.establish.calls_keeps connectCalls).made h.establish
  unfold State.onOpened
  dsimp only
  cases raised with
  | some message => exact ⟨hcalls.ping,hcalls.read,hcalls.reconnect⟩
  | none =>
    have hh := hcalls.sayHello now
    dsimp only
    split
    · next message t ht =>
      rw [ht] at hh
      exact ⟨hh.ping,hh.read,hh.reconnect⟩
    · next t ht =>
      rw [ht] at hh
      exact hh

theorem endConnect (h : TasksMade s) (t : ℕ) (wait : Wait) (raised : Bool) :
    TasksMade (s.endConnect t wait raised) := by
  rcases s.endConnect_cases t wait raised with ⟨status,-,he⟩ | he <;> rw [he]
  · exact h.setTask t _
  · exact h.scheduleReconnect.setTask t _

theorem readFailed (h : TasksMade s) (t : ℕ) (message : String) :
    TasksMade (s.readFailed t message) := by
  unfold State.readFailed
  split_ifs
  · exact handleClose (s := s.emitError { message := message }) ⟨h.ping,h.read,h.reconnect⟩ t
  · exact h.handleClose t

theorem readNext (h : TasksMade s) (t : ℕ) : TasksMade (s.readNext t) := by
  unfold State.readNext
  split <;> exact h.setTask t _

theorem handleData (h : TasksMade s) (t : ℕ) (data : List UInt8) (message : String) :
    TasksMade (s.handleData t data message) := by
  have hr := (Keeps.foldl State.react_keeps
    (StreamDecoder.run framing.decoder (s.buffer ++ data)).out s).made h
  have hb : TasksMade { (StreamDecoder.run framing.decoder (s.buffer ++ data)).out.foldl
      State.react s with
      buffer := (StreamDecoder.run framing.decoder (s.buffer ++ data)).buffer } :=
    ⟨hr.ping,hr.read,hr.reconnect⟩
  unfold State.handleData
  dsimp only
  split_ifs
  · exact hb.readFailed t message
  · exact hb.readNext t

end TasksMade

inductive Move (s : State) : Event → State → Prop
  | alreadyConnected : Move s .connectCall s
  | connectCall : Move s .connectCall ({ s with running := true }.createTask .connectOpening)
  | disconnectCall (now : ℤ) : Move s (.disconnectCall now) (s.disconnect now)
  | call (c : Call) (now : ℤ) : Move s (.call c now) (s.call now c)
  | readLoopStart (i : ℕ) (hi : s.tasks i = .live .readLoopStart) :
      Move s (.start i) (s.readNext i)
  | pingLoopStart (i : ℕ) (status : Status) (hi : s.tasks i = .live .pingLoopStart)
      (hstatus : status = .live .pingSleep ∨ status = .returned) :
      Move s (.start i) (s.setTask i status)
  | reconnectStart (i : ℕ) (hi : s.tasks i = .live .reconnectStart) :
      Move s (.start i) (s.setTask i (.live .reconnectSleep))
  | handleCloseStart (i : ℕ) (hi : s.tasks i = .live .handleCloseStart) :
      Move s (.start i) (s.handleClose i)
  | opened (i : ℕ) (wait : Wait) (connectCalls : List (Call × ℤ)) (raised : Option String)
      (now : ℤ) (hi : s.tasks i = .live wait)
      (hwait : wait = .reconnectOpening ∨ wait = .connectOpening) :
      Move s (.opened i connectCalls raised now) ((s.onOpened connectCalls raised now).2.endConnect
        i wait (s.onOpened connectCalls raised now).1.isSome)
  | openFailed (i : ℕ) (wait : Wait) (message : String) (hi : s.tasks i = .live wait)
      (hwait : wait = .reconnectOpening ∨ wait = .connectOpening) :
      Move s (.openFailed i message) ((s.emitError { message := message }).endConnect i wait true)
  | data (i c : ℕ) (data : List UInt8) (message : String) (hi : s.tasks i = .live (.reading c)) :
      Move s (.read i (.data data message)) (s.handleData i data message)
  | eof (i c : ℕ) (hi : s.tasks i = .live (.reading c)) :
      Move s (.read i .eof) (s.setTask i .returned)
  | raises (i c : ℕ) (message : String) (hi : s.tasks i = .live (.reading c)) :
      Move s (.read i (.raises message)) (s.readFailed i message)
  | pinged (i : ℕ) (now : ℤ) (status : Status) (hi : s.tasks i = .live .pingSleep)
      (hstatus : status = .live .pingSleep ∨ status = .returned ∨ status = .raised) :
      Move s (.wake i now) ((s.ping now).2.setTask i status)
  | pingOver (i : ℕ) (now : ℤ) (hi : s.tasks i = .live .pingSleep) :
      Move s (.wake i now) (s.setTask i .returned)
  | reconnectOver (i : ℕ) (now : ℤ) (hi : s.tasks i = .live .reconnectSleep) :
      Move s (.wake i now) (s.setTask i .returned)
  | reconnectOpening (i : ℕ) (now : ℤ) (hi : s.tasks i = .live .reconnectSleep) :
      Move s (.wake i now) ({ s with running := true }.setTask i (.live .reconnectOpening))
  | drained (i : ℕ) (hi : s.tasks i = .live .disconnectDrain) :
      Move s (.drained i) (s.closeConnection i)
  | closed (i : ℕ) (hi : s.tasks i = .live .disconnectClosing) :
      Move s (.closed i) (s.endDisconnect i)

theorem step_move {s t : State} {e : Event} (h : step s e = some t) : Move s e t := by
  cases e with
  | connectCall =>
    cases h
    split_ifs
    · exact .alreadyConnected
    · exact .connectCall
  | disconnectCall now =>
    cases h
    exact .disconnectCall now
  | call c now =>
    cases h
    exact .call c now
  | start i =>
    simp only [step] at h
    split at h
    · next hi =>
      cases h
      exact .readLoopStart i hi
    · next hi =>
      cases h
      exact .pingLoopStart i _ hi (by split_ifs <;> simp)
    · next hi =>
      cases h
      exact .reconnectStart i hi
    · next hi =>
      cases h
      exact .handleCloseStart i hi
    · cases h
  | opened i connectCalls raised now =>
    simp only [step] at h
    split at h
    · next hi =>
      cases h
      exact .opened i .reconnectOpening connectCalls raised now hi (.inl rfl)
    · next hi =>
      cases h
      exact .opened i .connectOpening connectCalls raised now hi (.inr rfl)
    · cases h
  | openFailed i message =>
    simp only [step] at h
    split at h
    · next hi =>
      cases h
      exact .openFailed i .reconnectOpening message hi (.inl rfl)
    · next hi =>
      cases h
      exact .openFailed i .connectOpening message hi (.inr rfl)
    · cases h
  | read i r =>
    simp only [step] at h
    split at h
    · next c hi =>
      cases r with
      | data data message =>
        cases h
        exact .data i c data message hi
      | eof =>
        cases h
        exact .eof i c hi
      | raises message =>
        cases h
        exact .raises i c message hi
    · cases h
  | wake i now =>
    simp only [step] at h
    split at h
    · next hi =>
      split_ifs at h
      · split at h
        · next u hu =>
          cases h
          have hping : u = (s.ping now).2 := by rw [hu]
          rw [hping]
          exact .pinged i now _ hi (by split_ifs <;> simp)
        · next u hu =>
          cases h
          have hping : u = (s.ping now).2 := by rw [hu]
          rw [hping]
          exact .pinged i now _ hi (by simp)
      · cases h
        exact .pingOver i now hi
    · next hi =>
      cases h
      split_ifs
      · exact .reconnectOver i now hi
      · exact .reconnectOpening i now hi
    · cases h
  | drained i =>
    simp only [step] at h
    split at h
    · next hi =>
      cases h
      exact .drained i hi
    · cases h
  | closed i =>
    simp only [step] at h
    split at h
    · next hi =>
      cases h
      exact .closed i hi
    · cases h

theorem tasksMade_step (s : State) (e : Event) (t : State) (h : TasksMade s)
    (hs : step s e = some t) : TasksMade t := by
  cases step_move hs with
  | alreadyConnected => exact h
  | connectCall =>
    exact (State.createTask_keeps { s with running := true } .connectOpening).made
      ⟨h.ping,h.read,h.reconnect⟩
  | disconnectCall now => exact h.disconnect now
  | call c now => exact (s.call_keeps now c).made h
  | readLoopStart i => exact h.readNext i
  | pingLoopStart i | reconnectStart i | eof i | pingOver i | reconnectOver i =>
    exact h.setTask i _
  | handleCloseStart i => exact h.handleClose i
  | opened i wait connectCalls raised now =>
    exact (h.onOpened connectCalls raised now).endConnect i _ _
  | openFailed i wait message =>
    have he : TasksMade (s.emitError { message := message }) := ⟨h.ping,h.read,h.reconnect⟩
    exact he.endConnect i _ _
  | data i c data message => exact h.handleData i data message
  | raises i c message => exact h.readFailed i message
  | pinged i now =>
    have hp : TasksMade (s.ping now).2 := (s.sendFrame_keeps .ping [] 0 now).made h
    exact hp.setTask i _
  | drained i => exact h.closeConnection i
  | reconnectOpening | closed => exact ⟨h.ping,h.read,h.reconnect⟩

theorem tasksMade (options : Options) (events : List Event) :
    ∀ s ∈ states step (init options) events, TasksMade s := by
  have hinit : TasksMade (init options) := ⟨nofun,nofun,nofun⟩
  exact invariant tasksMade_step hinit events

end Py
end MipClients
