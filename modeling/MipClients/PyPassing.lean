import MipClients.PyDisconnect
import MipClients.PyFailedConnect

/-! What the steps of the Python client do besides reading data and opening connections, in one rule
for all relations that they keep. -/
namespace MipClients
namespace Py

open StreamDecoder Transition
open Utf8 (Text)
open Wire (Emission)

def Entry.received? : Entry → Option (Emission FrameHeader MIPError)
  | .received e => some e
  | _ => none

/-- A relation between states that sending keeps, and so do the primitives of which the other
coroutines are made: a change of the fields that belong to neither a connection nor the buffer, an
entry other than for received data, a task that starts, ends or comes to wait for anything but data,
and a writer that is closed or dropped. -/
structure Passing (R : State → State → Prop) : Prop extends Sending R where
  update {s : State} {options : Options} {clientId : Text} {connected running : Bool}
    {reconnectAttempts nextTask : ℕ} {reconnectTask pingTask readTask closeTask : Option ℕ} :
    R s { s with
      options := options
      clientId := clientId
      connected := connected
      reconnectAttempts := reconnectAttempts
      reconnectTask := reconnectTask
      pingTask := pingTask
      readTask := readTask
      closeTask := closeTask
      running := running
      nextTask := nextTask }
  record (s : State) {e : Entry} (he : e.received? = none) : R s (s.record e)
  setTask (s : State) (i : ℕ) {status : Status} (h : ∀ c, status ≠ .live (.reading c)) :
    R s (s.setTask i status)
  closeWriter (s : State) (c : ℕ) : R s (s.closeWriter c)
  drop (s : State) : R s { s with writer := none, reader := none, connected := false }

namespace Passing

variable {R : State → State → Prop} (hR : Passing R) (s : State)

include hR

theorem emitError (error : MIPError) : R s (s.emitError error) := hR.record s rfl

theorem createTask (wait : Wait) (h : ∀ c, wait ≠ .reading c) : R s (s.createTask wait) := by
  refine hR.trans (hR.setTask s s.nextTask fun c hc => h c (Status.live.inj hc)) ?_
  exact hR.update

theorem scheduleReconnect : R s s.scheduleReconnect := by
  unfold State.scheduleReconnect
  split_ifs
  · exact hR.refl s
  · exact hR.trans (hR.record s rfl) (hR.emitError _ _)
  · refine hR.trans ?_ (hR.record _ rfl)
    have hcounted : R s { s with reconnectAttempts := s.reconnectAttempts + 1 } := hR.update
    exact hR.trans (hR.trans (hR.trans hcounted (hR.record _ rfl))
      (hR.createTask _ .reconnectStart nofun)) hR.update

theorem handleClose (runner : ℕ) : R s (s.handleClose runner) := by
  cases h : s.tasksReturned with
  | false =>
    obtain ⟨ping,read,i,status,-,hstatus,-,-,he⟩ := s.handleClose_stuck runner h
    have hover : ∀ c, status ≠ .live (.reading c) := by
      rcases hstatus with rfl | rfl <;> exact nofun
    have hfields : R s { s with connected := false, pingTask := ping, readTask := read } :=
      hR.update
    rw [he]
    exact hR.trans (hR.trans hfields (hR.setTask _ i hover)) (hR.setTask _ runner hover)
  | true =>
    obtain ⟨t,ht,he⟩ := s.handleClose_forgets runner h
    have hforget : R s { s with connected := false }.forgetPing.forgetRead.forgetReconnect :=
      hR.update
    have htold : R s t := by
      rcases ht with rfl | rfl
      · exact hforget
      · exact hR.trans hforget (hR.record _ rfl)
    rcases he with he | he <;> rw [he]
    · exact hR.trans htold (hR.setTask _ runner nofun)
    · exact hR.trans (hR.trans htold (hR.scheduleReconnect t)) (hR.setTask _ runner nofun)

theorem endConnect (i : ℕ) (wait : Wait) (raised : Bool) : R s (s.endConnect i wait raised) := by
  rcases s.endConnect_cases i wait raised with ⟨status,hstatus,he⟩ | he <;> rw [he]
  · exact hR.setTask s i (by rcases hstatus with rfl | rfl <;> exact nofun)
  · exact hR.trans (hR.scheduleReconnect s) (hR.setTask _ i nofun)

theorem readFailed (i : ℕ) (message : String) : R s (s.readFailed i message) := by
  unfold State.readFailed
  split_ifs
  · exact hR.trans (hR.emitError s _) (hR.handleClose _ i)
  · exact hR.handleClose s i

theorem closeConnection (i : ℕ) : R s (s.closeConnection i) := by
  unfold State.closeConnection
  split
  · exact hR.trans (hR.closeWriter s _) (hR.setTask _ i nofun)
  · exact hR.setTask s i nofun

theorem disconnect (now : ℤ) : R s (s.disconnect now) := by
  rcases s.disconnect_cases now with ⟨hret,-⟩ | ⟨-,-,t,ht,he⟩ | ⟨-,-,t,u,ht,hu,he⟩
  · obtain ⟨ping,read,i,status,-,hstatus,-,-,he⟩ := s.disconnect_stuck now hret
    have hover : ∀ c, status ≠ .live (.reading c) := by
      rcases hstatus with rfl | rfl <;> exact nofun
    have hstopped : R s { s.stop with pingTask := ping, readTask := read } := hR.update
    rw [he]
    exact hR.trans (hR.trans (hR.trans hstopped (hR.setTask _ i hover))
      (hR.createTask _ .disconnectDrain nofun))
      (hR.setTask _ _ hover)
  · have hdown : R s { t with connected := false } := by
      rw [ht]
      exact hR.update
    rw [he]
    exact hR.trans (hR.trans hdown (hR.createTask _ .disconnectDrain nofun)) (hR.setTask _ _ nofun)
  · have hforget : R s t := by
      rw [ht]
      exact hR.update
    have hsent : R s u := by
      rw [hu]
      exact hR.trans (hR.trans hforget (hR.sendFrame t .close [] 0 now))
        (hR.createTask _ .disconnectDrain nofun)
    rcases he with he | he <;> rw [he]
    · exact hsent
    · exact hR.trans hsent (hR.closeConnection _ _)

theorem sayHello (now : ℤ) : R s (s.sayHello now).2 := by
  have hsent := hR.sendFrame s .hello (Utf8.encode s.clientId) flagsNone now
  unfold State.sayHello
  dsimp only
  generalize s.sendFrame .hello (Utf8.encode s.clientId) flagsNone now = r at hsent ⊢
  obtain ⟨result,t⟩ := r
  cases result with
  | ok msgId =>
    have hnamed : R t { t with clientId := decimal msgId } := hR.update
    exact hR.trans (hR.trans hsent hnamed) (hR.record _ rfl)
  | error err => exact hR.trans hsent hR.update

theorem onOpened (connectCalls : List (Call × ℤ)) (raised : Option String) (now : ℤ) :
    R s.establish (s.onOpened connectCalls raised now).2 := by
  have hcalls := hR.calls s.establish connectCalls
  cases raised with
  | some message => exact hR.trans hcalls (hR.emitError _ _)
  | none =>
    rw [State.onOpened_none]
    have hhello := hR.trans hcalls (hR.sayHello _ now)
    dsimp only
    split
    · exact hR.trans hhello (hR.emitError _ _)
    · exact hhello

end Passing

def Event.data? : Event → Option (List UInt8)
  | .read _ (.data data _) => some data
  | _ => none

/-- A step, with what all relations have in common that a step keeps besides reading data and
opening connections. -/
inductive Passage (s : State) : Event → State → Prop
  | passes {e : Event} {t : State} (he : e.data? = none) (hopens : e.opens = false)
      (h : ∀ R, Passing R → R s t) : Passage s e t
  | checks (i : ℕ) (hi : s.tasks i = .live .readLoopStart) : Passage s (.start i) (s.readNext i)
  | handles (i c : ℕ) (data : List UInt8) (message : String) (hi : s.tasks i = .live (.reading c)) :
      Passage s (.read i (.data data message)) (s.handleData i data message)
  | opens (i : ℕ) (connectCalls : List (Call × ℤ)) (raised : Option String) (now : ℤ) {t : State}
      (h : ∀ R, Passing R → R s.establish t) : Passage s (.opened i connectCalls raised now) t

theorem step_passage {s t : State} {e : Event} (h : step s e = some t) : Passage s e t := by
  cases step_move h with
  | readLoopStart i hi => exact .checks i hi
  | data i c data message hi => exact .handles i c data message hi
  | opened i wait connectCalls raised now =>
    exact .opens i connectCalls raised now fun R hR =>
      hR.trans (hR.onOpened s connectCalls raised now) (hR.endConnect _ i wait _)
  | alreadyConnected => exact .passes rfl rfl fun R hR => hR.refl s
  | connectCall =>
    refine .passes rfl rfl fun R hR => ?_
    have hrunning : R s { s with running := true } := hR.update
    exact hR.trans hrunning (hR.createTask _ .connectOpening nofun)
  | disconnectCall now => exact .passes rfl rfl fun R hR => hR.disconnect s now
  | call c now => exact .passes rfl rfl fun R hR => hR.call s now c
  | pingLoopStart i status hi hstatus =>
    exact .passes rfl rfl fun R hR =>
      hR.setTask s i (by rcases hstatus with rfl | rfl <;> exact nofun)
  | reconnectStart i | eof i | pingOver i | reconnectOver i =>
    exact .passes rfl rfl fun R hR => hR.setTask s i nofun
  | handleCloseStart i => exact .passes rfl rfl fun R hR => hR.handleClose s i
  | openFailed i wait message =>
    exact .passes rfl rfl fun R hR => hR.trans (hR.emitError s _) (hR.endConnect _ i wait true)
  | raises i c message => exact .passes rfl rfl fun R hR => hR.readFailed s i message
  | pinged i now status hi hstatus =>
    refine .passes rfl rfl fun R hR => ?_
    have hpinged : R s (s.ping now).2 := hR.sendFrame s .ping [] 0 now
    exact hR.trans hpinged (hR.setTask _ i (by rcases hstatus with rfl | rfl | rfl <;> exact nofun))
  | reconnectOpening i =>
    refine .passes rfl rfl fun R hR => ?_
    have hrunning : R s { s with running := true } := hR.update
    exact hR.trans hrunning (hR.setTask _ i nofun)
  | drained i => exact .passes rfl rfl fun R hR => hR.closeConnection s i
  | closed i => exact .passes rfl rfl fun R hR => hR.trans (hR.drop s) (hR.setTask _ i nofun)

end Py
end MipClients
