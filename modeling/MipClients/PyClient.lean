import MipClients.PyProtocol
import Mathlib.Logic.Function.Basic

/-! The Python client as a state machine (`mip_client/__init__.py`, class `MIPClient`). A coroutine
runs from one wait for the outside world to the next; a task that is cancelled is unwound before the
coroutine awaiting it goes on. Callbacks for 'connect' may call the sending methods and raise; the
others return. -/
namespace MipClients
namespace Py

open StreamDecoder
open Utf8 (Text)
open Wire (FrameType Emission)

/-- The options the model reads; `auto_reconnect` is the one the client changes. -/
structure Options where
  clientId : Text := []
  autoReconnect : Bool := true
  maxReconnectAttempts : ℕ := 10
  /-- In any unit; 0 is disabled. -/
  pingInterval : ℕ := 0

/-- What asyncio holds of a connection: the frames written, and whether its writer is closed. -/
structure Connection where
  written : List (List UInt8) := []
  closed : Bool := false

/-- Where a live task waits: for its first step, or for the outside world. -/
inductive Wait
  | readLoopStart
  /-- For `read` on the connection. -/
  | reading (connection : ℕ)
  | pingLoopStart
  | pingSleep
  | reconnectStart
  | reconnectSleep
  /-- For `open_connection`, in `reconnect()` or in a call of `connect()` by the user. -/
  | reconnectOpening
  | connectOpening
  | handleCloseStart
  /-- For `drain` and for `wait_closed`, in a call of `disconnect()`. -/
  | disconnectDrain
  | disconnectClosing
  deriving DecidableEq

inductive Status
  | live (wait : Wait)
  | returned
  | raised
  | cancelled
  deriving DecidableEq

inductive Entry
  | connect
  | disconnect
  | reconnecting (attempt : ℕ)
  /-- `_schedule_reconnect` has created the task. -/
  | scheduled (task : ℕ)
  | maxReached
  | error (error : MIPError)
  /-- A callback of `_handle_data`. -/
  | received (e : Emission FrameHeader MIPError)
  /-- The handshake has written HELLO. -/
  | hello (payload : List UInt8) (msgId : ℤ)
  deriving DecidableEq

structure State where
  options : Options
  clientId : Text
  reader : Option ℕ := none
  writer : Option ℕ := none
  buffer : List UInt8 := []
  connected : Bool := false
  reconnectAttempts : ℕ := 0
  reconnectTask : Option ℕ := none
  pingTask : Option ℕ := none
  readTask : Option ℕ := none
  closeTask : Option ℕ := none
  msgIdCounter : ℕ := 0
  running : Bool := false
  /-- The connections made so far are those below `opened`, the tasks those below `nextTask`. -/
  connections : ℕ → Connection := fun _ => {}
  opened : ℕ := 0
  tasks : ℕ → Status := fun _ => .cancelled
  nextTask : ℕ := 0
  /-- The latest entry first. -/
  log : List Entry := []

def init (options : Options) : State where
  options := options
  clientId := options.clientId

inductive SendError
  | notConnected
  | structError

/-- `str(e)`; the text of a struct.error is not modelled: its name stands for it. -/
def SendError.text : SendError → String
  | .notConnected => "Client is not connected"
  | .structError => "struct.error"

def flagsNone : ℕ := 0
def flagsAckRequired : ℕ := 1

/-- `str(msg_id)`. -/
def decimal (n : ℤ) : Text := (toString n).toList

inductive Call
  | subscribe (topic : Text) (requireAck : Bool)
  | unsubscribe (topic : Text) (requireAck : Bool)
  | publish (topic : Text) (message : List UInt8) (flags : ℕ)
  | ping
  | sendRawFrame (frameType : FrameType) (payload : List UInt8) (flags : ℕ)

namespace State

variable (s : State)

def updateConnection (c : ℕ) (f : Connection → Connection) : State :=
  { s with connections := Function.update s.connections c (f (s.connections c)) }

@[simp] theorem updateConnection_self (c : ℕ) (f : Connection → Connection) :
    (s.updateConnection c f).connections c = f (s.connections c) := Function.update_self ..
@[simp] theorem updateConnection_of_ne {c d : ℕ} (h : d ≠ c) (f : Connection → Connection) :
    (s.updateConnection c f).connections d = s.connections d := Function.update_of_ne h ..

/-- `writer.write`; a closed writer drops the bytes. -/
def write (c : ℕ) (bytes : List UInt8) : State :=
  s.updateConnection c fun k => if k.closed then k else { k with written := k.written ++ [bytes] }

def closeWriter (c : ℕ) : State := s.updateConnection c fun k => { k with closed := true }

def setTask (t : ℕ) (status : Status) : State :=
  { s with tasks := Function.update s.tasks t status }

@[simp] theorem setTask_self (t : ℕ) (status : Status) : (s.setTask t status).tasks t = status :=
  Function.update_self ..
@[simp] theorem setTask_of_ne {t u : ℕ} (h : u ≠ t) (status : Status) :
    (s.setTask t status).tasks u = s.tasks u := Function.update_of_ne h ..
@[simp] theorem setTask_options (t : ℕ) (status : Status) :
    (s.setTask t status).options = s.options := rfl
@[simp] theorem setTask_writer (t : ℕ) (status : Status) :
    (s.setTask t status).writer = s.writer := rfl
@[simp] theorem setTask_connections (t : ℕ) (status : Status) :
    (s.setTask t status).connections = s.connections := rfl

/-- `asyncio.create_task`; the new task is `s.nextTask`. -/
def createTask (wait : Wait) : State :=
  { s.setTask s.nextTask (.live wait) with nextTask := s.nextTask + 1 }

def record (e : Entry) : State := { s with log := e :: s.log }

def emitError (error : MIPError) : State := s.record (.error error)

/-! Sending. -/

/-- The clock reads `now` microseconds. -/
def generateMsgId (now : ℤ) : ℤ × State :=
  (now + (s.msgIdCounter + 1),{ s with msgIdCounter := s.msgIdCounter + 1 })

def sendFrame (frameType : FrameType) (payload : List UInt8) (flags : ℕ) (now : ℤ) :
    Except SendError ℤ × State :=
  match s.writer,s.connected with
  | some c,true =>
    match frameBytes frameType.code payload flags (s.generateMsgId now).1 with
    | some bytes => (.ok (s.generateMsgId now).1,(s.generateMsgId now).2.write c bytes)
    | none => (.error .structError,(s.generateMsgId now).2)
  | _,_ => (.error .notConnected,s)

/-- `_send_close` up to `drain`, which it reaches once the frame is written. -/
def sendClose (now : ℤ) : Bool × State :=
  match s.writer,s.connected with
  | some c,true =>
    match buildHeader FrameType.close.code 0 0 (s.generateMsgId now).1 with
    | some header => (true,(s.generateMsgId now).2.write c header)
    | none => (false,(s.generateMsgId now).2)
  | _,_ => (false,s)

def subscribe (topic : Text) (requireAck : Bool) (now : ℤ) : Except SendError ℤ × State :=
  s.sendFrame .subscribe (Utf8.encode topic) (if requireAck then flagsAckRequired else flagsNone)
    now

def unsubscribe (topic : Text) (requireAck : Bool) (now : ℤ) : Except SendError ℤ × State :=
  s.sendFrame .unsubscribe (Utf8.encode topic) (if requireAck then flagsAckRequired else flagsNone)
    now

/-- A message given as a string is encoded by the caller. -/
def publish (topic : Text) (message : List UInt8) (flags : ℕ) (now : ℤ) :
    Except SendError ℤ × State :=
  match pack 2 (Utf8.encode topic).length with
  | some length => s.sendFrame .publish (length ++ Utf8.encode topic ++ message) flags now
  | none => (.error .structError,s)

def ping (now : ℤ) : Except SendError ℤ × State := s.sendFrame .ping [] 0 now

def sendRawFrame (frameType : FrameType) (payload : List UInt8) (flags : ℕ) (now : ℤ) :
    Except SendError ℤ × State :=
  s.sendFrame frameType payload flags now

/-- A call by the user; what it returns or raises is the user's. -/
def call (now : ℤ) : Call → State
  | .subscribe topic requireAck => (s.subscribe topic requireAck now).2
  | .unsubscribe topic requireAck => (s.unsubscribe topic requireAck now).2
  | .publish topic message flags => (s.publish topic message flags now).2
  | .ping => (s.ping now).2
  | .sendRawFrame frameType payload flags => (s.sendRawFrame frameType payload flags now).2

/-- The calls that the callbacks for 'connect' make, with the clock at each. -/
def calls (l : List (Call × ℤ)) : State := l.foldl (fun s c => s.call c.2 c.1) s

/-! Losing the connection. -/

/-- `cancel` the task and await it: only one that has returned lets the code behind go on. The
awaiter is left with CancelledError, or with the exception that ended the task. -/
def cancelAndAwait (task : Option ℕ) (forget : State → State) : Except (State × Status) State :=
  match task with
  | none => .ok s
  | some t =>
    match s.tasks t with
    | .live _ => .error (s.setTask t .cancelled,.cancelled)
    | .returned => .ok (forget s)
    | .raised => .error (s,.raised)
    | .cancelled => .error (s,.cancelled)

def forgetPing : State := { s with pingTask := none }

def forgetRead : State := { s with readTask := none }

def forgetReconnect : State := { s with reconnectTask := none }

def cleanup : Except (State × Status) State := do
  let s ← s.cancelAndAwait s.pingTask forgetPing
  let s ← s.cancelAndAwait s.readTask forgetRead
  s.cancelAndAwait s.reconnectTask forgetReconnect

def maxReachedError : MIPError :=
  { message := "Max reconnection attempts (" ++ toString s.options.maxReconnectAttempts ++
      ") reached" }

def isLive (t : ℕ) : Bool :=
  match s.tasks t with
  | .live _ => true
  | _ => false

def scheduleReconnect : State :=
  if s.reconnectTask.any s.isLive then s
  else if 0 < s.options.maxReconnectAttempts ∧
      s.options.maxReconnectAttempts ≤ s.reconnectAttempts then
    (s.record .maxReached).emitError s.maxReachedError
  else
    let t := { s with reconnectAttempts := s.reconnectAttempts + 1 }.record
      (.reconnecting (s.reconnectAttempts + 1))
    { t.createTask .reconnectStart with reconnectTask := some t.nextTask }.record
      (.scheduled t.nextTask)

/-- `_handle_close`, run by a task that it ends: a close task, or the read loop that raised. -/
def handleClose (runner : ℕ) : State :=
  match { s with connected := false }.cleanup with
  | .error (t,status) => t.setTask runner status
  | .ok t =>
    let t := if s.connected then t.record .disconnect else t
    let t := if t.options.autoReconnect && t.running then t.scheduleReconnect else t
    t.setTask runner .returned

/-! Connecting and disconnecting. -/

def setupPingInterval : State :=
  if 0 < s.options.pingInterval then
    { s.createTask .pingLoopStart with pingTask := some s.nextTask }
  else s

/-- `connect()` once the connection is open, up to the 'connect' callbacks. -/
def establish : State :=
  let t := { s with
    reader := some s.opened
    writer := some s.opened
    connections := Function.update s.connections s.opened {}
    opened := s.opened + 1
    connected := true
    reconnectAttempts := 0
    buffer := [] }
  ({ t.createTask .readLoopStart with readTask := some t.nextTask }.setupPingInterval).record
    .connect

/-- The handshake; the error is what `connect()` raises. -/
def sayHello (now : ℤ) : Option String × State :=
  let payload := Utf8.encode s.clientId
  match s.sendFrame .hello payload flagsNone now with
  | (.ok msgId,s) => (none,{ s with clientId := decimal msgId }.record (.hello payload msgId))
  | (.error err,s) => (some err.text,{ s with connected := false, running := false })

/-- The rest of `connect()`. The callbacks make their calls, and the last of them may raise. -/
def onOpened (connectCalls : List (Call × ℤ)) (raised : Option String) (now : ℤ) :
    Option String × State :=
  let t := s.establish.calls connectCalls
  match raised with
  | some message => (some message,t.emitError { message := message })
  | none =>
    match t.sayHello now with
    | (some message,u) => (some message,u.emitError { message := message })
    | (none,u) => (none,u)

/-- How a task ends after `connect()` has returned or raised in it. -/
def endConnect (t : ℕ) (wait : Wait) (raised : Bool) : State :=
  match wait,raised with
  | .reconnectOpening,true =>
    (if s.options.autoReconnect && s.running then s.scheduleReconnect else s).setTask t .returned
  | _,true => s.setTask t .raised
  | _,false => s.setTask t .returned

/-- `disconnect()` from `self._writer.close()` to `wait_closed`; by now another call may have dropped
the writer. -/
def closeConnection (t : ℕ) : State :=
  match s.writer with
  | some c => (s.closeWriter c).setTask t (.live .disconnectClosing)
  | none => s.setTask t .raised

def stop : State :=
  { s with options := { s.options with autoReconnect := false }, running := false }

/-- A call by the user, which is the task `s.nextTask`; if `_cleanup` raises, so does the call. -/
def disconnect (now : ℤ) : State :=
  match s.stop.cleanup with
  | .error (t,status) => (t.createTask .disconnectDrain).setTask t.nextTask status
  | .ok t =>
    match t.writer with
    | some _ =>
      let r := t.sendClose now
      let u := r.2.createTask .disconnectDrain
      if r.1 then u else u.closeConnection r.2.nextTask
    | none =>
      let u := { t with connected := false }.createTask .disconnectDrain
      u.setTask t.nextTask .returned

def endDisconnect (t : ℕ) : State :=
  { s with writer := none, reader := none, connected := false }.setTask t .returned

/-! Receiving. -/

def react (e : Emission FrameHeader MIPError) : State :=
  let t := s.record (.received e)
  match e with
  | .close => { t.createTask .handleCloseStart with closeTask := some t.nextTask }
  | .error error =>
    match error.code,t.writer with
    | some _,some c => t.closeWriter c
    | _,_ => t
  | _ => t

/-- The `except Exception` of the read loop `t`. -/
def readFailed (t : ℕ) (message : String) : State :=
  (if s.connected then s.emitError { message := message } else s).handleClose t

def readNext (t : ℕ) : State :=
  match s.running,s.reader with
  | true,some c => s.setTask t (.live (.reading c))
  | _,_ => s.setTask t .returned

/-- `_handle_data` in the read loop `t`; `message` is the text of the exception, if it raises. -/
def handleData (t : ℕ) (data : List UInt8) (message : String) : State :=
  let r := StreamDecoder.run framing.decoder (s.buffer ++ data)
  let u := { r.out.foldl State.react s with buffer := r.buffer }
  if r.raised then u.readFailed t message else u.readNext t

end State

inductive Read
  | data (data : List UInt8) (message : String)
  | eof
  | raises (message : String)

inductive Event
  | connectCall
  | disconnectCall (now : ℤ)
  | call (c : Call) (now : ℤ)
  | start (task : ℕ)
  /-- `open_connection` has succeeded or failed. -/
  | opened (task : ℕ) (connectCalls : List (Call × ℤ)) (raised : Option String) (now : ℤ)
  | openFailed (task : ℕ) (message : String)
  | read (task : ℕ) (r : Read)
  | wake (task : ℕ) (now : ℤ)
  /-- `drain` is over, or the connection closed. -/
  | drained (task : ℕ)
  | closed (task : ℕ)

def step (s : State) : Event → Option State
  | .connectCall =>
    some (if s.connected then s else { s with running := true }.createTask .connectOpening)
  | .disconnectCall now => some (s.disconnect now)
  | .call c now => some (s.call now c)
  | .start t =>
    match s.tasks t with
    | .live .readLoopStart => some (s.readNext t)
    | .live .pingLoopStart =>
      some (s.setTask t (if s.connected && s.running then .live .pingSleep else .returned))
    | .live .reconnectStart => some (s.setTask t (.live .reconnectSleep))
    | .live .handleCloseStart => some (s.handleClose t)
    | _ => none
  | .opened t connectCalls raised now =>
    match s.tasks t with
    | .live .reconnectOpening =>
      let u := s.onOpened connectCalls raised now
      some (u.2.endConnect t .reconnectOpening u.1.isSome)
    | .live .connectOpening =>
      let u := s.onOpened connectCalls raised now
      some (u.2.endConnect t .connectOpening u.1.isSome)
    | _ => none
  | .openFailed t message =>
    match s.tasks t with
    | .live .reconnectOpening =>
      some ((s.emitError { message := message }).endConnect t .reconnectOpening true)
    | .live .connectOpening =>
      some ((s.emitError { message := message }).endConnect t .connectOpening true)
    | _ => none
  | .read t r =>
    match s.tasks t with
    | .live (.reading _) =>
      match r with
      | .data data message => some (s.handleData t data message)
      | .eof => some (s.setTask t .returned)
      | .raises message => some (s.readFailed t message)
    | _ => none
  | .wake t now =>
    match s.tasks t with
    | .live .pingSleep =>
      if s.connected then
        match s.ping now with
        | (.ok _,u) =>
          some (u.setTask t (if u.connected && u.running then .live .pingSleep else .returned))
        | (.error _,u) => some (u.setTask t .raised)
      else some (s.setTask t .returned)
    | .live .reconnectSleep =>
      some (if s.connected then s.setTask t .returned
        else { s with running := true }.setTask t (.live .reconnectOpening))
    | _ => none
  | .drained t =>
    match s.tasks t with
    | .live .disconnectDrain => some (s.closeConnection t)
    | _ => none
  | .closed t =>
    match s.tasks t with
    | .live .disconnectClosing => some (s.endDisconnect t)
    | _ => none

end Py
end MipClients
