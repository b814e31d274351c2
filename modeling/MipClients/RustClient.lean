import MipClients.Channel
import MipClients.RustHandleData
import MipClients.RustMsgId

/-! The Rust client as a state machine (`client/mod.rs`, `client/internals.rs`): the calls of
`connect()` and `disconnect()`, any number of callers of the sending methods, and the read, write and
ping tasks of every connection made so far, in any interleaving. A step goes from one access to
something shared to the next. An abort takes effect at an await, at once or later: a task that is
being polled runs on as long as its awaits are ready. -/
namespace MipClients
namespace Rust

open StreamDecoder
open Utf8 (Text)
open Wire (FrameType Emission)

/-- The options the model reads; `auto_reconnect` is the one the client changes. -/
structure MIPClientOptions where
  clientId : Text := []
  autoReconnect : Bool := true
  /-- 0 is no limit. -/
  maxReconnectAttempts : UInt32 := 10
  /-- 0 is disabled. -/
  pingIntervalMs : ℕ := 0

inductive ClientCommand
  | send (data : List UInt8)
  | disconnect
  deriving DecidableEq

inductive Source
  | connect
  | disconnect
  | ping
  | caller (k : ℕ)
  deriving DecidableEq

inductive ReadTask
  | absent
  /-- At the head of its loop, before the load of `running`. -/
  | checking
  | reading
  /-- In `handle_data`, before a pass of its loop and the callbacks of that pass. -/
  | handling
  /-- Before the callbacks for a read error. -/
  | failing
  /-- Behind the loop, before the swap of `connected`; `lost` if the peer ended the connection. -/
  | leaving (lost : Bool)
  | swapped (wasConnected lost : Bool)
  /-- Before the decision to reconnect. -/
  | reported (lost : Bool)
  | sleeping
  | done
  deriving DecidableEq

inductive WriteTask
  | absent
  | receiving
  /-- In `write_all`, with what was last handed to it. -/
  | writing
  /-- Between the Disconnect command and the end of `shutdown`. -/
  | closing
  | ended (failed : Bool)
  deriving DecidableEq

inductive PingTask
  | absent
  | ticking
  /-- Between the load of `connected` and that of `running`. -/
  | connectedSeen
  | checked
  | sending (frame : List UInt8)
  | ended
  deriving DecidableEq

/-- A connection: its command channel, its tasks, what has been written to it, and the buffer and
callbacks of its read task. -/
structure Connection where
  commands : Channel (Source × ClientCommand) 100 := .empty
  read : ReadTask := .absent
  readAborted : Bool := false
  write : WriteTask := .absent
  /-- What has been handed to `write_all`, with who put it into the channel. -/
  written : List (Source × List UInt8) := []
  ping : PingTask := .absent
  pingAborted : Bool := false
  buffer : List UInt8 := []
  emitted : List (Emission Header MIPError) := []

inductive Owner
  | idle
  | opening
  | storing (c : ℕ)
  | stored (c : ℕ)
  | readSpawned (c : ℕ)
  | writeSpawned (c : ℕ)
  | pingSpawned (c : ℕ)
  /-- Before the load of `connected` in the `send_frame` of HELLO. -/
  | hello (c : ℕ)
  | helloChecked (c : ℕ)
  | helloBuilt (c : ℕ) (msgId : UInt64) (frame : List UInt8)
  | helloFailed
  | helloCleared
  /-- In `disconnect()`, before the store to `running`. -/
  | stopping
  | stopped
  | closeChecked (c : ℕ)
  | sendingClose (c : ℕ) (frame : List UInt8)
  | sendingDisconnect (c : ℕ)
  | cleaning
  /-- For the write task to end, or 500 ms to pass. -/
  | awaitingWrite
  | abortingRead
  | clearing
  | dropping
  | dropped
  deriving DecidableEq

inductive Call
  | subscribe (topic : Text) (requireAck : Bool)
  | unsubscribe (topic : Text) (requireAck : Bool)
  | publish (topic message : Text) (flags : FrameFlags)
  | ping
  | sendRawFrame (frameType : FrameType) (payload : List UInt8) (flags : FrameFlags)
  deriving DecidableEq

/-- The topic's length goes into the payload as a `u16`. -/
def publishPayload (topic message : Text) : List UInt8 :=
  BigEndian.bytes 2 ((Utf8.encode topic).length % 2 ^ 16) ++ Utf8.encode topic ++
    Utf8.encode message

def Call.frame : Call → FrameType × List UInt8 × FrameFlags
  | .subscribe topic requireAck =>
    (.subscribe,Utf8.encode topic,if requireAck then FrameFlags.ackRequired else FrameFlags.none)
  | .unsubscribe topic requireAck =>
    (.unsubscribe,Utf8.encode topic,if requireAck then FrameFlags.ackRequired else FrameFlags.none)
  | .publish topic message flags => (.publish,publishPayload topic message,flags)
  | .ping => (.ping,[],FrameFlags.none)
  | .sendRawFrame frameType payload flags => (frameType,payload,flags)

def Call.bytes (call : Call) (msgId : UInt64) : List UInt8 :=
  frameBytes call.frame.1 call.frame.2.1 call.frame.2.2 msgId

inductive Caller
  | idle
  | checked (call : Call) (c : ℕ)
  | idTaken (call : Call) (c : ℕ) (msgId : UInt64)
  deriving DecidableEq

/-- What a sending method returned: the id, on the connection that the frame went to, or
`NotConnected`. -/
inductive Outcome
  | ok (c : ℕ) (msgId : UInt64)
  | notConnected
  deriving DecidableEq

inductive Entry
  /-- `connect()` has stored `connected = true` for the connection. -/
  | stored (c : ℕ)
  /-- `disconnect()` has cleared `auto_reconnect`. -/
  | disconnectCall
  /-- The read task of the connection has changed `connected` to false. -/
  | cleared (c : ℕ)
  /-- The ping task of the connection has passed its check. -/
  | pingPassed (c : ℕ)
  /-- It has taken a message id. -/
  | pingId (c : ℕ)
  | onConnect (c : ℕ)
  | onDisconnect (c : ℕ)
  | onReconnecting (c : ℕ) (attempt : UInt32)
  | onError (c : ℕ) (error : MIPError)
  deriving DecidableEq

structure State where
  options : MIPClientOptions
  clientId : Text
  connected : Bool := false
  running : Bool := false
  msgIdCounter : ℕ := 0
  reconnectAttempts : ℕ := 0
  commandTx : Option ℕ := none
  readTask : Option ℕ := none
  writeTask : Option ℕ := none
  pingTask : Option ℕ := none
  /-- The connections made so far are those below `opened`. -/
  connections : ℕ → Connection := fun _ => {}
  opened : ℕ := 0
  owner : Owner := .idle
  callers : ℕ → Caller := fun _ => .idle
  /-- What the methods have returned to each caller. -/
  returned : ℕ → List (Call × Outcome) := fun _ => []
  /-- The latest entry first. -/
  log : List Entry := []

def init (options : MIPClientOptions) : State where
  options := options
  clientId := options.clientId

/-- The receiver of the channel has been dropped. -/
def Connection.closed (k : Connection) : Bool :=
  match k.write with
  | .ended _ => true
  | _ => false

/-- `try_send`; `none` when the channel is full or closed. -/
def Connection.trySend (k : Connection) (x : Source × ClientCommand) : Option Connection :=
  if k.closed then none else (k.commands.send x).map fun ch => { k with commands := ch }

/-- `send`, whose error is ignored; `none` while the channel is full. -/
def Connection.send (k : Connection) (x : Source × ClientCommand) : Option Connection :=
  if k.closed then some k else (k.commands.send x).map fun ch => { k with commands := ch }

def Connection.writeAll (k : Connection) (source : Source) (data : List UInt8) : Connection :=
  { k with write := .writing, written := k.written ++ [(source,data)] }

@[simp] theorem Connection.writeAll_commands (k : Connection) (source : Source)
    (data : List UInt8) : (k.writeAll source data).commands = k.commands := rfl
@[simp] theorem Connection.writeAll_write (k : Connection) (source : Source)
    (data : List UInt8) : (k.writeAll source data).write = .writing := rfl
@[simp] theorem Connection.writeAll_written (k : Connection) (source : Source)
    (data : List UInt8) : (k.writeAll source data).written = k.written ++ [(source,data)] := rfl
@[simp] theorem Connection.writeAll_ping (k : Connection) (source : Source)
    (data : List UInt8) : (k.writeAll source data).ping = k.ping := rfl

namespace State

variable (s : State)

def setConnection (c : ℕ) (k : Connection) : State :=
  { s with connections := Function.update s.connections c k }

@[simp] theorem setConnection_self (c : ℕ) (k : Connection) :
    (s.setConnection c k).connections c = k := Function.update_self ..
@[simp] theorem setConnection_of_ne {c d : ℕ} (h : d ≠ c) (k : Connection) :
    (s.setConnection c k).connections d = s.connections d := Function.update_of_ne h ..
@[simp] theorem setConnection_log (c : ℕ) (k : Connection) :
    (s.setConnection c k).log = s.log := rfl

def record (e : Entry) : State := { s with log := e :: s.log }

@[simp] theorem record_connections (e : Entry) : (s.record e).connections = s.connections := rfl
@[simp] theorem record_log (e : Entry) : (s.record e).log = e :: s.log := rfl

def go (owner : Owner) : State := { s with owner := owner }

@[simp] theorem go_connections (owner : Owner) : (s.go owner).connections = s.connections := rfl
@[simp] theorem go_owner (owner : Owner) : (s.go owner).owner = owner := rfl

/-- The clock reads `now` microseconds. -/
def generateMsgId (now : ℕ) : UInt64 × State :=
  (UInt64.ofNat (MsgId.Call.msgId ⟨s.msgIdCounter,now⟩),{ s with msgIdCounter := s.msgIdCounter + 1 })

/-- The checks of `send_frame`. -/
def sender : Option ℕ := if s.connected then s.commandTx else none

/-! `connect()` and `disconnect()`. -/

/-- Up to `TcpStream::connect`. -/
def connect : State :=
  if s.connected then s else { s with running := true }.go .opening

/-- Up to the store to `connected`. -/
def onTcpConnected : State :=
  { s with commandTx := some s.opened, opened := s.opened + 1 }.go (.storing s.opened)

def spawnReadTask (c : ℕ) : State :=
  { s.setConnection c { s.connections c with read := .checking } with readTask := some c }

def spawnWriteTask (c : ℕ) : State :=
  { s.setConnection c { s.connections c with write := .receiving } with writeTask := some c }

def spawnPingTask (c : ℕ) : State :=
  if s.options.pingIntervalMs = 0 then { s with pingTask := none }
  else { s.setConnection c { s.connections c with ping := .ticking } with pingTask := some c }

/-- `abort` on the ping task that the client holds. -/
def abortPing : State :=
  match s.pingTask with
  | some c => { s.setConnection c { s.connections c with pingAborted := true } with
      pingTask := none }
  | none => s

def abortRead : State :=
  match s.readTask with
  | some c => { s.setConnection c { s.connections c with readAborted := true } with
      readTask := none }
  | none => s

/-- `cleanup_tasks` need not wait, or need not wait any longer, for the write task. -/
def writeTaskOver : Bool := s.writeTask.all fun c => (s.connections c).closed

/-- The next step of the call that is under way; a message id takes the clock at `now`. -/
def advance (now : ℕ) : Option State :=
  match s.owner with
  | .idle | .opening | .dropped => none
  | .storing c => some ({ s with connected := true }.record (.stored c) |>.go (.stored c))
  | .stored c => some ({ s with reconnectAttempts := 0 }.spawnReadTask c |>.go (.readSpawned c))
  | .readSpawned c => some (s.spawnWriteTask c |>.go (.writeSpawned c))
  | .writeSpawned c => some (s.spawnPingTask c |>.go (.pingSpawned c))
  | .pingSpawned c => some (s.record (.onConnect c) |>.go (.hello c))
  | .hello c => some (s.go (if s.connected then .helloChecked c else .helloFailed))
  | .helloChecked c =>
    let (msgId,t) := s.generateMsgId now
    some (t.go (.helloBuilt c msgId
      (frameBytes .hello (Utf8.encode s.options.clientId) FrameFlags.none msgId)))
  | .helloBuilt c msgId frame =>
    match (s.connections c).trySend (.connect,.send frame) with
    | some k => some ({ s.setConnection c k with
        clientId := (toString msgId).toList }.go .idle)
    | none => some (s.go .helloFailed)
  | .helloFailed => some ({ s with connected := false }.go .helloCleared)
  | .helloCleared => some ({ s with running := false }.go .idle)
  | .stopping => some ({ s with running := false }.go .stopped)
  | .stopped => some (s.go (match s.commandTx with
    | none => .cleaning
    | some c => if s.connected then .closeChecked c else .sendingDisconnect c))
  | .closeChecked c =>
    let (msgId,t) := s.generateMsgId now
    some (t.go (.sendingClose c (buildHeader .close 0 FrameFlags.none msgId).encode))
  | .sendingClose c frame =>
    ((s.connections c).send (.disconnect,.send frame)).map fun k =>
      (s.setConnection c k).go (.sendingDisconnect c)
  | .sendingDisconnect c =>
    ((s.connections c).send (.disconnect,.disconnect)).map fun k =>
      (s.setConnection c k).go .cleaning
  | .cleaning => some (s.abortPing.go .awaitingWrite)
  | .awaitingWrite =>
    if s.writeTaskOver then some ({ s with writeTask := none }.go .abortingRead) else none
  | .abortingRead => some (s.abortRead.go .clearing)
  | .clearing => some ({ s with connected := false }.go .dropping)
  | .dropping => some ({ s with commandTx := none }.go .idle)

/-! The sending methods. -/

def finishCall (k : ℕ) (call : Call) (outcome : Outcome) : State :=
  { s with
    callers := Function.update s.callers k .idle
    returned := Function.update s.returned k (s.returned k ++ [(call,outcome)]) }

@[simp] theorem finishCall_callers_self (k : ℕ) (call : Call) (outcome : Outcome) :
    (s.finishCall k call outcome).callers k = .idle := Function.update_self ..
@[simp] theorem finishCall_callers_of_ne {j k : ℕ} (h : j ≠ k) (call : Call) (outcome : Outcome) :
    (s.finishCall k call outcome).callers j = s.callers j := Function.update_of_ne h ..
@[simp] theorem finishCall_returned_self (k : ℕ) (call : Call) (outcome : Outcome) :
    (s.finishCall k call outcome).returned k = s.returned k ++ [(call,outcome)] :=
  Function.update_self ..
@[simp] theorem finishCall_returned_of_ne {j k : ℕ} (h : j ≠ k) (call : Call) (outcome : Outcome) :
    (s.finishCall k call outcome).returned j = s.returned j := Function.update_of_ne h ..
@[simp] theorem finishCall_connections (k : ℕ) (call : Call) (outcome : Outcome) :
    (s.finishCall k call outcome).connections = s.connections := rfl

def setCaller (k : ℕ) (caller : Caller) : State :=
  { s with callers := Function.update s.callers k caller }

@[simp] theorem setCaller_self (k : ℕ) (caller : Caller) :
    (s.setCaller k caller).callers k = caller := Function.update_self ..
@[simp] theorem setCaller_of_ne {j k : ℕ} (h : j ≠ k) (caller : Caller) :
    (s.setCaller k caller).callers j = s.callers j := Function.update_of_ne h ..
@[simp] theorem setCaller_returned (k : ℕ) (caller : Caller) :
    (s.setCaller k caller).returned = s.returned := rfl

def startCall (k : ℕ) (call : Call) : State :=
  match s.sender with
  | some c => s.setCaller k (.checked call c)
  | none => s.finishCall k call .notConnected

def sendFrame (k now : ℕ) : Option State :=
  match s.callers k with
  | .idle => none
  | .checked call c =>
    let (msgId,t) := s.generateMsgId now
    some (t.setCaller k (.idTaken call c msgId))
  | .idTaken call c msgId =>
    match (s.connections c).trySend (.caller k,.send (call.bytes msgId)) with
    | some connection => some ((s.setConnection c connection).finishCall k call (.ok c msgId))
    | none => some (s.finishCall k call .notConnected)

/-! The tasks. -/

def setRead (c : ℕ) (read : ReadTask) : State :=
  s.setConnection c { s.connections c with read := read }

def setWrite (c : ℕ) (write : WriteTask) : State :=
  s.setConnection c { s.connections c with write := write }

def setPing (c : ℕ) (ping : PingTask) : State :=
  s.setConnection c { s.connections c with ping := ping }

@[simp] theorem setRead_self (c : ℕ) (read : ReadTask) :
    (s.setRead c read).connections c = { s.connections c with read := read } :=
  s.setConnection_self c _
@[simp] theorem setRead_log (c : ℕ) (read : ReadTask) : (s.setRead c read).log = s.log := rfl
@[simp] theorem setPing_log (c : ℕ) (ping : PingTask) : (s.setPing c ping).log = s.log := rfl
@[simp] theorem setPing_self (c : ℕ) (ping : PingTask) :
    (s.setPing c ping).connections c = { s.connections c with ping := ping } :=
  s.setConnection_self c _

/-- The decision to reconnect. The read lock on the options keeps `disconnect()` out until the
callbacks have been called; all that follows them is a sleep. -/
def scheduleReconnect (c : ℕ) : State :=
  if s.options.autoReconnect && s.running then
    let attempt := UInt32.ofNat s.reconnectAttempts + 1
    let t := { s with reconnectAttempts := s.reconnectAttempts + 1 }
    if s.options.maxReconnectAttempts = 0 ∨ attempt ≤ s.options.maxReconnectAttempts then
      (t.record (.onReconnecting c attempt)).setRead c .sleeping
    else (t.record (.onError c (.maxReconnectAttempts s.options.maxReconnectAttempts))).setRead c .done
  else s.setRead c .done

def receive (c : ℕ) (data : List UInt8) : State :=
  s.setConnection c { s.connections c with
    buffer := (s.connections c).buffer ++ data
    read := .handling }

/-- A pass of `handle_data` calls back and leaves the rest in the buffer. -/
def handle (c : ℕ) (out : List (Emission Header MIPError)) (rest : List UInt8) (read : ReadTask) :
    State :=
  s.setConnection c { s.connections c with
    buffer := rest
    emitted := (s.connections c).emitted ++ out
    read := read }

@[simp] theorem receive_self (c : ℕ) (data : List UInt8) : (s.receive c data).connections c =
    { s.connections c with buffer := (s.connections c).buffer ++ data, read := .handling } :=
  s.setConnection_self c _
@[simp] theorem handle_self (c : ℕ) (out : List (Emission Header MIPError)) (rest : List UInt8)
    (read : ReadTask) : (s.handle c out rest read).connections c =
    { s.connections c with
      buffer := rest
      emitted := (s.connections c).emitted ++ out
      read := read } := s.setConnection_self c _

/-- The next step of a read task that does not wait for data. The callbacks of a pass of
`handle_data` come behind an await of their lock. -/
def readStep (c : ℕ) : Option State :=
  match (s.connections c).read with
  | .absent | .reading | .done => none
  | .checking => some (s.setRead c (if s.running then .reading else .leaving false))
  | .handling =>
    -- the source takes a frame off the buffer before it waits for the lock; only this task sees it
    match framing.decoder.pass (s.connections c).buffer with
    | .wait => some (s.setRead c .checking)
    | .deliver out rest => some (s.handle c out rest .handling)
    | .stop out rest => some (s.handle c out rest .checking)
    | .fail out => some (s.handle c out (s.connections c).buffer .done)
  | .failing => some ((s.record (.onError c .io)).setRead c (.leaving true))
  | .leaving lost =>
    some ((if s.connected then { s with connected := false }.record (.cleared c) else s).setRead c
      (.swapped s.connected lost))
  | .swapped wasConnected lost =>
    some ((if wasConnected then s.record (.onDisconnect c) else s).setRead c (.reported lost))
  | .reported _ => some (s.scheduleReconnect c)
  | .sleeping => some (s.setRead c .done)

/-- No one can send any more. A method that is being called borrows the client's own sender. -/
def hungUp (c : ℕ) : Bool :=
  s.commandTx ≠ some c &&
    match (s.connections c).ping with
    | .absent | .ended => true
    | _ => false

/-- The next command for a write task, or none for ever. -/
def recvCommand (c : ℕ) : Option State :=
  match (s.connections c).commands.recv with
  | some ((source,.send data),ch) => some (s.setConnection c
      ({ s.connections c with commands := ch }.writeAll source data))
  | some ((_,.disconnect),ch) => some (s.setConnection c { s.connections c with
      commands := ch
      write := .closing })
  | none => if s.hungUp c then some (s.setWrite c (.ended false)) else none

/-- The next step of a ping task that does not wait for its interval. -/
def pingStep (c now : ℕ) : Option State :=
  match (s.connections c).ping with
  | .absent | .ticking | .ended => none
  | .connectedSeen =>
    some (if s.running then (s.record (.pingPassed c)).setPing c .checked else s.setPing c .ended)
  | .checked =>
    let (msgId,t) := s.generateMsgId now
    some ((t.record (.pingId c)).setPing c
      (.sending (buildHeader .ping 0 FrameFlags.none msgId).encode))
  | .sending frame =>
    ((s.connections c).send (.ping,.send frame)).map fun k =>
      s.setConnection c { k with ping := .ticking }

end State

inductive Read
  | data (data : List UInt8)
  | eof
  | error
  deriving DecidableEq

/-- An abort can end the read task here: it is at an await, or it has not begun. -/
def ReadTask.awaits : ReadTask → Bool
  | .checking | .reading | .handling | .failing | .swapped true _ | .reported _ | .sleeping => true
  | _ => false

def PingTask.awaits : PingTask → Bool
  | .ticking | .sending _ => true
  | _ => false

inductive Event
  | connectCall
  | disconnectCall
  | tcpConnected
  | tcpFailed
  | drop
  | advance (now : ℕ)
  | timeout
  | call (k : ℕ) (call : Call)
  | sendFrame (k now : ℕ)
  | read (c : ℕ) (r : Read)
  | readStep (c : ℕ)
  | readCancelled (c : ℕ)
  | recv (c : ℕ)
  | written (c : ℕ)
  | writeFailed (c : ℕ)
  | shutdown (c : ℕ)
  | tick (c : ℕ)
  | pingStep (c now : ℕ)
  | pingCancelled (c : ℕ)
  deriving DecidableEq

def step (s : State) : Event → Option State
  | .connectCall => if s.owner = .idle then some s.connect else none
  | .disconnectCall =>
    if s.owner = .idle then
      some ({ s with options := { s.options with autoReconnect := false } }.record
        .disconnectCall |>.go .stopping)
    else none
  | .tcpConnected => if s.owner = .opening then some s.onTcpConnected else none
  | .tcpFailed => if s.owner = .opening then some (s.go .idle) else none
  | .drop =>
    if s.owner = .idle then some ({ s with running := false, commandTx := none }.go .dropped)
    else none
  | .advance now => s.advance now
  | .timeout =>
    if s.owner = .awaitingWrite then some ({ s with writeTask := none }.go .abortingRead) else none
  | .call k call => if s.callers k = .idle then some (s.startCall k call) else none
  | .sendFrame k now => s.sendFrame k now
  | .read c r =>
    if (s.connections c).read = .reading then
      match r with
      | .data data =>
        -- into a buffer of 4096 bytes; a read of 0 bytes is the end
        if 0 < data.length ∧ data.length ≤ 4096 then
          some (s.receive c data)
        else none
      | .eof => some (s.setRead c (.leaving true))
      | .error => some (s.setRead c .failing)
    else none
  | .readStep c => s.readStep c
  | .readCancelled c =>
    if (s.connections c).readAborted && (s.connections c).read.awaits then
      some (s.setRead c .done)
    else none
  | .recv c => if (s.connections c).write = .receiving then s.recvCommand c else none
  | .written c =>
    if (s.connections c).write = .writing then some (s.setWrite c .receiving) else none
  | .writeFailed c =>
    if (s.connections c).write = .writing then some (s.setWrite c (.ended true)) else none
  | .shutdown c =>
    if (s.connections c).write = .closing then some (s.setWrite c (.ended false)) else none
  | .tick c =>
    if (s.connections c).ping = .ticking then
      some (s.setPing c (if s.connected then .connectedSeen else .ended))
    else none
  | .pingStep c now => s.pingStep c now
  | .pingCancelled c =>
    if (s.connections c).pingAborted && (s.connections c).ping.awaits then
      some (s.setPing c .ended)
    else none

def connectRun : List Event := [.connectCall,.tcpConnected] ++ List.replicate 8 (.advance 5)

end Rust
end MipClients
